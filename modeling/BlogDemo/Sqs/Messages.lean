/-
  File:      BlogDemo/Sqs/Messages.lean
  Subject:   A MESSAGE FROM `POST /messages` TO THE HANDLER: the controller, the producer that writes
             the body as a text, the queue, and the consumer that reads the text back.

  * `send_spec` -- an accepted post puts one message on the queue;
  * `safeParse_messageBody` -- when the consumer reads what the producer was given;
  * **`faithful_iff`** -- the message is the one that was posted if and only if its body is told
    from the text of another one, and selects by itself the handler of the type that is given.
-/
import BlogDemo.Lib.JsonText
import BlogDemo.Lib.Js

namespace Sqs

open Js (Error)
open Utf16 Ecma JsonText

/-! ## 1. The producer -/

structure SqsSendOptions where
  type : Option Value
  delaySeconds : Option Value
  groupId : Option Value
  deduplicationId : Option Value
  messageAttributes : Option Value

structure SendMessageCommand where
  queueUrl : Text
  messageBody : Option Text
  delaySeconds : Value
  messageGroupId : Option Value
  messageDeduplicationId : Option Value
  messageAttributes : Option Value

/-- A message of the queue. -/
structure Message where
  body : Option Text
  messageAttributes : Option Value

/-- The service: the id of the message it takes, or the error it rejects the command with. -/
abbrev Client := SendMessageCommand → Except Error (Option Text)

/-- The message a command becomes: its body is delivered as it is. -/
def SendMessageCommand.message (cmd : SendMessageCommand) : Message :=
  ⟨cmd.messageBody, cmd.messageAttributes⟩

/-- `value ?? other` -/
def orElse (v : Option Value) (other : Value) : Value :=
  match v with
  | none => other
  | some .null => other
  | some v => v

/-- `typeof body === 'string' ? body : JSON.stringify(body)` -/
def messageBody : Option Value → Option Text
  | none => none
  | some (.str s) => some s
  | some v => some (stringify v)

def SqsProducerService.command (queueUrl : Text) (body : Option Value)
    (options : SqsSendOptions) : SendMessageCommand where
  queueUrl := queueUrl
  messageBody := messageBody body
  delaySeconds := orElse options.delaySeconds (.num (Number.ofDecimal false 0 0))
  messageGroupId := options.groupId
  messageDeduplicationId := options.deduplicationId
  messageAttributes := options.messageAttributes

/-- What is returned, and the queue afterwards. -/
def SqsProducerService.send (client : Client) (queueUrl : Text) (body : Option Value)
    (options : SqsSendOptions) (queue : List Message) :
    Except Error (Option Text × List Message) := do
  let cmd := command queueUrl body options
  let id ← client cmd
  return (id, queue ++ [cmd.message])

/-- `POST /messages`. The type of the dto is not among the options. -/
def MessagesController.send (client : Client) (queueUrl : Text) (dto : Value)
    (queue : List Message) : Except Error (Option Text × List Message) :=
  match dto with
  | .null => .error ⟨"TypeError", "Cannot read properties of null (reading 'body')"⟩
  | dto =>
    SqsProducerService.send client queueUrl (get? (some dto) (text "body"))
      { type := none
        delaySeconds := get? (some dto) (text "delaySeconds")
        groupId := get? (some dto) (text "groupId")
        deduplicationId := get? (some dto) (text "deduplicationId")
        messageAttributes := none }
      queue

/-! ## 2. The consumer -/

/-- A text that is there and not empty: what `JSON.parse` makes of it, else the text. -/
def safeParse : Option Text → Option Value
  | none => none
  | some raw =>
    if raw = [] then none
    else
      match parseValue raw with
      | some v => some v
      | none => some (.str raw)

/-- The same of any value; `JSON.parse` takes its text. -/
def jsonParse (raw : Option Value) : Option Value :=
  match raw with
  | none => none
  | some v =>
    if truthy raw then
      match v.toText.bind parseValue with
      | some w => some w
      | none => raw
    else none

/-- `parsedPayloadBody?.type || payload?.type` -/
def typeOf (payload : Option Value) : Option Value :=
  let parsedPayloadBody := jsonParse (get? payload (text "Message"))
  let type := get? parsedPayloadBody (text "type")
  if truthy type then type else get? payload (text "type")

/-- The cases of the switch. -/
inductive Handler where
  | orderCreated
  | testError
  | default
  deriving DecidableEq, Repr

def handlerOf : Option Value → Handler
  | some (.str s) =>
    if s = text "order.created" then .orderCreated
    else if s = text "throw.error" then .testError
    else .default
  | _ => .default

/-- A line of the log. -/
inductive Log where
  | log (message : String) (payload sqsMessageAttributes : Option Value)
  | error (message : String)

/-- The lines of the log and whether the message was handled. -/
def dispatch (payload sqsMessageAttributes : Option Value) : List Log × Bool :=
  match handlerOf (typeOf payload) with
  | .orderCreated => ([.log "[order.created]" payload sqsMessageAttributes], true)
  | .testError => ([.error ("dispatch error: " ++ "Test error")], false)
  | .default => ([.log "[message]" payload sqsMessageAttributes], true)

/-- The message, as it is received for the n-th time. -/
def handleMessage (message : Message) (approximateReceiveCount : String) :
    List Log × Except Error Unit :=
  let (log, ok) := dispatch (safeParse message.body) message.messageAttributes
  if ok then (log, .ok ())
  else
    (log, .error
      ⟨"Error", "Message handling failed (ReceiveCount: " ++ approximateReceiveCount ++ ")"⟩)

/-- The case a message is dispatched to. -/
def Message.handler (m : Message) : Handler := handlerOf (typeOf (safeParse m.body))

/-- A message is handled, and so taken off the queue, unless its case is the one that throws. -/
theorem handleMessage_ok_iff (m : Message) (approximateReceiveCount : String) :
    (handleMessage m approximateReceiveCount).2 = .ok () ↔ m.handler ≠ .testError := by
  unfold handleMessage dispatch Message.handler
  cases handlerOf (typeOf (safeParse m.body)) with
  | orderCreated => exact ⟨fun _ => nofun, fun _ => rfl⟩
  | testError => exact ⟨nofun, fun h => absurd rfl h⟩
  | default => exact ⟨fun _ => nofun, fun _ => rfl⟩

/-! ## 3. From the post to the handler -/

/-- The message is the one that was posted: its payload is the body of the dto, and where a type
    is given it is dispatched to the handler of that type. -/
structure Faithful (dto : Value) (m : Message) : Prop where
  payload : safeParse m.body = get? (some dto) (text "body")
  handler : ∀ t, get? (some dto) (text "type") = some t → m.handler = handlerOf (some t)

/-- A post that is accepted puts one message on the queue, and it is faithful. -/
def EndToEnd (client : Client) (queueUrl : Text) (dto : Value) : Prop :=
  ∀ queue id queue', MessagesController.send client queueUrl dto queue = .ok (id, queue') →
    ∃ m, queue' = queue ++ [m] ∧ Faithful dto m

/-- The consumer can tell the body from its text: a string is no JSON text and not empty, any
    other value has no infinity in it. -/
def Readable : Option Value → Prop
  | none => True
  | some (.str s) => s ≠ [] ∧ parseValue s = none
  | some v => v.finite = true

/-- The type that the body carries itself selects the same handler as the one that is given. -/
def SelectsType (dto : Value) : Prop :=
  ∀ t, get? (some dto) (text "type") = some t →
    handlerOf (typeOf (get? (some dto) (text "body"))) = handlerOf (some t)

/-- **An accepted post** puts one message on the queue, with the text of the body. -/
theorem send_spec {client : Client} {queueUrl : Text} {dto : Value} {queue queue' : List Message}
    {id : Option Text}
    (h : MessagesController.send client queueUrl dto queue = .ok (id, queue')) :
    ∃ m, queue' = queue ++ [m] ∧ m.body = messageBody (get? (some dto) (text "body")) := by
  unfold MessagesController.send at h
  split at h
  · cases h
  · simp only [SqsProducerService.send, bind, Except.bind] at h
    split at h
    · cases h
    · cases h
      exact ⟨_, rfl, rfl⟩

theorem safeParse_stringify {v : Value} (h : v.Canonical) :
    safeParse (some (stringify v)) = some v ↔ v.finite = true := by
  obtain ⟨c, cs, htext, -⟩ := stringify_head v
  have hne : stringify v ≠ [] := by
    rw [htext]
    exact List.cons_ne_nil c cs
  simp only [safeParse, if_neg hne, parse_stringify h, Option.some.injEq, printed_eq_iff]

theorem safeParse_str (s : Text) :
    safeParse (some s) = some (.str s) ↔ s ≠ [] ∧ parseValue s = none := by
  by_cases hs : s = []
  · simp [safeParse, hs]
  · cases hparse : parseValue s with
    | none => simp [safeParse, hs, hparse]
    | some v =>
        -- a text is never the string that it is read as
        have hne : v ≠ .str s := fun hv => parse_ne_str s (hv ▸ hparse)
        simp [safeParse, hs, hparse, hne]

/-- **The consumer reads the body the producer was given** exactly when it is readable. -/
theorem safeParse_messageBody (body : Option Value) (h : ∀ v ∈ body, v.Canonical) :
    safeParse (messageBody body) = body ↔ Readable body := by
  cases body with
  | none => simp [messageBody, safeParse, Readable]
  | some v =>
      have hv := h v rfl
      cases v with
      | str s => exact safeParse_str s
      | null => exact safeParse_stringify hv
      | bool b => exact safeParse_stringify hv
      | num x => exact safeParse_stringify hv
      | arr xs => exact safeParse_stringify hv
      | obj fields => exact safeParse_stringify hv

/-- **An accepted post is faithful if and only if** its body is readable and selects by itself the
    handler of the type that is given. -/
theorem faithful_iff (client : Client) (queueUrl : Text) (dto : Json)
    {queue queue' : List Message} {id : Option Text}
    (h : MessagesController.send client queueUrl dto.value queue = .ok (id, queue')) :
    (∃ m, queue' = queue ++ [m] ∧ Faithful dto.value m) ↔
      Readable (get? (some dto.value) (text "body")) ∧ SelectsType dto.value := by
  obtain ⟨m, hqueue, hbody⟩ := send_spec h
  have hread := safeParse_messageBody (get? (some dto.value) (text "body"))
    fun v hv => get?_canonical dto.canonical hv
  rw [← hbody] at hread
  constructor
  · intro h'
    obtain ⟨m', hqueue', hfaithful⟩ := h'
    have hm : m = m' := by
      rw [hqueue] at hqueue'
      exact List.singleton_inj.mp (List.append_cancel_left hqueue')
    subst hm
    refine ⟨hread.mp hfaithful.payload, fun t ht => ?_⟩
    rw [← hfaithful.payload]
    exact hfaithful.handler t ht
  · intro h'
    obtain ⟨hreadable, hselects⟩ := h'
    have hpayload := hread.mpr hreadable
    refine ⟨m, hqueue, hpayload, fun t ht => ?_⟩
    rw [Message.handler, hpayload]
    exact hselects t ht

/-- A service that takes every command. -/
def accepting : Client := fun _ => .ok (some (text "m-1"))

/-- An order that carries its type itself. -/
def tagged : Json where
  value := .obj
    [(text "body", .obj [(text "type", .str (text "order.created"))]),
      (text "type", .str (text "order.created"))]
  canonical := ⟨by simp [InOrder]; decide, ⟨by simp, trivial, trivial⟩, trivial, trivial⟩

/-- The message of this post. -/
def taggedMessage : Message := ⟨messageBody (get? (some tagged.value) (text "body")), none⟩

theorem faithful_iff_tagged :
    ∃ m, [taggedMessage] = [] ++ [m] ∧ Faithful tagged.value m := by
  have hsent : MessagesController.send accepting [] tagged.value [] =
      .ok (some (text "m-1"), [taggedMessage]) := rfl
  refine (faithful_iff accepting [] tagged hsent).mpr ⟨rfl, fun t ht => ?_⟩
  have htype : t = .str (text "order.created") := (Option.some.inj ht).symm
  rw [htype]
  rfl

/-! ## 4. Where it is not faithful -/

/-- A string that is the text of a number. -/
def quotedNumber : Json where
  value := .obj [(text "body", .str (text "5"))]
  canonical := ⟨by simp, trivial, trivial⟩

/-- An order whose type stands beside it. -/
def order : Json where
  value := .obj
    [(text "body", .obj [(text "orderId", .str (text "7"))]),
      (text "type", .str (text "order.created"))]
  canonical := ⟨by simp [InOrder]; decide, ⟨by simp, trivial, trivial⟩, trivial, trivial⟩

/-- **Not every post is faithful**: the string `"5"` arrives as the number, and the type beside an
    order is lost on the way. -/
theorem posts_not_faithful :
    ¬ EndToEnd accepting [] quotedNumber.value ∧ ¬ EndToEnd accepting [] order.value := by
  constructor
  · intro h
    obtain ⟨m, hqueue, hpayload, -⟩ := h [] _ _ rfl
    have hnone : parseValue (text "5") = none := by
      rw [← List.singleton_inj.mp hqueue] at hpayload
      exact ((safeParse_str _).mp hpayload).2
    have hsome : (parseValue (text "5")).isSome = true := rfl
    rw [hnone] at hsome
    cases hsome
  · intro h
    obtain ⟨m, hqueue, -, hhandler⟩ := h [] _ _ rfl
    have htype := hhandler _ rfl
    rw [← List.singleton_inj.mp hqueue] at htype
    exact absurd htype (by decide +kernel)

end Sqs
