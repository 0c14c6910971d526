/-
  File:      BlogDemo/Sqs/Delivery.lean
  Subject:   TWO WAYS TO THE CONSUMER: an event that is sent to the queue itself, and the same event in
             the notification that SNS puts on the queue.

  The consumer does not ask which of the two it has: it takes the type of what `Message` holds, in
  JSON or as it is, and that of the payload when there is none.

  * `handler_direct`, `handler_notified` -- the case an event is dispatched to, either way;
  * **`alike_iff`** -- it is the same, and so is the acknowledgement, if and only if the type that the
    event's own `Message` holds, when it holds one, selects what the type of the event selects.
-/
import BlogDemo.Sqs.Messages

namespace Sqs

open Utf16 Ecma JsonText

/-! ## 1. The two messages -/

/-- The notification that SNS makes of a text. -/
structure IsNotification (v : Value) (message : Text) : Prop where
  type : get? (some v) (text "Type") = some (.str (text "Notification"))
  messageId : ∃ s, get? (some v) (text "MessageId") = some (.str s)
  topicArn : ∃ s, get? (some v) (text "TopicArn") = some (.str s)
  timestamp : ∃ s, get? (some v) (text "Timestamp") = some (.str s)
  message : get? (some v) (text "Message") = some (.str message)
  /-- None of its members is called `type`. -/
  noType : get? (some v) (text "type") = none

/-- The two messages lead to the same case and the same acknowledgement. -/
structure Alike (m m' : Message) : Prop where
  branch : m.handler = m'.handler
  acknowledged : ∀ n n', (handleMessage m n).2 = .ok () ↔ (handleMessage m' n').2 = .ok ()

theorem alike_of_handler {m m' : Message} : Alike m m' ↔ m.handler = m'.handler := by
  refine ⟨fun h => h.branch, fun h => ⟨h, fun n n' => ?_⟩⟩
  rw [handleMessage_ok_iff, handleMessage_ok_iff, h]

/-! ## 2. Where an event is dispatched to -/

/-- What the consumer makes of the `Message` of an event. -/
def ownMessage (event : Value) : Option Value := jsonParse (get? (some event) (text "Message"))

theorem handlerOf_falsy {v : Option Value} (h : truthy v = false) : handlerOf v = .default := by
  cases v with
  | none => rfl
  | some v =>
      cases v with
      | str s =>
          have hs : s = [] := by simpa [truthy] using h
          subst hs
          decide
      | _ => rfl

theorem safeParse_json {t : Text} {v : Value} (h : parseValue t = some v) :
    safeParse (some t) = some v := by
  have hne : t ≠ [] := by
    intro heq
    subst heq
    cases h
  simp only [safeParse, if_neg hne, h]

/-- An event that is sent to the queue itself. -/
theorem handler_direct {m : Message} {t : Text} {event : Value} (hm : m.body = some t)
    (ht : parseValue t = some event) : m.handler =
      if truthy (get? (ownMessage event) (text "type")) = true then
        handlerOf (get? (ownMessage event) (text "type"))
      else handlerOf (get? (some event) (text "type")) := by
  rw [Message.handler, hm, safeParse_json ht]
  exact apply_ite handlerOf ..

/-- An event in a notification is dispatched by its own type. -/
theorem handler_notified {m : Message} {t body : Text} {event v : Value} (hm : m.body = some body)
    (hbody : parseValue body = some v) (hv : IsNotification v t) (ht : parseValue t = some event) :
    m.handler = handlerOf (get? (some event) (text "type")) := by
  have hne : t ≠ [] := by
    intro heq
    subst heq
    cases ht
  have htruthy : truthy (some (.str t)) = true := by simpa [truthy] using hne
  have hparsed : jsonParse (some (.str t)) = some event := by
    simp only [jsonParse, htruthy, if_true, Value.toText, Option.bind_some, ht]
  rw [Message.handler, hm, safeParse_json hbody]
  simp only [typeOf, hv.message, hv.noType, hparsed]
  cases htype : truthy (get? (some event) (text "type")) with
  | true => rw [if_pos rfl]
  | false =>
      rw [if_neg Bool.false_ne_true, handlerOf_falsy htype]
      rfl

/-! ## 3. When both agree -/

/-- **The event's own `Message`** holds no type, or one that selects what the event's type selects. -/
def KeepsType (event : Value) : Prop :=
  truthy (get? (ownMessage event) (text "type")) = true →
    handlerOf (get? (ownMessage event) (text "type")) = handlerOf (get? (some event) (text "type"))

/-- **Both ways lead to the same if and only if** the type in the event's own `Message`, when there is
    one, selects what the event's type selects. -/
theorem alike_iff {direct notified : Message} {t body : Text} {event v : Value}
    (hdirect : direct.body = some t) (ht : parseValue t = some event)
    (hnotified : notified.body = some body) (hbody : parseValue body = some v)
    (hv : IsNotification v t) : Alike direct notified ↔ KeepsType event := by
  rw [alike_of_handler, handler_direct hdirect ht, handler_notified hnotified hbody hv ht, KeepsType]
  by_cases htype : truthy (get? (ownMessage event) (text "type")) = true
  · rw [if_pos htype]
    exact ⟨fun h _ => h, fun h => h htype⟩
  · rw [if_neg htype]
    exact iff_of_true rfl fun h => absurd h htype

/-! ## 4. An event with a `Message` of its own -/

/-- A notification of the text. -/
def notification (message : Text) : Value := .obj
  [(text "Type", .str (text "Notification")),
    (text "MessageId", .str (text "n-1")),
    (text "TopicArn", .str (text "arn:aws:sns:ap-northeast-2:1:orders")),
    (text "Message", .str message),
    (text "Timestamp", .str (text "2025-01-01T00:00:00.000Z"))]

theorem notification_canonical (message : Text) : (notification message).Canonical :=
  ⟨by simp [InOrder]; decide, trivial, trivial, trivial, trivial, trivial, trivial⟩

theorem isNotification (message : Text) : IsNotification (notification message) message where
  type := rfl
  messageId := ⟨_, rfl⟩
  topicArn := ⟨_, rfl⟩
  timestamp := ⟨_, rfl⟩
  message := rfl
  noType := rfl

theorem parse_text {v : Value} (h : v.Canonical) (hv : v.finite = true) :
    parseValue (stringify v) = some v := by
  rw [parse_stringify h, (printed_eq_iff v).mpr hv]

def directOf (event : Value) : Message := ⟨some (stringify event), none⟩

def notifiedOf (event : Value) : Message := ⟨some (stringify (notification (stringify event))), none⟩

theorem parse_notification (event : Value) :
    parseValue (stringify (notification (stringify event))) =
      some (notification (stringify event)) :=
  parse_text (notification_canonical _) rfl

/-- An order as it is meant. -/
def created : Json where
  value := .obj [(text "type", .str (text "order.created"))]
  canonical := ⟨by simp, trivial, trivial⟩

theorem alike_iff_created :
    Alike (directOf created.value) (notifiedOf created.value) ↔ KeepsType created.value :=
  alike_iff rfl (parse_text created.canonical rfl) rfl (parse_notification _) (isNotification _)

/-- An order that encloses an earlier message. -/
def enclosing : Json where
  value := .obj
    [(text "type", .str (text "order.created")),
      (text "Message", .obj [(text "type", .str (text "throw.error"))])]
  canonical := ⟨by simp [InOrder]; decide, trivial, ⟨by simp, trivial, trivial⟩, trivial⟩

/-- **It is handled when it comes from SNS, and fails when it is sent to the queue itself.** -/
theorem enclosing_not_alike : ¬ Alike (directOf enclosing.value) (notifiedOf enclosing.value) := by
  intro h
  have hparse := parse_text enclosing.canonical rfl
  have hbranch := h.branch
  rw [handler_direct rfl hparse,
    handler_notified rfl (parse_notification _) (isNotification _) hparse] at hbranch
  revert hbranch
  decide +kernel

end Sqs
