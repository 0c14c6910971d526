/-
  File:      BlogDemo/Lib/Dynamo/Expression.lean
  Subject:   DYNAMODB EXPRESSIONS. An item is a set of named attributes; an update expression
             (`SET …`) and a condition expression are texts in which `#name` and `:value` stand for
             the attribute names and values sent along with them.

  The grammar read here is the part without nested paths and with one SET clause:

    update    ::=  SET action , … , action          action ::= path = sum
    sum       ::=  operand | operand + operand
    operand   ::=  word | if_not_exists ( path , word )
    condition ::=  attribute_not_exists ( path ) | word = word

  Anything else is no expression (`none`), which the service answers with a `ValidationException`.
-/
import BlogDemo.Lib.Attrs

namespace Dynamo

/-- What the placeholders of a request stand for. -/
structure Env (V : Type) where
  names : List (String × String) := []
  values : List (String × V) := []

/-! ## 1. Reading an expression -/

/-- The characters of names, placeholders and keywords. -/
def isWordChar (c : Char) : Bool := c.isAlphanum || c == '_' || c == '#' || c == ':'

/-- The words and signs of a text; `acc` is the word under way, reversed. -/
def tokens (acc : List Char) : List Char → List String
  | [] => if acc.isEmpty then [] else [String.ofList acc.reverse]
  | c :: cs =>
    if isWordChar c then tokens (c :: acc) cs
    else
      let rest := if c == ' ' then tokens [] cs else String.ofList [c] :: tokens [] cs
      if acc.isEmpty then rest else String.ofList acc.reverse :: rest

/-- A name, a placeholder or a keyword, and no sign. -/
def isWord (w : String) : Bool := !w.isEmpty && w.toList.all isWordChar

inductive Operand where
  | word (w : String)
  | ifNotExists (path w : String)
  deriving DecidableEq, Repr

inductive Sum where
  | one (a : Operand)
  | plus (a b : Operand)
  deriving DecidableEq, Repr

structure SetAction where
  path : String
  value : Sum
  deriving DecidableEq, Repr

inductive Condition where
  | notExists (path : String)
  | eq (a b : String)
  deriving DecidableEq, Repr

def parseOperand : List String → Option (Operand × List String)
  | "if_not_exists" :: "(" :: p :: "," :: w :: ")" :: rest => some (.ifNotExists p w, rest)
  | w :: rest => if isWord w then some (.word w, rest) else none
  | [] => none

def parseSum (ts : List String) : Option (Sum × List String) :=
  match parseOperand ts with
  | some (a, "+" :: rest) => (parseOperand rest).map fun (b, rest) => (.plus a b, rest)
  | some (a, rest) => some (.one a, rest)
  | none => none

/-- The actions of a SET clause; `n` bounds their number. -/
def parseActions : Nat → List String → Option (List SetAction)
  | n + 1, p :: "=" :: rest =>
    match parseSum rest with
    | some (v, []) => some [⟨p, v⟩]
    | some (v, "," :: rest) => (parseActions n rest).map (⟨p, v⟩ :: ·)
    | _ => none
  | _, _ => none

/-- An update expression. -/
def parseUpdate (text : String) : Option (List SetAction) :=
  match tokens [] text.toList with
  | "SET" :: rest => parseActions rest.length rest
  | _ => none

/-- A condition expression. -/
def parseCondition (text : String) : Option Condition :=
  match tokens [] text.toList with
  | ["attribute_not_exists", "(", p, ")"] => some (.notExists p)
  | [a, "=", b] => if isWord a && isWord b then some (.eq a b) else none
  | _ => none

/-! ## 2. What an expression means on an item -/

section Meaning

variable {V : Type}

/-- The first character of a word. -/
def begins (c : Char) (w : String) : Bool := w.toList.head? == some c

/-- The attribute a path names: `#p` by the request's names, any other word itself. -/
def Env.path (env : Env V) (w : String) : Option String :=
  if begins '#' w then env.names.lookup w else if begins ':' w then none else some w

/-- The value of a word on an item: `none` when a placeholder stands for nothing, `some none` when
    the item lacks the attribute. -/
def Env.value (env : Env V) (item : Attrs V) (w : String) : Option (Option V) :=
  if begins ':' w then (env.values.lookup w).map some else (env.path w).map item

def Operand.eval (env : Env V) (item : Attrs V) : Operand → Option V
  | .word w => (env.value item w).join
  | .ifNotExists p w =>
    match (env.path p).map item with
    | some (some v) => some v
    | some none => (env.value item w).join
    | none => none

/-- `+` is the addition of the values' numbers, where they have one. -/
def Sum.eval (plus : V → V → Option V) (env : Env V) (item : Attrs V) : Sum → Option V
  | .one a => a.eval env item
  | .plus a b =>
    match a.eval env item, b.eval env item with
    | some x, some y => plus x y
    | _, _ => none

/-- The attribute an action sets, and the value it sets it to. -/
def SetAction.eval (plus : V → V → Option V) (env : Env V) (item : Attrs V) (a : SetAction) :
    Option (String × V) :=
  match env.path a.path, a.value.eval plus env item with
  | some p, some v => some (p, v)
  | _, _ => none

/-- What an update expression sets on an item. Every operand reads the item before the update. -/
def evalUpdate (plus : V → V → Option V) (env : Env V) (item : Attrs V) (text : String) :
    Option (List (String × V)) :=
  (parseUpdate text).bind fun actions => actions.mapM (·.eval plus env item)

/-- A comparison with an absent attribute is false. -/
def Condition.eval [DecidableEq V] (env : Env V) (item : Attrs V) : Condition → Option Bool
  | .notExists p => (env.path p).map fun a => (item a).isNone
  | .eq a b =>
    match env.value item a, env.value item b with
    | some (some x), some (some y) => some (decide (x = y))
    | some _, some _ => some false
    | _, _ => none

/-- A placeholder that no expression uses. -/
def Env.unused (env : Env V) (texts : List String) : Bool :=
  let ts := texts.flatMap fun t => tokens [] t.toList
  (env.names.any fun n => !ts.contains n.1) || env.values.any fun v => !ts.contains v.1

/-- Whether a placeholder is used does not depend on what it stands for. -/
theorem Env.unused_keys {W : Type} (env : Env V) (env' : Env W) (texts : List String)
    (hnames : env.names.map Prod.fst = env'.names.map Prod.fst)
    (hvalues : env.values.map Prod.fst = env'.values.map Prod.fst) :
    env.unused texts = env'.unused texts := by
  have hany : ∀ {A B : Type} (xs : List (String × A)) (ys : List (String × B)) (p : String → Bool),
      xs.map Prod.fst = ys.map Prod.fst → (xs.any fun x => p x.1) = ys.any fun y => p y.1 := by
    intro A B xs ys p h
    have hxy := congrArg (List.any · p) h
    simpa [List.any_map, Function.comp_def] using hxy
  exact congrArg₂ (· || ·) (hany _ _ (fun key => !(texts.flatMap fun t => tokens [] t.toList).contains key)
    hnames) (hany _ _ (fun key => !(texts.flatMap fun t => tokens [] t.toList).contains key) hvalues)

end Meaning

end Dynamo
