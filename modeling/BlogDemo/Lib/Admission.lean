/-
  File:      BlogDemo/Lib/Admission.lean
  Subject:   VALIDATING A REQUEST BEFORE IT IS STORED: Gatekeeper constraints, whose templates are
             Rego rules, and Kyverno policies, whose rules are patterns.

  A rule `violation[{..}] { body }` is a partial set: what its body produces, for every way to make
  its iterations; it is kept as a list, and only its members and whether it has any matter. The
  arguments of `sprintf` are kept beside its format.

  * `wild_literal`, `wild_some` -- what a text with and without wildcards matches;
  * `Pattern.eachMap_holds_arr` -- a map in a list is asked of every element there is.
-/
import BlogDemo.Lib.Js
import Mathlib.Data.List.Infix

namespace Admission

open Js

/-- A request to create or to change an object. -/
structure Review where
  group : String
  kind : String
  ns : String
  object : Json

/-! ## 1. Rego -/

namespace Rego

/-- `x.a.b`: undefined as soon as one step of it is. -/
def ref : Json → List String → Option Json
  | v, [] => some v
  | v, key :: path => (v.get? key).bind (ref · path)

/-- `x[_]`: the elements of an array, the values of an object, none of anything else. -/
def each : Option Json → List Json
  | some (.arr xs) => xs
  | some (.obj fields) => fields.map Prod.snd
  | _ => []

/-- An expression on its own holds unless it is undefined or `false`. -/
def satisfied : Option Json → Bool
  | none => false
  | some (.bool b) => b
  | some _ => true

/-- `contains(image, part)`; a built-in that is given no string is undefined. -/
def contains (image : Json) (part : String) : Bool :=
  match image with
  | .str s => decide (part.toList <:+: s.toList)
  | _ => false

/-- `endswith(image, part)`. -/
def endswith (image : Json) (part : String) : Bool :=
  match image with
  | .str s => decide (part.toList <:+ s.toList)
  | _ => false

@[simp] theorem ref_nil (v : Json) : ref v [] = some v := rfl

@[simp] theorem ref_cons (v : Json) (key : String) (path : List String) :
    ref v (key :: path) = (v.get? key).bind (ref · path) := rfl

end Rego

/-! ## 2. Gatekeeper constraints -/

/-- A member of `violation`: the format and the arguments of its message, and its details. -/
structure Violation where
  msg : String × List Json
  details : Json

/-- A constraint: what it matches, and the `violation` rule of its template, the constraint's
    parameters filled in. -/
structure Constraint where
  name : String
  apiGroups : List String
  kinds : List String
  namespaces : List String
  violation : Json → List Violation

def Constraint.covers (c : Constraint) (r : Review) : Bool :=
  c.apiGroups.contains r.group && c.kinds.contains r.kind && c.namespaces.contains r.ns

/-- The violations a constraint reports of a request; the request is denied if there are any. -/
def Constraint.violations (c : Constraint) (r : Review) : List Violation :=
  if c.covers r then c.violation r.object else []

/-! ## 3. Kyverno patterns -/

/-- `*` stands for any text, `?` for any one character, every other character for itself. -/
def wild : List Char → List Char → Bool
  | [], t => t.isEmpty
  | c :: p, t =>
    if c = '*' then t.tails.any (wild p)
    else
      match t with
      | [] => false
      | d :: t => (c == '?' || c == d) && wild p t

/-- The value a pattern has at one place; a leading `!` negates a text. -/
inductive Scalar where
  | bool (b : Bool)
  | text (pattern : String)
  | unless (pattern : String)

/-- Whether one value that is no list meets it. A number is none of these: quantities arrive as
    texts. -/
def Scalar.test : Scalar → Json → Bool
  | .bool b, .bool b' => b == b'
  | .text p, .str s => wild p.toList s.toList
  | .unless p, .str s => !wild p.toList s.toList
  | _, _ => false

/-- A pattern. A list in it holds one element, a map or a scalar. -/
inductive Pattern where
  | scalar (s : Scalar)
  | map (fields : List (String × Pattern))
  | eachMap (fields : List (String × Pattern))
  | eachScalar (s : Scalar)

mutual

/-- `validateResourceElement`: a scalar that meets a list is asked of each of its elements; a map
    needs a map, a list a list. -/
def Pattern.holds : Pattern → Option Json → Bool
  | .scalar s, some (.arr xs) => xs.all s.test
  | .scalar s, some x => s.test x
  | .map fields, some (.obj entries) => holdsAll fields (.obj entries)
  | .eachMap fields, some (.arr xs) =>
    xs.all fun x =>
      match x with
      | .obj entries => holdsAll fields (.obj entries)
      | _ => false
  | .eachScalar s, some (.arr xs) => xs.all s.test
  | _, _ => false

def holdsAll : List (String × Pattern) → Json → Bool
  | [], _ => true
  | (key, p) :: fields, x => p.holds (x.get? key) && holdsAll fields x

end

/-! ## 4. Kyverno policies -/

inductive FailureAction where
  | Enforce
  | Audit
  deriving DecidableEq

structure Rule where
  name : String
  kinds : List String
  namespaces : List String
  message : String
  pattern : List (String × Pattern)

structure ClusterPolicy where
  name : String
  validationFailureAction : FailureAction
  rules : List Rule

/-- A rule fails for a request it matches whose object does not have the shape of its pattern. -/
def Rule.fails (rule : Rule) (r : Review) : Bool :=
  rule.kinds.contains r.kind && rule.namespaces.contains r.ns && !holdsAll rule.pattern r.object

/-- The messages a policy denies a request with. -/
def ClusterPolicy.denials (p : ClusterPolicy) (r : Review) : List String :=
  if p.validationFailureAction = .Enforce then
    (p.rules.filter (·.fails r)).map (·.message)
  else []

/-! ## 5. What a pattern asks for -/

/-- There is no wildcard in the text. -/
def literal (p : List Char) : Bool := p.all fun c => c != '*' && c != '?'

/-- A text without wildcards matches itself alone. -/
theorem wild_literal :
    ∀ {p : List Char} (_ : literal p = true) (t : List Char), wild p t = true ↔ t = p
  | [], _, t => by simp [wild]
  | c :: p, h, t => by
      simp only [literal, List.all_cons, Bool.and_eq_true, bne_iff_ne] at h
      obtain ⟨⟨hstar, hany⟩, hp⟩ := h
      have ih := wild_literal (p := p) hp
      cases t with
      | nil => simp [wild, hstar]
      | cons d t =>
        simp only [wild, if_neg hstar, Bool.and_eq_true, Bool.or_eq_true, beq_iff_eq, hany,
          false_or, ih, List.cons.injEq]
        exact and_congr_left' eq_comm

theorem wild_star (t : List Char) : wild ['*'] t = true := by
  simp only [wild, if_true, List.any_eq_true]
  exact ⟨[], (List.mem_tails _ _).mpr List.nil_suffix, rfl⟩

/-- `?*` matches every text but the empty one. -/
theorem wild_some (t : List Char) : wild ['?', '*'] t = true ↔ t ≠ [] := by
  cases t with
  | nil => simp [wild]
  | cons d t =>
    rw [wild, if_neg (by decide)]
    simp [wild_star t]

/-- A text without wildcards is met by itself alone. -/
theorem Scalar.text_test {p : String} (h : literal p.toList = true) (t : String) :
    (Scalar.text p).test (.str t) = true ↔ t = p := by
  rw [Scalar.test, wild_literal h, String.toList_inj]

@[simp] theorem Pattern.holds_none (p : Pattern) : p.holds none = false := by
  cases p <;> simp [Pattern.holds]

@[simp] theorem Pattern.scalar_holds_str (s : Scalar) (t : String) :
    (Pattern.scalar s).holds (some (.str t)) = s.test (.str t) := rfl

@[simp] theorem Pattern.scalar_holds_bool (s : Scalar) (b : Bool) :
    (Pattern.scalar s).holds (some (.bool b)) = s.test (.bool b) := rfl

@[simp] theorem Pattern.map_holds_obj (fields : List (String × Pattern))
    (entries : List (String × Json)) :
    (Pattern.map fields).holds (some (.obj entries)) = holdsAll fields (.obj entries) := rfl

@[simp] theorem Pattern.eachScalar_holds_arr (s : Scalar) (xs : List Json) :
    (Pattern.eachScalar s).holds (some (.arr xs)) = xs.all s.test := rfl

/-- A map in a list is asked of every element there is. -/
theorem Pattern.eachMap_holds_arr (fields : List (String × Pattern)) (xs : List Json) :
    (Pattern.eachMap fields).holds (some (.arr xs)) =
      xs.all fun x => (Pattern.map fields).holds (some x) := by
  refine List.all_congr rfl fun x => ?_
  cases x <;> simp [Pattern.holds]

end Admission
