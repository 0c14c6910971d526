/-
  File:      BlogDemo/Hubble/NormalizeHttp.lean
  Subject:   THE LABELS OF THE HUBBLE METRIC (hubble-flow-metrics.yaml): the transform normalize_http of
             the Vector configuration, and the tags that log_to_metric makes of it.

  Two expressions rewrite the path one after the other, and neither ends at the end of a segment. The
  functions of VRL but `replace` and `split` are parameters.

  * `pathNorm_join` -- the path is rewritten segment by segment;
  * `norm_eq_self_iff` -- which segments stay as they are;
  * **`normalises_iff`** -- two alike records get the same labels, and other segments stay, if and only
    if the records have the same status code, what stands before the first slash is the same, their
    UUIDs leave the same rest, and no other segment begins as a number or as an id does.
-/
import BlogDemo.Lib.Js
import BlogDemo.Lib.Replace
import Mathlib

namespace Hubble

open Js Replace

/-! ## 1. The transforms -/

/-- The functions of VRL that the program calls; `none` is an error. -/
structure Vrl where
  /-- `to_string(value)` -/
  text : Option Json → Option String
  /-- `to_int(value)` -/
  int : Option Json → Option Int
  /-- `parse_url(text)`, its `path` -/
  urlPath : String → Option String
  /-- `to_string(number)` -/
  numberText : ℚ → String
  /-- Different whole numbers are different texts. -/
  numberText_injective : Function.Injective fun n : Int => numberText n

/-- What `normalize_http` adds to an event. -/
structure Event where
  method : String
  pathNorm : String
  statusCode : Int
  statusClass : String
  count : Nat

/-- A character of `[0-9a-fA-F]`. -/
def hexDigit (c : Char) : Bool := c.isDigit || "abcdefABCDEF".toList.contains c

/-- A character of `[0-9a-fA-F-]`. -/
def idChar (c : Char) : Bool := hexDigit c || c == '-'

/-- `r'/[0-9]+'` -/
def numeric : Expr Char := ⟨'/', Char.isDigit, 1⟩

/-- `r'/[0-9a-fA-F-]{8,}'` -/
def identifier : Expr Char := ⟨'/', idChar, 8⟩

/-- The path, with numeric and UUID-like segments replaced. -/
def pathNorm (path : List Char) : List Char :=
  identifier.replace "/\x7bid\x7d".toList (numeric.replace "/\x7bid\x7d".toList path)

section Program

variable (vrl : Vrl) (http : Json)

/-- The path before that: of the URL, without query and fragment. -/
def path : List Char :=
  let url := (vrl.text (http.get? "url")).getD ""
  let path := ((vrl.urlPath url).getD url).toList
  let path := path.takeWhile (· != '?')
  let path := path.takeWhile (· != '#')
  if path = [] then ['/'] else path

def statusCode : Int := (vrl.int (http.get? "code")).getD 0

/-- `/` is exact division. -/
def statusClass (code : Int) : String :=
  if code > 0 then vrl.numberText ((code : ℚ) / 100 * 100) else "0"

/-- `normalize_http`, of an event whose `.flow.l7.http` is this. -/
def normalizeHttp : Event where
  method := (vrl.text (http.get? "method")).getD "UNKNOWN"
  pathNorm := String.ofList (pathNorm (path vrl http))
  statusCode := statusCode vrl http
  statusClass := statusClass vrl (statusCode vrl http)
  count := 1

end Program

/-- The tags of `l7_http_requests_total`. -/
def tags (e : Event) : List (String × String) :=
  [("method", e.method), ("path", e.pathNorm), ("status_class", e.statusClass)]

/-! ## 2. One segment -/

/-- Decimal digits alone. -/
def Digits (s : List Char) : Prop := s ≠ [] ∧ ∀ c ∈ s, c.isDigit = true

/-- At least eight hexadecimal digits and hyphens alone. -/
def Id (s : List Char) : Prop := 8 ≤ s.length ∧ ∀ c ∈ s, idChar c = true

/-- `n` hexadecimal digits. -/
def Hex (n : Nat) (s : List Char) : Prop := s.length = n ∧ ∀ c ∈ s, hexDigit c = true

/-- A UUID with its hyphens. -/
def Uuid (s : List Char) : Prop :=
  ∃ a b c d e, Hex 8 a ∧ Hex 4 b ∧ Hex 4 c ∧ Hex 4 d ∧ Hex 12 e ∧
    s = a ++ '-' :: (b ++ '-' :: (c ++ '-' :: (d ++ '-' :: e)))

def placeholder : List Char := "\x7bid\x7d".toList

/-- What the two expressions make of a segment. -/
def norm (s : List Char) : List Char :=
  identifier.segment placeholder (numeric.segment placeholder s)

/-- What is left of a text behind the digits it begins with, if it begins with digits. -/
def rest (s : List Char) : List Char :=
  if s.takeWhile Char.isDigit = [] then [] else s.dropWhile Char.isDigit

theorem Uuid.id {s : List Char} (h : Uuid s) : Id s := by
  obtain ⟨a, b, c, d, e, ha, hb, hc, hd, he, rfl⟩ := h
  have hhex : ∀ {n g}, Hex n g → ∀ x ∈ g, idChar x = true := fun hg x hx => by
    rw [idChar, hg.2 x hx, Bool.true_or]
  refine ⟨?_, fun x hx => ?_⟩
  · simp only [List.length_append, List.length_cons, ha.1]
    omega
  · simp only [List.mem_append, List.mem_cons] at hx
    rcases hx with hx | rfl | hx | rfl | hx | rfl | hx | rfl | hx
    · exact hhex ha x hx
    · decide
    · exact hhex hb x hx
    · decide
    · exact hhex hc x hx
    · decide
    · exact hhex hd x hx
    · decide
    · exact hhex he x hx

/-- A segment that begins with a digit loses its digits, and nothing else. -/
theorem norm_of_digit {s : List Char} (h : s.takeWhile Char.isDigit ≠ []) :
    norm s = placeholder ++ s.dropWhile Char.isDigit := by
  have hlength : 1 ≤ (s.takeWhile Char.isDigit).length := List.length_pos_iff.mpr h
  have hfirst : numeric.segment placeholder s = placeholder ++ s.dropWhile Char.isDigit :=
    if_pos hlength
  have hbrace : (placeholder ++ s.dropWhile Char.isDigit).takeWhile idChar = [] :=
    List.takeWhile_cons_of_neg (by decide)
  have hshort : ¬ 8 ≤ ([] : List Char).length := by decide
  rw [norm, hfirst]
  show (if 8 ≤ ((placeholder ++ s.dropWhile Char.isDigit).takeWhile idChar).length then _ else _) = _
  rw [hbrace, if_neg hshort]

/-- Any other segment is left to the second expression. -/
theorem norm_of_not_digit {s : List Char} (h : s.takeWhile Char.isDigit = []) :
    norm s = if 8 ≤ (s.takeWhile idChar).length then placeholder ++ s.dropWhile idChar else s := by
  have hfirst : numeric.segment placeholder s = s := by
    have hlength : ¬ 1 ≤ (s.takeWhile Char.isDigit).length := by
      rw [h]
      decide
    exact if_neg hlength
  rw [norm, hfirst]
  rfl

/-- **An id becomes the placeholder** and what is left behind its digits. -/
theorem norm_id {s : List Char} (h : Id s) : norm s = placeholder ++ rest s := by
  by_cases hdigit : s.takeWhile Char.isDigit = []
  · have hall : s.takeWhile idChar = s := List.takeWhile_eq_self_iff.mpr h.2
    have hnone : s.dropWhile idChar = [] := List.dropWhile_eq_nil_iff.mpr h.2
    rw [norm_of_not_digit hdigit, hall, if_pos h.1, hnone, rest, if_pos hdigit]
  · rw [norm_of_digit hdigit, rest, if_neg hdigit]

theorem norm_digits {s : List Char} (h : Digits s) : norm s = placeholder := by
  have hall : s.takeWhile Char.isDigit = s := List.takeWhile_eq_self_iff.mpr h.2
  have hnone : s.dropWhile Char.isDigit = [] := List.dropWhile_eq_nil_iff.mpr h.2
  rw [norm_of_digit (by rw [hall]; exact h.1), hnone, List.append_nil]

/-- What begins with the placeholder does not begin with a character of an id. -/
theorem ne_placeholder {s t : List Char} {kind : Char → Bool} (hkind : kind '\x7b' = false)
    (h : s.takeWhile kind ≠ []) : placeholder ++ t ≠ s := by
  have hbrace : placeholder ++ t = '\x7b' :: ("id\x7d".toList ++ t) := rfl
  intro heq
  rw [← heq, hbrace, List.takeWhile_cons_of_neg (by rw [hkind]; decide)] at h
  exact h rfl

/-- **The segments that stay as they are**: no digit first, and fewer than eight characters of an id. -/
theorem norm_eq_self_iff (s : List Char) :
    norm s = s ↔ s.takeWhile Char.isDigit = [] ∧ (s.takeWhile idChar).length < 8 := by
  by_cases hdigit : s.takeWhile Char.isDigit = []
  · rw [norm_of_not_digit hdigit]
    by_cases hlong : 8 ≤ (s.takeWhile idChar).length
    · have hne : s.takeWhile idChar ≠ [] := by
        intro hnil
        rw [hnil] at hlong
        exact absurd hlong (by decide)
      rw [if_pos hlong]
      exact iff_of_false (ne_placeholder (by decide) hne) fun h => by omega
    · rw [if_neg hlong]
      exact iff_of_true rfl ⟨hdigit, by omega⟩
  · rw [norm_of_digit hdigit]
    exact iff_of_false (ne_placeholder (by decide) hdigit) fun h => hdigit h.1

/-! ## 3. The path -/

theorem sep_norm {s : List Char} (h : '/' ∉ s) : '/' ∉ norm s := by
  have hplaceholder : '/' ∉ placeholder := by decide
  have hdrop : ∀ kind : Char → Bool, '/' ∉ placeholder ++ s.dropWhile kind := by
    intro kind hmem
    rcases List.mem_append.mp hmem with hmem | hmem
    · exact hplaceholder hmem
    · exact h ((List.dropWhile_sublist _).subset hmem)
  by_cases hdigit : s.takeWhile Char.isDigit = []
  · rw [norm_of_not_digit hdigit]
    split
    · exact hdrop idChar
    · exact h
  · rw [norm_of_digit hdigit]
    exact hdrop Char.isDigit

/-- **The path is rewritten segment by segment.** -/
theorem pathNorm_join {first : List Char} {segments : List (List Char)} (hfirst : '/' ∉ first)
    (hsegments : ∀ s ∈ segments, '/' ∉ s) :
    pathNorm (join '/' first segments) = join '/' first (segments.map norm) := by
  have hnumeric : ∀ s ∈ segments.map (numeric.segment placeholder), '/' ∉ s := by
    intro s hs
    obtain ⟨t, ht, rfl⟩ := List.mem_map.mp hs
    have hplaceholder : '/' ∉ placeholder := by decide
    rw [Expr.segment]
    split
    · intro hmem
      rcases List.mem_append.mp hmem with hmem | hmem
      · exact hplaceholder hmem
      · exact hsegments t ht ((List.dropWhile_sublist _).subset hmem)
    · exact hsegments t ht
  have hone := replace_join (e := numeric) placeholder (by decide) hfirst hsegments
  have htwo := replace_join (e := identifier) placeholder (by decide) hfirst hnumeric
  have hmap : segments.map norm =
      (segments.map (numeric.segment placeholder)).map (identifier.segment placeholder) := by
    rw [List.map_map]
    rfl
  rw [hmap]
  show identifier.replace (identifier.sep :: placeholder)
    (numeric.replace (numeric.sep :: placeholder) (join numeric.sep first segments)) = _
  rw [hone]
  exact htwo

/-- `split(path, "/")` -/
def parts (path : List Char) : List (List Char) := (cut '/' path).1 :: (cut '/' path).2

section Path

variable (vrl : Vrl) (a b : Json)

/-- What stands before the first slash of the path; nothing, if it begins with one. -/
def leading (vrl : Vrl) (http : Json) : List Char := (cut '/' (path vrl http)).1

def segments (vrl : Vrl) (http : Json) : List (List Char) := (cut '/' (path vrl http)).2

theorem pathNorm_eq : pathNorm (path vrl a) = join '/' (leading vrl a) ((segments vrl a).map norm) := by
  have hpath := join_cut '/' (path vrl a)
  obtain ⟨hfirst, hsegments⟩ := sep_cut '/' (path vrl a)
  have hnorm := pathNorm_join hfirst hsegments
  rw [hpath] at hnorm
  exact hnorm

/-- The segments of the new path. -/
theorem cut_pathNorm : cut '/' (pathNorm (path vrl a)) = (leading vrl a, (segments vrl a).map norm) := by
  obtain ⟨hfirst, hsegments⟩ := sep_cut '/' (path vrl a)
  rw [pathNorm_eq]
  refine cut_join hfirst fun s hs => ?_
  obtain ⟨t, ht, rfl⟩ := List.mem_map.mp hs
  exact sep_norm (hsegments t ht)

/-- Two new paths are the same if and only if their segments are. -/
theorem pathNorm_eq_iff : pathNorm (path vrl a) = pathNorm (path vrl b) ↔
    leading vrl a = leading vrl b ∧ (segments vrl a).map norm = (segments vrl b).map norm := by
  constructor
  · intro h
    have hcut := cut_pathNorm vrl a
    rw [h, cut_pathNorm] at hcut
    exact ⟨(congrArg Prod.fst hcut).symm, (congrArg Prod.snd hcut).symm⟩
  · intro h
    rw [pathNorm_eq, pathNorm_eq, h.1, h.2]

end Path

/-! ## 4. What the labels tell apart -/

/-- Segments that the labels should not tell apart. -/
def Similar (s t : List Char) : Prop := s = t ∨ Digits s ∧ Digits t ∨ Uuid s ∧ Uuid t

section Labels

variable (vrl : Vrl) (a b : Json)

/-- Records that should get the same labels. -/
structure Alike : Prop where
  method : a.get? "method" = b.get? "method"
  path : List.Forall₂ Similar (parts (path vrl a)) (parts (path vrl b))
  positive : 0 < statusCode vrl a ∧ 0 < statusCode vrl b
  hundreds : statusCode vrl a / 100 % 10 = statusCode vrl b / 100 % 10

/-- **The labels are normalised.** -/
structure Normalises : Prop where
  same : Alike vrl a b → tags (normalizeHttp vrl a) = tags (normalizeHttp vrl b)
  unchanged : ∀ (i : Nat) s, (parts (path vrl a))[i]? = some s → ¬ Digits s → ¬ Id s →
    (parts (normalizeHttp vrl a).pathNorm.toList)[i]? = some s

/-- What the transform makes of alike records does not depend on what they differ in. -/
structure SameRest : Prop where
  code : statusCode vrl a = statusCode vrl b
  leading : leading vrl a = leading vrl b
  rest : List.Forall₂ (fun s t => Uuid s → Uuid t → rest s = rest t) (segments vrl a) (segments vrl b)

/-- No segment but a number or an id begins as one. -/
def NoOther : Prop :=
  ∀ s ∈ segments vrl a, ¬ Digits s → ¬ Id s →
    s.takeWhile Char.isDigit = [] ∧ (s.takeWhile idChar).length < 8

end Labels

section Same

variable {vrl : Vrl} {a b : Json}

theorem norm_eq_iff {s t : List Char} (h : Similar s t) :
    norm s = norm t ↔ (Uuid s → Uuid t → rest s = rest t) := by
  rcases h with rfl | ⟨hs, ht⟩ | ⟨hs, ht⟩
  · exact iff_of_true rfl fun _ _ => rfl
  · have hrest : ∀ {s}, Digits s → rest s = [] := by
      intro s hs
      have hnone : s.dropWhile Char.isDigit = [] := List.dropWhile_eq_nil_iff.mpr hs.2
      rw [rest, hnone, ite_self]
    have hnorm : norm s = norm t := by rw [norm_digits hs, norm_digits ht]
    exact iff_of_true hnorm fun _ _ => by rw [hrest hs, hrest ht]
  · rw [norm_id hs.id, norm_id ht.id, List.append_right_inj]
    exact ⟨fun heq _ _ => heq, fun heq => heq hs ht⟩

theorem map_norm_eq_iff {ss ts : List (List Char)} (h : List.Forall₂ Similar ss ts) :
    ss.map norm = ts.map norm ↔ List.Forall₂ (fun s t => Uuid s → Uuid t → rest s = rest t) ss ts := by
  induction h with
  | nil => exact iff_of_true rfl .nil
  | cons hst _ ih => rw [List.map_cons, List.map_cons, List.cons.injEq, List.forall₂_cons,
      norm_eq_iff hst, ih]

/-- Of a positive code the whole code is left. -/
theorem statusClass_of_pos {code : Int} (h : 0 < code) : statusClass vrl code = vrl.numberText code := by
  have hexact : (code : ℚ) / 100 * 100 = code := Rat.div_mul_cancel (by decide)
  rw [statusClass, if_pos h, hexact]

/-- **When alike records get the same labels.** -/
theorem tags_eq_iff (h : Alike vrl a b) :
    tags (normalizeHttp vrl a) = tags (normalizeHttp vrl b) ↔ SameRest vrl a b := by
  have hsegments : List.Forall₂ Similar (segments vrl a) (segments vrl b) :=
    (List.forall₂_cons.mp h.path).2
  have hmethod : (normalizeHttp vrl a).method = (normalizeHttp vrl b).method :=
    congrArg (fun m => (vrl.text m).getD "UNKNOWN") h.method
  have hpath : (normalizeHttp vrl a).pathNorm = (normalizeHttp vrl b).pathNorm ↔
      leading vrl a = leading vrl b ∧
        List.Forall₂ (fun s t => Uuid s → Uuid t → rest s = rest t) (segments vrl a)
          (segments vrl b) := by
    rw [← map_norm_eq_iff hsegments, ← pathNorm_eq_iff]
    exact String.ofList_inj
  have hclass : (normalizeHttp vrl a).statusClass = (normalizeHttp vrl b).statusClass ↔
      statusCode vrl a = statusCode vrl b := by
    show statusClass vrl (statusCode vrl a) = statusClass vrl (statusCode vrl b) ↔ _
    rw [statusClass_of_pos h.positive.1, statusClass_of_pos h.positive.2]
    exact ⟨fun heq => vrl.numberText_injective heq, fun heq => by rw [heq]⟩
  have htags : tags (normalizeHttp vrl a) = tags (normalizeHttp vrl b) ↔
      (normalizeHttp vrl a).pathNorm = (normalizeHttp vrl b).pathNorm ∧
        (normalizeHttp vrl a).statusClass = (normalizeHttp vrl b).statusClass := by
    simp only [tags, hmethod, List.cons.injEq, Prod.mk.injEq, true_and, and_true]
  rw [htags, hpath, hclass]
  exact ⟨fun h => ⟨h.2, h.1.1, h.1.2⟩, fun h => ⟨⟨h.leading, h.rest⟩, h.code⟩⟩

/-- The new path, segment by segment. -/
theorem parts_pathNorm : parts (normalizeHttp vrl a).pathNorm.toList =
    leading vrl a :: (segments vrl a).map norm := by
  have hlist : (normalizeHttp vrl a).pathNorm.toList = pathNorm (path vrl a) := String.toList_ofList
  rw [parts, hlist, cut_pathNorm]

/-- **When the other segments stay.** -/
theorem unchanged_iff :
    (∀ (i : Nat) s, (parts (path vrl a))[i]? = some s → ¬ Digits s → ¬ Id s →
      (parts (normalizeHttp vrl a).pathNorm.toList)[i]? = some s) ↔ NoOther vrl a := by
  have hparts : parts (path vrl a) = leading vrl a :: segments vrl a := rfl
  rw [parts_pathNorm, hparts]
  constructor
  · intro h s hs hdigits hid
    obtain ⟨i, hi⟩ := List.mem_iff_getElem?.mp hs
    have hstays := h (i + 1) s hi hdigits hid
    rw [List.getElem?_cons_succ, List.getElem?_map, hi] at hstays
    exact (norm_eq_self_iff s).mp (Option.some.inj hstays)
  · intro h i s hi hdigits hid
    cases i with
    | zero => exact hi
    | succ i =>
      rw [List.getElem?_cons_succ] at hi ⊢
      have hself := (norm_eq_self_iff s).mpr (h s (List.mem_of_getElem? hi) hdigits hid)
      rw [List.getElem?_map, hi, Option.map_some, hself]

end Same

/-- **The labels are normalised if and only if** alike records differ in nothing that is left, and
no other segment begins as a number or as an id does. -/
theorem normalises_iff (vrl : Vrl) (a b : Json) :
    Normalises vrl a b ↔ (Alike vrl a b → SameRest vrl a b) ∧ NoOther vrl a := by
  constructor
  · intro h
    exact ⟨fun halike => (tags_eq_iff halike).mp (h.same halike), unchanged_iff.mp h.unchanged⟩
  · intro h
    exact ⟨fun halike => (tags_eq_iff halike).mpr (h.1 halike), unchanged_iff.mpr h.2⟩

/-- The functions of VRL, as far as the records below need them. -/
def Vrl.simple : Vrl where
  text
    | some (.str s) => some s
    | _ => none
  int
    | some (.num (.int n)) => some n
    | _ => none
  urlPath url :=
    if url.toList.take 7 = "http://".toList then
      some (String.ofList ((url.toList.drop 7).dropWhile (· != '/')))
    else none
  numberText x := x.num.repr
  numberText_injective _ _ h := Int.repr_injective h

def record (url : String) (code : Int) : Json :=
  .obj [("method", .str "GET"), ("url", .str url), ("code", .num (.int code))]

theorem uuid_of_groups (a b c d e : String) (ha : a.toList.length = 8 ∧ a.toList.all hexDigit = true)
    (hb : b.toList.length = 4 ∧ b.toList.all hexDigit = true)
    (hc : c.toList.length = 4 ∧ c.toList.all hexDigit = true)
    (hd : d.toList.length = 4 ∧ d.toList.all hexDigit = true)
    (he : e.toList.length = 12 ∧ e.toList.all hexDigit = true) :
    Uuid (a.toList ++ '-' :: (b.toList ++ '-' :: (c.toList ++ '-' :: (d.toList ++ '-' :: e.toList)))) :=
  have hhex : ∀ {n} {g : List Char}, g.length = n ∧ g.all hexDigit = true → Hex n g :=
    fun h => ⟨h.1, List.all_eq_true.mp h.2⟩
  ⟨_, _, _, _, _, hhex ha, hhex hb, hhex hc, hhex hd, hhex he, rfl⟩

/-- **What is left**: all of a UUID behind its first digits, the last digits of a status code, and
`fa` of `2fa`. -/
theorem rest_not_normalised :
    ¬ Normalises .simple (record "http://web/users/123e4567-e89b-12d3-a456-426614174000" 200)
        (record "http://web/users/987fcdeb-51a2-43d7-8f3e-0123456789ab" 200) ∧
      ¬ Normalises .simple (record "http://web/users" 404) (record "http://web/users" 400) ∧
      ¬ Normalises .simple (record "http://web/2fa" 200) (record "http://web/2fa" 200) := by
  refine ⟨?_, ?_, ?_⟩
  · have huuid := uuid_of_groups "123e4567" "e89b" "12d3" "a456" "426614174000"
      (by decide) (by decide) (by decide) (by decide) (by decide)
    have huuid' := uuid_of_groups "987fcdeb" "51a2" "43d7" "8f3e" "0123456789ab"
      (by decide) (by decide) (by decide) (by decide) (by decide)
    have hpath : parts (path .simple
        (record "http://web/users/123e4567-e89b-12d3-a456-426614174000" 200)) =
        [[], "users".toList, "123e4567-e89b-12d3-a456-426614174000".toList] := by decide
    have hpath' : parts (path .simple
        (record "http://web/users/987fcdeb-51a2-43d7-8f3e-0123456789ab" 200)) =
        [[], "users".toList, "987fcdeb-51a2-43d7-8f3e-0123456789ab".toList] := by decide
    have halike : List.Forall₂ Similar
        [[], "users".toList, "123e4567-e89b-12d3-a456-426614174000".toList]
        [[], "users".toList, "987fcdeb-51a2-43d7-8f3e-0123456789ab".toList] :=
      .cons (.inl rfl) (.cons (.inl rfl) (.cons (.inr (.inr ⟨huuid, huuid'⟩)) .nil))
    rw [← hpath, ← hpath'] at halike
    intro h
    have htags := h.same ⟨rfl, halike, by decide, by decide⟩
    exact absurd htags (by decide)
  · intro h
    have hpath : List.Forall₂ Similar [[], "users".toList] [[], "users".toList] :=
      .cons (.inl rfl) (.cons (.inl rfl) .nil)
    have halike : Alike .simple (record "http://web/users" 404) (record "http://web/users" 400) :=
      ⟨rfl, hpath, by decide, by decide⟩
    have hcode := ((tags_eq_iff halike).mp (h.same halike)).code
    exact absurd hcode (by decide)
  · intro h
    have hstays := h.unchanged 1 "2fa".toList rfl (fun h => absurd (h.2 'f') (by decide))
      (fun h => absurd h.1 (by decide))
    exact absurd hstays (by decide)

end Hubble
