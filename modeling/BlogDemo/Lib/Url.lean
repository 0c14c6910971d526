/-
  File:      BlogDemo/Lib/Url.lean
  Subject:   URLS WITH THE SCHEME `http` OR `https`: parsing, the pathname and its setter, the search
             parameters and the serialisation, as the URL Standard has them.

  What stands between the slashes and the path (user, host and port) is left open: `Authorities`
  parses and serialises it. The path is a list of segments in which no dot segment is left.

  * `Normal`, `parse_normal` -- what holds of a URL that was parsed, and is kept by its setters;
  * **`parse_href`** -- such a URL, serialised and parsed again, is the same URL.
-/
import BlogDemo.Lib.Uri

namespace Whatwg

open Uri

/-! ## 1. Percent-encode sets -/

def c0Set (c : Char) : Bool := c.toNat ≤ 0x1F || 0x7E < c.toNat

def querySet (c : Char) : Bool := c0Set c || " \"#<>".toList.contains c

def specialQuerySet (c : Char) : Bool := querySet c || c == '\''

def pathSet (c : Char) : Bool := querySet c || "?^`\x7b\x7d".toList.contains c

def fragmentSet (c : Char) : Bool := c0Set c || " \"<>`".toList.contains c

/-- The characters of the set are percent-encoded, the others stay. -/
def encodeWith (set : Char → Bool) (cs : List Char) : List Char :=
  cs.flatMap fun c => if set c then (String.utf8EncodeChar c).flatMap percent else [c]

/-! ## 2. Paths -/

abbrev Segment := List Char

def isSlash (c : Char) : Bool := c == '/' || c == '\\'

def singleDot (s : Segment) : Bool := dots.contains s

def doubleDot (s : Segment) : Bool := dots.any fun a => dots.any fun b => s == a ++ b

/-- A path, cut at its slashes. -/
def segments : List Char → List Segment
  | [] => [[]]
  | c :: cs =>
    if isSlash c then [] :: segments cs
    else match segments cs with
      | s :: ss => (c :: s) :: ss
      | [] => [[c]]

/-- Segments added to a path, one after the other: a single dot adds nothing and a double dot takes
    the last segment away; as the last one, each adds an empty segment after that. -/
def addSegments (path : List Segment) : List Segment → List Segment
  | [] => path
  | [s] =>
    if doubleDot s then path.dropLast ++ [[]]
    else if singleDot s then path ++ [[]]
    else path ++ [s]
  | s :: ss =>
    if doubleDot s then addSegments path.dropLast ss
    else if singleDot s then addSegments path ss
    else addSegments (path ++ [s]) ss

def dropSlash : List Char → List Char
  | c :: cs => if isSlash c then cs else c :: cs
  | [] => []

def parsePath (cs : List Char) : List Segment :=
  addSegments [] ((segments (dropSlash cs)).map (encodeWith pathSet))

/-! ## 3. URLs -/

inductive Scheme where
  | http
  | https
  deriving DecidableEq, Repr

def Scheme.text : Scheme → List Char
  | .http => "http".toList
  | .https => "https".toList

def isDelimiter (c : Char) : Bool := isSlash c || c == '?' || c == '#'

/-- A character that is neither a control nor a space. -/
def visible (c : Char) : Bool := 0x20 < c.toNat

/-- **User, host and port**, and what the rules for them guarantee: serialised they are not empty,
    have no delimiter of a URL, and parse as they are. -/
structure Authorities where
  Authority : Type
  parse : Scheme → List Char → Option Authority
  serialize : Authority → List Char
  nonempty : ∀ s t a, parse s t = some a → serialize a ≠ []
  chars : ∀ s t a, parse s t = some a → ∀ c ∈ serialize a, visible c = true ∧ isDelimiter c = false
  again : ∀ s t a, parse s t = some a → parse s (serialize a) = some a

structure Url (H : Authorities) where
  scheme : Scheme
  authority : H.Authority
  path : List Segment
  query : Option (List Char)
  fragment : Option (List Char)

def dropBreaks (cs : List Char) : List Char :=
  cs.filter fun c => c != '\t' && c != '\n' && c != '\r'

/-- Without controls and spaces at its ends, and without tabs and newlines. -/
def strip (cs : List Char) : List Char :=
  dropBreaks ((cs.dropWhile (!visible ·)).reverse.dropWhile (!visible ·)).reverse

/-- The scheme and what follows its colon. -/
def parseScheme (cs : List Char) : Option (Scheme × List Char) :=
  let (s, rest) := cs.span (· != ':')
  match rest with
  | _ :: rest =>
    if s.map Char.toLower = Scheme.http.text then some (.http, rest)
    else if s.map Char.toLower = Scheme.https.text then some (.https, rest)
    else none
  | [] => none

/-- Path, query and fragment, still encoded as they were. -/
def cut (cs : List Char) : List Char × Option (List Char) × Option (List Char) :=
  let (path, rest) := cs.span fun c => c != '?' && c != '#'
  match rest with
  | '?' :: rest =>
    let (query, rest) := rest.span (· != '#')
    (path, some query, rest.tail?)
  | _ => (path, none, rest.tail?)

/-- A character of several octets, of which some are still to come: how many, what the ones before
    them make, and the bounds of the next one. -/
structure Pending where
  needed : Nat
  code : Nat
  lower : Nat
  upper : Nat

def Pending.idle : Pending := ⟨0, 0, 0x80, 0xBF⟩

def replacement : Char := Char.ofNat 0xFFFD

/-- The first octet of a character. -/
def Pending.start (b : Nat) : List Char × Pending :=
  if b < 0x80 then ([Char.ofNat b], idle)
  else if b < 0xC2 then ([replacement], idle)
  else if b < 0xE0 then ([], ⟨1, b % 0x20, 0x80, 0xBF⟩)
  else if b < 0xF0 then
    ([], ⟨2, b % 0x10, if b = 0xE0 then 0xA0 else 0x80, if b = 0xED then 0x9F else 0xBF⟩)
  else if b < 0xF5 then
    ([], ⟨3, b % 0x08, if b = 0xF0 then 0x90 else 0x80, if b = 0xF4 then 0x8F else 0xBF⟩)
  else ([replacement], idle)

def Pending.next (p : Pending) (b : Nat) : List Char × Pending :=
  if p.needed = 0 then start b
  else if b < p.lower ∨ p.upper < b then (replacement :: (start b).1, (start b).2)
  else if p.needed = 1 then ([Char.ofNat (p.code * 0x40 + b % 0x40)], idle)
  else ([], ⟨p.needed - 1, p.code * 0x40 + b % 0x40, 0x80, 0xBF⟩)

/-- UTF-8 to characters; what is no UTF-8 becomes replacement characters. -/
def decodeUtf8 (p : Pending) : List UInt8 → List Char
  | [] => if p.needed = 0 then [] else [replacement]
  | b :: bs => (p.next b.toNat).1 ++ decodeUtf8 (p.next b.toNat).2 bs

/-- Escapes as octets; a `%` that begins none stays. -/
def percentDecode : List Char → List UInt8
  | [] => []
  | c :: rest =>
    if c = '%' then
      match rest with
      | a :: b :: rest =>
        match hexOctet a b with
        | some o => o :: percentDecode rest
        | none => 0x25 :: percentDecode (a :: b :: rest)
      | rest => 0x25 :: percentDecode rest
    else String.utf8EncodeChar c ++ percentDecode rest

/-- A name or value of the search parameters. -/
def formText (cs : List Char) : String :=
  String.ofList (decodeUtf8 .idle (percentDecode (cs.map fun c => if c = '+' then ' ' else c)))

/-- The search parameters of a query. -/
def searchParams (query : List Char) : List (String × String) :=
  ((query.splitOn '&').filter (· != [])).map fun p =>
    (formText (p.takeWhile (· != '=')), formText (p.dropWhile (· != '=')).tail)

variable {H : Authorities}

/-- `new URL(text)` -/
def parse (H : Authorities) (text : String) : Option (Url H) :=
  match parseScheme (strip text.toList) with
  | none => none
  | some (scheme, rest) =>
    let (authority, rest) := (rest.dropWhile isSlash).span (!isDelimiter ·)
    match H.parse scheme authority with
    | none => none
    | some authority =>
      let (path, query, fragment) := cut rest
      some {
        scheme := scheme
        authority := authority
        path := parsePath path
        query := query.map (encodeWith specialQuerySet)
        fragment := fragment.map (encodeWith fragmentSet) }

namespace Url

def pathChars (u : Url H) : List Char := u.path.flatMap ('/' :: ·)

/-- `url.pathname` -/
def pathname (u : Url H) : String := String.ofList u.pathChars

/-- `url.pathname = value` -/
def setPathname (u : Url H) (value : String) : Url H :=
  { u with path := parsePath (dropBreaks value.toList) }

/-- `url.searchParams.get(name)` -/
def searchParam (u : Url H) (name : String) : Option String :=
  (searchParams (u.query.getD [])).lookup name

/-- `url.search = ''` -/
def clearSearch (u : Url H) : Url H := { u with query := none }

/-- What follows the path. -/
def tail (u : Url H) : List Char :=
  (match u.query with | some q => '?' :: q | none => []) ++
    match u.fragment with | some f => '#' :: f | none => []

def hrefChars (u : Url H) : List Char :=
  u.scheme.text ++ "://".toList ++ H.serialize u.authority ++ u.pathChars ++ u.tail

/-- `url.toString()` -/
def href (u : Url H) : String := String.ofList u.hrefChars

end Url

variable {H : Authorities}

/-! ## 4. Encoded characters -/

theorem mem_percent {b : UInt8} {x : Char} (h : x ∈ percent b) :
    x = '%' ∨ ∃ n < 16, x = hexDigit n := by
  have hb : b.toNat < 256 := b.toNat_lt
  simp only [percent, List.mem_cons, List.not_mem_nil, or_false] at h
  rcases h with rfl | rfl | rfl
  · exact Or.inl rfl
  · exact Or.inr ⟨_, by omega, rfl⟩
  · exact Or.inr ⟨_, by omega, rfl⟩

/-- A set that leaves escapes as they are. -/
def SparesEscapes (set : Char → Bool) : Prop := set '%' = false ∧ ∀ n < 16, set (hexDigit n) = false

theorem spares_path : SparesEscapes pathSet := by
  unfold SparesEscapes
  decide

theorem spares_query : SparesEscapes specialQuerySet := by
  unfold SparesEscapes
  decide

theorem spares_fragment : SparesEscapes fragmentSet := by
  unfold SparesEscapes
  decide

/-- An encoded text is made of characters outside the set: its own, and those of escapes. -/
theorem mem_encodeWith {set : Char → Bool} {cs : List Char} {x : Char} (h : x ∈ encodeWith set cs) :
    (x ∈ cs ∧ set x = false) ∨ x = '%' ∨ ∃ n < 16, x = hexDigit n := by
  obtain ⟨c, hc, hx⟩ := List.mem_flatMap.mp h
  split at hx
  · obtain ⟨b, _, hb⟩ := List.mem_flatMap.mp hx
    exact Or.inr (mem_percent hb)
  · rename_i hset
    rw [List.mem_singleton] at hx
    subst hx
    exact Or.inl ⟨hc, by simpa using hset⟩

theorem encodeWith_clean {set : Char → Bool} (hs : SparesEscapes set) {cs : List Char} :
    ∀ x ∈ encodeWith set cs, set x = false := by
  intro x hx
  rcases mem_encodeWith hx with ⟨_, h⟩ | rfl | ⟨n, hn, rfl⟩
  · exact h
  · exact hs.1
  · exact hs.2 n hn

/-- A text without characters of the set stays as it is. -/
theorem encodeWith_of_clean {set : Char → Bool} {cs : List Char} (h : ∀ c ∈ cs, set c = false) :
    encodeWith set cs = cs := by
  induction cs with
  | nil => rfl
  | cons c cs ih =>
      have hc : set c = false := h c List.mem_cons_self
      have hcs := ih fun c hc => h c (List.mem_cons_of_mem _ hc)
      have hcons : encodeWith set (c :: cs) = [c] ++ encodeWith set cs := by
        simp only [encodeWith, List.flatMap_cons, hc, Bool.false_eq_true, if_false]
      rw [hcons, hcs]
      rfl

/-! ## 5. Segments -/

/-- A segment of a parsed path. -/
structure Plain (s : Segment) : Prop where
  chars : ∀ c ∈ s, pathSet c = false ∧ isSlash c = false
  single : singleDot s = false
  double : doubleDot s = false

theorem plain_nil : Plain [] := ⟨by simp, by decide, by decide⟩

theorem segments_cons {c : Char} (h : isSlash c = false) {cs : List Char} {s : Segment}
    {ss : List Segment} (hcs : segments cs = s :: ss) : segments (c :: cs) = (c :: s) :: ss := by
  simp only [segments, h, hcs, Bool.false_eq_true, if_false]

/-- A text without slashes is one segment. -/
theorem segments_single {s : Segment} (h : ∀ c ∈ s, isSlash c = false) : segments s = [s] := by
  induction s with
  | nil => rfl
  | cons c s ih =>
      exact segments_cons (h c List.mem_cons_self)
        (ih fun c hc => h c (List.mem_cons_of_mem _ hc))

theorem segments_append {s : Segment} (h : ∀ c ∈ s, isSlash c = false) (cs : List Char) :
    segments (s ++ '/' :: cs) = s :: segments cs := by
  induction s with
  | nil => rfl
  | cons c s ih =>
      exact segments_cons (h c List.mem_cons_self)
        (ih fun c hc => h c (List.mem_cons_of_mem _ hc))

theorem segments_ne_nil (cs : List Char) : segments cs ≠ [] := by
  cases cs with
  | nil => simp [segments]
  | cons c cs =>
      rw [segments]
      split
      · simp
      · split <;> simp

/-- A path that was cut has no slash in its segments. -/
theorem segments_slash {cs : List Char} : ∀ s ∈ segments cs, ∀ c ∈ s, isSlash c = false := by
  induction cs with
  | nil => simp [segments]
  | cons c cs ih =>
      rw [segments]
      split
      · intro s hs
        rcases List.mem_cons.mp hs with rfl | hs
        · simp
        · exact ih s hs
      · rename_i hc
        split
        · rename_i s ss heq
          rw [heq] at ih
          intro t ht
          rcases List.mem_cons.mp ht with rfl | ht
          · intro x hx
            rcases List.mem_cons.mp hx with rfl | hx
            · simpa using hc
            · exact ih s List.mem_cons_self x hx
          · exact ih t (List.mem_cons_of_mem _ ht)
        · rename_i heq
          exact absurd heq (segments_ne_nil cs)

/-- A path joined with slashes is cut into the same segments again. -/
theorem segments_join {path : List Segment} (hne : path ≠ [])
    (h : ∀ s ∈ path, ∀ c ∈ s, isSlash c = false) :
    segments (dropSlash (path.flatMap ('/' :: ·))) = path := by
  induction path with
  | nil => exact absurd rfl hne
  | cons s path ih =>
      have hs := h s List.mem_cons_self
      have hpath : ∀ t ∈ path, ∀ c ∈ t, isSlash c = false :=
        fun t ht => h t (List.mem_cons_of_mem _ ht)
      have hdrop : dropSlash ((s :: path).flatMap ('/' :: ·)) = s ++ path.flatMap ('/' :: ·) := rfl
      rw [hdrop]
      cases path with
      | nil => rw [List.flatMap_nil, List.append_nil, segments_single hs]
      | cons t path =>
          have hcons : (t :: path).flatMap ('/' :: ·) =
              '/' :: dropSlash ((t :: path).flatMap ('/' :: ·)) := rfl
          rw [hcons, segments_append hs, ih (by simp) hpath]

/-- Segments that are no dot segments are added one by one. -/
theorem addSegments_plain {ss : List Segment} (h : ∀ s ∈ ss, Plain s) (path : List Segment) :
    addSegments path ss = path ++ ss := by
  induction ss generalizing path with
  | nil => simp [addSegments]
  | cons s ss ih =>
      have hs := h s List.mem_cons_self
      have hrest := ih fun t ht => h t (List.mem_cons_of_mem _ ht)
      cases ss with
      | nil => simp [addSegments, hs.single, hs.double]
      | cons t ss => simp [addSegments, hs.single, hs.double, hrest]

theorem addSegments_cons {s : Segment} {ss : List Segment} (h : ss ≠ []) (path : List Segment) :
    addSegments path (s :: ss) = addSegments (if doubleDot s then path.dropLast
      else if singleDot s then path else path ++ [s]) ss := by
  cases ss with
  | nil => exact absurd rfl h
  | cons t ss =>
      show (if doubleDot s then _ else _) = _
      split
      · rfl
      · split <;> rfl

/-- Only plain segments are kept. -/
theorem addSegments_normal {ss : List Segment} {path : List Segment}
    (hss : ∀ s ∈ ss, ∀ c ∈ s, pathSet c = false ∧ isSlash c = false) (hpath : ∀ s ∈ path, Plain s) :
    ∀ s ∈ addSegments path ss, Plain s := by
  have happend : ∀ {p : List Segment} {s : Segment}, (∀ t ∈ p, Plain t) → Plain s →
      ∀ t ∈ p ++ [s], Plain t := by
    intro p s hp hs t ht
    rcases List.mem_append.mp ht with ht | ht
    · exact hp t ht
    · exact List.mem_singleton.mp ht ▸ hs
  have hdropLast : ∀ {p : List Segment}, (∀ t ∈ p, Plain t) → ∀ t ∈ p.dropLast, Plain t :=
    fun hp t ht => hp t (List.dropLast_subset _ ht)
  induction ss generalizing path with
  | nil => exact hpath
  | cons s ss ih =>
      have hs := hss s List.mem_cons_self
      by_cases hnil : ss = []
      · subst hnil
        rw [addSegments]
        split
        · exact happend (hdropLast hpath) plain_nil
        · rename_i hdouble
          split
          · exact happend hpath plain_nil
          · rename_i hsingle
            exact happend hpath ⟨hs, by simpa using hsingle, by simpa using hdouble⟩
      · rw [addSegments_cons hnil]
        refine ih (fun t ht => hss t (List.mem_cons_of_mem _ ht)) ?_
        split
        · exact hdropLast hpath
        · rename_i hdouble
          split
          · exact hpath
          · rename_i hsingle
            exact happend hpath ⟨hs, by simpa using hsingle, by simpa using hdouble⟩

theorem addSegments_ne_nil {ss : List Segment} (h : ss ≠ []) (path : List Segment) :
    addSegments path ss ≠ [] := by
  induction ss generalizing path with
  | nil => exact absurd rfl h
  | cons s ss ih =>
      by_cases hnil : ss = []
      · subst hnil
        rw [addSegments]
        repeat' split
        all_goals simp
      · rw [addSegments_cons hnil]
        exact ih hnil _

theorem parsePath_ne_nil (cs : List Char) : parsePath cs ≠ [] :=
  addSegments_ne_nil (by simpa using segments_ne_nil _) []

theorem isSlash_escape {x : Char} (h : x = '%' ∨ ∃ n < 16, x = hexDigit n) : isSlash x = false := by
  have hall : ∀ n < 16, isSlash (hexDigit n) = false := by decide
  rcases h with rfl | ⟨n, hn, rfl⟩
  · rfl
  · exact hall n hn

/-- **The segments of a parsed path**: no slash is left in them, no character of the path
    percent-encode set, and none of them is a dot segment. -/
theorem parsePath_plain (cs : List Char) : ∀ s ∈ parsePath cs, Plain s := by
  refine addSegments_normal (fun s hs c hc => ?_) (by simp)
  obtain ⟨t, ht, rfl⟩ := List.mem_map.mp hs
  refine ⟨encodeWith_clean spares_path c hc, ?_⟩
  rcases mem_encodeWith hc with ⟨hct, _⟩ | h
  · exact segments_slash t ht c hct
  · exact isSlash_escape h

theorem parsePath_join {path : List Segment} (hne : path ≠ []) (h : ∀ s ∈ path, Plain s) :
    parsePath (path.flatMap ('/' :: ·)) = path := by
  have hslash : ∀ s ∈ path, ∀ c ∈ s, isSlash c = false := fun s hs c hc => ((h s hs).chars c hc).2
  have hencode : path.map (encodeWith pathSet) = path := by
    refine (List.map_congr_left fun s hs => ?_).trans (List.map_id _)
    exact encodeWith_of_clean fun c hc => ((h s hs).chars c hc).1
  rw [parsePath, segments_join hne hslash, hencode, addSegments_plain h, List.nil_append]

/-! ## 6. A URL parses as itself -/

/-- **What holds of a URL that was parsed**: its parts are encoded. -/
structure Normal (u : Url H) : Prop where
  authority : ∃ text, H.parse u.scheme text = some u.authority
  nonempty : u.path ≠ []
  plain : ∀ s ∈ u.path, Plain s
  query : ∀ q ∈ u.query, ∀ c ∈ q, specialQuerySet c = false
  fragment : ∀ f ∈ u.fragment, ∀ c ∈ f, fragmentSet c = false

theorem parse_normal {text : String} {u : Url H} (h : parse H text = some u) : Normal u := by
  unfold parse at h
  split at h
  · cases h
  · rename_i scheme rest _
    dsimp only at h
    split at h
    · cases h
    · rename_i authority hauthority
      cases h
      refine ⟨⟨_, hauthority⟩, parsePath_ne_nil _, parsePath_plain _, ?_, ?_⟩
      · intro q hq
        obtain ⟨r, _, rfl⟩ := Option.map_eq_some_iff.mp hq
        exact encodeWith_clean spares_query
      · intro f hf
        obtain ⟨r, _, rfl⟩ := Option.map_eq_some_iff.mp hf
        exact encodeWith_clean spares_fragment

theorem Normal.setPathname {u : Url H} (h : Normal u) (value : String) :
    Normal (u.setPathname value) :=
  ⟨h.authority, parsePath_ne_nil _, parsePath_plain _, h.query, h.fragment⟩

theorem Normal.clearSearch {u : Url H} (h : Normal u) : Normal u.clearSearch :=
  ⟨h.authority, h.nonempty, h.plain, fun _ hq => (by cases hq), h.fragment⟩

section Href

variable {u : Url H}

theorem visible_of_c0 {c : Char} (hc0 : c0Set c = false) (hspace : c ≠ ' ') : visible c = true := by
  have hlt : 0x1F < c.toNat := by
    simp only [c0Set, Bool.or_eq_false_iff, decide_eq_false_iff_not] at hc0
    omega
  have hne : c.toNat ≠ 0x20 := fun h => hspace (char_of_toNat h)
  simp only [visible, decide_eq_true_eq]
  omega

theorem querySet_false {c : Char} (h : querySet c = false) :
    visible c = true ∧ c ≠ '#' := by
  simp only [querySet, Bool.or_eq_false_iff] at h
  have hspace : c ≠ ' ' := by
    intro heq
    subst heq
    exact absurd h.2 (by decide)
  have hhash : c ≠ '#' := by
    intro heq
    subst heq
    exact absurd h.2 (by decide)
  exact ⟨visible_of_c0 h.1 hspace, hhash⟩

theorem pathSet_false {c : Char} (h : pathSet c = false) :
    visible c = true ∧ c ≠ '#' ∧ c ≠ '?' := by
  simp only [pathSet, Bool.or_eq_false_iff] at h
  have hmark : c ≠ '?' := by
    intro heq
    subst heq
    exact absurd h.2 (by decide)
  exact ⟨(querySet_false h.1).1, (querySet_false h.1).2, hmark⟩

theorem fragmentSet_false {c : Char} (h : fragmentSet c = false) : visible c = true := by
  simp only [fragmentSet, Bool.or_eq_false_iff] at h
  refine visible_of_c0 h.1 ?_
  intro heq
  subst heq
  exact absurd h.2 (by decide)

theorem Normal.pathChars (h : Normal u) : ∀ c ∈ u.pathChars,
    visible c = true ∧ c ≠ '#' ∧ c ≠ '?' := by
  intro c hc
  obtain ⟨s, hs, hc⟩ := List.mem_flatMap.mp hc
  rcases List.mem_cons.mp hc with rfl | hc
  · decide
  · exact pathSet_false ((h.plain s hs).chars c hc).1

theorem Normal.pathChars_cons (h : Normal u) : ∃ cs, u.pathChars = '/' :: cs := by
  unfold Url.pathChars
  cases hp : u.path with
  | nil => exact absurd hp h.nonempty
  | cons s ss => exact ⟨_, rfl⟩

theorem Normal.tail (h : Normal u) : ∀ c ∈ u.tail, visible c = true := by
  intro c hc
  rcases List.mem_append.mp hc with hc | hc
  · cases hq : u.query with
    | none => simp [hq] at hc
    | some q =>
        rw [hq] at hc
        rcases List.mem_cons.mp hc with rfl | hc
        · rfl
        · have hset := h.query q hq c hc
          simp only [specialQuerySet, Bool.or_eq_false_iff] at hset
          exact (querySet_false hset.1).1
  · cases hf : u.fragment with
    | none => simp [hf] at hc
    | some f =>
        rw [hf] at hc
        rcases List.mem_cons.mp hc with rfl | hc
        · rfl
        · exact fragmentSet_false (h.fragment f hf c hc)

theorem Normal.serialize (h : Normal u) : H.serialize u.authority ≠ [] ∧
    (∀ c ∈ H.serialize u.authority, visible c = true ∧ isDelimiter c = false) ∧
    H.parse u.scheme (H.serialize u.authority) = some u.authority := by
  obtain ⟨t, ht⟩ := h.authority
  exact ⟨H.nonempty _ _ _ ht, H.chars _ _ _ ht, H.again _ _ _ ht⟩

theorem Normal.hrefChars (h : Normal u) : ∀ c ∈ u.hrefChars, visible c = true := by
  have hscheme : ∀ c ∈ u.scheme.text, visible c = true :=
    List.all_eq_true.mp (by cases u.scheme <;> decide)
  intro c hc
  simp only [Url.hrefChars, List.mem_append] at hc
  rcases hc with (((hc | hc) | hc) | hc) | hc
  · exact hscheme c hc
  · have hall : ∀ c ∈ "://".toList, visible c = true := List.all_eq_true.mp (by decide)
    exact hall c hc
  · exact (h.serialize.2.1 c hc).1
  · exact (h.pathChars c hc).1
  · exact h.tail c hc

theorem dropBreaks_of_visible {cs : List Char} (h : ∀ c ∈ cs, visible c = true) :
    dropBreaks cs = cs := by
  refine List.filter_eq_self.mpr fun c hc => ?_
  have hc := h c hc
  have hne : ∀ d : Char, visible d = false → c ≠ d := by
    rintro d hd rfl
    rw [hc] at hd
    cases hd
  have htab := hne '\t' rfl
  have hnewline := hne '\n' rfl
  have hreturn := hne '\r' rfl
  simp [htab, hnewline, hreturn]

theorem dropWhile_of_visible {cs : List Char} (h : ∀ c ∈ cs, visible c = true) :
    cs.dropWhile (!visible ·) = cs := by
  cases cs with
  | nil => rfl
  | cons c cs => exact List.dropWhile_cons_of_neg (by simp [h c List.mem_cons_self])

/-- A text without controls and spaces stays as it is. -/
theorem strip_of_visible {cs : List Char} (h : ∀ c ∈ cs, visible c = true) : strip cs = cs := by
  have hreverse : ∀ c ∈ cs.reverse, visible c = true := fun c hc => h c (List.mem_reverse.mp hc)
  rw [strip, dropWhile_of_visible h, dropWhile_of_visible hreverse, List.reverse_reverse,
    dropBreaks_of_visible h]

/-- A text is cut where its first part ends. -/
theorem span_append {p : Char → Bool} {a : List Char} (ha : ∀ c ∈ a, p c = true) {b : List Char}
    (hb : ∀ c ∈ b.head?, p c = false) : (a ++ b).span p = (a, b) := by
  rw [List.span_eq_takeWhile_dropWhile, List.takeWhile_append_of_pos ha,
    List.dropWhile_append_of_pos ha]
  cases b with
  | nil => simp
  | cons c b =>
      have hc := hb c rfl
      simp [hc]

theorem parseScheme_text (s : Scheme) (cs : List Char) :
    parseScheme (s.text ++ ':' :: cs) = some (s, cs) := by
  have hspan : (s.text ++ ':' :: cs).span (· != ':') = (s.text, ':' :: cs) :=
    span_append (List.all_eq_true.mp (by cases s <;> decide)) (by simp)
  unfold parseScheme
  rw [hspan]
  cases s with
  | http => exact if_pos (by decide)
  | https => exact (if_neg (by decide)).trans (if_pos (by decide))

theorem Normal.cut (h : Normal u) :
    Whatwg.cut (u.pathChars ++ u.tail) = (u.pathChars, u.query, u.fragment) := by
  have hpath : ∀ c ∈ u.pathChars, (c != '?' && c != '#') = true := by
    intro c hc
    simp [(h.pathChars c hc).2]
  have hhead : ∀ c ∈ u.tail.head?, (c != '?' && c != '#') = false := by
    unfold Url.tail
    cases u.query <;> cases u.fragment <;> simp
  unfold Whatwg.cut
  rw [span_append hpath hhead]
  unfold Url.tail
  cases hq : u.query with
  | none => cases hf : u.fragment <;> rfl
  | some q =>
      have hquery : ∀ c ∈ q, (c != '#') = true := by
        intro c hc
        have hset := h.query q hq c hc
        simp only [specialQuerySet, Bool.or_eq_false_iff] at hset
        simpa using (querySet_false hset.1).2
      cases hf : u.fragment with
      | none =>
          have hspan : (q ++ []).span (· != '#') = (q, []) := span_append hquery (by simp)
          simp only [List.cons_append, hspan]
          rfl
      | some f =>
          have hspan : (q ++ '#' :: f).span (· != '#') = (q, '#' :: f) :=
            span_append hquery (by simp)
          simp only [List.cons_append, hspan]
          rfl

/-- **A URL, serialised and parsed again, is the same URL.** -/
theorem parse_href (h : Normal u) : parse H u.href = some u := by
  obtain ⟨hne, hchars, hagain⟩ := h.serialize
  obtain ⟨cs, hcs⟩ := h.pathChars_cons
  have hstrip : strip u.href.toList =
      u.scheme.text ++ ':' :: ('/' :: '/' :: (H.serialize u.authority ++
        (u.pathChars ++ u.tail))) := by
    rw [Url.href, String.toList_ofList, strip_of_visible h.hrefChars]
    simp [Url.hrefChars]
  have hslashes : ('/' :: '/' :: (H.serialize u.authority ++ (u.pathChars ++ u.tail))).dropWhile
      isSlash = H.serialize u.authority ++ (u.pathChars ++ u.tail) := by
    cases ha : H.serialize u.authority with
    | nil => exact absurd ha hne
    | cons c as =>
        have hdelimiter := (hchars c (by simp [ha])).2
        have hc : isSlash c = false := by
          simp only [isDelimiter, Bool.or_eq_false_iff] at hdelimiter
          exact hdelimiter.1.1
        have hneg : ¬ isSlash c = true := by simp [hc]
        exact List.dropWhile_cons_of_neg hneg
  have hauthority : (H.serialize u.authority ++ (u.pathChars ++ u.tail)).span (!isDelimiter ·) =
      (H.serialize u.authority, u.pathChars ++ u.tail) := by
    refine span_append (fun c hc => by simp [(hchars c hc).2]) ?_
    rw [hcs]
    simp [isDelimiter, isSlash]
  have hpath : parsePath u.pathChars = u.path := parsePath_join h.nonempty h.plain
  have hquery : u.query.map (encodeWith specialQuerySet) = u.query := by
    cases hq : u.query with
    | none => rfl
    | some q => exact congrArg some (encodeWith_of_clean (h.query q hq))
  have hfragment : u.fragment.map (encodeWith fragmentSet) = u.fragment := by
    cases hf : u.fragment with
    | none => rfl
    | some f => exact congrArg some (encodeWith_of_clean (h.fragment f hf))
  simp only [parse, hstrip, parseScheme_text, hslashes, hauthority, hagain, h.cut, hpath, hquery,
    hfragment]

end Href

/-! ## 7. Host names -/

def hostChar (c : Char) : Bool := c.isLower || c == '.'

theorem hostChar_plain {c : Char} (h : hostChar c = true) :
    visible c = true ∧ isDelimiter c = false := by
  have hlt : c.toNat < 128 := by
    rcases Bool.or_eq_true_iff.mp h with h | h
    · exact alphanum_lt (by simp [Char.isAlphanum, Char.isAlpha, h])
    · rw [beq_iff_eq.mp h]
      decide
  have hall : ∀ n < 128, hostChar (Char.ofNat n) = true →
      visible (Char.ofNat n) = true ∧ isDelimiter (Char.ofNat n) = false := by decide
  have hc := hall c.toNat hlt
  rw [Char.ofNat_toNat] at hc
  exact hc h

/-- Names of lower-case letters and dots: they parse as they are. -/
def hostNames : Authorities where
  Authority := { cs : List Char // cs ≠ [] ∧ cs.all hostChar = true }
  parse _ cs := if h : cs ≠ [] ∧ cs.all hostChar = true then some ⟨cs, h⟩ else none
  serialize a := a.1
  nonempty _ _ a _ := a.2.1
  chars _ _ a _ c hc := hostChar_plain (List.all_eq_true.mp a.2.2 c hc)
  again _ _ a _ := dif_pos a.2

end Whatwg
