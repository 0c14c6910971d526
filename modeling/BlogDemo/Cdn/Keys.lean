/-
  File:      BlogDemo/Cdn/Keys.lean
  Subject:   THE KEY OF AN IMAGE, from the image route to the raw route: decoded from the URL of the
             request, encoded into the URL of the subrequest, and decoded there again.

  * `plain_encode` -- an encoded key is a segment of a path, unless the key is `.` or `..`;
  * `key_ne_dots` -- no key is one of these: the parser of the first URL removed such segments;
  * **`rawKey_eq`** -- the raw route reads R2 under the key the image route was asked for.
-/
import BlogDemo.Cdn.Worker

namespace Cdn

open Js Atomic Uri Whatwg

variable {H : Authorities}

/-! ## 1. Keys as segments -/

theorem unreserved_plain {c : Char} (h : unreserved c = true) :
    pathSet c = false ∧ isSlash c = false := by
  have hlt : c.toNat < 128 := by
    rcases Bool.or_eq_true_iff.mp h with h | h
    · exact alphanum_lt h
    · have hmarks : ∀ d ∈ "-_.!~*'()".toList, d.toNat < 128 :=
        List.all_iff_forall_prop.mp (by decide)
      exact hmarks c (List.contains_iff_mem.mp h)
  have hall : ∀ n < 128, unreserved (Char.ofNat n) = true →
      pathSet (Char.ofNat n) = false ∧ isSlash (Char.ofNat n) = false := by decide
  have hc := hall c.toNat hlt
  rw [Char.ofNat_toNat] at hc
  exact hc h

/-- The key is no dot segment. -/
def NoDots (cs : List Char) : Prop := cs ≠ ['.'] ∧ cs ≠ ['.', '.']

theorem decode_dots {d : List Char} (h : d ∈ dots) : decode d = some ['.'] := by
  have hall : ∀ d ∈ dots, decode d = some ['.'] := by decide
  exact hall d h

theorem decode_double {d : List Char} (h : doubleDot d = true) : decode d = some ['.', '.'] := by
  have hall : ∀ a ∈ dots, ∀ b ∈ dots, decode (a ++ b) = some ['.', '.'] := by decide
  simp only [doubleDot, List.any_eq_true, beq_iff_eq] at h
  obtain ⟨a, ha, b, hb, rfl⟩ := h
  exact hall a ha b hb

/-- **An encoded key is a segment**, unless the key is one or two dots. -/
theorem plain_encode {cs : List Char} (h : NoDots cs) : Plain (encode cs) := by
  refine ⟨fun c hc => ?_, ?_, ?_⟩
  · rcases encode_chars hc with hc | rfl
    · exact unreserved_plain hc
    · decide
  · refine Bool.eq_false_iff.mpr fun hdot => h.1 ?_
    have hdecode := decode_dots (List.contains_iff_mem.mp hdot)
    rw [decode_encode] at hdecode
    exact Option.some.inj hdecode
  · refine Bool.eq_false_iff.mpr fun hdot => h.2 ?_
    have hdecode := decode_double hdot
    rw [decode_encode] at hdecode
    exact Option.some.inj hdecode

/-- A path that begins with `/img/` and has no other slash ends in a segment. -/
theorem plain_rest {url : Url H} (h : Normal url) {rest : List Char}
    (hpath : url.pathChars = IMG_PREFIX.toList ++ rest) (hrest : ∀ c ∈ rest, isSlash c = false) :
    Plain rest := by
  have hslash : ∀ s ∈ url.path, ∀ c ∈ s, isSlash c = false :=
    fun s hs c hc => ((h.plain s hs).chars c hc).2
  have hsegments : segments (dropSlash url.pathChars) = ["img".toList, rest] := by
    rw [hpath]
    show segments ("img".toList ++ '/' :: rest) = _
    rw [segments_append (List.all_iff_forall_prop.mp (by decide)), segments_single hrest]
  have hpath : url.path = ["img".toList, rest] := by
    rw [← hsegments]
    exact (segments_join h.nonempty hslash).symm
  exact h.plain rest (by simp [hpath])

/-- **No key is one or two dots.** -/
theorem key_ne_dots {url : Url H} (h : Normal url) {rest key : List Char}
    (hpath : url.pathChars = IMG_PREFIX.toList ++ rest) (hkey : decode rest = some key) :
    NoDots key := by
  have hslash : ∀ d ∈ dots, ∀ c ∈ d, isSlash c = false := by
    have hall : dots.all (fun d => d.all fun c => !isSlash c) = true := by decide
    intro d hd c hc
    simpa using List.all_eq_true.mp (List.all_eq_true.mp hall d hd) c hc
  constructor
  · intro heq
    subst heq
    obtain ⟨d, hd, r, rfl, hr⟩ := decode_dot hkey
    obtain rfl := decode_nil hr
    rw [List.append_nil] at hpath
    have hplain := plain_rest h hpath (hslash d hd)
    have hdot : singleDot d = true := List.contains_iff_mem.mpr hd
    rw [hplain.single] at hdot
    cases hdot
  · intro heq
    subst heq
    obtain ⟨d, hd, r, rfl, hr⟩ := decode_dot hkey
    obtain ⟨d', hd', r', rfl, hr'⟩ := decode_dot hr
    obtain rfl := decode_nil hr'
    rw [List.append_nil] at hpath
    have hplain := plain_rest h hpath fun c hc => by
      rcases List.mem_append.mp hc with hc | hc
      · exact hslash d hd c hc
      · exact hslash d' hd' c hc
    have hdot : doubleDot (d ++ d') = true := by
      simp only [doubleDot, List.any_eq_true, beq_iff_eq]
      exact ⟨d, hd, d', hd', rfl⟩
    rw [hplain.double] at hdot
    cases hdot

/-! ## 2. The URL of the raw image -/

theorem toRawUrl_pathname (url : Url H) {key : String} (h : NoDots key.toList) :
    (toRawUrl url key).pathname = RAW_PREFIX ++ encodeURIComponent key := by
  have hplain := plain_encode h
  have hjoin : (RAW_PREFIX ++ encodeURIComponent key).toList =
      ["raw".toList, encode key.toList].flatMap ('/' :: ·) := by
    simp [RAW_PREFIX, encodeURIComponent, String.toList_append]
  have hvisible : ∀ c ∈ (RAW_PREFIX ++ encodeURIComponent key).toList, visible c = true := by
    intro c hc
    rw [String.toList_append] at hc
    rcases List.mem_append.mp hc with hc | hc
    · have hall : ∀ c ∈ RAW_PREFIX.toList, visible c = true := List.all_eq_true.mp (by decide)
      exact hall c hc
    · rw [encodeURIComponent, String.toList_ofList] at hc
      exact (pathSet_false (hplain.chars c hc).1).1
  have hpath : (toRawUrl url key).path = ["raw".toList, encode key.toList] := by
    unfold toRawUrl Url.clearSearch Url.setPathname
    rw [dropBreaks_of_visible hvisible, hjoin]
    refine parsePath_join (by simp) fun s hs => ?_
    rcases List.mem_cons.mp hs with rfl | hs
    · exact ⟨List.all_iff_forall_prop.mp (by decide), by decide, by decide⟩
    · exact List.mem_singleton.mp hs ▸ hplain
  rw [Url.pathname, Url.pathChars, hpath, ← hjoin, String.ofList_toList]

/-! ## 3. From the image route to the raw route -/

/-- The call a program makes first. -/
def firstCall {α : Type} : Prog Op Answer α → Option Op
  | .ret _ => none
  | .call op _ => some op

/-- The request that is sent when the cache has no response. -/
def fetchedOnMiss {α : Type} : Prog Op Answer α → Option Subrequest
  | .call (.cacheMatch _) next =>
    match next (.ok none) with
    | .call (.fetch sub) _ => some sub
    | _ => none
  | _ => none

/-- The program reads R2 once, under this key, and makes no other call. -/
def Reads {α : Type} (key : String) (p : Prog Op Answer α) : Prop :=
  firstCall p = some (.get key) ∧ p.Issues (· = .get key)

theorem serveRaw_reads (request : Request H) (key : String) :
    Reads key (serveRawFromR2 request key).run := by
  refine ⟨rfl, rfl, fun r => ?_⟩
  cases r <;> trivial

theorem fetch_reads {request : Request H} {key : String} (h : route request = .raw key) :
    Reads key (fetch request) := by
  rw [fetch_route, h]
  exact serveRaw_reads request key

theorem fetch_fetched {request : Request H} {url : Url H} {key : String}
    (h : route request = .image url key) :
    fetchedOnMiss (fetch request) = some (subrequest request url url key) := by
  rw [fetch_route, h]
  rfl

theorem parsed_eq {request : Request H} {url : Url H} (h : Normal url)
    (hurl : request.url = url.href) : request.parsed = url := by
  refine Option.some.inj ?_
  rw [← request.parse_url, hurl, parse_href h]

/-- The raw route, for a URL with this path. -/
theorem route_raw {request : Request H} (hmethod : request.method = "GET" ∨ request.method = "HEAD")
    {key : String} (hne : key ≠ "")
    (hpath : request.parsed.pathname = RAW_PREFIX ++ encodeURIComponent key) :
    route request = .raw key := by
  have hallowed : ¬ (request.method ≠ "GET" ∧ request.method ≠ "HEAD") :=
    fun h => hmethod.elim h.1 h.2
  simp only [route, if_neg hallowed, hpath, startsWith_append, slice_append, if_true, routeKey,
    decodeURIComponent_encode, hne, if_false]

theorem route_image {request : Request H}
    (hmethod : request.method = "GET" ∨ request.method = "HEAD")
    (himg : startsWith request.parsed.pathname IMG_PREFIX = true) {key : String}
    (hkey : decodeURIComponent (slice request.parsed.pathname IMG_PREFIX) = .ok key)
    (hne : key ≠ "") : route request = .image request.parsed key := by
  have hallowed : ¬ (request.method ≠ "GET" ∧ request.method ≠ "HEAD") :=
    fun h => hmethod.elim h.1 h.2
  have hraw : startsWith request.parsed.pathname RAW_PREFIX = false := by
    rw [startsWith, eq_append_slice himg]
    rfl
  simp only [route, if_neg hallowed, hraw, himg, Bool.false_eq_true, if_false, if_true, routeKey,
    hkey, hne]

theorem decode_of_ok {text key : String} (h : decodeURIComponent text = .ok key) :
    decode text.toList = some key.toList := by
  unfold decodeURIComponent at h
  split at h
  · rename_i cs hcs
    cases h
    rw [hcs, String.toList_ofList]
  · cases h

/-- **The raw route reads R2 under the key the image route was asked for**: for a request whose path
    begins with `/img/` and decodes to a key, the URL of the subrequest is one, and the handler,
    asked for it, reads that key. -/
theorem rawKey_eq (request : Request H) (hmethod : request.method = "GET" ∨ request.method = "HEAD")
    (himg : startsWith request.parsed.pathname IMG_PREFIX = true) (key : String)
    (hkey : decodeURIComponent (slice request.parsed.pathname IMG_PREFIX) = .ok key)
    (hne : key ≠ "") :
    ∃ sub, fetchedOnMiss (fetch request) = some sub ∧ (Whatwg.parse H sub.url).isSome ∧
      ∀ request' : Request H, request'.url = sub.url → request'.method = sub.method →
        Reads key (fetch request') := by
  have hraw : Normal (toRawUrl request.parsed key) := (request.normal.setPathname _).clearSearch
  have hdots : NoDots key.toList := by
    refine key_ne_dots request.normal ?_ (decode_of_ok hkey)
    rw [← eq_append_slice himg, Url.pathname, String.toList_ofList]
  refine ⟨_, fetch_fetched (route_image hmethod himg hkey hne), ?_, fun request' hurl hmethod' => ?_⟩
  · exact Option.isSome_of_eq_some (parse_href hraw)
  · have hparsed : request'.parsed = toRawUrl request.parsed key := parsed_eq hraw hurl
    have hmethod'' : request'.method = "GET" ∨ request'.method = "HEAD" := by
      rw [hmethod']
      exact hmethod
    refine fetch_reads (route_raw hmethod'' hne ?_)
    rw [hparsed, toRawUrl_pathname request.parsed hdots]

def keyRequest : Request hostNames where
  method := "GET"
  url := "https://cdn.example/img/a%2F../%e2%82%ac%3F.png?w=100"
  headers := Attrs.absent
  valid := by decide +kernel

/-- A key with a slash, two dots, a question mark and a character outside ASCII. -/
theorem rawKey_eq_demo : ∃ sub, fetchedOnMiss (fetch keyRequest) = some sub ∧
    (Whatwg.parse hostNames sub.url).isSome ∧
    ∀ request' : Request hostNames, request'.url = sub.url → request'.method = sub.method →
      Reads "a/../€?.png" (fetch request') :=
  rawKey_eq keyRequest (Or.inl rfl) (by decide +kernel) "a/../€?.png" (by decide +kernel)
    (by decide)

end Cdn
