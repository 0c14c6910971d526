/-
  File:      BlogDemo/Pac/Images.lean
  Subject:   WHICH IMAGES K8sDisallowLatest REPORTS, over every image reference and every list of
             containers of the three kinds.

  The template looks for colons, and at the containers and the init containers alone. A port has a
  colon too.

  * `flagged_iff` -- what it reports of one reference;
  * **`exact_iff`** -- it is exact for a pod, whatever ports its registries have, if and only if no
    container resolves to `latest`, or one that it looks at does so plainly.
-/
import BlogDemo.Pac.Coverage
import BlogDemo.Lib.ImageReference

namespace Pac

open Js Admission Rego CoreV1 Oci

/-! ## 1. Pods whose images are references -/

/-- A container; its image is the reference. -/
structure ImageContainer where
  container : Container
  image : Reference

def ImageContainer.toContainer (c : ImageContainer) : Container :=
  { c.container with image := c.image.text }

/-- A pod; its containers are these. -/
structure ImagePod where
  pod : Pod
  containers : List ImageContainer
  initContainers : List ImageContainer
  ephemeralContainers : List ImageContainer

def ImagePod.toPod (p : ImagePod) : Pod :=
  { p.pod with
    containers := p.containers.map (·.toContainer)
    initContainers := p.initContainers.map (·.toContainer)
    ephemeralContainers := p.ephemeralContainers.map (·.toContainer) }

/-- The containers of all three kinds. -/
def ImagePod.all (p : ImagePod) : List ImageContainer :=
  p.containers ++ p.initContainers ++ p.ephemeralContainers

/-- The containers in `all_containers`. -/
def ImagePod.checked (p : ImagePod) : List ImageContainer := p.containers ++ p.initContainers

def ImageContainer.withPort (port : Option (Chars Char.isDigit 1)) (c : ImageContainer) :
    ImageContainer :=
  { c with image := c.image.withPort port }

/-- The pod with this port for every registry. -/
def ImagePod.withPort (port : Option (Chars Char.isDigit 1)) (p : ImagePod) : ImagePod where
  pod := p.pod
  containers := p.containers.map (·.withPort port)
  initContainers := p.initContainers.map (·.withPort port)
  ephemeralContainers := p.ephemeralContainers.map (·.withPort port)

/-- Nothing but the ports of the registries is different. -/
def SameButPorts (p q : ImagePod) : Prop := p.withPort none = q.withPort none

/-- The template reports a violation. -/
def Reports (p : ImagePod) : Prop := k8sDisallowLatest p.toPod.toJson ≠ []

/-- **The template is exact for this pod**: it reports what resolves to `latest`, and the ports of
    the registries change nothing. -/
structure Exact (p : ImagePod) : Prop where
  reports : Reports p ↔ ∃ c ∈ p.all, c.image.ResolvesToLatest
  ports : ∀ q, SameButPorts p q → (Reports q ↔ Reports p)

/-! ## 2. One reference -/

/-- What the two rules find of a reference. -/
def Flagged (r : Reference) : Prop :=
  isTagless (.str r.text) = true ∨ isLatest (.str r.text) = true

/-- The tag `latest`, or neither registry nor tag nor digest. -/
def Plain (r : Reference) : Prop := r.TaggedLatest ∨ r.Bare ∧ r.registry = none

theorem isTagless_iff (s : String) : isTagless (.str s) = true ↔ ':' ∉ s.toList := by
  have hcolon : ":".toList = [':'] := rfl
  have hdigest : "@sha256:".toList <:+: s.toList → ':' ∈ s.toList :=
    fun h => h.subset (by decide)
  simp only [isTagless, contains, hcolon, List.singleton_infix_iff, Bool.and_eq_true,
    Bool.not_eq_true', decide_eq_false_iff_not]
  exact and_iff_left_of_imp fun h hd => h (hdigest hd)

/-- **What the template reports of a reference**: the tag `latest`, and a bare reference whose
    registry has no colon. -/
theorem flagged_iff (r : Reference) :
    Flagged r ↔ r.TaggedLatest ∨
      r.Bare ∧ ∀ registry, r.registry = some registry → ':' ∉ registry.text.toList := by
  have hlatest : isLatest (.str r.text) = true ↔ r.TaggedLatest := by
    rw [isLatest, endswith, decide_eq_true_iff]
    exact r.latest_suffix
  rw [Flagged, isTagless_iff, r.colon_mem, hlatest]
  simp only [not_or, not_exists, not_and, not_not]
  constructor
  · intro h
    rcases h with ⟨hregistry, hbare⟩ | hlatest
    · exact Or.inr ⟨hbare, hregistry⟩
    · exact Or.inl hlatest
  · intro h
    rcases h with hlatest | ⟨hbare, hregistry⟩
    · exact Or.inr hlatest
    · exact Or.inl ⟨hregistry, hbare⟩

/-- What is reported resolves to `latest`. -/
theorem Flagged.resolves {r : Reference} (h : Flagged r) : r.ResolvesToLatest := by
  rcases (flagged_iff r).mp h with hlatest | ⟨hbare, -⟩
  · exact Or.inr hlatest
  · exact Or.inl hbare

theorem Plain.flagged {r : Reference} (h : Plain r) : Flagged r := by
  refine (flagged_iff r).mpr ?_
  rcases h with hlatest | ⟨hbare, hnone⟩
  · exact Or.inl hlatest
  · refine Or.inr ⟨hbare, fun registry hr => ?_⟩
    rw [hnone] at hr
    cases hr

/-- A port hides a bare reference, if it has a registry. -/
theorem plain_of_flagged_port {r : Reference} (port : Chars Char.isDigit 1)
    (h : Flagged (r.withPort (some port))) : Plain r := by
  rcases (flagged_iff _).mp h with hlatest | ⟨hbare, hregistry⟩
  · exact Or.inl hlatest
  · refine Or.inr ⟨hbare, ?_⟩
    cases hr : r.registry with
    | none => rfl
    | some registry =>
      have hport := hregistry { registry with port := some port } (by simp [Reference.withPort, hr])
      have hcolon : ":".toList = [':'] := rfl
      exact absurd (by simp [Registry.text, hcolon]) hport

/-- Two references that differ in the port only are plain together. -/
theorem plain_withPort (r : Reference) (port : Option (Chars Char.isDigit 1)) :
    Plain (r.withPort port) ↔ Plain r := by
  have hnone : (r.withPort port).registry = none ↔ r.registry = none := Option.map_eq_none_iff
  exact or_congr Iff.rfl (and_congr Iff.rfl hnone)

/-! ## 3. A pod -/

/-- It reports what it finds among the containers and the init containers. -/
theorem reports_iff (p : ImagePod) : Reports p ↔ ∃ c ∈ p.checked, Flagged c.image := by
  have hpinned : ∀ c : ImageContainer, Pinned c.toContainer ↔ ¬ Flagged c.image := by
    intro c
    rw [Flagged, not_or, Bool.not_eq_true, Bool.not_eq_true]
    exact forall_prop_of_true c.image.text_ne_empty
  have hlist : p.toPod.containers ++ p.toPod.initContainers =
      p.checked.map (·.toContainer) := (List.map_append ..).symm
  rw [Reports, ne_eq, k8sDisallowLatest_nil, hlist, List.forall_mem_map]
  simp only [hpinned, not_forall, not_not, exists_prop]

theorem checked_withPort (p : ImagePod) (port : Option (Chars Char.isDigit 1)) :
    (p.withPort port).checked = p.checked.map (·.withPort port) := (List.map_append ..).symm

/-- What does not depend on the port is found among the containers of both pods. -/
theorem sameButPorts_exists {P : Reference → Prop} (hP : ∀ r, P (r.withPort none) ↔ P r)
    {p q : ImagePod} (h : SameButPorts p q) (hp : ∃ c ∈ p.checked, P c.image) :
    ∃ c ∈ q.checked, P c.image := by
  obtain ⟨c, hc, hholds⟩ := hp
  have hchecked : p.checked.map (·.withPort none) = q.checked.map (·.withPort none) := by
    rw [← checked_withPort, ← checked_withPort, h]
  have hmem : c.withPort none ∈ q.checked.map (·.withPort none) :=
    hchecked ▸ List.mem_map_of_mem hc
  obtain ⟨d, hd, heq⟩ := List.mem_map.mp hmem
  have himage : d.image.withPort none = c.image.withPort none :=
    congrArg ImageContainer.image heq
  refine ⟨d, hd, (hP d.image).mp ?_⟩
  rw [himage]
  exact (hP c.image).mpr hholds

theorem withPort_sameButPorts (p : ImagePod) (port : Option (Chars Char.isDigit 1)) :
    SameButPorts p (p.withPort port) := by
  have hrefs : ∀ r : Reference, (r.withPort port).withPort none = r.withPort none := by
    intro r
    simp [Reference.withPort, Function.comp_def]
  simp [SameButPorts, ImagePod.withPort, ImageContainer.withPort, hrefs, Function.comp_def]

theorem checked_subset {p : ImagePod} {c : ImageContainer} (h : c ∈ p.checked) : c ∈ p.all :=
  List.mem_append_left _ h

/-- The port 5000. -/
def port5000 : Chars Char.isDigit 1 := ⟨"5000", by decide, by decide⟩

/-- **The template is exact for a pod** if and only if no container resolves to `latest`, or one that
    it looks at does so plainly. -/
theorem exact_iff (p : ImagePod) :
    Exact p ↔ (∀ c ∈ p.all, ¬ c.image.ResolvesToLatest) ∨ ∃ c ∈ p.checked, Plain c.image := by
  constructor
  · intro h
    by_cases hnone : ∀ c ∈ p.all, ¬ c.image.ResolvesToLatest
    · exact Or.inl hnone
    · -- it is reported, and so it is with a port for every registry
      refine Or.inr ?_
      have hreports : Reports p := h.reports.mpr (by simpa using hnone)
      have hported := (h.ports _ (withPort_sameButPorts p (some port5000))).mpr hreports
      obtain ⟨d, hd, hflagged⟩ := (reports_iff _).mp hported
      rw [checked_withPort] at hd
      obtain ⟨c, hc, rfl⟩ := List.mem_map.mp hd
      exact ⟨c, hc, plain_of_flagged_port port5000 hflagged⟩
  · intro h
    rcases h with hnone | hplain
    · have hquiet : ∀ q, SameButPorts p q → ¬ Reports q := by
        intro q hq hreports
        obtain ⟨d, hd, hflagged⟩ := (reports_iff q).mp hreports
        obtain ⟨c, hc, hres⟩ :=
          sameButPorts_exists (fun _ => Iff.rfl) hq.symm ⟨d, hd, hflagged.resolves⟩
        exact hnone c (checked_subset hc) hres
      have hp : ¬ Reports p := hquiet p rfl
      refine ⟨iff_of_false hp (fun hex => ?_), fun q hq => iff_of_false (hquiet q hq) hp⟩
      obtain ⟨c, hc, hres⟩ := hex
      exact hnone c hc hres
    · have hloud : ∀ q, SameButPorts p q → Reports q := by
        intro q hq
        obtain ⟨c, hc, hc'⟩ := sameButPorts_exists (plain_withPort · none) hq hplain
        exact (reports_iff q).mpr ⟨c, hc, hc'.flagged⟩
      have hp : Reports p := hloud p rfl
      refine ⟨iff_of_true hp ?_, fun q hq => iff_of_true (hloud q hq) hp⟩
      obtain ⟨c, hc, hc'⟩ := hplain
      exact ⟨c, checked_subset hc, hc'.flagged.resolves⟩

/-- The registry of a development cluster. -/
def localhost : Host := .name ⟨"localhost", by decide, by decide⟩

def web : Chars pathChar 1 := ⟨"web", by decide, by decide⟩

def webAt (registry : Option Registry) : ImageContainer where
  container := { name := "web", image := "" }
  image := ⟨registry, web, none, none⟩

def podOf (containers ephemeralContainers : List ImageContainer) : ImagePod where
  pod := { name := "web", ns := "demo-pac", containers := [] }
  containers := containers
  initContainers := []
  ephemeralContainers := ephemeralContainers

/-- `localhost:5000/web` has no tag, and nothing is reported; nor is an ephemeral `web`. -/
theorem port_not_exact :
    (¬ Reports (podOf [webAt (some ⟨localhost, some port5000⟩)] []) ∧
      ¬ Exact (podOf [webAt (some ⟨localhost, some port5000⟩)] [])) ∧
    ¬ Reports (podOf [] [webAt none]) ∧ ¬ Exact (podOf [] [webAt none]) := by
  have hport : ¬ Reports (podOf [webAt (some ⟨localhost, some port5000⟩)] []) := by
    rw [Reports, not_not, k8sDisallowLatest_nil]
    intro c hc _
    obtain rfl := List.mem_singleton.mp hc
    exact ⟨by decide, by decide⟩
  have hephemeral : ¬ Reports (podOf [] [webAt none]) := by
    rw [Reports, not_not, k8sDisallowLatest_nil]
    intro c hc
    cases hc
  refine ⟨⟨hport, fun h => hport (h.reports.mpr ?_)⟩, hephemeral,
    fun h => hephemeral (h.reports.mpr ?_)⟩
  · exact ⟨_, List.mem_singleton.mpr rfl, Or.inl ⟨rfl, rfl⟩⟩
  · exact ⟨_, List.mem_singleton.mpr rfl, Or.inl ⟨rfl, rfl⟩⟩

end Pac
