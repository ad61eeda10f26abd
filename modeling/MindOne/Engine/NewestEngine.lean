import MindOne.Engine.SemanticVersions

/-!
# The newest engine

On versions that compare consistently the newest engine is well defined: it does not
depend on the order of the registry nor on older engines beside it. Versions compare
consistently exactly if none that is not semantic comes between two semantic ones against
their order, and if large numbers in prereleases happen to be in the order of their texts.
-/

namespace MindOne.Engine

open MixedOrders MindOne.Regulated

/-- The newest engine of a registry of such versions is the same in every order, no other one
has a greater version, and engines with smaller versions do not change it. -/
structure NewestDefined (versions : String → Prop) : Prop where
  order : ∀ engines engines' : List InstalledEngine, (∀ engine ∈ engines, versions engine.version) →
    (engines.map InstalledEngine.id).Nodup → engines'.Perm engines →
    newestEngine engines' = newestEngine engines
  greatest : ∀ engines : List InstalledEngine, (∀ engine ∈ engines, versions engine.version) →
    ∀ newest ∈ newestEngine engines, ∀ engine ∈ engines,
      (compareVersions engine.version newest.version).isLE
  beside : ∀ engines others : List InstalledEngine,
    (∀ engine ∈ engines ++ others, versions engine.version) →
    ((engines ++ others).map InstalledEngine.id).Nodup →
    ∀ newest ∈ newestEngine engines,
    (∀ other ∈ others, compareVersions other.version newest.version = .lt) →
    newestEngine (engines ++ others) = some newest

section Newest
variable {versions : String → Prop}

theorem preorderedOn_compareEngines (h : PreorderedOn versions compareVersions) :
    PreorderedOn (fun engine : InstalledEngine => versions engine.version) compareEngines := by
  have htime : PreorderedOn (fun engine : InstalledEngine => versions engine.version)
      (compareOn InstalledEngine.installedAtUnix) := .of_transCmp
  have hid : PreorderedOn (fun engine : InstalledEngine => versions engine.version)
      (compareOn fun engine => uuidBytes engine.id) := .of_transCmp
  exact (h.comap fun _ hengine => hengine).lex (htime.lex hid)

/-- Engines that compare as equal have one identifier. -/
theorem eq_of_compareEngines {engines : List InstalledEngine}
    (hids : (engines.map InstalledEngine.id).Nodup) :
    ∀ left ∈ engines, ∀ right ∈ engines, compareEngines left right = .eq → left = right := by
  intro left hleft right hright h
  simp only [compareEngines, Ordering.then_eq_eq] at h
  have hid := uuidBytes_injective (Std.LawfulEqOrd.eq_of_compare h.2.2)
  exact List.inj_on_of_nodup_map hids hleft hright hid

theorem isLE_version {left right : InstalledEngine} (h : (compareEngines left right).isLE) :
    (compareVersions left.version right.version).isLE := by
  rw [compareEngines, Ordering.isLE_then_iff_and] at h
  exact h.1

theorem newestDefined_of_preorderedOn (h : PreorderedOn versions compareVersions) :
    NewestDefined versions := by
  have hengines := preorderedOn_compareEngines h
  constructor
  · intro engines engines' hversions hids hperm
    exact maxBy_perm hengines hversions (eq_of_compareEngines hids) hperm
  · intro engines hversions newest hnewest engine hengine
    exact isLE_version ((maxBy_spec hengines hversions hnewest).2 engine hengine)
  · intro engines others hversions hids newest hnewest hothers
    have hleft : ∀ engine ∈ engines, versions engine.version := fun engine hengine =>
      hversions engine (List.mem_append_left _ hengine)
    obtain ⟨hmem, hle⟩ := maxBy_spec hengines hleft hnewest
    refine maxBy_eq_some hengines hversions (eq_of_compareEngines hids)
      (List.mem_append_left _ hmem) ?_
    intro engine hengine
    rcases List.mem_append.mp hengine with hengine | hengine
    · exact hle engine hengine
    · rw [compareEngines, hothers engine hengine]
      rfl

end Newest

/-- Exactly on which versions the newest engine is well defined. -/
theorem newestEngine_defined_iff (versions : String → Prop) :
    PreorderedOn versions compareVersions ∧ Agreeing versions ∧ NewestDefined versions ↔
      Separated versions ∧ Decided versions := by
  constructor
  · rintro ⟨hpreorder, hagreeing, -⟩
    exact ⟨preorderedOn_compareVersions_iff.mp hpreorder, agreeing_iff.mp hagreeing⟩
  · rintro ⟨hseparated, hdecided⟩
    have hpreorder := preorderedOn_compareVersions_iff.mpr hseparated
    exact ⟨hpreorder, agreeing_iff.mpr hdecided, newestDefined_of_preorderedOn hpreorder⟩

/-! ### Three versions in a circle -/

section Sample

def sampleInstalled (id : Nat) (version : String) (installedAtUnix : Int) : InstalledEngine where
  id := .fromU128 id
  name := .llamaCpp
  version := version
  target := ""
  directory := ⟨[]⟩
  executable := ⟨[]⟩
  sha256 := ""
  files := []
  installedAtUnix := installedAtUnix
  source := ""

/-- `1.0` and `1.0.0` are equal, and `1_0` comes between them. -/
theorem compareVersions_not_preordered :
    ¬ PreorderedOn (fun _ => True) compareVersions ∧
      newestEngine [sampleInstalled 1 "1.0" 9, sampleInstalled 2 "1.0.0" 8,
        sampleInstalled 3 "1_0" 7] = some (sampleInstalled 3 "1_0" 7) ∧
      newestEngine [sampleInstalled 3 "1_0" 7, sampleInstalled 2 "1.0.0" 8,
        sampleInstalled 1 "1.0" 9] = some (sampleInstalled 1 "1.0" 9) := by
  refine ⟨?_, by decide +kernel, by decide +kernel⟩
  intro h
  have hfirst : (compareVersions "1_0" "1.0.0").isLE := by decide +kernel
  have hsecond : (compareVersions "1.0.0" "1.0").isLE := by decide +kernel
  have hthird := h.trans "1_0" "1.0.0" "1.0" trivial trivial trivial hfirst hsecond
  exact absurd hthird (by decide +kernel)

end Sample

end MindOne.Engine
