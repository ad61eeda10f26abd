import MindOne.Models.FoundModels
import MindOne.Models.Quarantine

/-!
# When a deletion is atomic

A failure before the new registry file is in its place is undone completely, and so is
one of the first removal, as long as no other record has the identifier. A failure
between these two or after them leaves the record or files lost.
-/

namespace MindOne.Models

open CheckedArithmetic MindOne.Engine MindOne.Stream

/-! ### The registry -/

section Registry
variable {α : Type} {fault : Option SectionStep} {file : RegistryFile}
  {operation : RegistryData → Except ModelRegistryError (RegistryData × α)} {a : α}
  {data data' : RegistryData} {current removed : ModelRecord} {nameOrId : String}

theorem withLock_none (h : readData file >>= operation = .ok (data', a)) :
    withLock none operation file = (.ok a, some data') := by
  rw [withLock, h]
  rfl

theorem withLock_hidden {step : SectionStep} (hstep : step.visible = false)
    (h : readData file >>= operation = .ok (data', a)) :
    withLock (some step) operation file = (.error .io, file) := by
  rw [withLock, h]
  cases step <;> first | rfl | cases hstep

theorem withLock_visible {step : SectionStep} (hstep : step.visible = true)
    (h : readData file >>= operation = .ok (data', a)) :
    withLock (some step) operation file = (.error .io, some data') := by
  rw [withLock, h]
  cases step <;> first | rfl | cases hstep

/-- What the removal of a record takes out. -/
structure TakenOut (models left : List ModelRecord) (current removed : ModelRecord) : Prop where
  split : ∃ before behind, models = before ++ removed :: behind ∧ left = before ++ behind ∧
    (∀ model ∈ before, model.id ≠ current.id) ∧ removed.id = current.id

theorem removeRecord_of_mem (hdata : readData file = .ok data) (hmem : current ∈ data.models) :
    ∃ data' removed, readData file >>= removeRecord current nameOrId = .ok (data', removed) ∧
      data'.version = 1 ∧ TakenOut data.models data'.models current removed := by
  have hversion : data.version = 1 := version_of_readData hdata
  obtain ⟨removed, before, behind, hbefore, hid, hsplit, herase⟩ :=
    List.exists_of_eraseP (p := fun model : ModelRecord => model.id = current.id) hmem
      (decide_eq_true rfl)
  have hbefore' : ∀ model ∈ before, model.id ≠ current.id := fun model hmodel hsame =>
    hbefore model hmodel (decide_eq_true hsame)
  have hfirst : (removed :: behind).find? (fun model => model.id = current.id) = some removed :=
    List.find?_cons_of_pos hid
  have hfind : data.models.find? (fun model => model.id = current.id) = some removed := by
    rw [hsplit, List.find?_append, List.find?_eq_none.mpr hbefore, Option.none_or, hfirst]
  refine ⟨⟨data.version, before ++ behind⟩, removed, bind_eq_ok.mpr ⟨data, hdata, ?_⟩, hversion,
    ⟨before, behind, hsplit, rfl, hbefore', of_decide_eq_true hid⟩⟩
  simp only [removeRecord, hfind, herase]

theorem TakenOut.not_perm {models left : List ModelRecord}
    (h : TakenOut models left current removed) : ¬ left.Perm models := by
  intro hperm
  obtain ⟨before, behind, rfl, rfl, -, -⟩ := h.split
  have hlength := hperm.length_eq
  simp only [List.length_append, List.length_cons] at hlength
  omega

/-- Exactly one record has the identifier. -/
def UniqueId (models : List ModelRecord) (record : ModelRecord) : Prop :=
  models.countP (fun model => model.id = record.id) = 1

theorem TakenOut.unique_iff {models left : List ModelRecord}
    (h : TakenOut models left current removed) :
    UniqueId models current ↔ ∀ model ∈ left, model.id ≠ current.id := by
  obtain ⟨before, behind, rfl, rfl, hbefore, hid⟩ := h.split
  have hnone : before.countP (fun model => model.id = current.id) = 0 :=
    List.countP_eq_zero.mpr fun model hmodel hsame =>
      hbefore model hmodel (of_decide_eq_true hsame)
  have hfirst : (removed :: behind).countP (fun model => model.id = current.id) =
      behind.countP (fun model => model.id = current.id) + 1 :=
    List.countP_cons_of_pos (decide_eq_true hid)
  rw [UniqueId, List.countP_append, hnone, hfirst, Nat.zero_add, Nat.add_eq_right,
    List.countP_eq_zero]
  constructor
  · intro hbehind model hmodel hsame
    rcases List.mem_append.mp hmodel with hfront | hback
    · exact hbefore model hfront hsame
    · exact hbehind model hback (decide_eq_true hsame)
  · intro hleft model hmodel hsame
    exact hleft model (List.mem_append_right _ hmodel) (of_decide_eq_true hsame)

/-- The record that is put back makes the registry complete again when no other one has its
identifier, and otherwise nothing is put back. -/
theorem TakenOut.restore_iff {models : List ModelRecord}
    (h : TakenOut models data'.models current removed) (hmem : current ∈ models) :
    (restoreRecord current data').models.Perm models ↔ UniqueId models current := by
  rw [h.unique_iff]
  by_cases hleft : ∃ model ∈ data'.models, model.id = current.id
  · rw [restoreRecord, if_pos hleft]
    obtain ⟨model, hmodel, hsame⟩ := hleft
    exact iff_of_false h.not_perm fun hnone => hnone model hmodel hsame
  · have hnone : ∀ model ∈ data'.models, model.id ≠ current.id := by
      intro model hmodel hsame
      exact hleft ⟨model, hmodel, hsame⟩
    rw [restoreRecord, if_neg hleft]
    refine iff_of_true ?_ hnone
    obtain ⟨before, behind, hmodels, hrest, -, -⟩ := h.split
    have hcurrent : current = removed := by
      rw [hmodels, List.mem_append, List.mem_cons] at hmem
      rcases hmem with hfront | hsame | hback
      · exact absurd rfl (hnone current (hrest ▸ List.mem_append_left _ hfront))
      · exact hsame
      · exact absurd rfl (hnone current (hrest ▸ List.mem_append_right _ hback))
    rw [hmodels, hrest, hcurrent]
    exact (List.perm_append_singleton removed (before ++ behind)).trans List.perm_middle.symm

end Registry

/-! ### Atomicity -/

section Atomicity
variable (tree : DirectoryTree) (file : RegistryFile) (nameOrId : String)

/-- The record and all its files are gone, and nothing else is. -/
structure Gone (store : Store) : Prop where
  gone : ∃ record, lookup file.models nameOrId = some record ∧
    (∀ model ∈ store.registry.models, model.id ≠ record.id) ∧
    (∀ model ∈ file.models, model.id ≠ record.id → model ∈ store.registry.models) ∧
    (∀ path ∈ artifactPaths record, store.node path = none) ∧
    ∀ path, store.node path = none ∨ store.node path = tree.node path

/-- The registry has the same records, and every file of the model is at its place. -/
structure Kept (store : Store) : Prop where
  records : store.registry.models.Perm file.models
  files : ∀ record, lookup file.models nameOrId = some record →
    ∀ path ∈ artifactPaths record, store.node path = tree.node path

def Atomic (outcome : Except ModelRegistryError ModelRecord × Store) : Prop :=
  match outcome.1 with
  | .ok _ => Gone tree file nameOrId outcome.2
  | .error _ => Kept tree file nameOrId outcome.2

end Atomicity

/-- The new registry file is not yet in its place. -/
def DeletionStep.early : DeletionStep → Bool
  | .inspect | .moveAway => true
  | .registry step => !step.visible
  | _ => false

/-- A failure that is not undone: after the registry has been replaced and before the first
removal, after the first removal, or at the very end. -/
def DeletionPlan.Harmed (plan : DeletionPlan) (fault : Option DeletionStep) : Prop :=
  (∃ step, fault = some (.registry step) ∧ step.visible = true) ∨ fault = some .syncParent ∨
    plan.LosesFiles fault

/-- The failure comes early, or it is undone and there is one record to put back. -/
def DeletionPlan.Survives (plan : DeletionPlan) (models : List ModelRecord)
    (fault : Option DeletionStep) : Prop :=
  fault.any DeletionStep.early = true ∨ (¬ plan.Harmed fault ∧ UniqueId models plan.current)

section Outcomes
variable {tree : DirectoryTree} {file : RegistryFile} {nameOrId : String}
  {plan : DeletionPlan} {fault : Option DeletionStep} {data : RegistryData} {moved : Nodes}

theorem kept_unchanged (file : RegistryFile) : Kept tree file nameOrId ⟨file, tree.node⟩ :=
  ⟨.refl _, fun _ _ _ _ => rfl⟩

theorem kept_of_back (hsound : SoundPlan tree plan) (hlookup : lookup file.models nameOrId =
    some plan.current) (haway : plan.moveAway tree.node = some moved) {registry : RegistryFile}
    (hrecords : registry.models.Perm file.models) :
    Kept tree file nameOrId ⟨registry, plan.moveBack moved⟩ := by
  refine ⟨hrecords, ?_⟩
  intro record hrecord path hmem
  obtain rfl : plan.current = record := Option.some.inj (hlookup.symm.trans hrecord)
  exact moveBack_moved hsound haway hmem

/-- From the removal on, the outcome depends on the removal and on the last operation. -/
theorem finishDeletion_atomic_iff {data' : RegistryData} {removed : ModelRecord}
    (hsound : SoundPlan tree plan) (hlookup : lookup file.models nameOrId = some plan.current)
    (haway : plan.moveAway tree.node = some moved) (hversion : data'.version = 1)
    (htaken : TakenOut file.models data'.models plan.current removed)
    (hsection : fault.bind DeletionStep.sectionStep = none) :
    Atomic tree file nameOrId (finishDeletion plan fault removed ⟨some data', moved⟩) ↔
      ¬ plan.Harmed fault ∧ UniqueId file.models plan.current := by
  have hmem : plan.current ∈ file.models := List.mem_of_find?_eq_some hlookup
  have hregistry : ¬ ∃ step, fault = some (.registry step) ∧ step.visible = true := by
    rintro ⟨step, rfl, -⟩
    cases hsection
  rw [finishDeletion]
  cases hremove : plan.remove fault moved with
  | mk finished left =>
      cases finished with
      | true =>
          obtain ⟨hloses, hfiles, hnothing⟩ := remove_done hsound haway hremove
          by_cases hsync : fault = some .syncParent
          · simp only [if_pos hsync]
            refine iff_of_false ?_ fun h => h.1 (.inr (.inl hsync))
            intro hkept
            exact htaken.not_perm hkept.records
          · simp only [if_neg hsync]
            have hharmless : ¬ plan.Harmed fault := by
              rintro (hstep | hsame | hlost)
              · exact hregistry hstep
              · exact hsync hsame
              · exact hloses hlost
            rw [and_iff_right hharmless, htaken.unique_iff]
            constructor
            · intro hgone
              obtain ⟨record, hrecord, hnone, -⟩ := Gone.gone hgone
              obtain rfl : plan.current = record := Option.some.inj (hlookup.symm.trans hrecord)
              exact hnone
            · intro hnone
              refine ⟨plan.current, hlookup, hnone, ?_, hfiles, hnothing⟩
              intro model hmodel hne
              obtain ⟨before, behind, hmodels, hleft, -, hid⟩ := htaken.split
              change model ∈ data'.models
              rw [hmodels, List.mem_append, List.mem_cons] at hmodel
              rw [hleft, List.mem_append]
              rcases hmodel with hfront | hsame | hback
              · exact .inl hfront
              · exact absurd (hsame ▸ hid) hne
              · exact .inr hback
      | false =>
          obtain ⟨hsync, hleft⟩ := remove_stopped hsound haway hremove
          have hrestored : withLock none
              (fun data => .ok (restoreRecord plan.current data, ())) (some data') =
                (.ok (), some (restoreRecord plan.current data')) :=
            withLock_none (bind_eq_ok.mpr ⟨data', readData_of_version hversion, rfl⟩)
          simp only [hrestored]
          change Kept tree file nameOrId ⟨some (restoreRecord plan.current data'),
            plan.moveBack left⟩ ↔ _
          rcases hleft with ⟨hloses, rfl⟩ | ⟨hloses, path, hpath, hlost⟩
          · have hharmless : ¬ plan.Harmed fault := by
              rintro (hstep | hsame | hlost)
              · exact hregistry hstep
              · exact hsync hsame
              · exact hloses hlost
            rw [and_iff_right hharmless, ← htaken.restore_iff hmem]
            constructor
            · intro hkept
              exact hkept.records
            · intro hrecords
              exact kept_of_back hsound hlookup haway hrecords
          · refine iff_of_false ?_ fun h => h.1 (.inr (.inr hloses))
            intro hkept
            exact hlost (hkept.files plan.current hlookup path hpath)

theorem registry_of_sectionStep {step : SectionStep}
    (h : fault.bind DeletionStep.sectionStep = some step) : fault = some (.registry step) := by
  obtain ⟨deletionStep, rfl, hstep⟩ := Option.bind_eq_some_iff.mp h
  cases deletionStep with
  | registry own =>
      cases hstep
      rfl
  | _ => cases hstep

/-- What a deletion whose checks have passed leaves behind. -/
theorem performDeletion_atomic_iff (hsound : SoundPlan tree plan)
    (hdata : readData file = .ok data) (hlookup : lookup file.models nameOrId = some plan.current)
    (hinspect : fault ≠ some .inspect) :
    Atomic tree file nameOrId (performDeletion plan fault nameOrId ⟨file, tree.node⟩) ↔
      ((plan.moveAway tree.node).isSome = true → plan.Survives file.models fault) := by
  have hmem : plan.current ∈ file.models := List.mem_of_find?_eq_some hlookup
  have hmodels := models_of_readData hdata
  obtain ⟨data', removed, htake, hversion, htaken⟩ :=
    @removeRecord_of_mem _ _ _ nameOrId hdata (hmodels ▸ hmem)
  rw [hmodels] at htaken
  rw [performDeletion]
  by_cases hmove : fault = some .moveAway
  · rw [if_pos hmove]
    refine iff_of_true (kept_unchanged file) fun _ => .inl ?_
    rw [hmove]
    rfl
  · rw [if_neg hmove]
    cases haway : plan.moveAway tree.node with
    | none => exact iff_of_true (kept_unchanged file) fun h => by cases h
    | some moved =>
        simp only [Option.isSome_some, true_implies]
        cases hstep : fault.bind DeletionStep.sectionStep with
        | none =>
            simp only [withLock_none htake]
            rw [finishDeletion_atomic_iff hsound hlookup haway hversion htaken hstep]
            refine (or_iff_right ?_).symm
            intro hearly
            cases fault with
            | none => cases hearly
            | some step =>
                cases step with
                | inspect => exact hinspect rfl
                | moveAway => exact hmove rfl
                | registry step => cases hstep
                | _ => cases hearly
        | some step =>
            have hfault : fault = some (.registry step) := registry_of_sectionStep hstep
            subst hfault
            by_cases hvisible : step.visible = true
            · simp only [withLock_visible hvisible htake]
              refine iff_of_false (fun hkept => htaken.not_perm (Kept.records hkept)) ?_
              rintro (hearly | ⟨hharmless, -⟩)
              · change (!step.visible) = true at hearly
                rw [hvisible] at hearly
                cases hearly
              · exact hharmless (.inl ⟨step, rfl, hvisible⟩)
            · have hhidden := Bool.eq_false_of_not_eq_true hvisible
              simp only [withLock_hidden hhidden htake]
              refine iff_of_true (kept_of_back hsound hlookup haway (.refl _)) (.inl ?_)
              change (!step.visible) = true
              rw [hhidden]
              rfl

end Outcomes

/-- A deletion in which at most one operation fails is atomic exactly when its checks refuse it,
or the failure is one that comes early or is undone, with one record to put back. -/
theorem deleteModel_atomic_iff (tools : ModelTools) (tree : DirectoryTree) (models : PathBuf)
    (file : RegistryFile) (fault : Option DeletionStep) (nameOrId : String) (isInUse : Bool) :
    Atomic tree file nameOrId (deleteModel tools tree models file fault nameOrId isInUse) ↔
      ∀ plan, isInUse = false → planDeletion tools tree models file nameOrId = .ok plan →
        (plan.moveAway tree.node).isSome = true → plan.Survives file.models fault := by
  rw [deleteModel]
  by_cases huse : isInUse = true
  · rw [if_pos huse]
    refine iff_of_true (kept_unchanged file) ?_
    intro plan hfree
    rw [huse] at hfree
    cases hfree
  · have hfree := Bool.eq_false_of_not_eq_true huse
    rw [if_neg huse]
    by_cases hinspect : fault = some .inspect
    · rw [if_pos hinspect]
      refine iff_of_true (kept_unchanged file) ?_
      intro plan _ _ _
      rw [hinspect]
      exact .inl rfl
    · rw [if_neg hinspect]
      cases hplan : planDeletion tools tree models file nameOrId with
      | error e =>
          refine iff_of_true (kept_unchanged file) ?_
          intro plan _ hother
          cases hother
      | ok plan =>
          obtain ⟨data, hdata, hlookup, hsound⟩ := planDeletion_sound hplan
          rw [models_of_readData hdata] at hlookup
          have hatomic := performDeletion_atomic_iff hsound hdata hlookup hinspect
          rw [hatomic]
          constructor
          · intro h other _ hother
            cases hother
            exact h
          · intro h
            exact h plan hfree rfl

/-! ### Failures that are not undone -/

section Sample

theorem mem_of_lookup {nodes : List (PathBuf × FileNode)} {path : PathBuf} {node : FileNode}
    (h : nodes.lookup path = some node) : (path, node) ∈ nodes := by
  obtain ⟨front, back, rfl, -⟩ := List.lookup_eq_some_iff.mp h
  exact List.mem_append_right _ List.mem_cons_self

/-- A tree in which every path that is listed stands in a directory that is listed. -/
def listedTree (nodes : List (PathBuf × FileNode))
    (h : ∀ entry ∈ nodes, ∀ parent ∈ entry.1.parent, nodes.lookup parent = some .directory) :
    DirectoryTree where
  toFileTree := plainTree nodes
  entries directory := nodes.filterMap fun entry =>
    if entry.1.parent = some directory then entry.1.fileName else none
  entries_complete directory name hsome := by
    obtain ⟨node, hnode⟩ := Option.isSome_iff_exists.mp hsome
    have hmem : (directory.join name, node) ∈ nodes := mem_of_lookup hnode
    refine List.mem_filterMap.mpr ⟨_, hmem, ?_⟩
    rw [if_pos (PathBuf.parent_join directory name), PathBuf.fileName_join]
  holder path name hsome := by
    obtain ⟨node, hnode⟩ := Option.isSome_iff_exists.mp hsome
    have hmem : (path.join name, node) ∈ nodes := mem_of_lookup hnode
    exact .inl (h _ hmem path (PathBuf.parent_join path name))
  canonical_parent path parent hpath hparent := by
    rw [plainTree, Option.ite_none_right_eq_some] at hpath
    obtain ⟨node, hnode⟩ := Option.isSome_iff_exists.mp hpath.1
    have hdirectory := h _ (mem_of_lookup hnode) parent hparent
    refine if_pos ?_
    rw [hdirectory]
    rfl

def sampleFileRecord : ModelRecord where
  id := .fromU128 52
  name := "t"
  format := .gguf
  path := ⟨["models", "t.gguf"]⟩
  sizeBytes := 132
  sha256 := sampleTools.hexDigest (sampleShard 0)
  modifiedUnix := 7
  verifiedAtUnix := 9
  compatibleEngines := ModelFormat.gguf.compatibleEngines
  artifacts := []

def samplePackedPath (index : Nat) : PathBuf :=
  ⟨["models", "m.bundle",
    if index = 0 then "m-00001-of-00002.gguf" else "m-00002-of-00002.gguf"]⟩

/-- The record of the bundle in a directory of its own. -/
def samplePackedRecord : ModelRecord :=
  { sampleBundleRecord with
    path := samplePackedPath 0
    artifacts := [{ sampleBundleArtifact 0 with path := samplePackedPath 0 },
      { sampleBundleArtifact 1 with path := samplePackedPath 1 }] }

def sampleModelTree : DirectoryTree :=
  listedTree [(⟨[]⟩, .directory), (sampleModels, .directory), (⟨["models", "m.bundle"]⟩, .directory),
    (⟨["models", "t.gguf"]⟩, .regular (sampleShard 0) 7),
    (samplePackedPath 0, .regular (sampleShard 0) 7),
    (samplePackedPath 1, .regular (sampleShard 1) 7)] (by decide +kernel)

def sampleModelRegistry : RegistryFile := some ⟨1, [sampleFileRecord, samplePackedRecord]⟩

def sampleDeletionOf (fault : DeletionStep) (name : String) :
    Except ModelRegistryError ModelRecord × Store :=
  deleteModel sampleTools sampleModelTree sampleModels sampleModelRegistry (some fault) name false

/-- The record is lost when the directory of the registry cannot be synchronised, and so it is
with the files when that of the model cannot; a bundle loses a shard when the second one cannot
be removed. -/
theorem deleteModel_loses :
    ((sampleDeletionOf (.registry .syncDirectory) "t").1 = .error .io ∧
      (sampleDeletionOf (.registry .syncDirectory) "t").2.registry.models = [samplePackedRecord]) ∧
    ((sampleDeletionOf .syncParent "t").1 = .error .io ∧
      (sampleDeletionOf .syncParent "t").2.node sampleFileRecord.path = none) ∧
    ((sampleDeletionOf (.removeEntry 1) "m").1 = .error .io ∧
      samplePackedRecord ∈ (sampleDeletionOf (.removeEntry 1) "m").2.registry.models ∧
      (sampleDeletionOf (.removeEntry 1) "m").2.node (samplePackedPath 0) = none) ∧
    ¬ Atomic sampleModelTree sampleModelRegistry "t"
      (sampleDeletionOf (.registry .syncDirectory) "t") := by
  have herror : (sampleDeletionOf (.registry .syncDirectory) "t").1 = .error .io := by
    decide +kernel
  have hlost : (sampleDeletionOf (.registry .syncDirectory) "t").2.registry.models =
      [samplePackedRecord] := by decide +kernel
  refine ⟨⟨herror, hlost⟩, by decide +kernel, by decide +kernel, ?_⟩
  intro hatomic
  rw [Atomic, herror] at hatomic
  have hlength := (Kept.records hatomic).length_eq
  rw [hlost] at hlength
  cases hlength

end Sample

end MindOne.Models
