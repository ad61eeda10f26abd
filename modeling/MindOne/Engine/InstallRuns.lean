import MindOne.Engine.Installs
import MindOne.Lib.LabelledRuns

/-!
# Registered engines stay verified

A final directory never changes once it has its name, and a record is verified before
it is written, so whatever calls fail or end where, every record refers to a directory
that passes its check. The lock of a directory is held by a call under way.
-/

namespace MindOne.Engine

open CheckedArithmetic KeyedTable LabelledRuns MindOne.Stream

def InstallDisk.engines (disk : InstallDisk) : List InstalledEngine :=
  match disk.registry with
  | none => []
  | some data => data.engines

theorem engines_of_readEngineData {registry : Option EngineRegistryData}
    {data : EngineRegistryData} {cache : Table CachedFile.name}
    {final : Table EngineDirectory.path} (h : readEngineData registry = .ok data) :
    data.engines = InstallDisk.engines ⟨cache, final, registry⟩ := by
  cases registry with
  | none =>
      cases h
      rfl
  | some stored =>
      simp only [readEngineData] at h
      split at h <;> cases h
      rfl

section Effects
variable (services : InstallServices)

/-- What one operation of a call does to the disk, the locks and the calls. -/
inductive InstallEffect (system : InstallSystem) (i : Nat) : InstallSystem → Prop
  | goOn (cache : Table CachedFile.name) (stage : InstallStage)
      (hholding : stage.holding = (system.calls i).holding)
      (hverified : ∀ selection installed, stage = .verified selection installed →
        installed.verifyIntegrityIn services system.disk.final = .ok ()) :
      InstallEffect system i
        ⟨{ system.disk with cache }, system.holder, Function.update system.calls i stage⟩
  | finish (cache : Table CachedFile.name) (selection : Selection)
      (result : Except EngineInstallError InstalledEngine)
      (hholding : (system.calls i).holding = some selection) :
      InstallEffect system i
        ⟨{ system.disk with cache },
          Function.update system.holder (selection.directory services) none,
          Function.update system.calls i (.ended result)⟩
  | lock (selection : Selection) (hholding : (system.calls i).holding = none)
      (hfree : system.holder (selection.directory services) = none) :
      InstallEffect system i
        ⟨system.disk, Function.update system.holder (selection.directory services) (some i),
          Function.update system.calls i (.locked selection)⟩
  | rename (selection : Selection) (tree : EngineTree) (executable : EngineFile)
      (hholding : (system.calls i).holding = some selection)
      (hmissing : system.disk.final.find (selection.directory services) = none) :
      InstallEffect system i
        ⟨{ system.disk with
            final := system.disk.final.set ⟨selection.directory services, tree⟩ },
          system.holder, Function.update system.calls i (.renamed selection executable)⟩
  | upsert (selection : Selection) (installed : InstalledEngine) (data : EngineRegistryData)
      (hstage : system.calls i = .verified selection installed)
      (hdata : readEngineData system.disk.registry = .ok data) :
      InstallEffect system i
        ⟨{ system.disk with registry := some (upsertEngine installed data) },
          system.holder, Function.update system.calls i (.written selection installed)⟩

variable {services} {system next : InstallSystem} {i : Nat}

theorem effect_setCall {stage : InstallStage}
    (hholding : stage.holding = (system.calls i).holding)
    (hother : ∀ selection installed, stage ≠ .verified selection installed) :
    InstallEffect services system i (system.setCall i stage) :=
  .goOn system.disk.cache stage hholding fun selection installed h =>
    absurd h (hother selection installed)

theorem effect_finish {selection : Selection}
    (hholding : (system.calls i).holding = some selection)
    (result : Except EngineInstallError InstalledEngine) :
    InstallEffect services system i (system.finish services i selection result) :=
  .finish system.disk.cache selection result hholding

section Advances
variable {selection : Selection} {checksum : String}

theorem effect_lookAtDirectory (hstage : system.calls i = .locked selection) :
    InstallEffect services system i (system.lookAtDirectory services i selection) := by
  unfold InstallSystem.lookAtDirectory
  split
  · exact effect_setCall (by rw [hstage]; rfl) fun _ _ => InstallStage.noConfusion
  · exact effect_finish (by rw [hstage]; rfl) _

theorem effect_lookUpChecksum (hstage : system.calls i = .missing selection) :
    InstallEffect services system i (system.lookUpChecksum services i selection) := by
  unfold InstallSystem.lookUpChecksum
  split
  · exact effect_finish (by rw [hstage]; rfl) _
  · exact effect_setCall (by rw [hstage]; rfl) fun _ _ => InstallStage.noConfusion

theorem effect_lookAtCache (hstage : system.calls i = .checked selection checksum) :
    InstallEffect services system i (system.lookAtCache services i selection checksum) := by
  unfold InstallSystem.lookAtCache
  split
  · exact effect_setCall (by rw [hstage]; rfl) fun _ _ => InstallStage.noConfusion
  · split
    · exact effect_setCall (by rw [hstage]; rfl) fun _ _ => InstallStage.noConfusion
    · exact effect_setCall (by rw [hstage]; rfl) fun _ _ => InstallStage.noConfusion

theorem effect_removeStale (hstage : system.calls i = .stale selection checksum) :
    InstallEffect services system i (system.removeStale services i selection checksum) := by
  unfold InstallSystem.removeStale
  split
  · exact effect_finish (by rw [hstage]; rfl) _
  · exact .goOn _ _ (by rw [hstage]; rfl) fun _ _ => InstallStage.noConfusion

theorem effect_download (hstage : system.calls i = .downloading selection checksum) :
    InstallEffect services system i (system.download services i selection checksum) := by
  unfold InstallSystem.download
  split
  · exact effect_finish (by rw [hstage]; rfl) _
  · split
    · exact effect_finish (by rw [hstage]; rfl) _
    · exact .goOn _ _ (by rw [hstage]; rfl) fun _ _ => InstallStage.noConfusion

theorem effect_checkDownload (hstage : system.calls i = .downloaded selection checksum) :
    InstallEffect services system i (system.checkDownload services i selection checksum) := by
  unfold InstallSystem.checkDownload
  split
  · exact effect_finish (by rw [hstage]; rfl) _
  · split
    · exact effect_setCall (by rw [hstage]; rfl) fun _ _ => InstallStage.noConfusion
    · exact .finish _ _ _ (by rw [hstage]; rfl)

theorem effect_extract (hstage : system.calls i = .cached selection) :
    InstallEffect services system i (system.extract services i selection) := by
  unfold InstallSystem.extract
  split
  · exact effect_finish (by rw [hstage]; rfl) _
  · split
    · exact effect_finish (by rw [hstage]; rfl) _
    · split
      · exact effect_finish (by rw [hstage]; rfl) _
      · exact effect_setCall (by rw [hstage]; rfl) fun _ _ => InstallStage.noConfusion

theorem effect_probe {tree : EngineTree} {executable : EngineFile}
    (hstage : system.calls i = .extracted selection tree executable) :
    InstallEffect services system i (system.probe services i selection tree executable) := by
  unfold InstallSystem.probe
  split
  · exact effect_finish (by rw [hstage]; rfl) _
  · exact effect_setCall (by rw [hstage]; rfl) fun _ _ => InstallStage.noConfusion

theorem effect_rename {tree : EngineTree} {executable : EngineFile}
    (hstage : system.calls i = .probed selection tree executable) :
    InstallEffect services system i (system.rename services i selection tree executable) := by
  unfold InstallSystem.rename
  split
  · exact effect_finish (by rw [hstage]; rfl) _
  · rename_i hmissing
    exact .rename selection tree executable (by rw [hstage]; rfl) hmissing

theorem effect_describe {executable : EngineFile} {id : Uuid} {now : Int}
    (hstage : system.calls i = .renamed selection executable) :
    InstallEffect services system i (system.describe services i selection executable id now) := by
  unfold InstallSystem.describe
  split
  · exact effect_finish (by rw [hstage]; rfl) _
  · exact effect_setCall (by rw [hstage]; rfl) fun _ _ => InstallStage.noConfusion

theorem effect_verifyRecord {installed : InstalledEngine}
    (hstage : system.calls i = .described selection installed) :
    InstallEffect services system i (system.verifyRecord services i selection installed) := by
  unfold InstallSystem.verifyRecord
  split
  · exact effect_finish (by rw [hstage]; rfl) _
  · rename_i hvalid
    refine .goOn system.disk.cache _ (by rw [hstage]; rfl) fun other record h => ?_
    cases h
    exact hvalid

theorem effect_upsert {installed : InstalledEngine}
    (hstage : system.calls i = .verified selection installed) :
    InstallEffect services system i (system.upsert services i selection installed) := by
  unfold InstallSystem.upsert
  split
  · exact effect_finish (by rw [hstage]; rfl) _
  · rename_i hdata
    exact .upsert selection installed _ hstage hdata

end Advances

theorem effect_of_advance {id : Uuid} {now : Int}
    (h : system.advance services i id now = some next) : InstallEffect services system i next := by
  unfold InstallSystem.advance at h
  cases hstage : system.calls i <;> rw [hstage] at h
  case idle | ended => cases h
  case selected selection =>
    simp only [InstallSystem.lock] at h
    split at h
    · cases h
    · rename_i hfree
      cases h
      exact .lock selection (by rw [hstage]; rfl) hfree
  all_goals cases h
  case requested engine version =>
    unfold InstallSystem.select
    split
    · exact effect_setCall (by rw [hstage]; rfl) fun _ _ => InstallStage.noConfusion
    · exact effect_setCall (by rw [hstage]; rfl) fun _ _ => InstallStage.noConfusion
  case locked => exact effect_lookAtDirectory hstage
  case missing => exact effect_lookUpChecksum hstage
  case checked => exact effect_lookAtCache hstage
  case stale => exact effect_removeStale hstage
  case downloading => exact effect_download hstage
  case downloaded => exact effect_checkDownload hstage
  case cached => exact effect_extract hstage
  case extracted => exact effect_probe hstage
  case probed => exact effect_rename hstage
  case renamed => exact effect_describe hstage
  case described => exact effect_verifyRecord hstage
  case verified => exact effect_upsert hstage
  case written => exact effect_finish (by rw [hstage]; rfl) _

theorem effect_of_stop (h : system.stop services i = some next) :
    InstallEffect services system i next := by
  unfold InstallSystem.stop at h
  cases hstage : system.calls i <;> rw [hstage] at h <;> cases h
  case requested | selected =>
    exact effect_setCall (by rw [hstage]; rfl) fun _ _ => InstallStage.noConfusion
  all_goals exact effect_finish (by rw [hstage]; rfl) _

/-- Every step is an operation of one call. -/
theorem effect_of_step {event : InstallEvent}
    (h : InstallSystem.step services event system = some next) :
    ∃ i, InstallEffect services system i next := by
  cases event with
  | call i engine version =>
      refine ⟨i, ?_⟩
      simp only [InstallSystem.step] at h
      split at h
      · rename_i hstage
        cases h
        exact effect_setCall (by rw [hstage]; rfl) fun _ _ => InstallStage.noConfusion
      · rename_i result hstage
        cases h
        exact effect_setCall (by rw [hstage]; rfl) fun _ _ => InstallStage.noConfusion
      · cases h
  | advance i id now => exact ⟨i, effect_of_advance h⟩
  | stop i => exact ⟨i, effect_of_stop h⟩

end Effects

/-- What holds of the disk before the first call and after every step. -/
structure InstallDisk.Sound (services : InstallServices) (disk : InstallDisk) : Prop where
  readable : ∃ data, readEngineData disk.registry = .ok data
  verified : ∀ installed ∈ disk.engines,
    installed.verifyIntegrityIn services disk.final = .ok ()

structure InstallSystem.Sound (services : InstallServices) (system : InstallSystem) : Prop where
  disk : system.disk.Sound services
  holder : ∀ path i, system.holder path = some i ↔
    ∃ selection ∈ (system.calls i).holding, selection.directory services = path
  verified : ∀ i selection installed, system.calls i = .verified selection installed →
    installed.verifyIntegrityIn services system.disk.final = .ok ()

section Preservation
variable {services : InstallServices} {system next : InstallSystem} {i : Nat}

/-- A check only looks at one directory, which stays. -/
theorem verifyIntegrityIn_set {installed : InstalledEngine} {final : Table EngineDirectory.path}
    {directory : EngineDirectory} (hmissing : final.find directory.path = none)
    (h : installed.verifyIntegrityIn services final = .ok ()) :
    installed.verifyIntegrityIn services (final.set directory) = .ok () := by
  have hne : installed.directory ≠ directory.path := by
    intro heq
    rw [InstalledEngine.verifyIntegrityIn, heq, hmissing] at h
    cases h
  rw [InstalledEngine.verifyIntegrityIn, Table.find_set_ne hne]
  exact h

theorem mem_upsertEngine {installed other : InstalledEngine} {data : EngineRegistryData} :
    other ∈ (upsertEngine installed data).engines ↔
      other ∈ data.engines ∧ ¬ other.SameKey installed.name installed.version installed.target ∨
        other = installed := by
  simp only [upsertEngine, List.mem_append, List.mem_filter, decide_eq_true_eq,
    List.mem_singleton]

theorem InstallEffect.disk_sound (hsound : system.Sound services)
    (heffect : InstallEffect services system i next) : next.disk.Sound services := by
  obtain ⟨hreadable, hverified⟩ := hsound.disk
  cases heffect with
  | goOn | finish | lock => exact ⟨hreadable, hverified⟩
  | rename selection tree executable hholding hmissing =>
      exact ⟨hreadable, fun installed hmem =>
        verifyIntegrityIn_set hmissing (hverified installed hmem)⟩
  | upsert selection installed data hstage hdata =>
      have hengines : data.engines = system.disk.engines := engines_of_readEngineData hdata
      have hversion : data.version = 1 := by
        unfold readEngineData at hdata
        split at hdata
        · cases hdata
          rfl
        · split at hdata <;> cases hdata
          rename_i hone
          exact not_not.mp hone
      refine ⟨⟨_, if_neg (not_not.mpr hversion)⟩, fun other hmem => ?_⟩
      rcases mem_upsertEngine.mp hmem with ⟨hold, -⟩ | rfl
      · exact hverified other (hengines ▸ hold)
      · exact hsound.verified i selection other hstage

theorem holding_of_holder (hsound : system.Sound services) {path : PathBuf} {j : Nat}
    (h : system.holder path = some j) : (system.calls j).holding ≠ none := by
  obtain ⟨selection, hmem, -⟩ := (hsound.holder path j).mp h
  rw [Option.mem_def.mp hmem]
  exact Option.some_ne_none selection

/-- The locks do not change when the calls hold the same directories as before. -/
theorem holder_of_holding (hsound : system.Sound services) {stage : InstallStage}
    (hholding : stage.holding = (system.calls i).holding) (path : PathBuf) (j : Nat) :
    system.holder path = some j ↔ ∃ selection ∈ (Function.update system.calls i stage j).holding,
      selection.directory services = path := by
  rw [hsound.holder path j]
  by_cases hj : j = i
  · subst hj
    rw [Function.update_self, hholding]
  · rw [Function.update_of_ne hj]

theorem InstallEffect.holder_sound (hsound : system.Sound services)
    (heffect : InstallEffect services system i next) (path : PathBuf) (j : Nat) :
    next.holder path = some j ↔ ∃ selection ∈ (next.calls j).holding,
      selection.directory services = path := by
  cases heffect with
  | goOn cache stage hholding => exact holder_of_holding hsound hholding path j
  | rename selection tree executable hholding =>
      exact holder_of_holding hsound (by rw [hholding]; rfl) path j
  | upsert selection installed data hstage =>
      exact holder_of_holding hsound (by rw [hstage]; rfl) path j
  | finish cache selection result hholding =>
      have hmine : system.holder (selection.directory services) = some i :=
        (hsound.holder _ i).mpr ⟨selection, hholding, rfl⟩
      dsimp only
      by_cases hj : j = i
      · subst hj
        rw [Function.update_self]
        constructor
        · intro h
          by_cases hpath : path = selection.directory services
          · rw [hpath, Function.update_self] at h
            cases h
          · rw [Function.update_of_ne hpath, hsound.holder, hholding] at h
            obtain ⟨other, hother, heq⟩ := h
            cases hother
            exact absurd heq.symm hpath
        · rintro ⟨other, hother, -⟩
          cases hother
      · rw [Function.update_of_ne hj]
        by_cases hpath : path = selection.directory services
        · rw [hpath, Function.update_self, ← hsound.holder, hmine]
          constructor
          · intro h
            cases h
          · intro h
            exact absurd (Option.some.inj h).symm hj
        · rw [Function.update_of_ne hpath, hsound.holder]
  | lock selection hholding hfree =>
      dsimp only
      by_cases hj : j = i
      · subst hj
        rw [Function.update_self]
        constructor
        · intro h
          by_cases hpath : path = selection.directory services
          · exact ⟨selection, rfl, hpath.symm⟩
          · rw [Function.update_of_ne hpath] at h
            exact absurd hholding (holding_of_holder hsound h)
        · rintro ⟨other, hother, heq⟩
          cases hother
          rw [← heq, Function.update_self]
      · rw [Function.update_of_ne hj, ← hsound.holder]
        by_cases hpath : path = selection.directory services
        · rw [hpath, Function.update_self, hfree]
          constructor
          · intro h
            exact absurd (Option.some.inj h).symm hj
          · intro h
            cases h
        · rw [Function.update_of_ne hpath]

theorem verified_update (hsound : system.Sound services) {stage : InstallStage}
    (hstage : ∀ selection installed, stage = .verified selection installed →
      installed.verifyIntegrityIn services system.disk.final = .ok ())
    (j : Nat) (selection : Selection) (installed : InstalledEngine)
    (h : Function.update system.calls i stage j = .verified selection installed) :
    installed.verifyIntegrityIn services system.disk.final = .ok () := by
  by_cases hj : j = i
  · subst hj
    rw [Function.update_self] at h
    exact hstage selection installed h
  · rw [Function.update_of_ne hj] at h
    exact hsound.verified j selection installed h

theorem InstallEffect.sound (hsound : system.Sound services)
    (heffect : InstallEffect services system i next) : next.Sound services := by
  refine ⟨heffect.disk_sound hsound, heffect.holder_sound hsound, ?_⟩
  cases heffect with
  | goOn cache stage hholding hstage => exact verified_update hsound hstage
  | finish | lock => exact verified_update hsound fun _ _ h => nomatch h
  | upsert => exact verified_update hsound fun _ _ h => nomatch h
  | rename selection tree executable hholding hmissing =>
      intro j other installed h
      exact verifyIntegrityIn_set hmissing
        (verified_update hsound (fun _ _ => InstallStage.noConfusion) j other installed h)

theorem sound_of_installs {disk : InstallDisk} (hdisk : disk.Sound services)
    {past : List InstallEvent}
    (run : Run (InstallSystem.step services) Anything (.initial disk) past system) :
    system.Sound services := by
  induction run with
  | start =>
      refine ⟨hdisk, fun path i => ?_, fun _ _ _ h => nomatch h⟩
      constructor
      · intro h
        cases h
      · rintro ⟨selection, hmem, -⟩
        cases hmem
  | step _ _ hstep ih =>
      obtain ⟨i, heffect⟩ := effect_of_step hstep
      exact heffect.sound ih

end Preservation

end MindOne.Engine
