import MindOne.Engine.InstallRuns

/-!
# Repeating an installation

A call that nothing stops installs the engine and registers it, whatever earlier calls
have left in the cache. Only a final directory without a record stops it: it is
refused, and stays as it is.
-/

namespace MindOne.Engine

open CheckedArithmetic KeyedTable LabelledRuns MindOne.Stream

/-- A release whose archive can be installed. -/
structure ValidRelease (services : InstallServices) (engine : NativeEngine) (version : String)
    (selection : Selection) (content : List UInt8) (tree : EngineTree) (executable : EngineFile) :
    Prop where
  selected : selectRelease services engine version = .ok selection
  checksum : selection.checksum services = .ok (services.sha256 content)
  downloaded : downloadAsset services selection.asset.browserDownloadUrl = .ok content
  /-- No other content has the digest of the archive. -/
  digest : ∀ other, services.sha256 other = services.sha256 content → other = content
  extracted : services.extract selection.asset.name content = .ok tree
  found : findEngineExecutable tree selection.engine.name = .ok executable
  probed : probeEngine services selection executable = .ok ()
  manifest : ∃ files, buildEngineManifest services tree = .ok files

/-- The record of a selection. -/
def InstalledEngine.Of (services : InstallServices) (selection : Selection)
    (installed : InstalledEngine) : Prop :=
  installed.SameKey selection.engine.name selection.release.tagName (targetTriple services)

/-- Only the call makes steps, and nothing stops it. -/
def Alone (i : Nat) : List InstallEvent → InstallSystem → InstallEvent → Prop
  | _, _, .advance j _ _ => j = i
  | _, _, .call _ _ _ | _, _, .stop _ => False

instance (i : Nat) (past : List InstallEvent) (system : InstallSystem) (event : InstallEvent) :
    Decidable (Alone i past system event) :=
  match event with
  | .advance j _ _ => inferInstanceAs (Decidable (j = i))
  | .call _ _ _ | .stop _ => inferInstanceAs (Decidable False)

section Stages
variable (services : InstallServices) (engine : NativeEngine) (version : String)
  (selection : Selection) (content : List UInt8) (tree : EngineTree) (executable : EngineFile)
  (i : Nat)

/-- The final directory is missing or registered. -/
def InstallDisk.Adoptable (disk : InstallDisk) : Prop :=
  disk.final.find (selection.directory services) = none ∨
    ∃ installed ∈ disk.engines, installed.Of services selection

/-- A call that ends in success if nothing stops it. -/
def InstallingStage (disk : InstallDisk) (holder : PathBuf → Option Nat) : InstallStage → Prop
  | .idle | .ended _ => False
  | .requested engine' version' => engine' = engine ∧ version' = version ∧
      disk.Adoptable services selection ∧
      holder (selection.directory services) = none
  | .selected selection' => selection' = selection ∧
      disk.Adoptable services selection ∧
      holder (selection.directory services) = none
  | .locked selection' => selection' = selection ∧ disk.Adoptable services selection
  | .missing selection' => selection' = selection ∧
      disk.final.find (selection.directory services) = none
  | .checked selection' checksum => selection' = selection ∧
      checksum = services.sha256 content ∧
      disk.final.find (selection.directory services) = none
  | .stale selection' checksum => selection' = selection ∧
      checksum = services.sha256 content ∧
      disk.final.find (selection.directory services) = none ∧
      disk.cache.find selection.asset.name ≠ none
  | .downloading selection' checksum => selection' = selection ∧
      checksum = services.sha256 content ∧
      disk.final.find (selection.directory services) = none ∧
      disk.cache.find selection.asset.name = none
  | .downloaded selection' checksum => selection' = selection ∧
      checksum = services.sha256 content ∧
      disk.final.find (selection.directory services) = none ∧
      ∃ file, disk.cache.find selection.asset.name = some file ∧ file.content = content
  | .cached selection' => selection' = selection ∧
      disk.final.find (selection.directory services) = none ∧
      ∃ file, disk.cache.find selection.asset.name = some file ∧ file.content = content
  | .extracted selection' tree' executable' => selection' = selection ∧ tree' = tree ∧
      executable' = executable ∧ disk.final.find (selection.directory services) = none
  | .probed selection' tree' executable' => selection' = selection ∧ tree' = tree ∧
      executable' = executable ∧ disk.final.find (selection.directory services) = none
  | .renamed selection' executable' => selection' = selection ∧ executable' = executable ∧
      disk.final.find (selection.directory services) =
        some ⟨selection.directory services, tree⟩
  | .described selection' installed | .verified selection' installed =>
      selection' = selection ∧ installed.Of services selection ∧
      installed.verifyIntegrityIn services disk.final = .ok ()
  | .written selection' installed => selection' = selection ∧
      installed.Of services selection ∧ installed ∈ disk.engines ∧
      installed.verifyIntegrityIn services disk.final = .ok ()

def Installing (system : InstallSystem) : Prop :=
  InstallingStage services engine version selection content tree executable system.disk
    system.holder (system.calls i)

/-- The call has returned a registered and verified record. -/
def InstallSucceeded (system : InstallSystem) : Prop :=
  ∃ installed, system.calls i = .ended (.ok installed) ∧ installed.Of services selection ∧
    installed ∈ system.disk.engines ∧
    installed.verifyIntegrityIn services system.disk.final = .ok ()

/-- The operations that a call still makes. -/
def operationsLeft : InstallStage → Nat
  | .idle | .ended _ => 0
  | .requested _ _ => 16
  | .selected _ => 15
  | .locked _ => 14
  | .missing _ => 13
  | .checked _ _ => 12
  | .stale _ _ => 11
  | .downloading _ _ => 10
  | .downloaded _ _ => 9
  | .cached _ => 8
  | .extracted _ _ _ => 7
  | .probed _ _ _ => 6
  | .renamed _ _ => 5
  | .described _ _ => 4
  | .verified _ _ => 3
  | .written _ _ => 2

/-- What an operation leaves: the call is done or has less to do. -/
def InstallOnward (system next : InstallSystem) : Prop :=
  Installing services engine version selection content tree executable i next ∧
      operationsLeft (next.calls i) < operationsLeft (system.calls i) ∨
    InstallSucceeded services selection i next

end Stages

section Operations
variable {services : InstallServices} {engine : NativeEngine} {version : String}
  {selection : Selection} {content : List UInt8} {tree : EngineTree} {executable : EngineFile}
  {i : Nat} {system : InstallSystem}

theorem onward_of_stage {disk : InstallDisk} {holder : PathBuf → Option Nat}
    {stage : InstallStage}
    (hstage : InstallingStage services engine version selection content tree executable disk holder
      stage)
    (hless : operationsLeft stage < operationsLeft (system.calls i)) :
    InstallOnward services engine version selection content tree executable i system
      ⟨disk, holder, Function.update system.calls i stage⟩ := by
  refine .inl ⟨?_, ?_⟩
  · dsimp only [Installing]
    rw [Function.update_self]
    exact hstage
  · dsimp only
    rw [Function.update_self]
    exact hless

theorem succeeded_finish {installed : InstalledEngine} (hof : installed.Of services selection)
    (hmem : installed ∈ system.disk.engines)
    (hverified : installed.verifyIntegrityIn services system.disk.final = .ok ()) :
    InstallSucceeded services selection i
      (system.finish services i selection (.ok installed)) :=
  ⟨installed, Function.update_self .., hof, hmem, hverified⟩

/-- A verified record of a selection refers to its directory. -/
theorem directory_of_verified {final : Table EngineDirectory.path} {installed : InstalledEngine}
    (hof : installed.Of services selection)
    (h : installed.verifyIntegrityIn services final = .ok ()) :
    installed.directory = selection.directory services := by
  simp only [InstalledEngine.verifyIntegrityIn, bind_eq_ok, rejectIf_eq_ok, ne_eq,
    Decidable.not_not] at h
  obtain ⟨-, -, -, -, -, -, -, hdirectory, -⟩ := h
  rw [hdirectory, hof.1, hof.2.1, hof.2.2]
  rfl

theorem exactEngine_ok {disk : InstallDisk} (hdisk : disk.Sound services)
    (hregistered : ∃ installed ∈ disk.engines, installed.Of services selection) :
    ∃ installed ∈ disk.engines, installed.Of services selection ∧
      exactEngine services disk selection.engine.name selection.release.tagName
        (targetTriple services) (selection.directory services) = .ok installed := by
  obtain ⟨data, hdata⟩ := hdisk.readable
  have hengines : data.engines = disk.engines := engines_of_readEngineData hdata
  cases hfind : data.engines.find? fun engine => engine.SameKey selection.engine.name
      selection.release.tagName (targetTriple services) with
  | none =>
      obtain ⟨installed, hmem, hof⟩ := hregistered
      have hnot := List.find?_eq_none.mp hfind installed (hengines ▸ hmem)
      rw [decide_eq_true_eq] at hnot
      exact absurd hof hnot
  | some installed =>
      have hmem : installed ∈ disk.engines := hengines ▸ List.mem_of_find?_eq_some hfind
      have hof : installed.Of services selection := by
        have hkey := List.find?_some hfind
        rw [decide_eq_true_eq] at hkey
        exact hkey
      have hverified := hdisk.verified installed hmem
      refine ⟨installed, hmem, hof, ?_⟩
      simp only [exactEngine, hdata, hfind, okOr, directory_of_verified hof hverified, ne_eq,
        not_true_eq_false, rejectIf_of_not _ not_false, hverified, bind, Except.bind, pure,
        Except.pure]

theorem valid_names (h : selectRelease services engine version = .ok selection) :
    validateVersion selection.release.tagName = .ok () ∧
      validatePathSegment (targetTriple services) = .ok () := by
  simp only [selectRelease, bind_eq_ok] at h
  obtain ⟨-, -, h⟩ := h
  split at h
  · cases h
  · simp only [bind_eq_ok] at h
    obtain ⟨release, -, h⟩ := h
    simp only [selectAsset, bind_eq_ok] at h
    obtain ⟨⟨⟩, hversion, -, -, asset, -, -, -, ⟨⟩, htarget, hselection⟩ := h
    cases hselection
    exact ⟨hversion, htarget⟩

theorem findEngineExecutable_ok {name : EngineName}
    (h : findEngineExecutable tree name = .ok executable) : executable ∈ tree.files.rows ∧
      ∃ fileName ∈ executable.relativePath.getLast?, fileName ∈ name.executableNames := by
  rw [findEngineExecutable, okOr_eq_ok] at h
  have hfound := List.find?_some h
  rw [decide_eq_true_eq] at hfound
  exact ⟨List.mem_of_find?_eq_some h, hfound.2⟩

theorem PathBuf.below_joinAll (directory : PathBuf) (relative : List String) :
    (directory.joinAll relative).below directory = some relative := by
  rw [PathBuf.below, PathBuf.joinAll, if_pos (List.prefix_append _ _), List.drop_left]

theorem PathBuf.fileName_joinAll (directory : PathBuf) {relative : List String}
    {fileName : String} (h : relative.getLast? = some fileName) :
    (directory.joinAll relative).fileName = some fileName := by
  rw [PathBuf.fileName, PathBuf.joinAll, List.getLast?_append, h]
  rfl

theorem buildEngineManifest_ne_nil {files : List EngineFileIntegrity}
    (h : buildEngineManifest services tree = .ok files) (hmem : executable ∈ tree.files.rows) :
    files ≠ [] := by
  simp only [buildEngineManifest, bind_eq_ok] at h
  obtain ⟨-, -, -, -, hfiles⟩ := h
  cases hfiles
  rw [← List.length_pos_iff, List.length_insertionSort, List.length_map]
  exact List.length_pos_of_mem hmem

/-- What is in a final directory under its name gets a record that passes its check. -/
theorem describeEngine_ok
    (hvalid : ValidRelease services engine version selection content tree executable)
    {final : Table EngineDirectory.path}
    (hfinal : final.find (selection.directory services) =
      some ⟨selection.directory services, tree⟩) (id : Uuid) (now : Int) :
    ∃ installed, describeEngine services final selection executable id now = .ok installed ∧
      installed.Of services selection ∧
      installed.verifyIntegrityIn services final = .ok () := by
  obtain ⟨hversion, htarget⟩ := valid_names hvalid.selected
  obtain ⟨hmem, fileName, hlast, hname⟩ := findEngineExecutable_ok hvalid.found
  obtain ⟨files, hfiles⟩ := hvalid.manifest
  have hfind : tree.files.find executable.relativePath = some executable := Table.find_of_mem hmem
  have hnamed : ¬ ¬ ∃ fileName ∈ ((selection.directory services).joinAll
      executable.relativePath).fileName, fileName ∈ selection.engine.name.executableNames :=
    not_not.mpr ⟨fileName, PathBuf.fileName_joinAll _ hlast, hname⟩
  have hplace : ¬ selection.directory services ≠ finalDirectory services selection.engine.name
      selection.release.tagName (targetTriple services) := not_not.mpr rfl
  refine ⟨_, by simp only [describeEngine, hfinal, hfind, hfiles, okOr, bind, Except.bind, pure,
    Except.pure]; rfl, ⟨rfl, rfl, rfl⟩, ?_⟩
  simp only [InstalledEngine.verifyIntegrityIn, hfinal, okOr, hversion, htarget, Except.mapError,
    rejectIf_of_not _ hplace, PathBuf.below_joinAll, hfind, rejectIf_of_not _ hnamed, ne_eq,
    not_true_eq_false, rejectIf_of_not _ not_false,
    rejectIf_of_not _ (buildEngineManifest_ne_nil hfiles hmem), hfiles, bind, Except.bind]

theorem Installing.advance
    (hvalid : ValidRelease services engine version selection content tree executable)
    (hsound : system.Sound services)
    (hinstalling : Installing services engine version selection content tree executable i system)
    {id : Uuid} {now : Int} {next : InstallSystem}
    (hstep : system.advance services i id now = some next) :
    InstallOnward services engine version selection content tree executable i system next := by
  have hless : ∀ {stage stage' : InstallStage}, system.calls i = stage' →
      operationsLeft stage < operationsLeft stage' →
        operationsLeft stage < operationsLeft (system.calls i) := by
    intro stage stage' hstage hlt
    rw [hstage]
    exact hlt
  rw [Installing] at hinstalling
  rw [InstallSystem.advance] at hstep
  cases hstage : system.calls i <;> rw [hstage] at hstep hinstalling
  case idle | ended => cases hstep
  case requested engine' version' =>
    obtain ⟨rfl, rfl, hadoptable, hfree⟩ := hinstalling
    cases hstep
    simp only [InstallSystem.select, hvalid.selected]
    exact onward_of_stage ⟨rfl, hadoptable, hfree⟩ (hless hstage (of_decide_eq_true rfl))
  case selected selection' =>
    obtain ⟨rfl, hadoptable, hfree⟩ := hinstalling
    simp only [InstallSystem.lock, hfree] at hstep
    cases hstep
    exact onward_of_stage ⟨rfl, hadoptable⟩ (hless hstage (of_decide_eq_true rfl))
  case locked selection' =>
    obtain ⟨rfl, hadoptable⟩ := hinstalling
    cases hstep
    cases hfind : system.disk.final.find (selection'.directory services) with
    | none =>
        simp only [InstallSystem.lookAtDirectory, hfind]
        exact onward_of_stage ⟨rfl, hfind⟩ (hless hstage (of_decide_eq_true rfl))
    | some directory =>
        have hregistered := hadoptable.resolve_left (by rw [hfind]; exact Option.some_ne_none _)
        obtain ⟨installed, hmem, hof, hexact⟩ := exactEngine_ok hsound.disk hregistered
        simp only [InstallSystem.lookAtDirectory, hfind, hexact]
        exact .inr (succeeded_finish hof hmem (hsound.disk.verified installed hmem))
  case missing selection' =>
    obtain ⟨rfl, hmissing⟩ := hinstalling
    cases hstep
    simp only [InstallSystem.lookUpChecksum, hvalid.checksum]
    exact onward_of_stage ⟨rfl, rfl, hmissing⟩ (hless hstage (of_decide_eq_true rfl))
  case checked selection' checksum =>
    obtain ⟨rfl, rfl, hmissing⟩ := hinstalling
    cases hstep
    cases hfind : system.disk.cache.find selection'.asset.name with
    | none =>
        simp only [InstallSystem.lookAtCache, hfind]
        exact onward_of_stage ⟨rfl, rfl, hmissing, hfind⟩ (hless hstage (of_decide_eq_true rfl))
    | some file =>
        simp only [InstallSystem.lookAtCache, hfind]
        by_cases hdigest : services.sha256 file.content = services.sha256 content
        · rw [if_pos hdigest]
          exact onward_of_stage ⟨rfl, hmissing, file, hfind, hvalid.digest _ hdigest⟩
            (hless hstage (of_decide_eq_true rfl))
        · rw [if_neg hdigest]
          refine onward_of_stage ⟨rfl, rfl, hmissing, ?_⟩ (hless hstage (of_decide_eq_true rfl))
          rw [hfind]
          exact Option.some_ne_none file
  case stale selection' checksum =>
    obtain ⟨rfl, rfl, hmissing, hthere⟩ := hinstalling
    obtain ⟨file, hfind⟩ := Option.ne_none_iff_exists'.mp hthere
    cases hstep
    simp only [InstallSystem.removeStale, hfind]
    refine onward_of_stage ⟨rfl, rfl, hmissing, ?_⟩ (hless hstage (of_decide_eq_true rfl))
    rw [Table.find_erase, if_pos rfl]
  case downloading selection' checksum =>
    obtain ⟨rfl, rfl, hmissing, hfind⟩ := hinstalling
    cases hstep
    simp only [InstallSystem.download, hvalid.downloaded, hfind]
    exact onward_of_stage ⟨rfl, rfl, hmissing, _, Table.find_set_self, rfl⟩
      (hless hstage (of_decide_eq_true rfl))
  case downloaded selection' checksum =>
    obtain ⟨rfl, rfl, hmissing, file, hfind, rfl⟩ := hinstalling
    cases hstep
    simp only [InstallSystem.checkDownload, hfind, if_true]
    exact onward_of_stage ⟨rfl, hmissing, file, hfind, rfl⟩ (hless hstage (of_decide_eq_true rfl))
  case cached selection' =>
    obtain ⟨rfl, hmissing, file, hfind, rfl⟩ := hinstalling
    cases hstep
    simp only [InstallSystem.extract, hfind, hvalid.extracted, hvalid.found]
    exact onward_of_stage ⟨rfl, rfl, rfl, hmissing⟩ (hless hstage (of_decide_eq_true rfl))
  case extracted selection' tree' executable' =>
    obtain ⟨rfl, rfl, rfl, hmissing⟩ := hinstalling
    cases hstep
    simp only [InstallSystem.probe, hvalid.probed]
    exact onward_of_stage ⟨rfl, rfl, rfl, hmissing⟩ (hless hstage (of_decide_eq_true rfl))
  case probed selection' tree' executable' =>
    obtain ⟨rfl, rfl, rfl, hmissing⟩ := hinstalling
    cases hstep
    simp only [InstallSystem.rename, hmissing]
    exact onward_of_stage ⟨rfl, rfl, Table.find_set_self⟩ (hless hstage (of_decide_eq_true rfl))
  case renamed selection' executable' =>
    obtain ⟨rfl, rfl, hfinal⟩ := hinstalling
    obtain ⟨installed, hdescribed, hof, hverified⟩ := describeEngine_ok hvalid hfinal id now
    cases hstep
    simp only [InstallSystem.describe, hdescribed]
    exact onward_of_stage ⟨rfl, hof, hverified⟩ (hless hstage (of_decide_eq_true rfl))
  case described selection' installed =>
    obtain ⟨rfl, hof, hverified⟩ := hinstalling
    cases hstep
    simp only [InstallSystem.verifyRecord, hverified]
    exact onward_of_stage ⟨rfl, hof, hverified⟩ (hless hstage (of_decide_eq_true rfl))
  case verified selection' installed =>
    obtain ⟨rfl, hof, hverified⟩ := hinstalling
    obtain ⟨data, hdata⟩ := hsound.disk.readable
    cases hstep
    simp only [InstallSystem.upsert, hdata]
    exact onward_of_stage ⟨rfl, hof, mem_upsertEngine.mpr (.inr rfl), hverified⟩
      (hless hstage (of_decide_eq_true rfl))
  case written selection' installed =>
    obtain ⟨rfl, hof, hmem, hverified⟩ := hinstalling
    cases hstep
    exact .inr (succeeded_finish hof hmem hverified)

theorem Alone.eq_advance {past : List InstallEvent} {event : InstallEvent}
    (h : Alone i past system event) : ∃ id now, event = .advance i id now := by
  cases event with
  | advance j id now =>
      cases h
      exact ⟨id, now, rfl⟩
  | call | stop => exact absurd h not_false

theorem exists_advance (hholding : (system.calls i).holding ≠ none ∨
      (∃ engine version, system.calls i = .requested engine version) ∨
      ∃ selection, system.calls i = .selected selection ∧
        system.holder (selection.directory services) = none) (id : Uuid) (now : Int) :
    ∃ next, system.advance services i id now = some next := by
  rcases hholding with hholding | ⟨engine, version, hstage⟩ | ⟨selection, hstage, hfree⟩
  · rw [InstallSystem.advance]
    cases hstage : system.calls i <;> rw [hstage] at hholding
    case idle | requested | selected | ended => exact absurd rfl hholding
    all_goals exact ⟨_, rfl⟩
  · exact ⟨_, by rw [InstallSystem.advance, hstage]⟩
  · exact ⟨_, by rw [InstallSystem.advance, hstage]; simp only [InstallSystem.lock, hfree]; rfl⟩

/-- An installation that nothing stops succeeds, as each operation leaves less to do. -/
theorem finishing_of_validRelease
    (hvalid : ValidRelease services engine version selection content tree executable)
    (id : Uuid) (now : Int) :
    Finishing (InstallSystem.step services) (Alone i)
      (fun system => system.Sound services ∧
        Installing services engine version selection content tree executable i system)
      (InstallSucceeded services selection i) fun system => operationsLeft (system.calls i) where
  exists_step past system hgoing := by
    have hcan : ∃ next, system.advance services i id now = some next := by
      refine exists_advance ?_ id now
      have hinstalling := hgoing.2
      rw [Installing] at hinstalling
      cases hstage : system.calls i <;> rw [hstage] at hinstalling
      case idle | ended => exact absurd hinstalling not_false
      case requested => exact .inr (.inl ⟨_, _, rfl⟩)
      case selected selection' =>
        obtain ⟨rfl, -, hfree⟩ := hinstalling
        exact .inr (.inr ⟨_, rfl, hfree⟩)
      all_goals exact .inl (Option.some_ne_none _)
    obtain ⟨next, hnext⟩ := hcan
    exact ⟨.advance i id now, next, rfl, hnext⟩
  onward past system event next hgoing hallowed hstep := by
    obtain ⟨id, now, rfl⟩ := hallowed.eq_advance
    obtain ⟨j, heffect⟩ := effect_of_step hstep
    exact (hgoing.2.advance hvalid hgoing.1 hstep).imp_left fun h =>
      ⟨⟨heffect.sound hgoing.1, h.1⟩, h.2⟩
  rests past system event hdone hallowed := by
    obtain ⟨id, now, rfl⟩ := hallowed.eq_advance
    obtain ⟨installed, hstage, -⟩ := hdone
    simp only [InstallSystem.step, InstallSystem.advance, hstage]

end Operations

section Refusal
variable (services : InstallServices) (engine : NativeEngine) (version : String)
  (selection : Selection) (disk : InstallDisk) (i : Nat)

/-- A call that comes to a final directory without a record. -/
def Refusing (system : InstallSystem) : Prop :=
  system.disk = disk ∧
    match system.calls i with
    | .requested engine' version' => engine' = engine ∧ version' = version ∧
        system.holder (selection.directory services) = none
    | .selected selection' => selection' = selection ∧
        system.holder (selection.directory services) = none
    | .locked selection' => selection' = selection
    | _ => False

def unregisteredError : EngineInstallError :=
  .registryCorrupt ("安装目录已存在但没有可信登记，拒绝接管：" ++
    (selection.directory services).display)

def Refused (system : InstallSystem) : Prop :=
  system.disk = disk ∧
    system.calls i = .ended (.error (unregisteredError services selection))

variable {services engine version selection disk i}

theorem exactEngine_error (hdisk : disk.Sound services)
    (hnot : ¬ disk.Adoptable services selection) :
    exactEngine services disk selection.engine.name selection.release.tagName
      (targetTriple services) (selection.directory services) =
        .error (unregisteredError services selection) := by
  obtain ⟨data, hdata⟩ := hdisk.readable
  have hengines : data.engines = disk.engines := engines_of_readEngineData hdata
  have hfind : data.engines.find? (fun engine => engine.SameKey selection.engine.name
      selection.release.tagName (targetTriple services)) = none := by
    rw [List.find?_eq_none]
    intro installed hmem hkey
    rw [decide_eq_true_eq] at hkey
    exact hnot (.inr ⟨installed, hengines ▸ hmem, hkey⟩)
  simp only [exactEngine, hdata, hfind, okOr, bind, Except.bind]
  rfl

theorem finishing_of_unregistered (hselected : selectRelease services engine version =
      .ok selection) (hdisk : disk.Sound services)
    (hnot : ¬ disk.Adoptable services selection) (id : Uuid) (now : Int) :
    Finishing (InstallSystem.step services) (Alone i)
      (Refusing services engine version selection disk i) (Refused services selection disk i)
      fun system => operationsLeft (system.calls i) where
  exists_step past system hgoing := by
    have hcan : ∃ next, system.advance services i id now = some next := by
      refine exists_advance ?_ id now
      have hrefusing := hgoing.2
      cases hstage : system.calls i <;> rw [hstage] at hrefusing
      case requested => exact .inr (.inl ⟨_, _, rfl⟩)
      case selected selection' =>
        obtain ⟨rfl, hfree⟩ := hrefusing
        exact .inr (.inr ⟨_, rfl, hfree⟩)
      case locked => exact .inl (Option.some_ne_none _)
      all_goals exact absurd hrefusing not_false
    obtain ⟨next, hnext⟩ := hcan
    exact ⟨.advance i id now, next, rfl, hnext⟩
  onward past system event next hgoing hallowed hstep := by
    obtain ⟨id, now, rfl⟩ := hallowed.eq_advance
    obtain ⟨rfl, hrefusing⟩ := hgoing
    simp only [InstallSystem.step, InstallSystem.advance] at hstep
    cases hstage : system.calls i <;> rw [hstage] at hstep hrefusing
    case requested engine' version' =>
      obtain ⟨rfl, rfl, hfree⟩ := hrefusing
      cases hstep
      simp only [InstallSystem.select, hselected, InstallSystem.setCall, Refusing,
        Function.update_self]
      exact .inl ⟨⟨trivial, trivial, hfree⟩, of_decide_eq_true rfl⟩
    case selected selection' =>
      obtain ⟨rfl, hfree⟩ := hrefusing
      simp only [InstallSystem.lock, hfree] at hstep
      cases hstep
      simp only [Refusing, Function.update_self]
      exact .inl ⟨⟨trivial, trivial⟩, of_decide_eq_true rfl⟩
    case locked selection' =>
      obtain rfl := hrefusing
      cases hstep
      cases hfind : system.disk.final.find (selection'.directory services) with
      | none => exact absurd (.inl hfind) hnot
      | some directory =>
          simp only [InstallSystem.lookAtDirectory, hfind, exactEngine_error hdisk hnot]
          exact .inr ⟨rfl, Function.update_self ..⟩
    all_goals exact absurd hrefusing not_false
  rests past system event hdone hallowed := by
    obtain ⟨id, now, rfl⟩ := hallowed.eq_advance
    obtain ⟨-, hstage⟩ := hdone
    simp only [InstallSystem.step, InstallSystem.advance, hstage]

end Refusal

instance decidableRestingInstall : (stage : InstallStage) → Decidable stage.Resting
  | .idle | .ended _ => inferInstanceAs (Decidable True)
  | .requested _ _ | .selected _ | .locked _ | .missing _ | .checked _ _ | .stale _ _
  | .downloading _ _ | .downloaded _ _ | .cached _ | .extracted _ _ _ | .probed _ _ _
  | .renamed _ _ | .described _ _ | .verified _ _ | .written _ _ =>
      inferInstanceAs (Decidable False)

theorem step_call (services : InstallServices) {system : InstallSystem} {i : Nat}
    (h : (system.calls i).Resting) (engine : NativeEngine) (version : String) :
    InstallSystem.step services (.call i engine version) system =
      some (system.setCall i (.requested engine version)) := by
  simp only [InstallSystem.step]
  cases hstage : system.calls i <;> rw [hstage] at h
  all_goals exact absurd h not_false

/-- Whatever calls fail or end where, every record refers to a verified directory, and a call
that finds its lock free and is not stopped succeeds, unless there is a final directory
without a record: then it is refused, and nothing changes. -/
theorem installation_repeatable {services : InstallServices} {disk : InstallDisk}
    (hdisk : disk.Sound services) {past : List InstallEvent} {system : InstallSystem}
    (run : Run (InstallSystem.step services) Anything (.initial disk) past system) :
    (∀ installed ∈ system.disk.engines,
      installed.verifyIntegrityIn services system.disk.final = .ok ()) ∧
    (∀ path i, system.holder path = some i → ¬ (system.calls i).Resting) ∧
    ∀ i engine version selection content tree executable,
      ValidRelease services engine version selection content tree executable →
      (system.calls i).Resting → system.holder (selection.directory services) = none →
      ∃ begun, InstallSystem.step services (.call i engine version) system = some begun ∧
        (system.disk.Adoptable services selection →
          (∃ events final, Run (InstallSystem.step services) (Alone i) begun events final ∧
            InstallSucceeded services selection i final) ∧
          ∀ events final error, Run (InstallSystem.step services) (Alone i) begun events final →
            final.calls i ≠ .ended (.error error)) ∧
        (¬ system.disk.Adoptable services selection →
          (∃ events final, Run (InstallSystem.step services) (Alone i) begun events final ∧
            final.calls i = .ended (.error (unregisteredError services selection))) ∧
          ∀ events final, Run (InstallSystem.step services) (Alone i) begun events final →
            final.disk = system.disk ∧ ∀ installed, final.calls i ≠ .ended (.ok installed)) := by
  have hsound := sound_of_installs hdisk run
  refine ⟨hsound.disk.verified, ?_, ?_⟩
  · intro path i hholder hresting
    have hholding := holding_of_holder hsound hholder
    cases hstage : system.calls i <;> rw [hstage] at hresting hholding
    case idle | ended => exact hholding rfl
    all_goals exact hresting
  · intro i engine version selection content tree executable hvalid hresting hfree
    have hstep := step_call services hresting engine version
    obtain ⟨j, heffect⟩ := effect_of_step hstep
    refine ⟨_, hstep, fun hadoptable => ?_, fun hnot => ?_⟩
    · have hfinishing := finishing_of_validRelease (i := i) hvalid (.fromU128 0) 0
      have hgoing : (system.setCall i (.requested engine version)).Sound services ∧
          Installing services engine version selection content tree executable i
            (system.setCall i (.requested engine version)) := by
        refine ⟨heffect.sound hsound, ?_⟩
        simp only [Installing, InstallSystem.setCall, Function.update_self]
        exact ⟨rfl, rfl, hadoptable, hfree⟩
      refine ⟨hfinishing.finishes .start hgoing, ?_⟩
      intro events final error hrun hstage
      rcases hfinishing.stays hgoing hrun with ⟨-, hinstalling⟩ | ⟨installed, hother, -⟩
      · rw [Installing, hstage] at hinstalling
        exact hinstalling
      · rw [hother] at hstage
        cases hstage
    · have hfinishing := finishing_of_unregistered (i := i) hvalid.selected hsound.disk hnot
        (.fromU128 0) 0
      have hgoing : Refusing services engine version selection system.disk i
          (system.setCall i (.requested engine version)) := by
        refine ⟨rfl, ?_⟩
        simp only [InstallSystem.setCall, Function.update_self]
        exact ⟨trivial, trivial, hfree⟩
      constructor
      · obtain ⟨events, final, hrun, -, hstage⟩ := hfinishing.finishes .start hgoing
        exact ⟨events, final, hrun, hstage⟩
      · intro events final hrun
        rcases hfinishing.stays hgoing hrun with ⟨hsame, hrefusing⟩ | ⟨hsame, hother⟩
        · refine ⟨hsame, fun installed hstage => ?_⟩
          rw [hstage] at hrefusing
          exact hrefusing
        · refine ⟨hsame, fun installed hstage => ?_⟩
          rw [hother] at hstage
          cases hstage

section Samples

def sampleArchive : List UInt8 := [1, 2]

def sampleInstallServices : InstallServices where
  enginesRoot := ⟨["engines"]⟩
  operatingSystem := "linux"
  architecture := "x86_64"
  unsupportedReason _ := none
  release _ _ := .ok ⟨"v1.2", [⟨"ollama-linux-amd64.tar.zst", "https://releases",
    some (String.ofList ("sha256:".toList ++ List.replicate 64 'a'))⟩]⟩
  isHttps _ := true
  fetchText _ := .error .http
  fetch _ := .ok sampleArchive
  sha256 content := String.ofList (List.replicate 64 (if content = sampleArchive then 'a' else 'b'))
  extract _ _ := .ok ⟨⟨[⟨["bin", "ollama"], [7]⟩], by decide⟩, 1⟩
  probe _ := some "ollama version is 1.2"

def sampleSelection : Selection where
  engine := .ollama
  release := ⟨"v1.2", [⟨"ollama-linux-amd64.tar.zst", "https://releases",
    some (String.ofList ("sha256:".toList ++ List.replicate 64 'a'))⟩]⟩
  asset := ⟨"ollama-linux-amd64.tar.zst", "https://releases",
    some (String.ofList ("sha256:".toList ++ List.replicate 64 'a'))⟩

def sampleExecutable : EngineFile := ⟨["bin", "ollama"], [7]⟩

def sampleDisk : InstallDisk := ⟨.empty, .empty, none⟩

/-- A call that is stopped after some operations. -/
def sampleStopped (operations : Nat) : List InstallEvent :=
  .call 0 .ollama "v1.2" :: List.replicate operations (.advance 0 (.fromU128 5) 9) ++ [.stop 0]

theorem validRelease_sample : ValidRelease sampleInstallServices .ollama "v1.2" sampleSelection
    sampleArchive ⟨⟨[sampleExecutable], by decide⟩, 1⟩ sampleExecutable where
  selected := by rfl
  checksum := by rfl
  downloaded := by rfl
  digest := by
    intro other h
    by_contra hne
    simp only [sampleInstallServices, if_neg hne] at h
    exact absurd h (by decide +kernel)
  extracted := rfl
  found := by rfl
  probed := by rfl
  manifest := ⟨_, by rfl⟩

theorem sound_sampleDisk : sampleDisk.Sound sampleInstallServices :=
  ⟨⟨_, rfl⟩, fun _ h => nomatch h⟩

theorem installation_repeatable_sample : ∃ past system begun events final,
    Run (InstallSystem.step sampleInstallServices) Anything (.initial sampleDisk) past system ∧
    InstallEvent.stop 0 ∈ past ∧
    InstallSystem.step sampleInstallServices (.call 1 .ollama "v1.2") system = some begun ∧
    Run (InstallSystem.step sampleInstallServices) (Alone 1) begun events final ∧
    InstallSucceeded sampleInstallServices sampleSelection 1 final := by
  have hexecuted : ((execute (InstallSystem.step sampleInstallServices) Anything []
      (sampleStopped 6) (.initial sampleDisk)).map fun system =>
        decide ((system.calls 1).Resting ∧
          system.holder (sampleSelection.directory sampleInstallServices) = none ∧
          (system.disk.final.find
            (sampleSelection.directory sampleInstallServices)).isNone = true)) = some true := by
    decide +kernel
  obtain ⟨system, hrun, hfacts⟩ := Option.map_eq_some_iff.mp hexecuted
  obtain ⟨hresting, hfree, hmissing⟩ := of_decide_eq_true hfacts
  obtain ⟨-, -, hagain⟩ := installation_repeatable sound_sampleDisk (Run.start.execute hrun)
  obtain ⟨begun, hbegun, hsucceeds, -⟩ :=
    hagain 1 .ollama "v1.2" _ _ _ _ validRelease_sample hresting hfree
  obtain ⟨⟨events, final, hrest, hdone⟩, -⟩ :=
    hsucceeds (.inl (Option.isNone_iff_eq_none.mp hmissing))
  exact ⟨_, system, begun, events, final, Run.start.execute hrun, by simp [sampleStopped], hbegun,
    hrest, hdone⟩

def InstallStage.error : InstallStage → Option EngineInstallError
  | .ended (.error error) => some error
  | _ => none

/-- A call that is stopped right after its rename leaves a directory that every later call
refuses. -/
theorem installation_repeatable_fails : ∃ past system begun events final,
    Run (InstallSystem.step sampleInstallServices) Anything (.initial sampleDisk) past system ∧
    (system.calls 1).Resting ∧
    system.holder (sampleSelection.directory sampleInstallServices) = none ∧
    InstallSystem.step sampleInstallServices (.call 1 .ollama "v1.2") system = some begun ∧
    Run (InstallSystem.step sampleInstallServices) (Alone 1) begun events final ∧
    final.calls 1 =
      .ended (.error (unregisteredError sampleInstallServices sampleSelection)) := by
  have hexecuted : ((execute (InstallSystem.step sampleInstallServices) Anything []
      (sampleStopped 10) (.initial sampleDisk)).bind fun system =>
        (InstallSystem.step sampleInstallServices (.call 1 .ollama "v1.2") system).bind
          fun begun => (execute (InstallSystem.step sampleInstallServices) (Alone 1) []
            (List.replicate 3 (.advance 1 (.fromU128 6) 10)) begun).map fun final =>
              decide ((system.calls 1).Resting ∧
                system.holder (sampleSelection.directory sampleInstallServices) = none ∧
                (final.calls 1).error =
                  some (unregisteredError sampleInstallServices sampleSelection))) =
      some true := by
    decide +kernel
  simp only [Option.bind_eq_some_iff, Option.map_eq_some_iff] at hexecuted
  obtain ⟨system, hrun, begun, hbegun, final, hrest, hfacts⟩ := hexecuted
  obtain ⟨hresting, hfree, herror⟩ := of_decide_eq_true hfacts
  refine ⟨_, system, begun, _, final, Run.start.execute hrun, hresting, hfree, hbegun,
    Run.start.execute hrest, ?_⟩
  unfold InstallStage.error at herror
  split at herror
  · rename_i hstage
    cases herror
    exact hstage
  · cases herror

end Samples

end MindOne.Engine
