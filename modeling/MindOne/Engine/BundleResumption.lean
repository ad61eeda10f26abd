import MindOne.Engine.BundleRuns

/-!
# Bundles after stopped runs

A run may be stopped and begun again any number of times. What it needs is that it is
never stopped while a partial file is complete or stands beside its target: the first
makes the remote refuse the next request, the second leaves the partial file in the
final directory, where the deletion of the bundle meets it.
-/

namespace MindOne.Engine

open CheckedArithmetic KeyedTable LabelledRuns MindOne.Stream

section Condition
variable (services : BundleServices) (shards : List Shard)

/-- A run is only stopped where the next one can resume what it finds. -/
def StoppedResumably : List BundleEvent → BundleSystem → BundleEvent → Prop
  | _, system, .disconnect | _, system, .kill =>
      ∀ directory ∈ system.disk.staging, Resumable services shards directory
  | _, _, .start | _, _, .advance _ | _, _, .receive _ => True

instance (past : List BundleEvent) (system : BundleSystem) (event : BundleEvent) :
    Decidable (StoppedResumably services shards past system event) :=
  match event with
  | .disconnect | .kill =>
      inferInstanceAs (Decidable (∀ directory ∈ system.disk.staging, _))
  | .start | .advance _ | .receive _ => inferInstanceAs (Decidable True)

end Condition

section Runs
variable {services : BundleServices} {localName : String} {deployment : DeploymentArtifact}
  {shards : List Shard} {system next : BundleSystem}

/-- No run is under way, or the next operation refuses the final directory. -/
structure Parked (services : BundleServices) (localName : String) (shards : List Shard)
    (system : BundleSystem) : Prop where
  stage : system.stage = .idle ∨ (∃ error, system.stage = .ended (.error error)) ∨
    system.stage = .preparing ∧ system.disk.final ≠ none
  open_of : system.disk.final = none → system.disk.Open services localName shards

/-- A run that can go on leaves a disk for the next one, if it is stopped resumably. -/
theorem Going.open_of (hgoing : Going services localName shards system)
    (hresumable : ∀ directory ∈ system.disk.staging, Resumable services shards directory)
    (hfinal : system.disk.final = none) : system.disk.Open services localName shards := by
  have hopen : ∀ directory, Building services localName shards system.disk directory →
      system.disk.Open services localName shards := by
    intro directory hbuilding
    refine ⟨hfinal, hbuilding.free, fun other hother => ?_⟩
    obtain rfl := Option.some.inj (hbuilding.staging.symm.trans hother)
    exact ⟨hbuilding.staged, hresumable _ hother⟩
  have hpublished : ∀ directory, ¬ Published services shards system.disk directory := by
    intro directory hpublished
    rw [hpublished.final] at hfinal
    cases hfinal
  obtain ⟨disk, stage⟩ := system
  cases stage with
  | idle | ended => exact absurd hgoing not_false
  | preparing => exact hgoing
  | listing | shard =>
      obtain ⟨directory, hbuilding, -⟩ := hgoing
      exact hopen directory hbuilding
  | requesting | opening | receiving | linking | linked =>
      obtain ⟨directory, hbusy, -⟩ := hgoing
      exact hopen directory hbusy.toBuilding
  | «renaming» =>
      obtain ⟨directory, hbuilding, -⟩ := hgoing
      exact hopen directory hbuilding
  | renamed | registering =>
      obtain ⟨directory, hdirectory, -⟩ := hgoing
      exact absurd hdirectory (hpublished directory)

/-- What holds of every state of runs that are only stopped resumably. -/
def Sound (services : BundleServices) (localName : String) (shards : List Shard)
    (system : BundleSystem) : Prop :=
  Going services localName shards system ∨ Installed services localName shards system ∨
    Parked services localName shards system

theorem Going.stop (hgoing : Going services localName shards system) {past : List BundleEvent}
    {event : BundleEvent}
    (hallowed : StoppedResumably services shards past system event)
    (hstop : ¬ Uninterrupted past system event)
    (hstep : BundleSystem.step services localName deployment event system = some next) :
    Parked services localName shards next := by
  cases event with
  | advance | receive => exact absurd trivial hstop
  | start =>
      simp only [BundleSystem.step, Option.ite_none_right_eq_some] at hstep
      obtain ⟨disk, stage⟩ := system
      cases stage with
      | idle | ended => exact absurd hgoing not_false
      | _ => exact absurd hstep.1 not_false
  | kill =>
      simp only [BundleSystem.step, Option.ite_none_left_eq_some, Option.some.injEq] at hstep
      obtain ⟨-, rfl⟩ := hstep
      exact ⟨.inl rfl, hgoing.open_of hallowed⟩
  | disconnect =>
      have hnext : next = system.fail (.download .http) := by
        simp only [BundleSystem.step] at hstep
        split at hstep <;> cases hstep <;> rfl
      rw [hnext]
      exact ⟨.inr (.inl ⟨_, rfl⟩), hgoing.open_of hallowed⟩

theorem Installed.step (hinstalled : Installed services localName shards system)
    {event : BundleEvent}
    (hstep : BundleSystem.step services localName deployment event system = some next) :
    Parked services localName shards next := by
  obtain ⟨directory, record, hpublished, hstage, -⟩ := hinstalled
  obtain ⟨disk, stage⟩ := system
  obtain rfl : stage = .ended (.ok record) := hstage
  cases event with
  | start =>
      cases hstep
      have hfinal : disk.final ≠ none := by
        rw [hpublished.final]
        exact Option.some_ne_none directory
      exact ⟨.inr (.inr ⟨rfl, hfinal⟩), fun hnone => absurd hnone hfinal⟩
  | advance | receive | disconnect | kill => cases hstep

theorem prepare_final (hfinal : system.disk.final ≠ none) : ∃ error,
    prepare services localName deployment system = system.fail error := by
  have hsome : system.disk.final.isSome = true := Option.isSome_iff_ne_none.mpr hfinal
  simp only [prepare, hsome, if_true]
  split
  · exact ⟨_, rfl⟩
  · split
    · exact ⟨_, rfl⟩
    · exact ⟨_, rfl⟩

theorem Parked.step (hparked : Parked services localName shards system) {event : BundleEvent}
    (hstep : BundleSystem.step services localName deployment event system = some next) :
    Sound services localName shards next := by
  obtain ⟨hstage, hopen⟩ := hparked
  obtain ⟨disk, stage⟩ := system
  dsimp only at hstage hopen
  cases event with
  | start =>
      simp only [BundleSystem.step, Option.ite_none_right_eq_some, Option.some.injEq] at hstep
      obtain ⟨-, rfl⟩ := hstep
      by_cases hfinal : disk.final = none
      · exact .inl (hopen hfinal)
      · exact .inr (.inr ⟨.inr (.inr ⟨rfl, hfinal⟩), fun hnone => absurd hnone hfinal⟩)
  | advance id =>
      rcases hstage with rfl | ⟨error, rfl⟩ | ⟨rfl, hfinal⟩
      · cases hstep
      · cases hstep
      · cases hstep
        obtain ⟨error, herror⟩ : ∃ error, prepare services localName deployment
          ⟨disk, .preparing⟩ = BundleSystem.fail ⟨disk, .preparing⟩ error := prepare_final hfinal
        rw [herror]
        exact .inr (.inr ⟨.inr (.inl ⟨error, rfl⟩), fun hnone => absurd hnone hfinal⟩)
  | receive n =>
      rcases hstage with rfl | ⟨error, rfl⟩ | ⟨rfl, hfinal⟩ <;> cases hstep
  | disconnect =>
      rcases hstage with rfl | ⟨error, rfl⟩ | ⟨rfl, hfinal⟩ <;> cases hstep
  | kill =>
      rcases hstage with rfl | ⟨error, rfl⟩ | ⟨rfl, hfinal⟩
      · cases hstep
      · cases hstep
      · cases hstep
        exact .inr (.inr ⟨.inl rfl, fun hnone => absurd hnone hfinal⟩)

theorem sound_of_run (h : Installable services localName deployment shards)
    {registry : RegistryFile} (hfree : registry.Free localName) {past : List BundleEvent}
    (run : Run (BundleSystem.step services localName deployment)
      (StoppedResumably services shards) (.initial registry) past system) :
    Sound services localName shards system := by
  induction run with
  | start => exact .inr (.inr ⟨.inl rfl, fun _ => ⟨rfl, hfree, fun _ h => nomatch h⟩⟩)
  | @step past state next event _ hallowed hstep ih =>
      rcases ih with hgoing | hinstalled | hparked
      · by_cases hgoes : Uninterrupted past state event
        · rcases hgoing.step h hgoes hstep with ⟨hnext, -⟩ | hinstalled
          · exact .inl hnext
          · exact .inr (.inl hinstalled)
        · exact .inr (.inr (hgoing.stop hallowed hgoes hstep))
      · exact .inr (.inr (hinstalled.step hstep))
      · exact hparked.step hstep

section Records
variable {directory : Directory} {record : ModelRecord} {path : PathBuf}
  (hartifacts : record.artifacts = shards.zipIdx.map fun (shard, position) =>
    shard.artifactRecord services path shards.length position)
include hartifacts

theorem fileNames_of_artifacts :
    record.artifacts.filterMap (fun artifact => artifact.path.fileName) =
      shards.map Shard.outputName := by
  rw [hartifacts, List.filterMap_map]
  conv_rhs => rw [← List.zipIdx_map_fst 0 shards, List.map_map]
  rw [← List.filterMap_eq_map]
  refine List.filterMap_congr fun entry _ => ?_
  exact PathBuf.fileName_join path entry.1.outputName

/-- The files of the directory are those of the record. -/
theorem Complete.mem_names_iff (hcomplete : Complete services shards directory) {name : String} :
    name ∈ directory.names ↔
      name ∈ record.artifacts.filterMap (fun artifact => artifact.path.fileName) := by
  rw [fileNames_of_artifacts hartifacts, mem_names, List.mem_map]
  constructor
  · intro hfind
    obtain ⟨shard, hmem, rfl⟩ := hcomplete.entries name hfind
    exact ⟨shard, hmem, rfl⟩
  · rintro ⟨shard, hmem, rfl⟩
    obtain ⟨entry, hfind, -⟩ := hcomplete.targets shard hmem
    rw [hfind]
    exact Option.some_ne_none entry

theorem checkExactDirectory_ok (h : Installable services localName deployment shards)
    (hcomplete : Complete services shards directory) :
    checkExactDirectory record directory = .ok () := by
  have hnames := @Complete.mem_names_iff services shards directory record path hartifacts hcomplete
  have hnodup : (shards.map Shard.outputName).Nodup := by
    rw [List.nodup_iff_injective_getElem]
    rintro ⟨i, hi⟩ ⟨j, hj⟩ heq
    rw [List.length_map] at hi hj
    simp only [List.getElem_map] at heq
    exact Fin.ext (h.position_unique (List.getElem?_eq_getElem hi) (List.getElem?_eq_getElem hj)
      heq)
  have hdistinct : ¬ (record.artifacts.filterMap
      fun artifact => artifact.path.fileName).dedup.length ≠ record.artifacts.length := by
    rw [fileNames_of_artifacts hartifacts, hnodup.dedup, hartifacts, List.length_map,
      List.length_map, List.length_zipIdx]
    exact not_not.mpr rfl
  have hknown : ¬ ∃ name ∈ directory.names, name ∉ record.artifacts.filterMap
      fun artifact => artifact.path.fileName := by
    rintro ⟨name, hmem, hnot⟩
    exact hnot (hnames.mp hmem)
  have hpresent : ¬ ∃ name ∈ record.artifacts.filterMap
      (fun artifact => artifact.path.fileName), name ∉ directory.names := by
    rintro ⟨name, hmem, hnot⟩
    exact hnot (hnames.mpr hmem)
  simp only [checkExactDirectory, rejectIf_of_not _ hdistinct, rejectIf_of_not _ hknown,
    rejectIf_of_not _ hpresent, bind, Except.bind]

end Records

/-- Runs that are only stopped where the next one can resume what it finds leave exactly the
files of the record when one returns it, and until then the next one returns it. -/
theorem resumed_bundle_is_exact (h : Installable services localName deployment shards)
    {registry : RegistryFile} (hfree : registry.Free localName) {past : List BundleEvent}
    (run : Run (BundleSystem.step services localName deployment)
      (StoppedResumably services shards) (.initial registry) past system) (id : Uuid) :
    (∀ record, system.stage = .ended (.ok record) → record ∈ system.disk.registry.models ∧
      ∃ directory, system.disk.final = some directory ∧
        (∀ name, name ∈ directory.names ↔
          ∃ artifact ∈ record.artifacts, artifact.path.fileName = some name) ∧
        checkExactDirectory record directory = .ok ()) ∧
    (system.stage.Resting → system.disk.final = none → ∃ begun,
      BundleSystem.step services localName deployment .start system = some begun ∧
      (∃ events final record, Run (BundleSystem.step services localName deployment)
        Uninterrupted begun events final ∧ final.stage = .ended (.ok record)) ∧
      ∀ events final error, Run (BundleSystem.step services localName deployment)
        Uninterrupted begun events final → final.stage ≠ .ended (.error error)) := by
  have hsound := sound_of_run h hfree run
  constructor
  · intro record hstage
    rcases hsound with hgoing | hinstalled | hparked
    · exact absurd hstage hgoing.stage_ne
    · obtain ⟨directory, other, hpublished, hother, hregistered, hartifacts⟩ := hinstalled
      obtain rfl : other = record := by
        rw [hother] at hstage
        injections
      refine ⟨hregistered, directory, hpublished.final, fun name => ?_,
        checkExactDirectory_ok hartifacts h hpublished.complete⟩
      rw [Complete.mem_names_iff hartifacts hpublished.complete, List.mem_filterMap]
    · rcases hparked.stage with heq | ⟨error, heq⟩ | ⟨heq, -⟩
      all_goals
        rw [heq] at hstage
        cases hstage
  · intro hresting hfinal
    have hgoing : Going services localName shards (system.proceed .preparing) := by
      rcases hsound with hgoing | hinstalled | hparked
      · obtain ⟨disk, stage⟩ := system
        cases stage with
        | idle | ended => exact absurd hgoing not_false
        | _ => exact absurd hresting not_false
      · obtain ⟨directory, -, hpublished, -⟩ := hinstalled
        rw [hpublished.final] at hfinal
        cases hfinal
      · exact hparked.open_of hfinal
    refine ⟨_, if_pos hresting, ?_, ?_⟩
    · obtain ⟨events, final, hrun, directory, record, -, hstage, -⟩ :=
        (finishing_of_installable h id).finishes .start hgoing
      exact ⟨events, final, record, hrun, hstage⟩
    · intro events final error hrun hstage
      rcases (finishing_of_installable h id).stays hgoing hrun with hgoing | hinstalled
      · exact hgoing.stage_ne hstage
      · obtain ⟨directory, record, -, hother, -⟩ := hinstalled
        rw [hother] at hstage
        cases hstage

end Runs

section Samples

def sampleBundleServices : BundleServices where
  modelsRoot := ⟨["models"]⟩
  remote artifact := if artifact.sizeBytes = some 2 then [1, 1] else [2]
  honoursRange := true
  headerSha256 _ := none
  inspect _ content :=
    if content = [1, 1] then
      .ok ⟨.gguf, some ⟨0, 2⟩, String.ofList (List.replicate 64 'a')⟩
    else if content = [2] then
      .ok ⟨.gguf, some ⟨1, 2⟩, String.ofList (List.replicate 64 'b')⟩
    else .error (.invalidGguf "magic 不匹配")
  bundleSha256 _ := ""
  modifiedUnix := 0
  verifiedAtUnix := 0

def sampleBundle : DeploymentArtifact where
  artifacts := [
    ⟨⟨["m-00001-of-00002.gguf"]⟩, some (String.ofList (List.replicate 64 'A')), some 2⟩,
    ⟨⟨["m-00002-of-00002.gguf"]⟩, some (String.ofList (List.replicate 64 'B')), some 1⟩]

def sampleShards : List Shard :=
  sampleBundle.artifacts.map fun artifact =>
    ⟨artifact, artifact.file.fileName.getD "",
      if artifact.sizeBytes = some 2 then ".m-00001-of-00002.part.gguf"
      else ".m-00002-of-00002.part.gguf"⟩

def sampleStep : BundleEvent → BundleSystem → Option BundleSystem :=
  BundleSystem.step sampleBundleServices "m" sampleBundle

def sampleAdvances (n : Nat) : List BundleEvent := List.replicate n (.advance (.fromU128 7))

/-- The first shard needs two chunks, and the run is stopped after the first one. -/
def sampleStoppedOnce : List BundleEvent :=
  .start :: sampleAdvances 5 ++ [.receive 0, .kill, .start] ++ sampleAdvances 5 ++ [.receive 0] ++
    sampleAdvances 6 ++ [.receive 0] ++ sampleAdvances 7

def BundleSystem.deletable (system : BundleSystem) : Option Bool :=
  match system.stage, system.disk.final with
  | .ended (.ok record), some directory => some (checkExactDirectory record directory).isOk
  | _, _ => none

theorem installable_sample : Installable sampleBundleServices "m" sampleBundle sampleShards where
  name := rejectIf_of_not _ (by decide +kernel)
  listed := rfl
  split := by
    refine ⟨"m".toList, ?_⟩
    rintro (_ | _ | i) shard h
    · cases h
      decide +kernel
    · cases h
      decide +kernel
    · cases h
  promised := by
    rintro (_ | _ | i) shard h
    · cases h
      exact ⟨⟨_, rfl, by decide +kernel⟩, rfl, rfl⟩
    · cases h
      exact ⟨⟨_, rfl, by decide +kernel⟩, rfl, rfl⟩
    · cases h
  several := Nat.le_refl 2
  total := by decide

theorem resumed_bundle_is_exact_sample : ∃ past system record directory,
    Run sampleStep (StoppedResumably sampleBundleServices sampleShards) (.initial none) past
      system ∧
    BundleEvent.kill ∈ past ∧ system.stage = .ended (.ok record) ∧
    system.disk.final = some directory ∧ checkExactDirectory record directory = .ok () := by
  have hexecuted : ((execute sampleStep (StoppedResumably sampleBundleServices sampleShards) []
      sampleStoppedOnce (.initial none)).map BundleSystem.deletable) = some (some true) := by
    decide +kernel
  obtain ⟨system, hrun, hdeletable⟩ := Option.map_eq_some_iff.mp hexecuted
  obtain ⟨record, hstage⟩ : ∃ record, system.stage = .ended (.ok record) := by
    simp only [BundleSystem.deletable] at hdeletable
    split at hdeletable
    · rename_i record _ hstage _
      exact ⟨record, hstage⟩
    · cases hdeletable
  obtain ⟨-, directory, hfinal, -, hexact⟩ :=
    (resumed_bundle_is_exact installable_sample ⟨⟨1, []⟩, rfl, fun _ h => nomatch h⟩
      (Run.start.execute hrun) (.fromU128 7)).1 record hstage
  exact ⟨_, system, record, directory, Run.start.execute hrun,
    List.mem_append_left _ (List.mem_reverse.mpr (by simp [sampleStoppedOnce])), hstage, hfinal,
    hexact⟩

/-- The first shard is linked to its target when the run is stopped. -/
def sampleStoppedLinked : List BundleEvent :=
  .start :: sampleAdvances 5 ++ [.receive 1] ++ sampleAdvances 2 ++ [.kill, .start] ++
    sampleAdvances 6 ++ [.receive 0] ++ sampleAdvances 7

/-- Its partial file is complete. -/
def sampleStoppedComplete : List BundleEvent :=
  .start :: sampleAdvances 5 ++ [.receive 1, .kill]

def BundleSystem.refused (system : BundleSystem) : Bool :=
  match system.stage with
  | .ended (.error (.download (.httpStatus 416))) => true
  | _ => false

theorem resumed_bundle_is_exact_fails :
    (∃ past system record directory,
      Run sampleStep Anything (.initial none) past system ∧
      system.stage = .ended (.ok record) ∧ system.disk.final = some directory ∧
      checkExactDirectory record directory ≠ .ok ()) ∧
    ∃ past system begun events final,
      Run sampleStep Anything (.initial none) past system ∧ system.stage.Resting ∧
      system.disk.final = none ∧ sampleStep .start system = some begun ∧
      Run sampleStep Uninterrupted begun events final ∧
      final.stage = .ended (.error (.download (.httpStatus 416))) := by
  constructor
  · have hexecuted : ((execute sampleStep Anything [] sampleStoppedLinked
        (.initial none)).map BundleSystem.deletable) = some (some false) := by
      decide +kernel
    obtain ⟨system, hrun, hdeletable⟩ := Option.map_eq_some_iff.mp hexecuted
    simp only [BundleSystem.deletable] at hdeletable
    split at hdeletable
    · rename_i record directory hstage hfinal
      refine ⟨_, system, record, directory, Run.start.execute hrun, hstage, hfinal, ?_⟩
      intro hexact
      rw [hexact] at hdeletable
      cases hdeletable
    · cases hdeletable
  · have hexecuted : ((execute sampleStep Anything [] sampleStoppedComplete
        (.initial none)).bind fun system => (sampleStep .start system).bind fun begun =>
          (execute sampleStep Uninterrupted [] (sampleAdvances 4) begun).map fun final =>
            decide (system.stage.Resting ∧ system.disk.final.isNone = true ∧
              final.refused = true)) = some true := by
      decide +kernel
    simp only [Option.bind_eq_some_iff, Option.map_eq_some_iff] at hexecuted
    obtain ⟨system, hrun, begun, hbegun, final, hrest, hfinal⟩ := hexecuted
    obtain ⟨hresting, hnone, hrefused⟩ := of_decide_eq_true hfinal
    refine ⟨_, system, begun, _, final, Run.start.execute hrun, hresting,
      Option.isNone_iff_eq_none.mp hnone, hbegun, Run.start.execute hrest, ?_⟩
    simp only [BundleSystem.refused] at hrefused
    split at hrefused
    · rename_i hstage
      exact hstage
    · cases hrefused

end Samples

end MindOne.Engine
