import MindOne.Engine.BundleFiles

/-!
# Resuming the download of a bundle

As long as no run is stopped while the partial file of a shard is complete or stands
beside its target, every later run can go on: it ends with the bundle registered,
and the final directory then holds the shards of the record and nothing else.
-/

namespace MindOne.Engine

open CheckedArithmetic KeyedTable LabelledRuns MindOne.Stream

/-- The registry can be read and has no model of that name. -/
def RegistryFile.Free (registry : RegistryFile) (localName : String) : Prop :=
  ∃ data, readData registry = .ok data ∧ ∀ model ∈ data.models, model.name ≠ localName

section Invariant
variable (services : BundleServices) (localName : String) (shards : List Shard)

/-- What a run that has not renamed yet needs of the disk. -/
structure Building (disk : Disk) (directory : Directory) : Prop where
  staging : disk.staging = some directory
  final : disk.final = none
  free : disk.registry.Free localName
  staged : Staged services shards directory

/-- What the next run needs of the disk. -/
def Disk.Open (disk : Disk) : Prop :=
  disk.final = none ∧ disk.registry.Free localName ∧
    ∀ directory ∈ disk.staging, Staged services shards directory ∧
      Resumable services shards directory

structure Published (disk : Disk) (directory : Directory) : Prop where
  staging : disk.staging = none
  final : disk.final = some directory
  complete : Complete services shards directory

/-- The run is done with the first shards. -/
structure Reached (directory : Directory) (progress : Progress) : Prop where
  same : progress.shards = shards
  reports : progress.reports = shardReports services (stagingPath services localName) shards
    progress.reports.length
  le : progress.reports.length ≤ shards.length
  done : ∀ j < progress.reports.length, ∀ shard ∈ shards[j]?,
    directory.find shard.outputName ≠ none

/-- The run is busy with one shard, and the partial files of the others can be resumed. -/
structure Busy (disk : Disk) (directory : Directory) (progress : Progress) (shard : Shard) :
    Prop extends Building services localName shards disk directory,
      Reached services localName shards directory progress where
  current : shards[progress.reports.length]? = some shard
  others : ∀ other ∈ shards, other ≠ shard → Resumes services directory other

/-- A run that ends in success if nothing stops it. -/
def Going (system : BundleSystem) : Prop :=
  match system.stage with
  | .idle | .ended _ => False
  | .preparing => system.disk.Open services localName shards
  | .listing => ∃ directory, Building services localName shards system.disk directory ∧
      Resumable services shards directory
  | .shard progress => ∃ directory, Building services localName shards system.disk directory ∧
      Resumable services shards directory ∧ Reached services localName shards directory progress
  | .requesting progress shard => ∃ directory,
      Busy services localName shards system.disk directory progress shard ∧
      Resumes services directory shard ∧ directory.find shard.outputName = none
  | .opening progress shard resumed rest => ∃ directory,
      Busy services localName shards system.disk directory progress shard ∧
      directory.find shard.outputName = none ∧
      (if resumed = true then ∃ entry, directory.find shard.partialName = some entry ∧
        entry.content ++ rest = services.remote shard.artifact
      else rest = services.remote shard.artifact)
  | .receiving progress shard rest => ∃ directory,
      Busy services localName shards system.disk directory progress shard ∧
      directory.find shard.outputName = none ∧
      ∃ entry, directory.find shard.partialName = some entry ∧
        entry.content ++ rest = services.remote shard.artifact
  | .linking progress shard => ∃ directory,
      Busy services localName shards system.disk directory progress shard ∧
      directory.find shard.outputName = none ∧
      ∃ entry, directory.find shard.partialName = some entry ∧
        entry.content = services.remote shard.artifact
  | .linked progress shard => ∃ directory,
      Busy services localName shards system.disk directory progress shard ∧
      ∃ entry, directory.find shard.outputName = some entry
  | .renaming progress => ∃ directory,
      Building services localName shards system.disk directory ∧
      Complete services shards directory ∧ progress.shards = shards
  | .renamed progress => ∃ directory, Published services shards system.disk directory ∧
      system.disk.registry.Free localName ∧ progress.shards = shards
  | .registering reports => ∃ directory, Published services shards system.disk directory ∧
      system.disk.registry.Free localName ∧
      reports = shardReports services (finalPath services localName) shards shards.length

/-- The run has returned the record of all shards. -/
def Installed (system : BundleSystem) : Prop :=
  ∃ directory record, Published services shards system.disk directory ∧
    system.stage = .ended (.ok record) ∧ record ∈ system.disk.registry.models ∧
    record.artifacts = shards.zipIdx.map fun (shard, position) =>
      shard.artifactRecord services (finalPath services localName) shards.length position

/-- How much the shards from a position on take at most. -/
def leftFrom (k : Nat) : Nat :=
  ((shards.drop k).map fun shard => (services.remote shard.artifact).length + 6).sum

/-- An upper bound on the operations that a run still makes. -/
def remaining : BundleStage → Nat
  | .idle | .ended _ => 0
  | .preparing => leftFrom services shards 0 + 6
  | .listing => leftFrom services shards 0 + 5
  | .shard progress => leftFrom services shards progress.reports.length + 4
  | .requesting progress shard => leftFrom services shards (progress.reports.length + 1) +
      (services.remote shard.artifact).length + 9
  | .opening progress shard _ _ => leftFrom services shards (progress.reports.length + 1) +
      (services.remote shard.artifact).length + 8
  | .receiving progress _ rest => leftFrom services shards (progress.reports.length + 1) +
      rest.length + 7
  | .linking progress _ => leftFrom services shards (progress.reports.length + 1) + 6
  | .linked progress _ => leftFrom services shards (progress.reports.length + 1) + 5
  | .renaming _ => 3
  | .renamed _ => 2
  | .registering _ => 1

/-- What an operation leaves: the run is done or has less to do. -/
def Onward (system next : BundleSystem) : Prop :=
  Going services localName shards next ∧
      remaining services shards next.stage < remaining services shards system.stage ∨
    Installed services localName shards next

end Invariant

section Operations
variable {services : BundleServices} {localName : String} {deployment : DeploymentArtifact}
  {shards : List Shard} {system : BundleSystem} {directory : Directory} {progress : Progress}
  {shard : Shard}

theorem leftFrom_succ {k : Nat} (hk : shards[k]? = some shard) :
    leftFrom services shards k =
      (services.remote shard.artifact).length + 6 + leftFrom services shards (k + 1) := by
  obtain ⟨hlt, rfl⟩ := List.getElem?_eq_some_iff.mp hk
  rw [leftFrom, List.drop_eq_getElem_cons hlt, List.map_cons, List.sum_cons, leftFrom]

theorem inStaging_of (hdirectory : system.disk.staging = some directory)
    (go : Directory → BundleSystem) : inStaging system go = go directory := by
  rw [inStaging, hdirectory]

theorem inFinal_of (hdirectory : system.disk.final = some directory)
    (go : Directory → BundleSystem) : inFinal system go = go directory := by
  rw [inFinal, hdirectory]

theorem Busy.mem (h : Busy services localName shards system.disk directory progress shard) :
    shard ∈ shards := List.mem_of_getElem? h.current

theorem Installable.validateSingleSegment (h : Installable services localName deployment shards)
    (label : String) : Engine.validateSingleSegment localName label = .ok () := by
  have hname := h.name
  rw [validateName, rejectIf_eq_ok, not_or, not_or, not_or, not_or] at hname
  obtain ⟨hempty, -, hdot, hdots, hall⟩ := hname
  refine rejectIf_of_not _ ?_
  simp only [safeComponent, hempty, ne_eq, not_false_eq_true, decide_true, Bool.true_and, not_or]
  exact ⟨hall, hdot, hdots⟩

theorem prepare_onward (h : Installable services localName deployment shards)
    (hstage : system.stage = .preparing) (hopen : system.disk.Open services localName shards) :
    Onward services localName shards system (prepare services localName deployment system) := by
  obtain ⟨hfinal, hfree, hstaging⟩ := hopen
  have hlength : deployment.artifacts.length = shards.length := by
    rw [← (bundleShards_ok h.listed).1, List.length_map]
  have hseveral : ¬ deployment.artifacts.length < 2 := by
    rw [hlength]
    exact Nat.not_lt.mpr h.several
  have hless : remaining services shards .listing < remaining services shards system.stage := by
    rw [hstage]
    exact Nat.lt_succ_self _
  simp only [prepare, h.validateSingleSegment, if_neg hseveral, hfinal, Option.isSome_none,
    Bool.false_eq_true, if_false]
  cases hdirectory : system.disk.staging with
  | none => exact .inl ⟨⟨.empty, ⟨rfl, hfinal, hfree, staged_empty⟩, resumable_empty⟩, hless⟩
  | some directory =>
      obtain ⟨hstaged, hresumable⟩ := hstaging directory hdirectory
      exact .inl ⟨⟨directory, ⟨hdirectory, hfinal, hfree, hstaged⟩, hresumable⟩, hless⟩

theorem listEntries_onward (h : Installable services localName deployment shards)
    (hstage : system.stage = .listing)
    (hbuilding : Building services localName shards system.disk directory)
    (hresumable : Resumable services shards directory) :
    Onward services localName shards system (listEntries deployment system directory) := by
  have hnames : ∀ name ∈ directory.names, name ∈ allowedEntries shards :=
    fun name hname => hbuilding.staged.entries name (mem_names.mp hname)
  simp only [listEntries, h.listed, if_pos hnames]
  refine .inl ⟨⟨directory, hbuilding, hresumable, rfl, rfl, Nat.zero_le _, ?_⟩, ?_⟩
  · intro j hj
    exact absurd hj (Nat.not_lt_zero j)
  · rw [hstage]
    exact Nat.lt_succ_self _

/-- The next shard is begun when the target of this one is there. -/
theorem finishShard_onward (h : Installable services localName deployment shards)
    (hbuilding : Building services localName shards system.disk directory)
    (hresumable : Resumable services shards directory)
    (hreached : Reached services localName shards directory progress)
    (hcurrent : shards[progress.reports.length]? = some shard)
    (hfind : directory.find shard.outputName ≠ none) {before : BundleSystem}
    (hless : leftFrom services shards (progress.reports.length + 1) + 4 <
      remaining services shards before.stage) :
    Onward services localName shards before (finishShard system progress shard
      (shard.report services (stagingPath services localName) shards.length
        progress.reports.length)) := by
  obtain ⟨hlt, -⟩ := List.getElem?_eq_some_iff.mp hcurrent
  simp only [finishShard, (h.promised _ shard hcurrent).size, Shard.report, ne_eq,
    not_true_eq_false, if_false]
  refine .inl ⟨⟨directory, hbuilding, hresumable, hreached.same, ?_, ?_, ?_⟩, ?_⟩
  · rw [List.length_append, List.length_singleton, shardReports_succ hcurrent, ← hreached.reports]
    rfl
  · rw [List.length_append, List.length_singleton]
    exact hlt
  · rw [List.length_append, List.length_singleton]
    intro j hj other hother
    rcases Nat.lt_succ_iff_lt_or_eq.mp hj with hj | rfl
    · exact hreached.done j hj other hother
    · obtain rfl := Option.some.inj (hcurrent.symm.trans hother)
      exact hfind
  · show leftFrom services shards (progress.reports ++ [_]).length + 4 < _
    rw [List.length_append, List.length_singleton]
    exact hless

theorem lookAtShard_onward (h : Installable services localName deployment shards)
    (hstage : system.stage = .shard progress)
    (hbuilding : Building services localName shards system.disk directory)
    (hresumable : Resumable services shards directory)
    (hreached : Reached services localName shards directory progress) :
    Onward services localName shards system
      (lookAtShard services localName system directory progress) := by
  have hcurrent : progress.current = shards[progress.reports.length]? := by
    rw [Progress.current, hreached.same]
  cases hshard : shards[progress.reports.length]? with
  | none =>
      have hk : progress.reports.length = shards.length :=
        Nat.le_antisymm hreached.le (List.getElem?_eq_none_iff.mp hshard)
      have hvalid : validateGgufSplitReports progress.reports = .ok () := by
        rw [hreached.reports, hk]
        exact validateGgufSplitReports_ok h _
      have htargets : ∀ shard ∈ shards, directory.find shard.outputName ≠ none := by
        intro shard hmem
        obtain ⟨j, hj⟩ := List.mem_iff_getElem?.mp hmem
        refine hreached.done j ?_ shard hj
        rw [hk]
        exact (List.getElem?_eq_some_iff.mp hj).1
      simp only [lookAtShard, hcurrent, hshard, hvalid]
      refine .inl ⟨⟨directory, hbuilding, hbuilding.staged.complete hresumable htargets,
        hreached.same⟩, ?_⟩
      rw [hstage]
      exact Nat.lt_of_lt_of_le (Nat.lt_succ_self 3) (Nat.le_add_left 4 _)
  | some shard =>
      have hmem : shard ∈ shards := List.mem_of_getElem? hshard
      have hpromised := h.promised _ shard hshard
      obtain ⟨trusted, htrusted, hdigest⟩ := hpromised.trusted
      have hleft : remaining services shards system.stage =
          (services.remote shard.artifact).length + 6 +
            leftFrom services shards (progress.reports.length + 1) + 4 := by
        rw [hstage, remaining, leftFrom_succ hshard]
      simp only [lookAtShard, hcurrent, hshard, htrusted, hpromised.size]
      cases hfind : directory.find shard.outputName with
      | none =>
          refine .inl ⟨⟨directory, ⟨hbuilding, hreached, hshard, fun other hother _ =>
            hresumable other hother⟩, hresumable shard hmem, hfind⟩, ?_⟩
          rw [hleft]
          show leftFrom services shards (progress.reports.length + 1) +
            (services.remote shard.artifact).length + 9 < _
          omega
      | some entry =>
          have hvalid := validateEntry_target (stagingPath services localName) h hshard hfind
            (hbuilding.staged.targets shard hmem entry hfind) hdigest
          simp only [hvalid]
          refine finishShard_onward h hbuilding hresumable hreached hshard ?_ ?_
          · rw [hfind]
            exact Option.some_ne_none entry
          · rw [hleft]
            omega

theorem request_onward (h : Installable services localName deployment shards)
    (hstage : system.stage = .requesting progress shard)
    (hbusy : Busy services localName shards system.disk directory progress shard)
    (hresumes : Resumes services directory shard)
    (htarget : directory.find shard.outputName = none) :
    Onward services localName shards system
      (request services system directory progress shard) := by
  have hless : ∀ resumed rest, remaining services shards (.opening progress shard resumed rest) <
      remaining services shards system.stage := by
    intro resumed rest
    rw [hstage]
    exact Nat.lt_succ_self _
  simp only [request, h.downloadNames hbusy.current, answerRange]
  cases hfind : directory.find shard.partialName with
  | none =>
      simp only [Option.map_none, Option.getD_none, true_or, if_true]
      exact .inl ⟨⟨directory, hbusy, htarget, rfl⟩, hless _ _⟩
  | some entry =>
      simp only [Option.map_some, Option.getD_some]
      by_cases hwhole : entry.content.length = 0 ∨ services.honoursRange = false
      · simp only [if_pos hwhole]
        exact .inl ⟨⟨directory, hbusy, htarget, rfl⟩, hless _ _⟩
      · rw [not_or, Bool.not_eq_false] at hwhole
        obtain ⟨rest, hrest⟩ := hbusy.staged.partials shard hbusy.mem entry hfind
        have hlt := (hresumes entry hfind).2 hwhole.2
        have hnot : ¬ (entry.content.length = 0 ∨ services.honoursRange = false) :=
          not_or.mpr ⟨hwhole.1, by rw [hwhole.2]; exact Bool.noConfusion⟩
        simp only [if_neg hnot, if_pos hlt]
        refine .inl ⟨⟨directory, hbusy, htarget, ?_⟩, hless _ _⟩
        rw [if_pos rfl, ← hrest, List.drop_left]
        exact ⟨entry, hfind, rfl⟩

/-- Writing the partial file of the shard keeps the run busy with it. -/
theorem Busy.set_part (h : Installable services localName deployment shards)
    (hbusy : Busy services localName shards system.disk directory progress shard)
    {content : List UInt8} (hcontent : content <+: services.remote shard.artifact) :
    Busy services localName shards
      { system.disk with staging := some (directory.set ⟨shard.partialName, content⟩) }
      (directory.set ⟨shard.partialName, content⟩) progress shard where
  staging := rfl
  final := hbusy.final
  free := hbusy.free
  staged := hbusy.staged.set_part h hbusy.mem hcontent
  same := hbusy.same
  reports := hbusy.reports
  le := hbusy.le
  done j hj other hother := by
    rw [find_target_set_part h hbusy.mem (List.mem_of_getElem? hother)]
    exact hbusy.done j hj other hother
  current := hbusy.current
  others other hother hne := (hbusy.others other hother hne).set_part h hbusy.mem hother hne

theorem openPartial_onward (h : Installable services localName deployment shards)
    {resumed : Bool} {rest : List UInt8}
    (hstage : system.stage = .opening progress shard resumed rest)
    (hbusy : Busy services localName shards system.disk directory progress shard)
    (htarget : directory.find shard.outputName = none)
    (hopened : if resumed = true then ∃ entry, directory.find shard.partialName = some entry ∧
        entry.content ++ rest = services.remote shard.artifact
      else rest = services.remote shard.artifact) :
    Onward services localName shards system
      (openPartial services system directory progress shard resumed rest) := by
  obtain ⟨content, hcontent, hwhole⟩ : ∃ content,
      (if resumed = true then
        ((directory.find shard.partialName).map FileEntry.content).getD [] else []) = content ∧
      content ++ rest = services.remote shard.artifact := by
    refine ⟨_, rfl, ?_⟩
    cases resumed with
    | true =>
        obtain ⟨entry, hentry, hwhole⟩ := hopened
        simp only [if_true, hentry, Option.map_some, Option.getD_some]
        exact hwhole
    | false => exact hopened
  have hbegins : content <+: services.remote shard.artifact := ⟨rest, hwhole⟩
  have hlength : rest.length ≤ (services.remote shard.artifact).length := by
    rw [← hwhole, List.length_append]
    exact Nat.le_add_left _ _
  simp only [openPartial, h.downloadNames hbusy.current, hcontent]
  refine .inl ⟨⟨_, hbusy.set_part h hbegins, ?_, _, Table.find_set_self, hwhole⟩, ?_⟩
  · rw [find_target_set_part h hbusy.mem hbusy.mem]
    exact htarget
  · rw [hstage]
    show leftFrom services shards (progress.reports.length + 1) + rest.length + 7 <
      leftFrom services shards (progress.reports.length + 1) +
        (services.remote shard.artifact).length + 8
    omega

theorem receive_onward (h : Installable services localName deployment shards)
    {rest : List UInt8} (hstage : system.stage = .receiving progress shard rest)
    (hbusy : Busy services localName shards system.disk directory progress shard)
    (htarget : directory.find shard.outputName = none)
    {entry : FileEntry} (hfind : directory.find shard.partialName = some entry)
    (hwhole : entry.content ++ rest = services.remote shard.artifact) (hrest : rest ≠ [])
    (n : Nat) :
    Onward services localName shards system
      (receive services system directory progress shard rest (n + 1)) := by
  have hnext : (entry.content ++ rest.take (n + 1)) ++ rest.drop (n + 1) =
      services.remote shard.artifact := by
    rw [List.append_assoc, List.take_append_drop, hwhole]
  simp only [receive, h.downloadNames hbusy.current, hfind, Option.map_some, Option.getD_some]
  refine .inl ⟨⟨_, hbusy.set_part h ⟨_, hnext⟩, ?_, _, Table.find_set_self, hnext⟩, ?_⟩
  · rw [find_target_set_part h hbusy.mem hbusy.mem]
    exact htarget
  · have hpos : 0 < rest.length := List.length_pos_of_ne_nil hrest
    rw [hstage]
    show leftFrom services shards (progress.reports.length + 1) +
      (rest.drop (n + 1)).length + 7 <
        leftFrom services shards (progress.reports.length + 1) + rest.length + 7
    rw [List.length_drop]
    omega

theorem extension_partialName (h : Installable services localName deployment shards)
    (hmem : shard ∈ shards) :
    extension shard.partialName.toList = extension shard.outputName.toList := by
  obtain ⟨stem, suffix, hnamed⟩ := h.named hmem
  rw [hnamed.partialName, hnamed.target.extension_partialName, hnamed.target.extension]

theorem link_onward (h : Installable services localName deployment shards)
    (hstage : system.stage = .linking progress shard)
    (hbusy : Busy services localName shards system.disk directory progress shard)
    (htarget : directory.find shard.outputName = none)
    {entry : FileEntry} (hfind : directory.find shard.partialName = some entry)
    (hwhole : entry.content = services.remote shard.artifact) :
    Onward services localName shards system
      (link services localName system directory progress shard) := by
  have hvalid := validateModel_ok (stagingPath services localName) h hbusy.current
    (extension_partialName h hbusy.mem) (h.promised _ shard hbusy.current).normalizeSha256_digest
  have hbusy' : Busy services localName shards
      { system.disk with
        staging := some (directory.set ⟨shard.outputName, services.remote shard.artifact⟩) }
      (directory.set ⟨shard.outputName, services.remote shard.artifact⟩) progress shard := by
    refine ⟨⟨rfl, hbusy.final, hbusy.free, hbusy.staged.set_target h hbusy.mem⟩,
      ⟨hbusy.same, hbusy.reports, hbusy.le, ?_⟩, hbusy.current, fun other hother hne =>
        (hbusy.others other hother hne).set_target h hbusy.mem hother hne⟩
    intro j hj other hother
    rw [Table.find_set]
    split
    · exact Option.some_ne_none _
    · exact hbusy.done j hj other hother
  simp only [link, h.downloadNames hbusy.current, validateEntry, hfind, hwhole, okOr, bind,
    Except.bind, hvalid, htarget]
  refine .inl ⟨⟨_, hbusy', _, Table.find_set_self⟩, ?_⟩
  rw [hstage]
  exact Nat.lt_succ_self _

/-- The target is there and the partial file goes. -/
theorem unlink_onward (h : Installable services localName deployment shards)
    (hstage : system.stage = .linked progress shard)
    (hbusy : Busy services localName shards system.disk directory progress shard)
    {entry : FileEntry} (hfind : directory.find shard.outputName = some entry) :
    Onward services localName shards system
      (unlink services localName system directory progress shard) := by
  have hvalid := validateEntry_target (stagingPath services localName) h hbusy.current hfind
    (hbusy.staged.targets shard hbusy.mem entry hfind)
    (h.promised _ shard hbusy.current).normalizeSha256_digest
  have hbuilding : Building services localName shards
      { system.disk with staging := some (directory.erase shard.partialName) }
      (directory.erase shard.partialName) :=
    ⟨rfl, hbusy.final, hbusy.free, hbusy.staged.erase⟩
  simp only [unlink, h.downloadNames hbusy.current, hvalid]
  refine finishShard_onward h hbuilding ?_ ⟨hbusy.same, hbusy.reports, hbusy.le, ?_⟩
    hbusy.current ?_ ?_
  · intro other hother
    exact Resumes.erase_part h hbusy.mem hother (hbusy.others other hother)
  · intro j hj other hother
    rw [find_target_erase_part h hbusy.mem (List.mem_of_getElem? hother)]
    exact hbusy.done j hj other hother
  · rw [find_target_erase_part h hbusy.mem hbusy.mem, hfind]
    exact Option.some_ne_none entry
  · rw [hstage]
    exact Nat.lt_succ_self _

theorem publish_onward (hstage : system.stage = .renaming progress)
    (hbuilding : Building services localName shards system.disk directory)
    (hcomplete : Complete services shards directory) (hsame : progress.shards = shards) :
    Onward services localName shards system (publish system directory progress) := by
  refine .inl ⟨⟨directory, ⟨rfl, rfl, hcomplete⟩, hbuilding.free, hsame⟩, ?_⟩
  rw [hstage]
  exact Nat.lt_succ_self _

/-- The final directory gives the reports of all shards. -/
theorem validateFinal_ok (h : Installable services localName deployment shards)
    (hcomplete : Complete services shards directory) :
    validateFinal services localName directory shards =
      .ok (shardReports services (finalPath services localName) shards shards.length) := by
  have hone : ∀ i shard, shards[i]? = some shard →
      validateFinalShard services localName directory shard =
        .ok (shard.report services (finalPath services localName) shards.length i) := by
    intro i shard hi
    obtain ⟨entry, hfind, hcontent⟩ := hcomplete.targets shard (List.mem_of_getElem? hi)
    obtain ⟨trusted, htrusted, hdigest⟩ := (h.promised i shard hi).trusted
    have hvalid := validateEntry_target (finalPath services localName) h hi hfind hcontent
      hdigest
    simp only [validateFinalShard, htrusted, okOr, bind, Except.bind, hvalid, Except.mapError]
  have hreports : shards.mapM (validateFinalShard services localName directory) =
      .ok (shardReports services (finalPath services localName) shards shards.length) := by
    rw [shardReports, List.take_of_length_le (by rw [List.length_zipIdx])]
    conv_lhs => rw [← List.zipIdx_map_fst 0 shards]
    have hentries : ∀ entry ∈ shards.zipIdx, validateFinalShard services localName directory
        entry.1 = .ok (entry.1.report services (finalPath services localName) shards.length
          entry.2) := fun entry hmem => hone _ _ (List.mem_zipIdx_iff_getElem?.mp hmem)
    generalize shards.zipIdx = entries at hentries ⊢
    generalize shards.length = count at hentries ⊢
    induction entries with
    | nil => rfl
    | cons entry rest ih =>
        rw [List.map_cons, List.mapM_cons, hentries entry List.mem_cons_self,
          ih fun entry hmem => hentries entry (List.mem_cons_of_mem _ hmem)]
        rfl
  simp only [validateFinal, hreports, validateGgufSplitReports_ok h, Except.mapError, bind,
    Except.bind, pure, Except.pure]

theorem register_onward (h : Installable services localName deployment shards)
    (hpublished : Published services shards system.disk directory)
    (hfree : system.disk.registry.Free localName) (id : Uuid) :
    Installed services localName shards (register services localName system
      (shardReports services (finalPath services localName) shards shards.length) id) := by
  obtain ⟨record, hrecord, hname, hartifacts⟩ :=
    recordFromReports_ok h (finalPath services localName) id
  obtain ⟨data, hdata, hnone⟩ := hfree
  have hnew : ¬ ∃ model ∈ data.models, model.name = record.name := by
    rintro ⟨model, hmem, heq⟩
    exact hnone model hmem (heq.trans hname)
  have hregistered : registerBundle services localName system.disk.registry
      (shardReports services (finalPath services localName) shards shards.length) id =
      .ok ({ data with models := data.models ++ [record] }, record) := by
    simp only [registerBundle, Registration.record, Registration.name, h.name, hrecord, hdata,
      addRecord, if_neg hnew, bind, Except.bind, pure, Except.pure]
  simp only [register, hregistered]
  exact ⟨directory, record, ⟨hpublished.staging, hpublished.final, hpublished.complete⟩, rfl,
    List.mem_append_right _ List.mem_cons_self, hartifacts⟩

end Operations

section Runs
variable {services : BundleServices} {localName : String} {deployment : DeploymentArtifact}
  {shards : List Shard} {system next : BundleSystem}

/-- Nothing stops the run. -/
def Uninterrupted : List BundleEvent → BundleSystem → BundleEvent → Prop
  | _, _, .advance _ | _, _, .receive _ => True
  | _, _, .start | _, _, .disconnect | _, _, .kill => False

instance (past : List BundleEvent) (system : BundleSystem) (event : BundleEvent) :
    Decidable (Uninterrupted past system event) :=
  match event with
  | .advance _ | .receive _ => inferInstanceAs (Decidable True)
  | .start | .disconnect | .kill => inferInstanceAs (Decidable False)

theorem Going.stage_ne {result : Except BundleError ModelRecord}
    (hgoing : Going services localName shards system) : system.stage ≠ .ended result := by
  intro hstage
  rw [Going, hstage] at hgoing
  exact hgoing

theorem Going.step (h : Installable services localName deployment shards)
    (hgoing : Going services localName shards system) {past : List BundleEvent}
    {event : BundleEvent} (hallowed : Uninterrupted past system event)
    (hstep : BundleSystem.step services localName deployment event system = some next) :
    Onward services localName shards system next := by
  obtain ⟨disk, stage⟩ := system
  cases event with
  | start | disconnect | kill => exact absurd hallowed id
  | receive n =>
      cases stage with
      | receiving progress shard rest =>
          obtain ⟨directory, hbusy, htarget, entry, hfind, hwhole⟩ := hgoing
          simp only [BundleSystem.step, Option.ite_none_left_eq_some, Option.some.injEq] at hstep
          obtain ⟨hrest, rfl⟩ := hstep
          rw [inStaging_of hbusy.staging]
          exact receive_onward h rfl hbusy htarget hfind hwhole hrest n
      | _ => cases hstep
  | advance id =>
      cases stage with
      | idle | ended => cases hstep
      | preparing =>
          cases hstep
          exact prepare_onward h rfl hgoing
      | listing =>
          obtain ⟨directory, hbuilding, hresumable⟩ := hgoing
          cases hstep
          rw [inStaging_of hbuilding.staging]
          exact listEntries_onward h rfl hbuilding hresumable
      | shard progress =>
          obtain ⟨directory, hbuilding, hresumable, hreached⟩ := hgoing
          cases hstep
          rw [inStaging_of hbuilding.staging]
          exact lookAtShard_onward h rfl hbuilding hresumable hreached
      | requesting progress shard =>
          obtain ⟨directory, hbusy, hresumes, htarget⟩ := hgoing
          cases hstep
          rw [inStaging_of hbusy.staging]
          exact request_onward h rfl hbusy hresumes htarget
      | opening progress shard resumed rest =>
          obtain ⟨directory, hbusy, htarget, hopened⟩ := hgoing
          cases hstep
          rw [inStaging_of hbusy.staging]
          exact openPartial_onward h rfl hbusy htarget hopened
      | receiving progress shard rest =>
          obtain ⟨directory, hbusy, htarget, entry, hfind, hwhole⟩ := hgoing
          simp only [BundleSystem.step, advance, Option.ite_none_right_eq_some,
            Option.some.injEq] at hstep
          obtain ⟨rfl, rfl⟩ := hstep
          rw [List.append_nil] at hwhole
          exact .inl ⟨⟨directory, hbusy, htarget, entry, hfind, hwhole⟩, Nat.lt_succ_self _⟩
      | linking progress shard =>
          obtain ⟨directory, hbusy, htarget, entry, hfind, hwhole⟩ := hgoing
          cases hstep
          rw [inStaging_of hbusy.staging]
          exact link_onward h rfl hbusy htarget hfind hwhole
      | linked progress shard =>
          obtain ⟨directory, hbusy, entry, hfind⟩ := hgoing
          cases hstep
          rw [inStaging_of hbusy.staging]
          exact unlink_onward h rfl hbusy hfind
      | «renaming» progress =>
          obtain ⟨directory, hbuilding, hcomplete, hsame⟩ := hgoing
          cases hstep
          rw [inStaging_of hbuilding.staging]
          exact publish_onward rfl hbuilding hcomplete hsame
      | renamed progress =>
          obtain ⟨directory, hpublished, hfree, hsame⟩ := hgoing
          cases hstep
          simp only [inFinal_of hpublished.final, hsame, validateFinal_ok h hpublished.complete]
          exact .inl ⟨⟨directory, hpublished, hfree, rfl⟩, Nat.lt_succ_self _⟩
      | registering reports =>
          obtain ⟨directory, hpublished, hfree, rfl⟩ := hgoing
          cases hstep
          exact .inr (register_onward h hpublished hfree id)

variable (deployment) in
/-- A run that nothing has stopped can go on. -/
theorem Going.exists_step (hgoing : Going services localName shards system) (id : Uuid)
    (past : List BundleEvent) : ∃ event next, Uninterrupted past system event ∧
      BundleSystem.step services localName deployment event system = some next := by
  obtain ⟨disk, stage⟩ := system
  cases stage with
  | idle | ended => exact absurd hgoing not_false
  | receiving progress shard rest =>
      by_cases hrest : rest = []
      · exact ⟨.advance id, _, trivial, if_pos hrest⟩
      · exact ⟨.receive 0, _, trivial, if_neg hrest⟩
  | _ => exact ⟨.advance id, _, trivial, rfl⟩

theorem Installed.not_uninterrupted (hinstalled : Installed services localName shards system)
    {past : List BundleEvent} {event : BundleEvent} (hallowed : Uninterrupted past system event) :
    BundleSystem.step services localName deployment event system = none := by
  obtain ⟨-, record, -, hstage, -⟩ := hinstalled
  cases event with
  | start | disconnect | kill => exact absurd hallowed id
  | advance id => simp only [BundleSystem.step, advance, hstage]
  | receive n => simp only [BundleSystem.step, hstage]

/-- An uninterrupted run ends in success, as each operation leaves less to do. -/
theorem finishing_of_installable (h : Installable services localName deployment shards)
    (id : Uuid) : Finishing (BundleSystem.step services localName deployment) Uninterrupted
      (Going services localName shards) (Installed services localName shards)
      (fun system => remaining services shards system.stage) where
  exists_step past _ hgoing := hgoing.exists_step deployment id past
  onward _ _ _ _ hgoing hallowed hstep := hgoing.step h hallowed hstep
  rests _ _ _ hinstalled hallowed := hinstalled.not_uninterrupted hallowed

end Runs

end MindOne.Engine
