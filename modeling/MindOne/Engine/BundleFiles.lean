import Mathlib.Data.List.Induction
import MindOne.Engine.ShardNames

/-!
# The files of a bundle

What a manifest promises of a bundle, the reports and the record that its files
give, and how a staging directory changes when one of them is written or removed.
-/

namespace MindOne.Engine

open CheckedArithmetic KeyedTable MindOne.Stream

/-- The digest of a shard as the manifest promises it. -/
def Shard.digest (shard : Shard) : String :=
  (shard.artifact.trustedSha256.bind normalizeSha256).getD ""

section Digests
variable {c : Char} (h : (c.isDigit || ('a' ≤ c && c ≤ 'f')) = true)
include h

theorem toNat_of_hex : 48 ≤ c.toNat ∧ c.toNat ≤ 102 := by
  simp only [Bool.or_eq_true, Bool.and_eq_true, decide_eq_true_eq, Char.isDigit, ge_iff_le,
    Char.le_def, UInt32.le_iff_toNat_le] at h
  rcases h with ⟨hlow, hhigh⟩ | ⟨hlow, hhigh⟩
  · exact ⟨hlow, Nat.le_trans hhigh (by decide)⟩
  · exact ⟨Nat.le_trans (by decide) hlow, hhigh⟩

theorem not_isWhitespace_of_hex : ¬ isWhitespace c = true := by
  have hbounds := toNat_of_hex h
  simp only [isWhitespace, Bool.or_eq_true, Bool.and_eq_true, decide_eq_true_eq]
  omega

theorem toLower_of_hex : c.toLower = c := by
  simp only [Bool.or_eq_true, Bool.and_eq_true, decide_eq_true_eq] at h
  rcases h with hdigit | ⟨ha, -⟩
  · exact toLower_of_isDigit hdigit
  · exact dif_neg fun hupper => absurd (UInt32.le_trans ha hupper.2) (by decide)

end Digests

/-- The remote has what the manifest promises for a shard of a split model. -/
structure Promised (services : BundleServices) (count position : Nat) (shard : Shard) : Prop where
  trusted : ∃ trusted, shard.artifact.trustedSha256 = some trusted ∧
    normalizeSha256 trusted = some shard.digest
  inspected : services.inspect (extension shard.outputName.toList)
    (services.remote shard.artifact) =
      .ok ⟨.gguf, some ⟨position, count⟩, shard.digest⟩
  size : shard.artifact.sizeBytes = some (services.remote shard.artifact).length

/-- Lower-case hexadecimal digits are kept as they are. -/
theorem normalizeSha256_of_hex {digest : String} (hlength : digest.toList.length = 64)
    (h : ∀ c ∈ digest.toList, (c.isDigit || ('a' ≤ c && c ≤ 'f')) = true) :
    normalizeSha256 digest = some digest := by
  have hnever : ∀ l : List Char, (∀ c ∈ l, c ∈ digest.toList) → l.dropWhile isWhitespace = l := by
    intro l hl
    cases l with
    | nil => rfl
    | cons c rest =>
        rw [List.dropWhile_cons_of_neg]
        exact not_isWhitespace_of_hex (h c (hl c List.mem_cons_self))
  have hlower : digest.toList.map Char.toLower = digest.toList :=
    (List.map_congr_left fun c hc => toLower_of_hex (h c hc)).trans (List.map_id _)
  simp only [normalizeSha256, hnever digest.toList fun _ h => h,
    hnever digest.toList.reverse fun _ h => List.mem_reverse.mp h, List.reverse_reverse, hlower,
    if_pos (And.intro hlength (List.all_eq_true.mpr h)), String.ofList_toList]

theorem normalizeSha256_idem {value digest : String} (h : normalizeSha256 value = some digest) :
    normalizeSha256 digest = some digest := by
  simp only [normalizeSha256, Option.ite_none_right_eq_some, Option.some.injEq] at h
  obtain ⟨⟨hlength, hall⟩, rfl⟩ := h
  refine normalizeSha256_of_hex ?_ ?_
  · rw [String.toList_ofList]
    exact hlength
  · rw [String.toList_ofList]
    exact List.all_eq_true.mp hall

theorem Promised.normalizeSha256_digest {services : BundleServices} {count position : Nat}
    {shard : Shard} (h : Promised services count position shard) :
    normalizeSha256 shard.digest = some shard.digest := by
  obtain ⟨trusted, -, hdigest⟩ := h.trusted
  exact normalizeSha256_idem hdigest

/-- A complete group of shards, as the deployment lists it and the remote serves it. -/
structure Installable (services : BundleServices) (localName : String)
    (deployment : DeploymentArtifact) (shards : List Shard) : Prop where
  name : validateName localName = .ok ()
  listed : bundleShards deployment.artifacts [] = .ok shards
  split : ∃ splitPrefix, ∀ i shard, shards[i]? = some shard →
    parseGgufSplitFilename ⟨[shard.outputName]⟩ = some ⟨splitPrefix, i + 1, shards.length⟩
  promised : ∀ i shard, shards[i]? = some shard → Promised services shards.length i shard
  several : 2 ≤ shards.length
  total : (shards.map fun shard => (services.remote shard.artifact).length).sum < 2 ^ 64

theorem shardOf_ok {artifact : RemoteArtifact} {shard : Shard} (h : shardOf artifact = .ok shard) :
    shard.artifact = artifact ∧ ∃ suffix, extension shard.outputName.toList = some suffix ∧
      shard.partialName = partialNameOf (shard.outputName.toList.take
        (shard.outputName.toList.length - (suffix.length + 1))) suffix := by
  simp only [shardOf, bind_eq_ok, okOr_eq_ok] at h
  obtain ⟨outputName, -, -, -, suffix, hsuffix, hshard⟩ := h
  cases hshard
  exact ⟨rfl, suffix, hsuffix, rfl⟩

theorem bundleShards_ok {artifacts : List RemoteArtifact} {allowed : List String}
    {shards : List Shard} (h : bundleShards artifacts allowed = .ok shards) :
    shards.map Shard.artifact = artifacts ∧
      ∀ shard ∈ shards, shardOf shard.artifact = .ok shard := by
  induction artifacts generalizing allowed shards with
  | nil =>
      cases h
      exact ⟨rfl, fun _ h => nomatch h⟩
  | cons artifact rest ih =>
      simp only [bundleShards, bind_eq_ok] at h
      obtain ⟨shard, hshard, -, -, others, hothers, hshards⟩ := h
      cases hshards
      obtain ⟨hmap, hall⟩ := ih hothers
      have hartifact := (shardOf_ok hshard).1
      refine ⟨by rw [List.map_cons, hartifact, hmap], fun other hmem => ?_⟩
      rcases List.mem_cons.mp hmem with rfl | hmem
      · rw [hartifact]
        exact hshard
      · exact hall other hmem

section Names
variable {services : BundleServices} {localName : String} {deployment : DeploymentArtifact}
  {shards : List Shard} {shard other : Shard}

/-- The two names of a shard. -/
structure Named (shard : Shard) (stem suffix : List Char) : Prop where
  target : SplitName shard.outputName.toList stem suffix
  partialName : shard.partialName = partialNameOf stem suffix

theorem Installable.named (h : Installable services localName deployment shards)
    (hmem : shard ∈ shards) : ∃ stem suffix, Named shard stem suffix := by
  obtain ⟨splitPrefix, hsplit⟩ := h.split
  obtain ⟨i, hi⟩ := List.mem_iff_getElem?.mp hmem
  obtain ⟨name, stem, suffix, hname, hnamed⟩ := splitName_of_parse (hsplit i shard hi)
  obtain rfl : shard.outputName = name := Option.some.inj hname
  obtain ⟨-, suffix', hextension, hpart⟩ := shardOf_ok ((bundleShards_ok h.listed).2 shard hmem)
  obtain rfl : suffix = suffix' := Option.some.inj (hnamed.extension.symm.trans hextension)
  exact ⟨stem, suffix, hnamed, by rw [hpart, hnamed.stem_eq]⟩

theorem Installable.target_ne_part (h : Installable services localName deployment shards)
    (hmem : shard ∈ shards) (hother : other ∈ shards) : shard.outputName ≠ other.partialName := by
  obtain ⟨stem, suffix, hnamed⟩ := h.named hmem
  obtain ⟨stem', suffix', hnamed'⟩ := h.named hother
  rw [hnamed'.partialName]
  exact hnamed'.target.not_partialName hnamed.target

theorem Installable.position_unique (h : Installable services localName deployment shards)
    {i j : Nat} (hi : shards[i]? = some shard) (hj : shards[j]? = some other)
    (heq : shard.outputName = other.outputName) : i = j := by
  obtain ⟨splitPrefix, hsplit⟩ := h.split
  have hparsed := hsplit i shard hi
  rw [heq, hsplit j other hj, Option.some.injEq, GgufSplitFileName.mk.injEq] at hparsed
  omega

/-- Shards with one target are the same, as their names hold their positions. -/
theorem Installable.eq_of_target (h : Installable services localName deployment shards)
    (hmem : shard ∈ shards) (hother : other ∈ shards)
    (heq : shard.outputName = other.outputName) : shard = other := by
  obtain ⟨i, hi⟩ := List.mem_iff_getElem?.mp hmem
  obtain ⟨j, hj⟩ := List.mem_iff_getElem?.mp hother
  obtain rfl : i = j := h.position_unique hi hj heq
  exact Option.some.inj (hi.symm.trans hj)

theorem Installable.eq_of_part (h : Installable services localName deployment shards)
    (hmem : shard ∈ shards) (hother : other ∈ shards)
    (heq : shard.partialName = other.partialName) : shard = other := by
  obtain ⟨stem, suffix, hnamed⟩ := h.named hmem
  obtain ⟨stem', suffix', hnamed'⟩ := h.named hother
  rw [hnamed.partialName, hnamed'.partialName] at heq
  exact h.eq_of_target hmem hother (String.toList_inj.mp
    (hnamed.target.partialName_injective hnamed'.target heq))

theorem Installable.downloadNames (h : Installable services localName deployment shards)
    {i : Nat} (hi : shards[i]? = some shard) :
    downloadNames services shard = .ok (shard.partialName, shard.digest) := by
  obtain ⟨stem, suffix, hnamed⟩ := h.named (List.mem_of_getElem? hi)
  obtain ⟨trusted, htrusted, hdigest⟩ := (h.promised i shard hi).trusted
  simp only [Engine.downloadNames, hnamed.target.extension, htrusted, Option.bind_some, hdigest,
    Option.some_or, okOr, bind, Except.bind, pure, Except.pure,
    hnamed.target.downloadPartialName, hnamed.partialName]

end Names

section Reports
variable {services : BundleServices} {localName : String} {deployment : DeploymentArtifact}
  {shards : List Shard} {shard : Shard} {i : Nat} {path : PathBuf}

/-- The report of a shard in a directory. -/
def Shard.report (services : BundleServices) (path : PathBuf) (count : Nat) (shard : Shard)
    (position : Nat) : ValidationReport where
  path := path.join shard.outputName
  format := .gguf
  sizeBytes := (services.remote shard.artifact).length
  sha256 := shard.digest
  modifiedUnix := services.modifiedUnix
  compatibleEngines := ModelFormat.gguf.compatibleEngines
  verifiedAtUnix := services.verifiedAtUnix
  ggufSplit := some ⟨position, count⟩

/-- The reports of the first shards. -/
def shardReports (services : BundleServices) (path : PathBuf) (shards : List Shard) (k : Nat) :
    List ValidationReport :=
  (shards.zipIdx.take k).map fun (shard, position) =>
    shard.report services path shards.length position

theorem getElem?_shardReports (hi : shards[i]? = some shard) (path : PathBuf) :
    (shardReports services path shards shards.length)[i]? =
      some (shard.report services path shards.length i) := by
  rw [shardReports, List.take_of_length_le (by rw [List.length_zipIdx]), List.getElem?_map,
    List.getElem?_zipIdx, hi]
  simp only [Option.map_some, Nat.zero_add]

theorem shardReports_succ (hi : shards[i]? = some shard) (path : PathBuf) :
    shardReports services path shards (i + 1) =
      shardReports services path shards i ++ [shard.report services path shards.length i] := by
  rw [shardReports, List.take_add_one, List.map_append, List.getElem?_zipIdx, hi]
  simp only [Option.map_some, Nat.zero_add, Option.toList_some, List.map_cons, List.map_nil,
    shardReports]

theorem length_shardReports {k : Nat} (hk : k ≤ shards.length) (path : PathBuf) :
    (shardReports services path shards k).length = k := by
  rw [shardReports, List.length_map, List.length_take, List.length_zipIdx, min_eq_left hk]

variable (path) in
theorem validateModel_ok (h : Installable services localName deployment shards)
    (hi : shards[i]? = some shard) {name expected : String}
    (hextension : extension name.toList = extension shard.outputName.toList)
    (hexpected : normalizeSha256 expected = some shard.digest) :
    validateModel services (path.join name) (services.remote shard.artifact) expected =
      .ok { shard.report services path shards.length i with path := path.join name } := by
  simp only [validateModel, PathBuf.fileName_join, Option.bind_some, hextension,
    (h.promised i shard hi).inspected, hexpected, okOr, bind, Except.bind, pure, Except.pure,
    rejectIf_of_not _ (not_not.mpr rfl), Shard.report]

variable (path) in
/-- A complete target gives the report of its shard. -/
theorem validateEntry_target (h : Installable services localName deployment shards)
    (hi : shards[i]? = some shard) {directory : Directory} {entry : FileEntry} {expected : String}
    (hfind : directory.find shard.outputName = some entry)
    (hcontent : entry.content = services.remote shard.artifact)
    (hexpected : normalizeSha256 expected = some shard.digest) :
    validateEntry services path directory shard.outputName expected =
      .ok (shard.report services path shards.length i) := by
  have hvalid := validateModel_ok path h hi rfl hexpected
  simp only [validateEntry, hfind, okOr, hcontent, bind, Except.bind]
  exact hvalid

theorem Installable.count_le (h : Installable services localName deployment shards) :
    shards.length ≤ 256 := by
  obtain ⟨splitPrefix, hsplit⟩ := h.split
  have hpos : 0 < shards.length := by have := h.several; omega
  exact count_of_parse (hsplit 0 _ (List.getElem?_eq_getElem hpos))

/-- The reports of shards at other positions than those seen are accepted. -/
theorem foldlM_checkSplitReport (h : Installable services localName deployment shards)
    {splitPrefix : List Char} (hsplit : ∀ i shard, shards[i]? = some shard →
      parseGgufSplitFilename ⟨[shard.outputName]⟩ = some ⟨splitPrefix, i + 1, shards.length⟩)
    {entries : List (ValidationReport × Nat)} {scan : SplitScan}
    (hentries : ∀ entry ∈ entries, ∃ shard, shards[entry.2]? = some shard ∧
      entry.1 = shard.report services path shards.length entry.2)
    (hnodup : (entries.map Prod.snd).Nodup)
    (hscan : ∀ value ∈ scan.splitPrefix, value = splitPrefix)
    (hnames : ∀ name ∈ scan.names, ∃ j shard, shards[j]? = some shard ∧
      name = shard.outputName ∧ j ∉ entries.map Prod.snd) :
    ∃ final, entries.foldlM (checkSplitReport path shards.length) scan = .ok final := by
  induction entries generalizing scan with
  | nil => exact ⟨scan, rfl⟩
  | cons entry rest ih =>
      obtain ⟨report, position⟩ := entry
      obtain ⟨shard, hi, hreport⟩ := hentries _ List.mem_cons_self
      dsimp only at hi hreport
      subst hreport
      rw [List.map_cons, List.nodup_cons] at hnodup
      have hparsed : parseGgufSplitFilename (path.join shard.outputName) =
          some ⟨splitPrefix, position + 1, shards.length⟩ := by
        rw [← hsplit position shard hi]
        simp only [parseGgufSplitFilename, PathBuf.fileName_join]
        rfl
      have hnew : shard.outputName ∉ scan.names := by
        intro hmem
        obtain ⟨j, other, hj, hname, hnot⟩ := hnames _ hmem
        exact hnot (h.position_unique hi hj hname ▸ List.mem_cons_self)
      have hsame : ¬ ∃ value ∈ scan.splitPrefix, value ≠ splitPrefix := by
        rintro ⟨value, hvalue, hne⟩
        exact hne (hscan value hvalue)
      have hchecked : checkSplitReport path shards.length scan
          (shard.report services path shards.length position, position) =
            .ok ⟨some (scan.splitPrefix.getD splitPrefix), shard.outputName :: scan.names⟩ := by
        simp only [checkSplitReport, Shard.report, hparsed, PathBuf.parent_join,
          PathBuf.fileName_join, okOr, bind, Except.bind, pure, Except.pure, ne_eq,
          not_true_eq_false, or_self, rejectIf_of_not _ not_false, rejectIf_of_not _ hsame,
          rejectIf_of_not _ hnew]
      have hnext : ∃ final, rest.foldlM (checkSplitReport path shards.length)
          ⟨some (scan.splitPrefix.getD splitPrefix), shard.outputName :: scan.names⟩ =
            .ok final := by
        refine ih (fun entry hmem => hentries entry (List.mem_cons_of_mem _ hmem)) hnodup.2 ?_ ?_
        · intro value hvalue
          cases hknown : scan.splitPrefix with
          | none => simpa [hknown] using hvalue.symm
          | some known => simpa [hknown, hscan known hknown] using hvalue.symm
        · intro name hmem
          rcases List.mem_cons.mp hmem with rfl | hmem
          · exact ⟨position, shard, hi, rfl, hnodup.1⟩
          · obtain ⟨j, other, hj, hname, hnot⟩ := hnames name hmem
            exact ⟨j, other, hj, hname, fun hrest => hnot (List.mem_cons_of_mem _ hrest)⟩
      obtain ⟨final, hfinal⟩ := hnext
      refine ⟨final, ?_⟩
      rw [List.foldlM_cons, hchecked]
      exact hfinal

theorem validateGgufSplitReports_ok (h : Installable services localName deployment shards)
    (path : PathBuf) :
    validateGgufSplitReports (shardReports services path shards shards.length) = .ok () := by
  obtain ⟨splitPrefix, hsplit⟩ := h.split
  have hlength : (shardReports services path shards shards.length).length = shards.length :=
    length_shardReports (Nat.le_refl _) path
  have hpos : 0 < shards.length := by
    have := h.several
    omega
  have hscanned : ∃ final, (shardReports services path shards shards.length).zipIdx.foldlM
      (checkSplitReport path shards.length) ⟨none, []⟩ = .ok final := by
    refine foldlM_checkSplitReport h hsplit ?_ ?_ (fun _ h => nomatch h) fun _ h => nomatch h
    · intro entry hmem
      have hentry := List.mem_zipIdx_iff_getElem?.mp hmem
      have hlt : entry.2 < shards.length := by
        rw [← hlength]
        exact (List.getElem?_eq_some_iff.mp hentry).1
      refine ⟨shards[entry.2], List.getElem?_eq_getElem hlt, ?_⟩
      rw [getElem?_shardReports (List.getElem?_eq_getElem hlt)] at hentry
      exact (Option.some.inj hentry).symm
    · rw [List.zipIdx_map_snd]
      exact List.nodup_range'
  obtain ⟨final, hfinal⟩ := hscanned
  obtain ⟨first, hfirst⟩ : ∃ first, shards[0]? = some first :=
    ⟨_, List.getElem?_eq_getElem hpos⟩
  have hhead : (shardReports services path shards shards.length).head?.bind
      (·.path.parent) = some path := by
    rw [List.head?_eq_getElem?, getElem?_shardReports hfirst]
    exact PathBuf.parent_join path first.outputName
  have hcount : ¬ ¬ (2 ≤ shards.length ∧ shards.length ≤ 256) :=
    not_not.mpr ⟨h.several, h.count_le⟩
  simp only [validateGgufSplitReports, hlength, hhead, hfinal, okOr, bind, Except.bind, pure,
    Except.pure, rejectIf_of_not _ hcount]

/-- What the registry keeps of a shard. -/
def Shard.artifactRecord (services : BundleServices) (path : PathBuf) (count : Nat) (shard : Shard)
    (position : Nat) : ModelArtifactRecord where
  path := path.join shard.outputName
  sizeBytes := (services.remote shard.artifact).length
  sha256 := shard.digest
  modifiedUnix := services.modifiedUnix
  ggufSplit := ⟨position, count⟩

theorem recordFromReports_ok (h : Installable services localName deployment shards)
    (path : PathBuf) (id : Uuid) : ∃ record,
    recordFromReports services.bundleSha256 id localName
      (shardReports services path shards shards.length) = .ok record ∧ record.name = localName ∧
    record.artifacts = shards.zipIdx.map fun (shard, position) =>
      shard.artifactRecord services path shards.length position := by
  have hartifacts : (shardReports services path shards shards.length).mapM artifactFromReport =
      .ok (shards.zipIdx.map fun (shard, position) =>
        shard.artifactRecord services path shards.length position) := by
    rw [shardReports, List.take_of_length_le (by rw [List.length_zipIdx])]
    generalize shards.zipIdx = entries
    induction entries with
    | nil => rfl
    | cons entry rest ih =>
        rw [List.map_cons, List.mapM_cons, ih]
        rfl
  have hsizes : (shards.zipIdx.map fun (shard, position) =>
      shard.artifactRecord services path shards.length position).map
        ModelArtifactRecord.sizeBytes =
      shards.map fun shard => (services.remote shard.artifact).length := by
    rw [List.map_map]
    conv_rhs => rw [← List.zipIdx_map_fst 0 shards, List.map_map]
    rfl
  have htotal : totalSize (shards.zipIdx.map fun (shard, position) =>
      shard.artifactRecord services path shards.length position) =
      .ok (shards.map fun shard => (services.remote shard.artifact).length).sum := by
    rw [totalSize, hsizes, if_neg (Nat.not_le.mpr h.total)]
  have hpos : 0 < shards.length := by
    have := h.several
    omega
  obtain ⟨first, hfirst⟩ : ∃ first, shards[0]? = some first :=
    ⟨_, List.getElem?_eq_getElem hpos⟩
  have hhead : (shardReports services path shards shards.length).head? =
      some (first.report services path shards.length 0) := by
    rw [List.head?_eq_getElem?, getElem?_shardReports hfirst]
  simp only [recordFromReports, validateGgufSplitReports_ok h path, Except.mapError, hhead, okOr,
    hartifacts, htotal, bind, Except.bind, pure, Except.pure]
  exact ⟨_, rfl, rfl, rfl⟩

end Reports

section Directories
variable (services : BundleServices) (shards : List Shard)

/-- A partial file that the next run can complete: there is no target beside it, and the
remote still has something to send. -/
def Resumes (directory : Directory) (shard : Shard) : Prop :=
  ∀ entry ∈ directory.find shard.partialName, directory.find shard.outputName = none ∧
    (services.honoursRange = true →
      entry.content.length < (services.remote shard.artifact).length)

def Resumable (directory : Directory) : Prop := ∀ shard ∈ shards, Resumes services directory shard

instance (directory : Directory) (shard : Shard) : Decidable (Resumes services directory shard) :=
  inferInstanceAs (Decidable (∀ entry ∈ directory.find shard.partialName, _ ∧ _))

instance (directory : Directory) : Decidable (Resumable services shards directory) :=
  inferInstanceAs (Decidable (∀ shard ∈ shards, _))

/-- Only files of the bundle, with what the remote has or the beginning of it. -/
structure Staged (directory : Directory) : Prop where
  entries : ∀ name, directory.find name ≠ none → name ∈ allowedEntries shards
  targets : ∀ shard ∈ shards, ∀ entry ∈ directory.find shard.outputName,
    entry.content = services.remote shard.artifact
  partials : ∀ shard ∈ shards, ∀ entry ∈ directory.find shard.partialName,
    entry.content <+: services.remote shard.artifact

/-- All shards and nothing else. -/
structure Complete (directory : Directory) : Prop where
  targets : ∀ shard ∈ shards, ∃ entry, directory.find shard.outputName = some entry ∧
    entry.content = services.remote shard.artifact
  entries : ∀ name, directory.find name ≠ none → ∃ shard ∈ shards, name = shard.outputName

variable {services shards} {localName : String} {deployment : DeploymentArtifact}
  {directory : Directory} {shard other : Shard} {content : List UInt8}

theorem mem_allowedEntries {name : String} : name ∈ allowedEntries shards ↔
    ∃ shard ∈ shards, name = shard.outputName ∨ name = shard.partialName := by
  simp only [allowedEntries, List.mem_flatMap, List.mem_cons, List.not_mem_nil, or_false]

theorem mem_names {name : String} : name ∈ directory.names ↔ directory.find name ≠ none := by
  rw [ne_eq, Option.eq_none_iff_forall_not_mem, not_forall]
  constructor
  · intro hmem
    obtain ⟨entry, hentry, hname⟩ := List.mem_map.mp hmem
    exact ⟨entry, not_not.mpr (Table.find_eq_some.mpr ⟨hentry, hname⟩)⟩
  · rintro ⟨entry, hentry⟩
    obtain ⟨hmem, hname⟩ := Table.find_eq_some.mp (not_not.mp hentry)
    exact List.mem_map.mpr ⟨entry, hmem, hname⟩

theorem staged_empty : Staged services shards .empty where
  entries _ h := absurd rfl h
  targets _ _ _ h := nomatch h
  partials _ _ _ h := nomatch h

theorem resumable_empty : Resumable services shards .empty := fun _ _ _ h => nomatch h

section Writes
variable (h : Installable services localName deployment shards) (hmem : shard ∈ shards)
  (hother : other ∈ shards)
include h hmem hother

theorem find_target_set_part : (directory.set ⟨shard.partialName, content⟩).find
    other.outputName = directory.find other.outputName :=
  Table.find_set_ne (h.target_ne_part hother hmem)

theorem find_part_set_part (hne : other ≠ shard) :
    (directory.set ⟨shard.partialName, content⟩).find other.partialName =
      directory.find other.partialName :=
  Table.find_set_ne fun heq => hne (h.eq_of_part hother hmem heq)

theorem find_part_set_target : (directory.set ⟨shard.outputName, content⟩).find
    other.partialName = directory.find other.partialName :=
  Table.find_set_ne (h.target_ne_part hmem hother).symm

theorem find_target_set_target (hne : other ≠ shard) :
    (directory.set ⟨shard.outputName, content⟩).find other.outputName =
      directory.find other.outputName :=
  Table.find_set_ne fun heq => hne (h.eq_of_target hother hmem heq)

theorem find_target_erase_part : (directory.erase shard.partialName).find other.outputName =
    directory.find other.outputName := by
  rw [Table.find_erase, if_neg (h.target_ne_part hother hmem)]

theorem find_part_erase_part (hne : other ≠ shard) :
    (directory.erase shard.partialName).find other.partialName =
      directory.find other.partialName := by
  rw [Table.find_erase, if_neg fun heq => hne (h.eq_of_part hother hmem heq)]

theorem Resumes.set_part (hresumes : Resumes services directory other) (hne : other ≠ shard) :
    Resumes services (directory.set ⟨shard.partialName, content⟩) other := by
  intro entry hentry
  rw [find_part_set_part h hmem hother hne] at hentry
  rw [find_target_set_part h hmem hother]
  exact hresumes entry hentry

theorem Resumes.set_target (hresumes : Resumes services directory other) (hne : other ≠ shard) :
    Resumes services (directory.set ⟨shard.outputName, content⟩) other := by
  intro entry hentry
  rw [find_part_set_target h hmem hother] at hentry
  rw [find_target_set_target h hmem hother hne]
  exact hresumes entry hentry

theorem Resumes.erase_part (hresumes : other ≠ shard → Resumes services directory other) :
    Resumes services (directory.erase shard.partialName) other := by
  intro entry hentry
  rw [find_target_erase_part h hmem hother]
  by_cases hne : other = shard
  · subst hne
    rw [Table.find_erase, if_pos rfl] at hentry
    cases hentry
  · rw [find_part_erase_part h hmem hother hne] at hentry
    exact hresumes hne entry hentry

end Writes

theorem Staged.set_part (h : Installable services localName deployment shards)
    (hmem : shard ∈ shards) (hstaged : Staged services shards directory)
    (hcontent : content <+: services.remote shard.artifact) :
    Staged services shards (directory.set ⟨shard.partialName, content⟩) where
  entries name hfind := by
    rw [Table.find_set] at hfind
    split at hfind
    · rename_i hname
      exact mem_allowedEntries.mpr ⟨shard, hmem, .inr hname⟩
    · exact hstaged.entries name hfind
  targets other hother entry hentry := by
    rw [find_target_set_part h hmem hother] at hentry
    exact hstaged.targets other hother entry hentry
  partials other hother entry hentry := by
    by_cases hne : other = shard
    · subst hne
      obtain rfl := Option.some.inj (Table.find_set_self.symm.trans hentry)
      exact hcontent
    · rw [find_part_set_part h hmem hother hne] at hentry
      exact hstaged.partials other hother entry hentry

theorem Staged.set_target (h : Installable services localName deployment shards)
    (hmem : shard ∈ shards) (hstaged : Staged services shards directory) :
    Staged services shards
      (directory.set ⟨shard.outputName, services.remote shard.artifact⟩) where
  entries name hfind := by
    rw [Table.find_set] at hfind
    split at hfind
    · rename_i hname
      exact mem_allowedEntries.mpr ⟨shard, hmem, .inl hname⟩
    · exact hstaged.entries name hfind
  targets other hother entry hentry := by
    by_cases hne : other = shard
    · subst hne
      obtain rfl := Option.some.inj (Table.find_set_self.symm.trans hentry)
      rfl
    · rw [find_target_set_target h hmem hother hne] at hentry
      exact hstaged.targets other hother entry hentry
  partials other hother entry hentry := by
    rw [find_part_set_target h hmem hother] at hentry
    exact hstaged.partials other hother entry hentry

theorem Staged.erase {name : String} (hstaged : Staged services shards directory) :
    Staged services shards (directory.erase name) := by
  have hsub : ∀ other entry, (directory.erase name).find other = some entry →
      directory.find other = some entry := by
    intro other entry hfind
    rw [Table.find_erase, Option.ite_none_left_eq_some] at hfind
    exact hfind.2
  refine ⟨fun other hfind => ?_, fun shard hmem entry hentry =>
    hstaged.targets shard hmem entry (hsub _ _ hentry), fun shard hmem entry hentry =>
    hstaged.partials shard hmem entry (hsub _ _ hentry)⟩
  obtain ⟨entry, hentry⟩ := Option.ne_none_iff_exists'.mp hfind
  refine hstaged.entries other ?_
  rw [hsub other entry hentry]
  exact Option.some_ne_none entry

/-- When all targets are there, no partial file is. -/
theorem Staged.complete (hstaged : Staged services shards directory)
    (hresumable : Resumable services shards directory)
    (htargets : ∀ shard ∈ shards, directory.find shard.outputName ≠ none) :
    Complete services shards directory where
  targets shard hmem := by
    obtain ⟨entry, hentry⟩ := Option.ne_none_iff_exists'.mp (htargets shard hmem)
    exact ⟨entry, hentry, hstaged.targets shard hmem entry hentry⟩
  entries name hfind := by
    obtain ⟨shard, hmem, hname | hname⟩ := mem_allowedEntries.mp (hstaged.entries name hfind)
    · exact ⟨shard, hmem, hname⟩
    · obtain ⟨entry, hentry⟩ := Option.ne_none_iff_exists'.mp (hname ▸ hfind)
      exact absurd (hresumable shard hmem entry hentry).1 (htargets shard hmem)

end Directories

end MindOne.Engine
