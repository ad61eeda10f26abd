import MindOne.Engine.GgufOrder
import MindOne.Models.VerifiedModels

/-!
# Which models are found

What a registration has just written is unmodified, and a model that is unmodified is
found exactly when it is a single file or its bundle has by coincidence the digest of
its primary shard: in practice no bundle is ever found.
-/

namespace MindOne.Models

open CheckedArithmetic ByteReader MindOne.Engine MindOne.Regulated MindOne.Stream

section JustCreated
variable {tools : ModelTools} {tree : FileTree} {record : ModelRecord}
  {report : ValidationReport}

theorem StillReported.genuine (h : StillReported tools tree report) : Genuine tools report := by
  obtain ⟨now, hreport⟩ := h
  exact ⟨tree, now, report.path, none, hreport⟩

/-- The file of a report is intact in the sense of the record. -/
theorem StillReported.intact (h : StillReported tools tree report)
    {fits : Inspected → Prop} (hfits : ∀ found : Inspected, found.format = report.format →
      found.ggufSplit = report.ggufSplit → fits found) :
    FileIntact tools tree report.path report.sizeBytes report.sha256 fits := by
  obtain ⟨now, hreport⟩ := h
  obtain ⟨content, found, hreported, -⟩ := validateModel_eq_ok.mp hreport
  exact ⟨content, report.modifiedUnix, found, hreported.file, hreported.structured,
    hfits found hreported.format.symm hreported.split.symm, hreported.size.symm,
    hreported.digest.symm⟩

/-- The record of a bundle is laid out as its reports are. -/
theorem BundleOf.layout {id : Uuid} {name : String} {reports : List ValidationReport}
    {primary : ValidationReport} (h : BundleOf tools id name reports primary record)
    (hgenuine : ∀ report ∈ reports, Genuine tools report) :
    ∃ directory splitPrefix, BundleLayout tools record directory splitPrefix := by
  obtain ⟨directory, splitPrefix, hpackage⟩ := validateGgufSplitReports_eq_ok.mp h.accepted
  have hlength := h.artifacts.length_eq
  have hfirst := hpackage.shards 0 primary (by rw [← List.head?_eq_getElem?, h.head])
  have hprimary := hgenuine primary (List.mem_of_mem_head? h.head)
  refine ⟨directory, splitPrefix, h.format.trans hfirst.format, ?_, ?_, hlength ▸ hpackage.count,
    ?_, ?_, h.size.symm, h.bound, h.digest.symm⟩
  · rw [h.engines, hprimary.engines, hfirst.format]
  · cases hreports : reports with
    | nil =>
        have hhead := h.head
        rw [hreports] at hhead
        cases hhead
    | cons report rest =>
        have hartifacts := h.artifacts
        rw [hreports] at hartifacts
        obtain ⟨artifact, others, hartifact, -, hrecord⟩ :=
          List.forall₂_cons_left_iff.mp hartifacts
        have hhead := h.head
        rw [hreports, List.head?_cons, Option.some.injEq] at hhead
        rw [hrecord, List.head?_cons, Option.map_some, hartifact.path, h.path, hhead]
  · rw [h.path]
    exact hfirst.parent
  · intro position artifact hartifact
    obtain ⟨report, hreport, hof⟩ := forall₂_getElem? h.artifacts hartifact
    have hshard := hpackage.shards position report hreport
    have hdigest := (hgenuine report (List.mem_of_getElem? hreport)).digest
    refine ⟨?_, ?_, ?_, ?_⟩
    · rw [hof.path]
      exact hshard.parent
    · rw [hof.digest]
      exact isSha256_of_normalized hdigest.normalized
    · rw [hof.path, ← hlength]
      exact hshard.name
    · rw [← hlength]
      exact Option.some.inj (hof.split.symm.trans hshard.metadata)

/-- What is registered from reports of files that are still there is unmodified. -/
theorem unmodified_of_registration {registration : Registration} {id : Uuid}
    (h : registration.record (bundleSha256 tools) id = .ok record)
    (hreports : ∀ report ∈ registrationReports registration, StillReported tools tree report) :
    Unmodified tools tree record := by
  simp only [Registration.record, bind_eq_ok] at h
  obtain ⟨_, hname, h⟩ := h
  cases registration with
  | single name report =>
      simp only [bind_eq_ok] at h
      obtain ⟨_, -, hrecord⟩ := h
      cases hrecord
      refine (unmodified_of_single rfl).mpr ?_
      exact (hreports report List.mem_cons_self).intact fun _ hformat _ => hformat
  | bundle name reports =>
      obtain ⟨primary, hbundle⟩ := bundleOf_of_recordFromReports h
      obtain ⟨directory, splitPrefix, hlayout⟩ :=
        hbundle.layout fun report hmem => (hreports report hmem).genuine
      have hne : record.artifacts ≠ [] := List.ne_nil_of_length_pos
        (Nat.lt_of_lt_of_le (by decide) hlayout.count.1)
      refine (unmodified_of_bundle hne).mpr
        ⟨(validateArtifactLayout_eq_ok hne).mpr ⟨_, _, hlayout⟩, ?_⟩
      intro artifact hmem
      obtain ⟨report, hreport, hof⟩ := forall₂_mem_right hbundle.artifacts hmem
      rw [hof.path, hof.size, hof.digest]
      exact (hreports report hreport).intact fun _ _ hsplit => hsplit.trans hof.split

theorem readData_addRecord {file : RegistryFile} {data after : RegistryData}
    (hdata : readData file = .ok data) (h : addRecord record data = .ok after) :
    readData (some after) = .ok after ∧ record ∈ after.models := by
  simp only [addRecord] at h
  split at h
  · cases h
  · cases h
    have hversion : data.version = 1 := version_of_readData hdata
    exact ⟨readData_of_version hversion,
      List.mem_append_right _ (List.mem_singleton.mpr rfl)⟩

end JustCreated

/-- A registered model is found exactly when it is unmodified, as long as the record is the
first one with this name or identifier and, if it is that of an unmodified bundle, the digest
of the bundle is the digest of its primary shard. -/
theorem findVerifiedModel_exact (tools : ModelTools) (tree : FileTree) (now : Int)
    (models : PathBuf) (file : RegistryFile) (data : RegistryData)
    (hdata : readData file = .ok data) :
    (∀ record ∈ data.models, Created tools record → InManagedRoot tree models record →
      ((findVerifiedModel tools tree now models file record.name = .ok record ↔
          Unmodified tools tree record) ↔
        (Unmodified tools tree record →
          lookup data.models record.name = some record ∧ Usable record))) ∧
    ∀ registration id record after, registration.record (bundleSha256 tools) id = .ok record →
      addRecord record data = .ok after →
      (∀ report ∈ registrationReports registration, StillReported tools tree report) →
      InManagedRoot tree models record →
      (findVerifiedModel tools tree now models (some after) record.name = .ok record ↔
        lookup after.models record.name = some record ∧ Usable record) := by
  constructor
  · intro record _ hcreated hmanaged
    rw [findVerifiedModel_eq_ok hdata hcreated.registered hmanaged]
    constructor
    · intro h hunmodified
      obtain ⟨hlookup, -, husable⟩ := h.mpr hunmodified
      exact ⟨hlookup, husable⟩
    · intro h
      constructor
      · rintro ⟨-, hunmodified, -⟩
        exact hunmodified
      · intro hunmodified
        exact ⟨(h hunmodified).1, hunmodified, (h hunmodified).2⟩
  · intro registration id record after hrecord hadd hreports hmanaged
    have hunmodified := unmodified_of_registration hrecord hreports
    have hcreated : Created tools record :=
      ⟨registration, id, hrecord, fun report hmem => (hreports report hmem).genuine⟩
    have hafter := (readData_addRecord hdata hadd).1
    rw [findVerifiedModel_eq_ok hafter hcreated.registered hmanaged]
    exact ⟨fun h => ⟨h.1, h.2.2⟩, fun h => ⟨h.1, hunmodified, h.2⟩⟩

/-! ### A bundle of two shards -/

section Sample

/-- Files and directories that no link leads to. -/
def plainTree (nodes : List (PathBuf × FileNode)) : FileTree where
  node path := nodes.lookup path
  canonicalize path := if (nodes.lookup path).isSome = true then some path else none
  resolves path content modified h := by rw [h]; rfl
  canonical_idem path resolved h := by
    rw [Option.ite_none_right_eq_some] at h
    obtain ⟨hsome, hsame⟩ := h
    cases hsame
    rw [if_pos hsome]

/-- A shard of a package of two, with one tensor of one number. -/
def sampleShard (index : Nat) : List UInt8 :=
  encodeHead 3 1 [⟨utf8 "split.no", .scalar 2 (leBytes 2 index)⟩,
    ⟨utf8 "split.count", .scalar 2 (leBytes 2 2)⟩] ++
    (TensorInfo.encode ⟨utf8 "x", [1], 0, 0⟩ ++ List.replicate 28 0)

def digestBytes (number : Nat) : Bytes 32 := ⟨beBytes 32 number, length_beBytes 32 number⟩

def sampleDigests : List (List UInt8 × Nat) :=
  [(sampleShard 0, 0xb577cc3468ef89207c2f64c86497f30446bad93f4497c3b319c4f68e7946eeea),
    (sampleShard 1, 0x40b41abb7b93b77ffc1d643925074a955e84abaa959e77ecb316834d86639af0)]

/-- SHA-256 on the two shards, and on every other text what it gives for that of the bundle. -/
def sampleTools : ModelTools where
  deserializer _ := .error ""
  sha256 content := digestBytes ((sampleDigests.lookup content).getD
    0xaaefa7eeb6615be91eb881be0f14de89585d721b3d404dc4942c135c053cfb7a)

def sampleModels : PathBuf := ⟨["models"]⟩

def sampleShardPath (index : Nat) : PathBuf :=
  ⟨["models", if index = 0 then "m-00001-of-00002.gguf" else "m-00002-of-00002.gguf"]⟩

def sampleTree : FileTree :=
  plainTree [(sampleModels, .directory), (sampleShardPath 0, .regular (sampleShard 0) 7),
    (sampleShardPath 1, .regular (sampleShard 1) 7)]

def sampleShardReport (index : Nat) : ValidationReport where
  path := sampleShardPath index
  format := .gguf
  sizeBytes := 132
  sha256 := sampleTools.hexDigest (sampleShard index)
  modifiedUnix := 7
  compatibleEngines := ModelFormat.gguf.compatibleEngines
  verifiedAtUnix := 9
  ggufSplit := some ⟨index, 2⟩

def sampleBundle : Registration := .bundle "m" [sampleShardReport 0, sampleShardReport 1]

def sampleBundleArtifact (index : Nat) : ModelArtifactRecord where
  path := sampleShardPath index
  sizeBytes := 132
  sha256 := sampleTools.hexDigest (sampleShard index)
  modifiedUnix := 7
  ggufSplit := ⟨index, 2⟩

def sampleBundleRecord : ModelRecord where
  id := .fromU128 51
  name := "m"
  format := .gguf
  path := sampleShardPath 0
  sizeBytes := 264
  sha256 := "aaefa7eeb6615be91eb881be0f14de89585d721b3d404dc4942c135c053cfb7a"
  modifiedUnix := 7
  verifiedAtUnix := 9
  compatibleEngines := ModelFormat.gguf.compatibleEngines
  artifacts := [sampleBundleArtifact 0, sampleBundleArtifact 1]

theorem sampleBundle_record :
    sampleBundle.record (bundleSha256 sampleTools) (.fromU128 51) = .ok sampleBundleRecord := by
  decide +kernel

theorem sampleBundle_reported (report : ValidationReport)
    (h : report ∈ registrationReports sampleBundle) :
    StillReported sampleTools sampleTree report := by
  have hboth : report = sampleShardReport 0 ∨ report = sampleShardReport 1 := by
    simpa [registrationReports, sampleBundle] using h
  refine ⟨9, ?_⟩
  rcases hboth with rfl | rfl
  · decide +kernel
  · decide +kernel

theorem sampleBundle_managed : InManagedRoot sampleTree sampleModels sampleBundleRecord := by
  refine ⟨sampleModels, by decide +kernel, ?_⟩
  intro path hmem
  have hboth : path = sampleShardPath 0 ∨ path = sampleShardPath 1 := by
    simpa [artifactPaths, sampleBundleRecord, sampleBundleArtifact] using hmem
  have hcanonical : ∀ resolved, sampleTree.canonicalize path = some resolved →
      resolved = path := by
    intro resolved hresolved
    rw [sampleTree, plainTree, Option.ite_none_right_eq_some] at hresolved
    exact (Option.some.inj hresolved.2).symm
  rcases hboth with rfl | rfl
  · exact ⟨by decide, by decide, hcanonical⟩
  · exact ⟨by decide, by decide, hcanonical⟩

def sampleRegistry : RegistryData := ⟨1, [sampleBundleRecord]⟩

theorem findVerifiedModel_exact_sample :
    findVerifiedModel sampleTools sampleTree 9 sampleModels (some sampleRegistry) "m" =
        .ok sampleBundleRecord ↔
      lookup sampleRegistry.models "m" = some sampleBundleRecord ∧ Usable sampleBundleRecord :=
  (findVerifiedModel_exact sampleTools sampleTree 9 sampleModels none ⟨1, []⟩ rfl).2 sampleBundle
    (.fromU128 51) sampleBundleRecord sampleRegistry sampleBundle_record rfl sampleBundle_reported
    sampleBundle_managed

/-- The bundle has just been registered and is unmodified, and it is not found. -/
theorem findVerifiedModel_refuses_bundle :
    addRecord sampleBundleRecord ⟨1, []⟩ = .ok sampleRegistry ∧
      Created sampleTools sampleBundleRecord ∧
      InManagedRoot sampleTree sampleModels sampleBundleRecord ∧
      Unmodified sampleTools sampleTree sampleBundleRecord ∧
      findVerifiedModel sampleTools sampleTree 9 sampleModels (some sampleRegistry) "m" =
        .error (.file (.validation (.checksumMismatch
          "aaefa7eeb6615be91eb881be0f14de89585d721b3d404dc4942c135c053cfb7a"
          "b577cc3468ef89207c2f64c86497f30446bad93f4497c3b319c4f68e7946eeea"))) := by
  refine ⟨rfl, ⟨sampleBundle, .fromU128 51, sampleBundle_record, ?_⟩,
    sampleBundle_managed, unmodified_of_registration sampleBundle_record sampleBundle_reported,
    by decide +kernel⟩
  intro report hmem
  exact (sampleBundle_reported report hmem).genuine

end Sample

end MindOne.Models
