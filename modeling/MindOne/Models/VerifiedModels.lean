import MindOne.Models.Verification

/-!
# A model is usable when its files are unmodified

For a record of one file the verification accepts exactly the unmodified ones. For a
bundle it does too, but the last comparison asks the primary shard for the digest of
the whole bundle, so that no unmodified bundle is found unless the two digests agree.
-/

namespace MindOne.Models

open CheckedArithmetic ByteReader MindOne.Engine MindOne.Stream PlacedScan

/-! ### Records and files -/

section Statements
variable (tools : ModelTools) (tree : FileTree)

/-- The digest of some file. -/
def IsDigest (digest : String) : Prop := ∃ content, digest = tools.hexDigest content

/-- What `register` and `register_bundle` leave in a record. -/
structure Registered (record : ModelRecord) : Prop where
  name : validateName record.name = .ok ()
  digest : IsDigest tools record.sha256
  engines : record.compatibleEngines = record.format.compatibleEngines
  shards : ∀ artifact ∈ record.artifacts, IsDigest tools artifact.sha256

/-- A report that `validate_model` has given for some file at some time. -/
def Genuine (report : ValidationReport) : Prop :=
  ∃ tree now path expected, validateModel tools tree now path expected = .ok report

/-- The file of a report is still the one that it reports. -/
def StillReported (report : ValidationReport) : Prop :=
  ∃ now, validateModel tools tree now report.path none = .ok report

def registrationReports : Registration → List ValidationReport
  | .single _ report => [report]
  | .bundle _ reports => reports

/-- A record of `register` or `register_bundle`. -/
structure Created (record : ModelRecord) : Prop where
  created : ∃ registration id, registration.record (bundleSha256 tools) id = .ok record ∧
    ∀ report ∈ registrationReports registration, Genuine tools report

/-- Below the managed root: no path of the record leads anywhere else. -/
structure InManagedRoot (models : PathBuf) (record : ModelRecord) : Prop where
  root : ∃ root, tree.canonicalize models = some root ∧
    ∀ path ∈ artifactPaths record, path ≠ root ∧ root.components <+: path.components ∧
      ∀ resolved, tree.canonicalize path = some resolved → resolved = path

/-- A regular file of this size and digest that passes the structural validation, with what
its structure says. -/
def FileIntact (path : PathBuf) (sizeBytes : Nat) (sha256 : String) (fits : Inspected → Prop) :
    Prop :=
  ∃ content modified found, tree.node path = some (.regular content modified) ∧
    inspect tools path content = .ok found ∧ fits found ∧
    content.length = sizeBytes ∧ tools.hexDigest content = sha256

/-- Every artifact of the record is as it was registered. -/
def Unmodified (record : ModelRecord) : Prop :=
  if record.artifacts = [] then
    FileIntact tools tree record.path record.sizeBytes record.sha256
      fun found => found.format = record.format
  else
    validateArtifactLayout tools record = .ok () ∧ ∀ artifact ∈ record.artifacts,
      FileIntact tools tree artifact.path artifact.sizeBytes artifact.sha256
        fun found => found.ggufSplit = some artifact.ggufSplit

end Statements

theorem IsDigest.normalized {tools : ModelTools} {digest : String} (h : IsDigest tools digest) :
    normalizeSha256 digest = some digest := by
  obtain ⟨content, rfl⟩ := h
  exact normalizeSha256_hexDigest tools content

theorem isSha256_of_normalized {digest : String} (h : normalizeSha256 digest = some digest) :
    IsSha256 digest := by
  simp only [normalizeSha256, Option.ite_none_right_eq_some, Option.some.injEq] at h
  obtain ⟨⟨hlength, hall⟩, hdigest⟩ := h
  rw [← hdigest, IsSha256, String.toList_ofList]
  refine ⟨hlength, List.all_eq_true.mpr fun c hc => ?_⟩
  rw [List.all_eq_true.mp hall c hc, Bool.true_or]

section Registrations
variable {tools : ModelTools} {record : ModelRecord} {report : ValidationReport}

theorem Genuine.digest (h : Genuine tools report) : IsDigest tools report.sha256 := by
  obtain ⟨_, _, _, _, hreport⟩ := h
  obtain ⟨content, _, hreported, -⟩ := validateModel_eq_ok.mp hreport
  exact ⟨content, hreported.digest⟩

theorem Genuine.engines (h : Genuine tools report) :
    report.compatibleEngines = report.format.compatibleEngines := by
  obtain ⟨_, _, _, _, hreport⟩ := h
  obtain ⟨_, _, hreported, -⟩ := validateModel_eq_ok.mp hreport
  rw [hreported.engines, hreported.format]

/-- The artifact of a shard says what its report says. -/
structure ArtifactOf (report : ValidationReport) (artifact : ModelArtifactRecord) : Prop where
  path : artifact.path = report.path
  size : artifact.sizeBytes = report.sizeBytes
  digest : artifact.sha256 = report.sha256
  split : report.ggufSplit = some artifact.ggufSplit

theorem artifactOf_of_artifactFromReport {artifact : ModelArtifactRecord}
    (h : artifactFromReport report = .ok artifact) : ArtifactOf report artifact := by
  simp only [artifactFromReport, bind_eq_ok, okOr_eq_ok] at h
  obtain ⟨split, hsplit, hartifact⟩ := h
  cases hartifact
  exact ⟨rfl, rfl, rfl, hsplit⟩

/-- What `record_from_reports` writes. -/
structure BundleOf (tools : ModelTools) (id : Uuid) (name : String)
    (reports : List ValidationReport) (primary : ValidationReport) (record : ModelRecord) :
    Prop where
  id : record.id = id
  name : record.name = name
  accepted : validateGgufSplitReports reports = .ok ()
  head : reports.head? = some primary
  artifacts : List.Forall₂ ArtifactOf reports record.artifacts
  format : record.format = primary.format
  path : record.path = primary.path
  size : record.sizeBytes = (record.artifacts.map ModelArtifactRecord.sizeBytes).sum
  bound : record.sizeBytes < 2 ^ 64
  digest : record.sha256 = bundleSha256 tools record.artifacts
  engines : record.compatibleEngines = primary.compatibleEngines

theorem totalSize_eq_ok {artifacts : List ModelArtifactRecord} {total : Nat} :
    totalSize artifacts = .ok total ↔
      total = (artifacts.map ModelArtifactRecord.sizeBytes).sum ∧ total < 2 ^ 64 := by
  simp only [totalSize]
  split
  · rename_i hlarge
    constructor
    · intro h
      cases h
    · rintro ⟨rfl, hsmall⟩
      exact absurd hsmall (Nat.not_lt.mpr hlarge)
  · rename_i hsmall
    constructor
    · intro h
      cases h
      exact ⟨rfl, Nat.not_le.mp hsmall⟩
    · rintro ⟨rfl, -⟩
      rfl

theorem bundleOf_of_recordFromReports {id : Uuid} {name : String}
    {reports : List ValidationReport}
    (h : recordFromReports (bundleSha256 tools) id name reports = .ok record) :
    ∃ primary, BundleOf tools id name reports primary record := by
  simp only [recordFromReports, bind_eq_ok, mapError_eq_ok, okOr_eq_ok, mapM_eq_ok,
    totalSize_eq_ok] at h
  obtain ⟨_, haccepted, primary, hprimary, artifacts, hartifacts, total, ⟨htotal, hbound⟩,
    hrecord⟩ := h
  cases hrecord
  refine ⟨primary, rfl, rfl, haccepted, hprimary, ?_, rfl, rfl, htotal, hbound, rfl, rfl⟩
  exact hartifacts.imp fun report artifact h => artifactOf_of_artifactFromReport h

theorem forall₂_mem_right {α β : Type} {R : α → β → Prop} {l : List α} {l' : List β}
    (h : List.Forall₂ R l l') {b : β} (hb : b ∈ l') : ∃ a ∈ l, R a b := by
  induction h with
  | nil => cases hb
  | cons hhead _ ih =>
      rcases List.mem_cons.mp hb with rfl | hrest
      · exact ⟨_, List.mem_cons_self, hhead⟩
      · obtain ⟨a, ha, hR⟩ := ih hrest
        exact ⟨a, List.mem_cons_of_mem _ ha, hR⟩

theorem Created.registered (h : Created tools record) : Registered tools record := by
  obtain ⟨registration, id, hrecord, hgenuine⟩ := h.created
  simp only [Registration.record, bind_eq_ok] at hrecord
  obtain ⟨_, hname, hrecord⟩ := hrecord
  cases registration with
  | single name report =>
      simp only [bind_eq_ok] at hrecord
      obtain ⟨_, _, hrecord⟩ := hrecord
      cases hrecord
      have hreport := hgenuine report List.mem_cons_self
      refine ⟨hname, hreport.digest, hreport.engines, ?_⟩
      intro artifact hmem
      cases hmem
  | bundle name reports =>
      obtain ⟨primary, hbundle⟩ := bundleOf_of_recordFromReports hrecord
      have hprimary := hgenuine primary (List.mem_of_mem_head? hbundle.head)
      refine ⟨hbundle.name ▸ hname, ⟨_, hbundle.digest⟩, ?_, ?_⟩
      · rw [hbundle.engines, hbundle.format, hprimary.engines]
      · intro artifact hmem
        obtain ⟨report, hreport, hartifact⟩ := forall₂_mem_right hbundle.artifacts hmem
        rw [hartifact.digest]
        exact (hgenuine report hreport).digest

end Registrations

/-! ### The layout -/

/-- An artifact at its place, from 0, of a bundle of `count` shards. -/
structure ArtifactAt (directory : PathBuf) (splitPrefix : List Char) (count position : Nat)
    (artifact : ModelArtifactRecord) : Prop where
  parent : artifact.path.parent = some directory
  digest : IsSha256 artifact.sha256
  name : parseGgufSplitFilename artifact.path = some ⟨splitPrefix, position + 1, count⟩
  split : artifact.ggufSplit = ⟨position, count⟩

theorem checkArtifact_eq_ok {name : String} {directory : PathBuf} {count position : Nat}
    {artifact : ModelArtifactRecord} {scan after : LayoutScan} :
    checkArtifact name directory count scan (artifact, position) = .ok after ↔
      ∃ splitPrefix path, ArtifactAt directory splitPrefix count position artifact ∧
        (∀ value ∈ scan.splitPrefix, value = splitPrefix) ∧ some artifact.path = some path ∧
        path ∉ scan.paths ∧ after = ⟨some splitPrefix, path :: scan.paths⟩ := by
  constructor
  · intro h
    simp only [checkArtifact, bind_eq_ok, rejectIf_eq_ok, okOr_eq_ok] at h
    obtain ⟨_, hplace, parsed, hparsed, _, hnumbers, _, hsame, _, hnew, hafter⟩ := h
    cases hafter
    simp only [not_or, not_not, not_exists, not_and] at hplace hnumbers hsame
    obtain ⟨hindex, hcount, hposition, hinner⟩ := hnumbers
    refine ⟨parsed.splitPrefix, artifact.path, ⟨hplace.1, hplace.2, ?_, ?_⟩, hsame, rfl, hnew, ?_⟩
    · rw [hparsed, ← hcount, ← hindex]
    · rw [← hinner, ← hposition]
    · cases hscan : scan.splitPrefix with
      | none => rfl
      | some value =>
          rw [hscan] at hsame
          rw [Option.getD_some, hsame value rfl]
  · rintro ⟨splitPrefix, path, hat, hsame, hpath, hnew, rfl⟩
    cases hpath
    have hstem : scan.splitPrefix.getD splitPrefix = splitPrefix := by
      cases hscan : scan.splitPrefix with
      | none => rfl
      | some value => exact hsame value hscan
    have hplace : ¬ (artifact.path.parent ≠ some directory ∨ ¬ IsSha256 artifact.sha256) := by
      rintro (hparent | hdigest)
      · exact hparent hat.parent
      · exact hdigest hat.digest
    have hdiffers : ¬ ∃ value ∈ scan.splitPrefix, value ≠ splitPrefix := by
      rintro ⟨value, hvalue, hne⟩
      exact hne (hsame value hvalue)
    simp only [checkArtifact, bind_eq_ok, rejectIf_eq_ok, okOr_eq_ok]
    refine ⟨(), hplace, _, hat.name, (), ?_, (), hdiffers, (), hnew, ?_⟩
    · simp only [hat.split, ne_eq, not_true_eq_false, or_self, not_false_eq_true]
    · rw [hstem]
      rfl

/-- The scan over the artifacts of a bundle. -/
def layoutScanner (name : String) (directory : PathBuf) (count : Nat) :
    Scanner ModelRegistryError LayoutScan ModelArtifactRecord (List Char) PathBuf where
  check := checkArtifact name directory count
  found := LayoutScan.splitPrefix
  seen := LayoutScan.paths
  make := LayoutScan.mk
  key artifact := some artifact.path
  At splitPrefix position := ArtifactAt directory splitPrefix count position
  found_make _ _ := rfl
  seen_make _ _ := rfl
  check_eq_ok := checkArtifact_eq_ok
  has_key _ := ⟨_, rfl⟩
  place_of_key hx hy hkey := by
    have hname := congrArg parseGgufSplitFilename (Option.some.inj hkey)
    rw [hx.name, hy.name, Option.some.injEq, GgufSplitFileName.mk.injEq] at hname
    exact Nat.add_right_cancel hname.2.1

/-- What the layout of a bundle promises. -/
structure BundleLayout (tools : ModelTools) (record : ModelRecord) (directory : PathBuf)
    (splitPrefix : List Char) : Prop where
  format : record.format = .gguf
  engines : record.compatibleEngines = ModelFormat.gguf.compatibleEngines
  head : record.artifacts.head?.map ModelArtifactRecord.path = some record.path
  count : 2 ≤ record.artifacts.length ∧ record.artifacts.length ≤ 256
  parent : record.path.parent = some directory
  shards : ∀ (position : Nat) artifact, record.artifacts[position]? = some artifact →
    ArtifactAt directory splitPrefix record.artifacts.length position artifact
  size : (record.artifacts.map ModelArtifactRecord.sizeBytes).sum = record.sizeBytes
  bound : record.sizeBytes < 2 ^ 64
  digest : bundleSha256 tools record.artifacts = record.sha256

theorem validateArtifactLayout_eq_ok {tools : ModelTools} {record : ModelRecord}
    (hne : record.artifacts ≠ []) : validateArtifactLayout tools record = .ok () ↔
      ∃ directory splitPrefix, BundleLayout tools record directory splitPrefix := by
  rw [validateArtifactLayout, if_neg hne]
  constructor
  · intro h
    simp only [validateBundleLayout, bind_eq_ok, rejectIf_eq_ok, okOr_eq_ok, not_or,
      not_not] at h
    obtain ⟨_, ⟨hformat, hengines⟩, _, hhead, _, -, _, hcount, directory, hparent, after, hscan, _,
      hbound, hsize, hdigest⟩ := h
    obtain ⟨splitPrefix, hshards⟩ :=
      (layoutScanner record.name directory record.artifacts.length).scan_iff.mp ⟨after, hscan⟩
    exact ⟨directory, splitPrefix, hformat, hengines, hhead, hcount, hparent, hshards, hsize,
      hsize ▸ Nat.not_le.mp hbound, hdigest⟩
  · rintro ⟨directory, splitPrefix, h⟩
    obtain ⟨after, hscan⟩ :=
      (layoutScanner record.name directory record.artifacts.length).scan_iff.mpr
        ⟨splitPrefix, h.shards⟩
    simp only [validateBundleLayout, bind_eq_ok, rejectIf_eq_ok, okOr_eq_ok, not_or, not_not]
    exact ⟨(), ⟨h.format, h.engines⟩, (), h.head,
      (), Nat.not_le.mpr (Nat.lt_of_le_of_lt h.count.2 (by decide)), (), h.count, directory,
      h.parent, after, hscan, (), Nat.not_le.mpr (h.size ▸ h.bound), h.size, h.digest⟩

/-! ### Single files -/

section SingleFiles
variable {tools : ModelTools} {tree : FileTree} {now : Int} {path : PathBuf} {sizeBytes : Nat}
  {sha256 : String} {fits : Inspected → Prop} {report : ValidationReport}

theorem digest_of_validateModel (hdigest : IsDigest tools sha256)
    (h : validateModel tools tree now path (some sha256) = .ok report) :
    report.sha256 = sha256 := by
  obtain ⟨_, _, -, hexpected⟩ := validateModel_eq_ok.mp h
  exact Option.some.inj ((hexpected sha256 rfl).symm.trans hdigest.normalized)

/-- An intact file is validated, and what is validated under its digest is intact. -/
theorem fileIntact_iff (now : Int) (hdigest : IsDigest tools sha256) :
    FileIntact tools tree path sizeBytes sha256 fits ↔
      ∃ report content found, validateModel tools tree now path (some sha256) = .ok report ∧
        Reported tools tree now path report content found ∧ fits found ∧
        report.sizeBytes = sizeBytes := by
  constructor
  · rintro ⟨content, modified, found, hnode, hfound, hfits, hsize, rfl⟩
    obtain ⟨resolved, hresolved⟩ := Option.isSome_iff_exists.mp
      (tree.resolves path content modified hnode)
    have hreported : Reported tools tree now path
        { path := resolved
          format := found.format
          sizeBytes := content.length
          sha256 := tools.hexDigest content
          modifiedUnix := modified
          compatibleEngines := found.format.compatibleEngines
          verifiedAtUnix := now
          ggufSplit := found.ggufSplit } content found :=
      ⟨hresolved, hnode, hfound, rfl, rfl, rfl, rfl, rfl, rfl⟩
    refine ⟨_, content, found, validateModel_eq_ok.mpr ⟨content, found, hreported, ?_⟩,
      hreported, hfits, hsize⟩
    intro value hvalue
    cases hvalue
    exact hdigest.normalized
  · rintro ⟨report, content, found, hvalid, hreported, hfits, hsize⟩
    refine ⟨content, report.modifiedUnix, found, hreported.file, hreported.structured, hfits, ?_, ?_⟩
    · rw [← hreported.size, hsize]
    · rw [← hreported.digest, digest_of_validateModel hdigest hvalid]

theorem fileIsCurrent_iff {record : ModelRecord} (h : Registered tools record) :
    fileIsCurrent tools tree now record = true ↔
      FileIntact tools tree record.path record.sizeBytes record.sha256
        fun found => found.format = record.format := by
  rw [fileIntact_iff now h.digest, fileIsCurrent]
  constructor
  · intro hcurrent
    split at hcurrent
    · rename_i report hvalid
      obtain ⟨hformat, hsize, -⟩ := of_decide_eq_true hcurrent
      obtain ⟨content, found, hreported, -⟩ := validateModel_eq_ok.mp hvalid
      exact ⟨report, content, found, hvalid, hreported, hreported.format.symm.trans hformat, hsize⟩
    · cases hcurrent
  · rintro ⟨report, content, found, hvalid, hreported, hformat, hsize⟩
    rw [hvalid]
    refine decide_eq_true ⟨hreported.format.trans hformat, hsize, ?_⟩
    rw [hreported.engines, hformat, h.engines]

end SingleFiles

/-! ### Bundles -/

section Bundles
variable {tools : ModelTools} {tree : FileTree} {now : Int} {record : ModelRecord}
  {directory : PathBuf} {splitPrefix : List Char}

theorem lowerExtension_of_parse {path : PathBuf} {parsed : GgufSplitFileName}
    (h : parseGgufSplitFilename path = some parsed) : lowerExtension path = some "gguf" := by
  obtain ⟨name, stem, suffix, hname, hsplit⟩ := splitName_of_parse h
  rw [lowerExtension, hname, Option.bind_some, hsplit.extension, Option.map_some, hsplit.gguf,
    String.ofList_toList]

theorem format_of_inspect {path : PathBuf} {content : List UInt8} {found : Inspected}
    (h : inspect tools path content = .ok found) :
    lowerExtension path = some (ModelFormat.extension found.format) := by
  simp only [inspect, bind_eq_ok] at h
  obtain ⟨_, -, _, -, other, -, _, hextension, hfound⟩ := h
  cases hfound
  simpa [validateExtensionMatches] using hextension

theorem gguf_of_extension {format : ModelFormat} (h : ModelFormat.extension format = "gguf") :
    format = .gguf := by
  cases format with
  | gguf => rfl
  | safetensors => exact absurd h (by decide)

/-- What the verification of one shard gives. -/
structure ShardReport (artifact : ModelArtifactRecord) (report : ValidationReport) : Prop where
  artifact : ArtifactOf report artifact
  format : report.format = .gguf
  engines : report.compatibleEngines = ModelFormat.gguf.compatibleEngines

theorem verifyArtifact_of_intact {artifact : ModelArtifactRecord} {parsed : GgufSplitFileName}
    (hdigest : IsDigest tools artifact.sha256)
    (hname : parseGgufSplitFilename artifact.path = some parsed)
    (hpath : ∀ resolved, tree.canonicalize artifact.path = some resolved →
      resolved = artifact.path)
    (h : FileIntact tools tree artifact.path artifact.sizeBytes artifact.sha256
      fun found => found.ggufSplit = some artifact.ggufSplit) :
    ∃ report, verifyArtifact tools tree now artifact = .ok report ∧
      ShardReport artifact report := by
  obtain ⟨report, content, found, hvalid, hreported, hsplit, hsize⟩ :=
    (fileIntact_iff now hdigest).mp h
  have hgguf : found.format = .gguf := by
    have hextension := (format_of_inspect hreported.structured).symm.trans
      (lowerExtension_of_parse hname)
    exact gguf_of_extension (Option.some.inj hextension)
  have hsame : report.ggufSplit = some artifact.ggufSplit := hreported.split.trans hsplit
  refine ⟨report, ?_, ⟨?_, hsize.symm, ?_, hsame⟩, hreported.format.trans hgguf, ?_⟩
  · simp only [verifyArtifact, bind_eq_ok, mapError_eq_ok, rejectIf_eq_ok, not_or, not_not]
    exact ⟨report, hvalid, (), ⟨hsize, hsame⟩, rfl⟩
  · exact (hpath _ hreported.resolved).symm
  · exact (digest_of_validateModel hdigest hvalid).symm
  · rw [hreported.engines, hgguf]

theorem intact_of_verifyArtifact {artifact : ModelArtifactRecord} {report : ValidationReport}
    (hdigest : IsDigest tools artifact.sha256)
    (h : verifyArtifact tools tree now artifact = .ok report) :
    FileIntact tools tree artifact.path artifact.sizeBytes artifact.sha256
      fun found => found.ggufSplit = some artifact.ggufSplit := by
  simp only [verifyArtifact, bind_eq_ok, mapError_eq_ok, rejectIf_eq_ok, not_or, not_not] at h
  obtain ⟨other, hvalid, _, ⟨hsize, hsplit⟩, hreport⟩ := h
  cases hreport
  obtain ⟨content, found, hreported, -⟩ := validateModel_eq_ok.mp hvalid
  exact (fileIntact_iff now hdigest).mpr
    ⟨report, content, found, hvalid, hreported, hreported.split.symm.trans hsplit, hsize⟩

theorem exists_forall₂ {α β : Type} {R : α → β → Prop} {l : List α}
    (h : ∀ a ∈ l, ∃ b, R a b) : ∃ l', List.Forall₂ R l l' := by
  induction l with
  | nil => exact ⟨[], .nil⟩
  | cons a rest ih =>
      obtain ⟨⟨b, hb⟩, hrest⟩ := List.forall_mem_cons.mp h
      obtain ⟨others, hothers⟩ := ih hrest
      exact ⟨b :: others, .cons hb hothers⟩

theorem forall₂_getElem? {α β : Type} {R : α → β → Prop} {l : List α} {l' : List β}
    (h : List.Forall₂ R l l') {i : Nat} {b : β} (hb : l'[i]? = some b) :
    ∃ a, l[i]? = some a ∧ R a b := by
  induction h generalizing i with
  | nil => cases hb
  | cons hhead _ ih =>
      cases i with
      | zero =>
          cases hb
          exact ⟨_, rfl, hhead⟩
      | succ i => exact ih hb

/-- The artifacts that the reports give again differ in nothing that the digest is about. -/
theorem rebuilt_artifacts {artifacts : List ModelArtifactRecord} {reports : List ValidationReport}
    (h : List.Forall₂ ShardReport artifacts reports) :
    ∃ rebuilt, reports.mapM artifactFromReport = .ok rebuilt ∧
      rebuilt.map encodeArtifact = artifacts.map encodeArtifact ∧
      rebuilt.map ModelArtifactRecord.sizeBytes = artifacts.map ModelArtifactRecord.sizeBytes := by
  induction h with
  | nil => exact ⟨[], rfl, rfl, rfl⟩
  | @cons artifact report artifacts reports hshard _ ih =>
      obtain ⟨rebuilt, hrebuilt, hencoded, hsizes⟩ := ih
      obtain ⟨hpath, hsize, hdigest, hsplit⟩ := hshard.artifact
      let again : ModelArtifactRecord :=
        ⟨report.path, report.sizeBytes, report.sha256, report.modifiedUnix, artifact.ggufSplit⟩
      have hagain : artifactFromReport report = .ok again := by
        simp only [artifactFromReport, bind_eq_ok, okOr_eq_ok]
        exact ⟨artifact.ggufSplit, hsplit, rfl⟩
      refine ⟨again :: rebuilt, ?_, ?_, ?_⟩
      · rw [mapM_eq_ok] at hrebuilt ⊢
        exact .cons hagain hrebuilt
      · simp only [List.map_cons, hencoded, again, encodeArtifact, hpath, hsize, hdigest]
      · simp only [List.map_cons, hsizes, again, hsize]

/-- The reports of intact shards are those of a package. -/
theorem BundleLayout.package (hlayout : BundleLayout tools record directory splitPrefix)
    {reports : List ValidationReport}
    (h : List.Forall₂ ShardReport record.artifacts reports) :
    IsSplitPackage directory splitPrefix reports := by
  have hlength := h.length_eq
  refine ⟨hlength ▸ hlayout.count, ?_⟩
  intro position report hreport
  obtain ⟨artifact, hartifact, hshard⟩ := forall₂_getElem? h hreport
  have hat := hlayout.shards position artifact hartifact
  refine ⟨hshard.format, ?_, ?_, ?_⟩
  · rw [← hshard.artifact.path]
    exact hat.parent
  · rw [← hshard.artifact.path, ← hlength]
    exact hat.name
  · rw [hshard.artifact.split, hat.split, hlength]

/-- The verification of a bundle accepts what is laid out and intact. -/
theorem verifyBundleRecord_of_intact
    (hlayout : BundleLayout tools record directory splitPrefix)
    (hdigests : ∀ artifact ∈ record.artifacts, IsDigest tools artifact.sha256)
    (hpaths : ∀ artifact ∈ record.artifacts, ∀ resolved,
      tree.canonicalize artifact.path = some resolved → resolved = artifact.path)
    (h : ∀ artifact ∈ record.artifacts,
      FileIntact tools tree artifact.path artifact.sizeBytes artifact.sha256
        fun found => found.ggufSplit = some artifact.ggufSplit) :
    ∃ reports, verifyBundleRecord tools tree now record = .ok reports := by
  have hverified : ∀ artifact ∈ record.artifacts, ∃ report,
      verifyArtifact tools tree now artifact = .ok report ∧ ShardReport artifact report := by
    intro artifact hmem
    obtain ⟨position, hposition⟩ := List.mem_iff_getElem?.mp hmem
    exact verifyArtifact_of_intact (hdigests artifact hmem)
      (hlayout.shards position artifact hposition).name (hpaths artifact hmem) (h artifact hmem)
  obtain ⟨reports, hreports⟩ := exists_forall₂ hverified
  have hshards : List.Forall₂ ShardReport record.artifacts reports :=
    hreports.imp fun _ _ h => h.2
  have hne : record.artifacts ≠ [] := List.ne_nil_of_length_pos
    (Nat.lt_of_lt_of_le (by decide) hlayout.count.1)
  have haccepted := validateGgufSplitReports_eq_ok.mpr ⟨_, _, hlayout.package hshards⟩
  obtain ⟨rebuilt, hrebuilt, hencoded, hsizes⟩ := rebuilt_artifacts hshards
  obtain ⟨artifact, report, artifacts, others, hartifacts, hothers, hprimary⟩ :
      ∃ artifact report artifacts others, record.artifacts = artifact :: artifacts ∧
        reports = report :: others ∧ ShardReport artifact report := by
    cases hartifacts : record.artifacts with
    | nil => exact absurd hartifacts hne
    | cons artifact artifacts =>
        rw [hartifacts] at hshards
        obtain ⟨report, others, hhead, -, hothers⟩ := List.forall₂_cons_left_iff.mp hshards
        exact ⟨artifact, report, artifacts, others, rfl, hothers, hhead⟩
  have hhead : artifact.path = record.path := by
    have hpath := hlayout.head
    rw [hartifacts] at hpath
    exact Option.some.inj hpath
  have hdigest : bundleSha256 tools rebuilt = record.sha256 := by
    rw [← hlayout.digest, bundleSha256, bundleSha256, encodeBundle, encodeBundle,
      List.flatMap_def, List.flatMap_def, hencoded]
  have htotal : totalSize rebuilt = .ok record.sizeBytes := by
    rw [totalSize_eq_ok, hsizes]
    exact ⟨hlayout.size.symm, hlayout.bound⟩
  refine ⟨reports, ?_⟩
  simp only [verifyBundleRecord, recordFromReports, bind_eq_ok, mapError_eq_ok, rejectIf_eq_ok,
    okOr_eq_ok, not_or, not_not]
  refine ⟨(), (validateArtifactLayout_eq_ok hne).mpr ⟨_, _, hlayout⟩, reports, ?_, (), haccepted,
    _, ⟨(), haccepted, report, hothers ▸ rfl, rebuilt, hrebuilt, _, htotal, rfl⟩, (),
    ⟨?_, ?_, rfl, hdigest, ?_⟩, rfl⟩
  · exact mapM_eq_ok.mpr (hreports.imp fun _ _ h => h.1)
  · exact hprimary.artifact.path.symm.trans hhead
  · exact hprimary.format.trans hlayout.format.symm
  · exact hprimary.engines.trans hlayout.engines.symm

end Bundles

/-! ### The lookup -/

section Found
variable {tools : ModelTools} {tree : FileTree} {now : Int} {models : PathBuf}
  {record : ModelRecord}

/-- The record is about one file, or the digest of the bundle is by coincidence that of its
primary shard. -/
def Usable (record : ModelRecord) : Prop :=
  record.artifacts = [] ∨
    record.artifacts.head?.map ModelArtifactRecord.sha256 = some record.sha256

theorem unmodified_of_single (hsingle : record.artifacts = []) :
    Unmodified tools tree record ↔
      FileIntact tools tree record.path record.sizeBytes record.sha256
        fun found => found.format = record.format := by
  rw [Unmodified, if_pos hsingle]

theorem unmodified_of_bundle (hbundle : record.artifacts ≠ []) :
    Unmodified tools tree record ↔
      validateArtifactLayout tools record = .ok () ∧ ∀ artifact ∈ record.artifacts,
        FileIntact tools tree artifact.path artifact.sizeBytes artifact.sha256
          fun found => found.ggufSplit = some artifact.ggufSplit := by
  rw [Unmodified, if_neg hbundle]

theorem isOk_iff {ε α : Type} {x : Except ε α} : x.isOk = true ↔ ∃ a, x = .ok a := by
  cases x with
  | error e =>
      constructor
      · intro h
        cases h
      · rintro ⟨_, h⟩
        cases h
  | ok a => exact ⟨fun _ => ⟨a, rfl⟩, fun _ => rfl⟩

theorem mem_artifactPaths {artifact : ModelArtifactRecord} (h : artifact ∈ record.artifacts) :
    artifact.path ∈ artifactPaths record := by
  rw [artifactPaths, if_neg (List.ne_nil_of_mem h)]
  exact List.mem_map_of_mem h

theorem path_mem_artifactPaths (h : validateArtifactLayout tools record = .ok ()) :
    record.path ∈ artifactPaths record := by
  by_cases hsingle : record.artifacts = []
  · rw [artifactPaths, if_pos hsingle]
    exact List.mem_singleton.mpr rfl
  · obtain ⟨_, _, hlayout⟩ := (validateArtifactLayout_eq_ok hsingle).mp h
    obtain ⟨artifact, hhead, hpath⟩ := Option.map_eq_some_iff.mp hlayout.head
    rw [← hpath]
    exact mem_artifactPaths (List.mem_of_mem_head? hhead)

/-- The comparison with the files accepts exactly the unmodified models. -/
theorem verificationIsCurrent_iff (hregistered : Registered tools record)
    (hmanaged : InManagedRoot tree models record) :
    verificationIsCurrent tools tree now record = true ↔ Unmodified tools tree record := by
  by_cases hsingle : record.artifacts = []
  · rw [verificationIsCurrent, if_neg (not_not.mpr hsingle), unmodified_of_single hsingle]
    exact fileIsCurrent_iff hregistered
  · rw [verificationIsCurrent, if_pos hsingle, unmodified_of_bundle hsingle, isOk_iff]
    constructor
    · rintro ⟨reports, h⟩
      simp only [verifyBundleRecord, bind_eq_ok, mapError_eq_ok, mapM_eq_ok] at h
      obtain ⟨_, hlayout, verified, hverified, -⟩ := h
      refine ⟨hlayout, ?_⟩
      intro artifact hmem
      obtain ⟨report, -, hreport⟩ := forall₂_mem_right hverified.flip hmem
      exact intact_of_verifyArtifact (hregistered.shards artifact hmem) hreport
    · rintro ⟨hlayout, hintact⟩
      obtain ⟨root, -, hpaths⟩ := hmanaged.root
      obtain ⟨_, _, hlayout⟩ := (validateArtifactLayout_eq_ok hsingle).mp hlayout
      refine verifyBundleRecord_of_intact hlayout hregistered.shards ?_ hintact
      intro artifact hmem
      exact (hpaths artifact.path (mem_artifactPaths hmem)).2.2

theorem Unmodified.layout (h : Unmodified tools tree record) :
    validateArtifactLayout tools record = .ok () := by
  by_cases hsingle : record.artifacts = []
  · rw [validateArtifactLayout, if_pos hsingle]
  · exact ((unmodified_of_bundle hsingle).mp h).1

theorem Unmodified.present (h : Unmodified tools tree record) {path : PathBuf}
    (hmem : path ∈ artifactPaths record) :
    ∃ content modified, tree.node path = some (.regular content modified) := by
  by_cases hsingle : record.artifacts = []
  · rw [artifactPaths, if_pos hsingle, List.mem_singleton] at hmem
    obtain ⟨content, modified, _, hnode, -⟩ := (unmodified_of_single hsingle).mp h
    exact ⟨content, modified, hmem ▸ hnode⟩
  · rw [artifactPaths, if_neg hsingle, List.mem_map] at hmem
    obtain ⟨artifact, hartifact, rfl⟩ := hmem
    obtain ⟨content, modified, _, hnode, -⟩ :=
      ((unmodified_of_bundle hsingle).mp h).2 artifact hartifact
    exact ⟨content, modified, hnode⟩

/-- The paths of an unmodified model are accepted as managed ones. -/
theorem Unmodified.managed (h : Unmodified tools tree record)
    (hmanaged : InManagedRoot tree models record) {path modelsRoot : PathBuf}
    (hmem : path ∈ artifactPaths record)
    (hroot : tree.canonicalize modelsRoot = tree.canonicalize models) :
    ensureManagedPath tree path modelsRoot = .ok () := by
  obtain ⟨content, modified, hnode⟩ := h.present hmem
  obtain ⟨root, hmodels, hpaths⟩ := hmanaged.root
  obtain ⟨hne, hbelow, hcanonical⟩ := hpaths path hmem
  obtain ⟨resolved, hresolved⟩ := Option.isSome_iff_exists.mp
    (tree.resolves path content modified hnode)
  obtain rfl := hcanonical resolved hresolved
  simp only [ensureManagedPath, bind_eq_ok, okOr_eq_ok, rejectIf_eq_ok, not_or, not_not]
  exact ⟨root, hroot.trans hmodels, resolved, hresolved, _, hnode, Bool.noConfusion, rfl, hne,
    hbelow⟩

theorem Unmodified.registryRecord (h : Unmodified tools tree record)
    (hregistered : Registered tools record) (hmanaged : InManagedRoot tree models record)
    {root : PathBuf} (hroot : tree.canonicalize models = some root) :
    validateRegistryRecord tools tree record root = .ok () := by
  have hsame : tree.canonicalize root = tree.canonicalize models :=
    (tree.canonical_idem models root hroot).trans hroot.symm
  simp only [validateRegistryRecord, bind_eq_ok, mapError_eq_ok, rejectIf_eq_ok, not_not,
    forM_eq_ok]
  refine ⟨(), hregistered.name, (), isSha256_of_normalized hregistered.digest.normalized, (),
    h.managed hmanaged (path_mem_artifactPaths h.layout) hsame, (), h.layout, ?_⟩
  intro artifact hmem
  exact h.managed hmanaged (mem_artifactPaths hmem) hsame

/-- The last comparison asks the primary file for the digest of the record. -/
theorem primary_iff_usable (h : Unmodified tools tree record)
    (hregistered : Registered tools record) :
    (∃ report, validateModel tools tree now record.path (some record.sha256) = .ok report) ↔
      Usable record := by
  by_cases hsingle : record.artifacts = []
  · obtain ⟨report, _, _, hvalid, -⟩ := (fileIntact_iff now hregistered.digest).mp
      ((unmodified_of_single hsingle).mp h)
    exact ⟨fun _ => .inl hsingle, fun _ => ⟨report, hvalid⟩⟩
  · obtain ⟨hlayout, hintact⟩ := (unmodified_of_bundle hsingle).mp h
    obtain ⟨_, _, hlayout⟩ := (validateArtifactLayout_eq_ok hsingle).mp hlayout
    obtain ⟨artifact, hhead, hpath⟩ := Option.map_eq_some_iff.mp hlayout.head
    have hmem := List.mem_of_mem_head? hhead
    obtain ⟨content, modified, found, hnode, hfound, -, -, hsha⟩ := hintact artifact hmem
    have husable : Usable record ↔ artifact.sha256 = record.sha256 := by
      rw [Usable, hhead, Option.map_some, Option.some.injEq]
      exact or_iff_right hsingle
    rw [husable]
    constructor
    · rintro ⟨report, hvalid⟩
      obtain ⟨content', _, hreported, -⟩ := validateModel_eq_ok.mp hvalid
      have hsame := hreported.file
      rw [← hpath, hnode, Option.some.injEq, FileNode.regular.injEq] at hsame
      rw [← digest_of_validateModel hregistered.digest hvalid, hreported.digest, ← hsame.1, hsha]
    · intro hsame
      have hfile : FileIntact tools tree record.path content.length record.sha256
          fun _ => True := by
        rw [← hpath, ← hsame]
        exact ⟨content, modified, found, hnode, hfound, trivial, rfl, hsha⟩
      obtain ⟨report, _, _, hvalid, -⟩ := (fileIntact_iff now hregistered.digest).mp hfile
      exact ⟨report, hvalid⟩

/-- A name is neither an absolute path nor has it several components. -/
theorem findTarget_of_name {file : RegistryFile} {name : String}
    (h : validateName name = .ok ()) :
    findTarget tools tree models file name =
      (findRecord tools tree models file name).mapError fun e => .registry (.registry e) := by
  simp only [validateName, rejectIf_eq_ok, not_or] at h
  obtain ⟨hempty, -, hdot, -, hletters⟩ := h
  have hne : name.toList ≠ [] := by
    intro hnil
    exact hempty (String.toList_inj.mp hnil)
  have hnedot : name.toList ≠ ['.'] := by
    intro hsingle
    exact hdot (String.toList_inj.mp hsingle)
  have hslash : '/' ∉ name.toList := by
    intro hmem
    have hall := List.all_eq_true.mp (Bool.eq_true_of_not_eq_false hletters) '/' hmem
    exact absurd hall (by decide)
  have habsolute : ¬ name.toList.head? = some '/' := by
    intro hhead
    exact hslash (List.mem_of_mem_head? hhead)
  have hsplit : name.toList.splitOn '/' = [name.toList] := by
    refine List.splitOnP_eq_singleton fun c hc => ?_
    rw [beq_eq_false_iff_ne]
    rintro rfl
    exact hslash hc
  have hcount : ¬ 1 < componentCount name.toList := by
    rw [componentCount, components_ofText hslash hne hnedot, hsplit, List.head?_cons,
      if_neg (by simpa using hnedot)]
    exact Nat.lt_irrefl 1
  rw [findTarget, if_neg habsolute, if_neg hcount]

/-- What is found for a name is its record, unmodified and usable. -/
theorem findVerifiedModel_eq_ok {file : RegistryFile} {data : RegistryData}
    (hdata : readData file = .ok data) (hregistered : Registered tools record)
    (hmanaged : InManagedRoot tree models record) :
    findVerifiedModel tools tree now models file record.name = .ok record ↔
      lookup data.models record.name = some record ∧ Unmodified tools tree record ∧
        Usable record := by
  have hcurrent : verificationIsCurrent tools tree now record = true ↔
      Unmodified tools tree record := verificationIsCurrent_iff hregistered hmanaged
  simp only [findVerifiedModel, findTarget_of_name hregistered.name, bind_eq_ok, mapError_eq_ok,
    rejectIf_eq_ok, Bool.not_eq_false]
  constructor
  · rintro ⟨found, hfound, _, hverified, report, hvalid, hrecord⟩
    cases hrecord
    simp only [findRecord, bind_eq_ok, okOr_eq_ok] at hfound
    obtain ⟨_, -, other, hother, found, hlookup, _, -, hfound⟩ := hfound
    cases hfound
    obtain rfl : data = other := Except.ok.inj (hdata.symm.trans hother)
    rw [verificationIsCurrentIn, Bool.and_eq_true, hcurrent] at hverified
    exact ⟨hlookup, hverified.2, (primary_iff_usable hverified.2 hregistered).mp ⟨report, hvalid⟩⟩
  · rintro ⟨hlookup, hunmodified, husable⟩
    obtain ⟨report, hvalid⟩ : ∃ report,
        validateModel tools tree now record.path (some record.sha256) = .ok report :=
      (primary_iff_usable hunmodified hregistered).mpr husable
    obtain ⟨root, hroot, -⟩ := hmanaged.root
    refine ⟨record, ?_, (), ?_, report, hvalid, rfl⟩
    · simp only [findRecord, managedRoot, bind_eq_ok, okOr_eq_ok]
      exact ⟨root, hroot, data, hdata, record, hlookup, (),
        hunmodified.registryRecord hregistered hmanaged hroot, rfl⟩
    · have hpaths : ∀ path ∈ artifactPaths record, isManaged tree models path = true := by
        intro path hmem
        exact isOk_iff.mpr ⟨(), hunmodified.managed hmanaged hmem rfl⟩
      rw [verificationIsCurrentIn, hpaths _ (path_mem_artifactPaths hunmodified.layout),
        List.all_eq_true.mpr hpaths, hcurrent.mpr hunmodified]
      rfl

end Found

end MindOne.Models
