import MindOne.Downloads.Download

/-!
# What the steps of a download do

One lemma for each step of `download_model`. A request is prepared in the same way
whatever an earlier run has left, up to the length of the partial file. A complete
partial file is published if it is a model with the trusted digest, and removed if
it is not; in both cases the partial file is gone.
-/

namespace MindOne.Downloads

open CheckedArithmetic MindOne.Engine MindOne.Models MindOne.Stream MindOne.Regulated

/-! ### Preparation -/

section Preparation
variable {request : ModelDownloadRequest} {workspace : Workspace} {prepared : Prepared}

/-- A request that can be sent when nothing is left of an earlier run. -/
def Acceptable (request : ModelDownloadRequest) (prepared : Prepared) : Prop :=
  prepare request ⟨none, none⟩ = .ok prepared

theorem prepare_eq_ok : prepare request workspace = .ok prepared ↔
    workspace.target = none ∧ safePartialLength workspace.leftover = .ok prepared.existing ∧
      Acceptable request { prepared with existing := 0 } := by
  simp only [Acceptable, prepare, bind_eq_ok, rejectIf_eq_ok, okOr_eq_ok, Bool.not_eq_true,
    Option.isSome_eq_false_iff, Option.isNone_iff_eq_none]
  constructor
  · rintro ⟨u, hpaths, _, htarget, suffix, hsuffix, _, hparent, url, hurl, _, htransport,
      existing, hexisting, hprepared⟩
    cases hprepared
    exact ⟨htarget, hexisting, u, hpaths, (), trivial, suffix, hsuffix, (), hparent, url, hurl,
      (), htransport, 0, rfl, rfl⟩
  · rintro ⟨htarget, hexisting, u, hpaths, _, _, suffix, hsuffix, _, hparent, url, hurl, _,
      htransport, _, _, hprepared⟩
    cases prepared
    cases hprepared
    exact ⟨u, hpaths, (), htarget, suffix, hsuffix, (), hparent, _, hurl, (), htransport, _,
      hexisting, rfl⟩

theorem Acceptable.existing (h : Acceptable request prepared) : prepared.existing = 0 := by
  obtain ⟨-, hexisting, -⟩ := prepare_eq_ok.mp h
  exact (Except.ok.inj hexisting).symm

theorem Acceptable.prepare (h : Acceptable request prepared) {leftover : Option FileNode}
    {existing : Nat} (hlength : safePartialLength leftover = .ok existing) :
    prepare request ⟨leftover, none⟩ = .ok { prepared with existing := existing } := by
  refine prepare_eq_ok.mpr ⟨rfl, hlength, ?_⟩
  have hsame : { prepared with existing := 0 } = prepared := by
    rw [← h.existing]
  exact hsame ▸ h

theorem safePartialLength_regular {content : List UInt8} {modified : Int}
    (hle : content.length ≤ maxModelBytes) :
    safePartialLength (some (.regular content modified)) = .ok content.length :=
  if_neg (Nat.not_lt.mpr hle)

theorem openPartialFile_truncated {leftover : Option FileNode} {existing : Nat}
    (h : safePartialLength leftover = .ok existing) : openPartialFile false leftover = .ok [] := by
  cases leftover with
  | none => rfl
  | some node =>
      cases node with
      | regular content modified => rfl
      | directory => cases h
      | symlink => cases h

/-- The partial file has the extension of the target. -/
theorem Acceptable.lowerExtension (h : Acceptable request prepared) :
    lowerExtension prepared.leftover = lowerExtension prepared.target := by
  simp only [Acceptable, Downloads.prepare, bind_eq_ok, okOr_eq_ok] at h
  obtain ⟨_, -, _, -, suffix, hsuffix, _, -, url, -, _, -, _, -, hprepared⟩ := h
  cases hprepared
  obtain ⟨-, -, hdot⟩ := split_of_extension hsuffix
  simp only [Models.lowerExtension, PathBuf.fileName_join, Option.bind_some, hsuffix,
    downloadPartialName, toList_partialName, extension_append (List.cons_ne_nil _ _) hdot]

theorem Acceptable.target (h : Acceptable request prepared) :
    prepared.target = request.modelsDirectory.join request.outputName := by
  simp only [Acceptable, Downloads.prepare, bind_eq_ok, okOr_eq_ok] at h
  obtain ⟨_, -, _, -, suffix, -, _, -, url, -, _, -, _, -, hprepared⟩ := h
  cases hprepared
  rfl

theorem Acceptable.transport (h : Acceptable request prepared) :
    enforceTransport prepared.url = .ok () := by
  simp only [Acceptable, Downloads.prepare, bind_eq_ok, okOr_eq_ok] at h
  obtain ⟨_, -, _, -, suffix, -, _, -, url, -, _, htransport, _, -, hprepared⟩ := h
  cases hprepared
  exact htransport

end Preparation

/-! ### Answers -/

theorem normalizeSha256_eq_some {value digest : String} :
    normalizeSha256 value = some digest ↔ digest = String.ofList (unmarked value) ∧
      (unmarked value).length = 64 ∧
      (unmarked value).all (fun c => c.isDigit || ('a' ≤ c && c ≤ 'f')) = true := by
  rw [normalizeSha256, Option.ite_none_right_eq_some, Option.some.injEq, and_comm, @eq_comm _ digest]

/-- A digest that was read from a text is one for `validate_model` too. -/
theorem normalizeSha256_trusted {value digest : String}
    (h : normalizeSha256 value = some digest) :
    Engine.normalizeSha256 digest = some digest := by
  obtain ⟨hdigest, hlength, hall⟩ := normalizeSha256_eq_some.mp h
  subst hdigest
  refine normalizeSha256_of_hex ?_ ?_
  · rw [String.toList_ofList]
    exact hlength
  · rw [String.toList_ofList]
    exact List.all_eq_true.mp hall

theorem trusted_of_checksumFromHeaders {response : Response} {digest : String}
    (h : checksumFromHeaders response = some digest) :
    Engine.normalizeSha256 digest = some digest := by
  simp only [checksumFromHeaders, Option.or_eq_some_iff] at h
  rcases h with h | ⟨-, h⟩
  · obtain ⟨name, -, hname⟩ := List.exists_of_findSome?_eq_some h
    obtain ⟨value, -, hvalue⟩ := Option.bind_eq_some_iff.mp hname
    exact normalizeSha256_trusted hvalue
  · obtain ⟨value, -, hvalue⟩ := Option.bind_eq_some_iff.mp h
    exact normalizeSha256_trusted hvalue

/-- The answer continues the partial file. -/
def continues (existing : Nat) (response : Response) : Bool :=
  decide (0 < existing) && decide (response.status = 206)

/-- Where the body of an answer belongs. -/
def startOf (existing : Nat) (response : Response) : Nat :=
  if continues existing response = true then existing else 0

/-- What an answer has to be to be accepted. -/
structure Accepted (request : ModelDownloadRequest) (existing : Nat) (response : Response)
    (trusted : String) : Prop where
  secure : enforceTransport response.url = .ok ()
  status : response.status = 200 ∨ response.status = 206
  digest : (request.expectedSha256.bind normalizeSha256).or (checksumFromHeaders response) =
    some trusted
  size : ∀ total ∈ responseTotal response (startOf existing response), total ≤ maxModelBytes

theorem acceptResponse_eq_ok {request : ModelDownloadRequest} {existing : Nat}
    {response : Response} {trusted : String} {resumed : Bool} :
    acceptResponse request existing response = .ok (trusted, resumed) ↔
      resumed = continues existing response ∧ Accepted request existing response trusted := by
  simp only [acceptResponse, bind_eq_ok, rejectIf_eq_ok, okOr_eq_ok, Option.any_eq_true,
    decide_eq_true_eq, not_exists, not_and, not_lt, not_not]
  constructor
  · rintro ⟨_, hsecure, _, hstatus, value, htrusted, _, hsize, heq⟩
    cases heq
    exact ⟨rfl, hsecure, Decidable.or_iff_not_imp_left.mpr hstatus, htrusted,
      fun total htotal => hsize total htotal⟩
  · rintro ⟨hresumed, haccepted⟩
    subst hresumed
    exact ⟨(), haccepted.secure, (), Decidable.or_iff_not_imp_left.mp haccepted.status, trusted,
      haccepted.digest, (), haccepted.size, rfl⟩

theorem Accepted.trusted {request : ModelDownloadRequest} {existing : Nat} {response : Response}
    {trusted : String} (h : Accepted request existing response trusted) :
    Engine.normalizeSha256 trusted = some trusted := by
  rcases Option.or_eq_some_iff.mp h.digest with hcaller | ⟨-, hserver⟩
  · obtain ⟨value, -, hvalue⟩ := Option.bind_eq_some_iff.mp hcaller
    exact normalizeSha256_trusted hvalue
  · exact trusted_of_checksumFromHeaders hserver

/-! ### Bodies -/

/-- Pieces that fit arrive completely. -/
theorem receive_pieces {pieces : List (List UInt8)} {downloaded : Nat} {content : List UInt8}
    (h : downloaded + pieces.flatten.length ≤ maxModelBytes) :
    receive (pieces.map some) downloaded content = (.ok (), content ++ pieces.flatten) := by
  induction pieces generalizing downloaded content with
  | nil => rw [List.flatten_nil, List.append_nil]; rfl
  | cons piece rest ih =>
      rw [List.flatten_cons, List.length_append] at h
      have hlimit : maxModelBytes < 2 ^ 64 := by decide
      rw [List.map_cons, receive, if_neg (by omega), if_neg (by omega), ih (by omega),
        List.flatten_cons, List.append_assoc]

/-- What is written never exceeds the limit by more than the last piece. -/
theorem length_receive_le {chunks : List (Option (List UInt8))} {bound : Nat}
    (hbound : ∀ piece, some piece ∈ chunks → piece.length ≤ bound) {content : List UInt8}
    (h : content.length ≤ maxModelBytes) :
    (receive chunks content.length content).2.length ≤ maxModelBytes + bound := by
  induction chunks generalizing content with
  | nil => exact Nat.le_add_right_of_le h
  | cons chunk rest ih =>
      cases chunk with
      | none => exact Nat.le_add_right_of_le h
      | some piece =>
          have hpiece := hbound piece List.mem_cons_self
          have hlength : (content ++ piece).length = content.length + piece.length :=
            List.length_append
          rw [receive]
          split_ifs with hoverflow hlarge
          · change (content ++ piece).length ≤ _
            omega
          · change (content ++ piece).length ≤ _
            omega
          · rw [← hlength]
            exact ih (fun piece hmem => hbound piece (List.mem_cons_of_mem _ hmem))
              (by omega)

/-! ### Publication -/

section Publication
variable {tools : ModelTools} {now : Int} {path : PathBuf} {content : List UInt8}
  {modified : Int} {trusted : String} {report : ValidationReport}

theorem inspect_congr {other : PathBuf} (h : lowerExtension path = lowerExtension other) :
    inspect tools path content = inspect tools other content := by
  simp only [inspect, rejectUnsafeExtension, validateExtensionMatches, h]

/-- The content is a model with the trusted digest. -/
structure Trustworthy (tools : ModelTools) (path : PathBuf) (trusted : String)
    (content : List UInt8) : Prop where
  structured : ∃ found, inspect tools path content = .ok found
  digest : Engine.normalizeSha256 trusted = some (tools.hexDigest content)

theorem Trustworthy.congr {other : PathBuf} (h : lowerExtension path = lowerExtension other) :
    Trustworthy tools path trusted content ↔ Trustworthy tools other trusted content := by
  constructor
  · rintro ⟨⟨found, hfound⟩, hdigest⟩
    exact ⟨⟨found, inspect_congr h ▸ hfound⟩, hdigest⟩
  · rintro ⟨⟨found, hfound⟩, hdigest⟩
    exact ⟨⟨found, (inspect_congr h).trans hfound⟩, hdigest⟩

/-- The directory of one regular file. -/
theorem reported_plainTree {other : List UInt8} {found : Inspected}
    (h : Reported tools (plainTree [(path, .regular content modified)]) now path report other
      found) : other = content ∧ report.path = path := by
  have hnode : (plainTree [(path, FileNode.regular content modified)]).node path =
      some (.regular content modified) := List.lookup_cons_self
  have hsame := h.file
  rw [hnode, Option.some.injEq, FileNode.regular.injEq] at hsame
  have hresolved := h.resolved
  rw [plainTree, Option.ite_none_right_eq_some] at hresolved
  exact ⟨hsame.1.symm, (Option.some.inj hresolved.2).symm⟩

theorem sha256_of_validateEntry
    (h : validateEntry tools now path (some (.regular content modified)) trusted = .ok report) :
    report.sha256 = tools.hexDigest content ∧
      Engine.normalizeSha256 trusted = some report.sha256 := by
  obtain ⟨other, found, hreported, hdigest⟩ := validateModel_eq_ok.mp h
  obtain ⟨hsame, -⟩ := reported_plainTree hreported
  exact ⟨hsame ▸ hreported.digest, hdigest trusted rfl⟩

theorem validateEntry_regular :
    (∃ report, validateEntry tools now path (some (.regular content modified)) trusted =
      .ok report) ↔ Trustworthy tools path trusted content := by
  constructor
  · rintro ⟨report, h⟩
    obtain ⟨other, found, hreported, hdigest⟩ := validateModel_eq_ok.mp h
    obtain ⟨hsame, -⟩ := reported_plainTree hreported
    subst hsame
    exact ⟨⟨found, hreported.structured⟩, hreported.digest ▸ hdigest trusted rfl⟩
  · rintro ⟨⟨found, hfound⟩, hdigest⟩
    let report : ValidationReport := {
      path := path
      format := found.format
      sizeBytes := content.length
      sha256 := tools.hexDigest content
      modifiedUnix := modified
      compatibleEngines := found.format.compatibleEngines
      verifiedAtUnix := now
      ggufSplit := found.ggufSplit }
    have hlookup : [(path, FileNode.regular content modified)].lookup path =
        some (.regular content modified) := List.lookup_cons_self
    refine ⟨report, validateModel_eq_ok.mpr ⟨content, found, ?_, ?_⟩⟩
    · refine ⟨?_, hlookup, hfound, rfl, rfl, rfl, rfl, rfl, rfl⟩
      exact if_pos (Option.isSome_iff_exists.mpr ⟨_, hlookup⟩)
    · rintro value ⟨⟩
      exact hdigest

/-- A complete partial file becomes the target, or it is removed. -/
theorem publish_regular {prepared : Prepared}
    (hsame : lowerExtension prepared.leftover = lowerExtension prepared.target) :
    (Trustworthy tools prepared.target trusted content ∧
      ∃ report, validateEntry tools now prepared.target (some (.regular content modified))
        trusted = .ok report ∧
        publish tools now prepared trusted ⟨some (.regular content modified), none⟩ =
          (.ok report, ⟨none, some (.regular content modified)⟩)) ∨
    (¬ Trustworthy tools prepared.target trusted content ∧
      ∃ error, publish tools now prepared trusted ⟨some (.regular content modified), none⟩ =
        (.error error, ⟨none, none⟩)) := by
  by_cases htrust : Trustworthy tools prepared.target trusted content
  · left
    obtain ⟨report, hreport⟩ :=
      (@validateEntry_regular tools now prepared.target content modified trusted).mpr htrust
    obtain ⟨first, hfirst⟩ := (@validateEntry_regular tools now prepared.leftover content modified
      trusted).mpr ((Trustworthy.congr hsame).mpr htrust)
    exact ⟨htrust, report, hreport, by simp only [publish, hfirst, hreport]⟩
  · right
    refine ⟨htrust, ?_⟩
    cases hfirst : validateEntry tools now prepared.leftover
        (some (.regular content modified)) trusted with
    | error error => exact ⟨.validation error, by simp only [publish, hfirst]⟩
    | ok report =>
        exact absurd ((Trustworthy.congr hsame).mp (validateEntry_regular.mp ⟨report, hfirst⟩))
          htrust

end Publication

end MindOne.Downloads
