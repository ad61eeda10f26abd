import MindOne.Downloads.Publication

/-!
# A download that is resumed

A server with standard ranges sends the rest of the file behind the bytes that are
there. What an interrupted run left is completed by one call. There is one gap: behind
a partial file that is already complete, or longer than the remote file, there is no
range, the server answers 416, and the partial file stays as it is for every later call.
A partial file that is no prefix is found out by the digest and removed.
-/

namespace MindOne.Downloads

open CheckedArithmetic MindOne.Engine MindOne.Models MindOne.Stream MindOne.Regulated

/-! ### Standard ranges -/

/-- The answer carries the content from a place on, and states no other size. -/
structure Carries (content : List UInt8) (response : Response) (status start : Nat) : Prop where
  status : response.status = status
  body : ∃ pieces : List (List UInt8),
    response.chunks = pieces.map some ∧ pieces.flatten = content.drop start
  size : ∀ total ∈ responseTotal response start, total = content.length

/-- The answer to a request for a range, which the server may ignore. -/
structure RangeAnswer (content : List UInt8) (ignores : Bool) (range : Option Nat)
    (response : Response) : Prop where
  secure : enforceTransport response.url = .ok ()
  whole : range = none ∨ ignores = true → Carries content response 200 0
  rest : ∀ start ∈ range, ignores = false → start < content.length →
    Carries content response 206 start
  beyond : ∀ start ∈ range, ignores = false → content.length ≤ start → response.status = 416

/-- The server has the content at an address. -/
def StandardServer (url : Url) (content : List UInt8) (ignores : Bool)
    (send : Url → Option Nat → Option Response) : Prop :=
  ∀ range, ∃ response, send url range = some response ∧
    RangeAnswer content ignores range response

/-- The call returns a report, the target holds the content, and the partial file is gone. -/
def Completed (now : Int) (content : List UInt8) (outcome : Outcome) : Prop :=
  (∃ report, outcome.result = .ok report) ∧
    outcome.workspace = ⟨none, some (.regular content now)⟩

/-- The request asks for a model, and its checksum is that of the model. -/
structure Correct (tools : ModelTools) (request : ModelDownloadRequest) (prepared : Prepared)
    (content : List UInt8) : Prop where
  acceptable : Acceptable request prepared
  valid : ∃ found, inspect tools prepared.target content = .ok found
  checksum : request.expectedSha256.bind normalizeSha256 = some (tools.hexDigest content)

section Resumption
variable {tools : ModelTools} {now : Int} {request : ModelDownloadRequest} {prepared : Prepared}
  {content held : List UInt8} {send : Url → Option Nat → Option Response} {ignores : Bool}
  {modified : Int}

theorem length_of_inspect {path : PathBuf} {found : Inspected}
    (h : inspect tools path content = .ok found) :
    16 ≤ content.length ∧ content.length ≤ maxModelBytes := by
  simp only [inspect, bind_eq_ok, rejectIf_eq_ok, not_not] at h
  obtain ⟨_, -, _, hsize, -⟩ := h
  exact hsize

namespace Correct

theorem length_le (h : Correct tools request prepared content) :
    content.length ≤ maxModelBytes := by
  obtain ⟨found, hfound⟩ := h.valid
  exact (length_of_inspect hfound).2

/-- An answer with the content is accepted, and the caller's digest is trusted. -/
theorem accepted (h : Correct tools request prepared content) {response : Response}
    {existing status start : Nat} (hsecure : enforceTransport response.url = .ok ())
    (hstatus : status = 200 ∨ status = 206) (hcarries : Carries content response status start)
    (hstart : start = startOf existing response) :
    acceptResponse request existing response =
      .ok (tools.hexDigest content, continues existing response) := by
  refine acceptResponse_eq_ok.mpr ⟨rfl, hsecure, ?_, ?_, ?_⟩
  · rw [hcarries.status]
    exact hstatus
  · rw [h.checksum, Option.some_or]
  · intro total htotal
    rw [hcarries.size total (hstart ▸ htotal)]
    exact h.length_le

end Correct

/-- What is held and what is sent are published together, or thrown away together. -/
theorem store_carried (h : Acceptable request prepared)
    (hvalid : ∃ found, inspect tools prepared.target content = .ok found) {response : Response}
    {status : Nat} (hcarries : Carries content response status held.length) {resumed : Bool}
    {existing : Nat} {leftover : Option FileNode}
    (hopen : openPartialFile resumed leftover = .ok held)
    (hstart : (if resumed = true then existing else 0) = held.length)
    (hle : held.length ≤ content.length) {outcome : Outcome}
    (houtcome : outcome = store tools now { prepared with existing := existing }
      (tools.hexDigest content) resumed response ⟨leftover, none⟩) :
    (tools.hexDigest (held ++ content.drop held.length) = tools.hexDigest content ∧
      Completed now (held ++ content.drop held.length) outcome) ∨
    (held ++ content.drop held.length ≠ content ∧ (∃ error, outcome.result = .error error) ∧
      outcome.workspace = ⟨none, none⟩) := by
  obtain ⟨pieces, hchunks, hflatten⟩ := hcarries.body
  have hfits : held.length + pieces.flatten.length ≤ maxModelBytes := by
    obtain ⟨found, hfound⟩ := hvalid
    have hlimit := (length_of_inspect hfound).2
    rw [hflatten, List.length_drop]
    omega
  have hreceive := @receive_pieces pieces held.length held hfits
  rw [hflatten] at hreceive
  have hpublish := @publish_regular tools now (held ++ content.drop held.length) now
    (tools.hexDigest content) { prepared with existing := existing } h.lowerExtension
  rw [houtcome]
  simp only [store, hopen, hchunks, hstart, hreceive]
  rcases hpublish with ⟨htrust, report, -, hpublish⟩ | ⟨htrust, error, hpublish⟩
  · have hdigest := htrust.digest
    rw [Models.normalizeSha256_hexDigest, Option.some.injEq] at hdigest
    exact .inl ⟨hdigest.symm, ⟨report, congrArg Prod.fst hpublish⟩, congrArg Prod.snd hpublish⟩
  · refine .inr ⟨?_, ⟨error, congrArg Prod.fst hpublish⟩, congrArg Prod.snd hpublish⟩
    intro heq
    rw [heq] at htrust
    exact htrust ⟨hvalid, Models.normalizeSha256_hexDigest tools content⟩

/-! ### One call -/

/-- The whole file replaces whatever was there. -/
theorem download_whole (h : Correct tools request prepared content) {leftover : Option FileNode}
    {existing : Nat} (hlength : safePartialLength leftover = .ok existing)
    {response : Response} (hsecure : enforceTransport response.url = .ok ())
    (hsend : send prepared.url (rangeStart existing) = some response)
    (hcarries : Carries content response 200 0) :
    Completed now content (downloadModel tools now request send ⟨leftover, none⟩) := by
  have hfresh : continues existing response = false := by
    rw [continues, hcarries.status]
    exact Bool.and_false _
  have hstart : 0 = startOf existing response := by
    rw [startOf, hfresh]
    rfl
  have haccept := h.accepted hsecure (.inl rfl) hcarries hstart
  rw [hfresh] at haccept
  have houtcome : downloadModel tools now request send ⟨leftover, none⟩ =
      store tools now { prepared with existing := existing } (tools.hexDigest content) false
        response ⟨leftover, none⟩ := by
    simp only [downloadModel, h.acceptable.prepare hlength, hsend, haccept]
  have hstored := @store_carried tools now request prepared content [] h.acceptable h.valid
    response 200 hcarries false existing leftover (openPartialFile_truncated hlength) rfl
    (Nat.zero_le _) _ houtcome
  rcases hstored with ⟨-, hdone⟩ | ⟨hdiffers, -⟩
  · exact hdone
  · exact absurd rfl hdiffers

/-- The rest of the file comes behind what was there. -/
theorem download_rest (h : Correct tools request prepared content) (hpos : 0 < held.length)
    (hlt : held.length < content.length) {response : Response}
    (hsecure : enforceTransport response.url = .ok ())
    (hsend : send prepared.url (some held.length) = some response)
    (hcarries : Carries content response 206 held.length) {outcome : Outcome}
    (houtcome : outcome =
      downloadModel tools now request send ⟨some (.regular held modified), none⟩) :
    (tools.hexDigest (held ++ content.drop held.length) = tools.hexDigest content ∧
      Completed now (held ++ content.drop held.length) outcome) ∨
    (held ++ content.drop held.length ≠ content ∧ (∃ error, outcome.result = .error error) ∧
      outcome.workspace = ⟨none, none⟩) := by
  have hcontinues : continues held.length response = true := by
    rw [continues, hcarries.status, decide_eq_true hpos]
    rfl
  have hstart : held.length = startOf held.length response := by
    rw [startOf, if_pos hcontinues]
  have haccept := h.accepted hsecure (.inr rfl) hcarries hstart
  rw [hcontinues] at haccept
  have hlimit := h.length_le
  have hprepare := h.acceptable.prepare (@safePartialLength_regular held modified (by omega))
  have hopen : openPartialFile true (some (.regular held modified)) = .ok held := rfl
  refine store_carried h.acceptable h.valid hcarries hopen (if_pos rfl) (Nat.le_of_lt hlt)
    (houtcome.trans ?_)
  simp only [downloadModel, hprepare, rangeStart, if_pos hpos, hsend, haccept]

/-- Behind the end of the file there is nothing to get, and nothing changes. -/
theorem download_beyond (h : Acceptable request prepared) (hpos : 0 < held.length)
    (hle : held.length ≤ maxModelBytes) {response : Response}
    (hsecure : enforceTransport response.url = .ok ())
    (hsend : send prepared.url (some held.length) = some response)
    (hstatus : response.status = 416) :
    downloadModel tools now request send ⟨some (.regular held modified), none⟩ =
      ⟨.error (.httpStatus 416), ⟨some (.regular held modified), none⟩, []⟩ := by
  have hrefuse : acceptResponse request held.length response = .error (.httpStatus 416) := by
    rw [acceptResponse, hsecure, hstatus]
    rfl
  simp only [downloadModel, h.prepare (safePartialLength_regular hle), rangeStart, if_pos hpos,
    hsend, hrefuse]

/-- A partial file over the limit stays for ever. -/
theorem download_oversized (hlarge : maxModelBytes < held.length) :
    ∃ error, downloadModel tools now request send ⟨some (.regular held modified), none⟩ =
      ⟨.error error, ⟨some (.regular held modified), none⟩, []⟩ := by
  cases hprepare : prepare request ⟨some (.regular held modified), none⟩ with
  | error error =>
      exact ⟨error, by simp only [downloadModel, hprepare]⟩
  | ok prepared =>
      obtain ⟨-, hlength, -⟩ := prepare_eq_ok.mp hprepare
      rw [safePartialLength, if_pos hlarge] at hlength
      cases hlength

/-! ### Calls against a standard server -/

theorem not_completed_of_error {outcome : Outcome} {error : DownloadError}
    (h : outcome.result = .error error) : ¬ Completed now content outcome := by
  rintro ⟨⟨report, hreport⟩, -⟩
  rw [h] at hreport
  cases hreport

/-- Without a range that counts, the call completes. -/
theorem download_fresh (h : Correct tools request prepared content)
    (hserver : StandardServer prepared.url content ignores send) {leftover : Option FileNode}
    {existing : Nat} (hlength : safePartialLength leftover = .ok existing)
    (hfresh : existing = 0 ∨ ignores = true) :
    Completed now content (downloadModel tools now request send ⟨leftover, none⟩) := by
  obtain ⟨response, hsend, hanswer⟩ := hserver (rangeStart existing)
  refine download_whole h hlength hanswer.secure hsend (hanswer.whole ?_)
  rcases hfresh with hzero | hignores
  · exact .inl (if_neg (by omega))
  · exact .inr hignores

/-- A range that counts is beyond the end, or it gives the rest. -/
theorem download_ranged (h : Correct tools request prepared content)
    (hserver : StandardServer prepared.url content ignores send) (hpos : 0 < held.length)
    (hle : held.length ≤ maxModelBytes) (hranged : ignores = false) {outcome : Outcome}
    (houtcome : outcome =
      downloadModel tools now request send ⟨some (.regular held modified), none⟩) :
    if held.length < content.length then
      (tools.hexDigest (held ++ content.drop held.length) = tools.hexDigest content ∧
        Completed now (held ++ content.drop held.length) outcome) ∨
      (held ++ content.drop held.length ≠ content ∧ (∃ error, outcome.result = .error error) ∧
        outcome.workspace = ⟨none, none⟩)
    else outcome = ⟨.error (.httpStatus 416), ⟨some (.regular held modified), none⟩, []⟩ := by
  obtain ⟨response, hsend, hanswer⟩ := hserver (some held.length)
  split_ifs with hlt
  · exact download_rest h hpos hlt hanswer.secure hsend (hanswer.rest _ rfl hranged hlt) houtcome
  · rw [houtcome]
    exact download_beyond h.acceptable hpos hle hanswer.secure hsend
      (hanswer.beyond _ rfl hranged (by omega))

/-- One call completes what is a part of the file, unless it is already all of it. -/
theorem completed_iff_of_start (h : Correct tools request prepared content)
    (hserver : StandardServer prepared.url content ignores send) (hheld : held <+: content) :
    Completed now content
        (downloadModel tools now request send ⟨some (.regular held modified), none⟩) ↔
      held = [] ∨ held.length < content.length ∨ ignores = true := by
  have hlength := hheld.length_le
  have hlimit := h.length_le
  have hstate := @safePartialLength_regular held modified (by omega)
  by_cases hempty : held = []
  · exact iff_of_true (download_fresh h hserver hstate (.inl (List.length_eq_zero_iff.mpr hempty)))
      (.inl hempty)
  by_cases hignores : ignores = true
  · exact iff_of_true (download_fresh h hserver hstate (.inr hignores)) (.inr (.inr hignores))
  obtain ⟨outcome, houtcome⟩ : ∃ outcome, outcome =
      downloadModel tools now request send ⟨some (.regular held modified), none⟩ := ⟨_, rfl⟩
  have hranged := download_ranged h hserver (List.length_pos_iff.mpr hempty) (by omega)
    (Bool.not_eq_true _ ▸ hignores) houtcome
  rw [← houtcome]
  split_ifs at hranged with hlt
  · refine iff_of_true ?_ (.inr (.inl hlt))
    have hjoined : held ++ content.drop held.length = content :=
      List.prefix_iff_eq_append.mp hheld
    rcases hranged with ⟨-, hdone⟩ | ⟨hdiffers, -⟩
    · rwa [hjoined] at hdone
    · exact absurd hjoined hdiffers
  · rw [hranged]
    refine iff_of_false (not_completed_of_error rfl) ?_
    rintro (hnil | hless | hyes)
    · exact hempty hnil
    · exact hlt hless
    · exact hignores hyes

/-- What is no part of the file is thrown away, unless it is as long as the file. -/
theorem attempts_iff_of_not_start {now later : Int} {send' : Url → Option Nat → Option Response}
    {ignores' : Bool} (h : Correct tools request prepared content)
    (hserver : StandardServer prepared.url content ignores send)
    (hserver' : StandardServer prepared.url content ignores' send') (hheld : ¬ held <+: content)
    {first second : Outcome}
    (hfirst : first =
      downloadModel tools now request send ⟨some (.regular held modified), none⟩)
    (hsecond : second = downloadModel tools later request send' first.workspace) :
    ((∃ got, tools.hexDigest got = tools.hexDigest content ∧ Completed now got first) ∨
        Completed later content second) ↔
      held.length ≤ maxModelBytes ∧
        (held.length < content.length ∨ ignores = true ∨ ignores' = true) := by
  have hpos : 0 < held.length := by
    refine List.length_pos_iff.mpr ?_
    rintro rfl
    exact hheld List.nil_prefix
  by_cases hle : held.length ≤ maxModelBytes
  · have hstate := @safePartialLength_regular held modified hle
    rw [and_iff_right hle]
    by_cases hignores : ignores = true
    · have hdone := @download_fresh tools now _ _ _ _ _ h hserver _ _ hstate (.inr hignores)
      exact iff_of_true (.inl ⟨content, rfl, hfirst ▸ hdone⟩) (.inr (.inl hignores))
    have hranged := download_ranged h hserver hpos hle (Bool.not_eq_true _ ▸ hignores) hfirst
    split_ifs at hranged with hlt
    · refine iff_of_true ?_ (.inl hlt)
      rcases hranged with ⟨hdigest, hdone⟩ | ⟨-, -, hgone⟩
      · exact .inl ⟨_, hdigest, hdone⟩
      · rw [hgone] at hsecond
        exact .inr (hsecond ▸ download_fresh h hserver' rfl (.inl rfl))
    · have hfailed : ¬ ∃ got, tools.hexDigest got = tools.hexDigest content ∧
          Completed now got first := by
        rintro ⟨got, -, hdone⟩
        rw [hranged] at hdone
        exact not_completed_of_error rfl hdone
      rw [or_iff_right hfailed, or_iff_right hlt, or_iff_right hignores]
      rw [hranged] at hsecond
      by_cases hignores' : ignores' = true
      · exact iff_of_true (hsecond ▸ download_fresh h hserver' hstate (.inr hignores')) hignores'
      · have hagain := download_ranged h hserver' hpos hle (Bool.not_eq_true _ ▸ hignores') hsecond
        rw [if_neg hlt] at hagain
        rw [hagain]
        exact iff_of_false (not_completed_of_error rfl) hignores'
  · obtain ⟨error, hfailed⟩ := @download_oversized tools now request held send modified (by omega)
    obtain ⟨error', hfailed'⟩ :=
      @download_oversized tools later request held send' modified (by omega)
    rw [hfailed] at hfirst
    rw [hfirst, hfailed'] at hsecond
    refine iff_of_false ?_ (fun hcondition => hle hcondition.1)
    rintro (⟨got, -, hdone⟩ | hdone)
    · rw [hfirst] at hdone
      exact not_completed_of_error rfl hdone
    · rw [hsecond] at hdone
      exact not_completed_of_error rfl hdone

/-- Exactly when a download that was interrupted is completed. -/
theorem downloadModel_completes_iff (now later : Int) {prepared : Prepared}
    {content : List UInt8} {send send' : Url → Option Nat → Option Response}
    {ignores ignores' : Bool} (h : Correct tools request prepared content)
    (hserver : StandardServer prepared.url content ignores send)
    (hserver' : StandardServer prepared.url content ignores' send') (held : List UInt8) (modified : Int) :
    let first := downloadModel tools now request send ⟨some (.regular held modified), none⟩
    let second := downloadModel tools later request send' first.workspace
    (held <+: content → (Completed now content first ↔
      held = [] ∨ held.length < content.length ∨ ignores = true)) ∧
    (¬ held <+: content →
      ((∃ got, tools.hexDigest got = tools.hexDigest content ∧ Completed now got first) ∨
        Completed later content second ↔
      held.length ≤ maxModelBytes ∧
        (held.length < content.length ∨ ignores = true ∨ ignores' = true))) :=
  ⟨completed_iff_of_start h hserver,
    fun hheld => attempts_iff_of_not_start h hserver hserver' hheld rfl rfl⟩

end Resumption

/-! ### A complete partial file -/

section Sample

/-- A server with ranges, and one without. -/
def rangeServer (content : List UInt8) (ignores : Bool) (url : Url) (range : Option Nat) :
    Option Response :=
  match range, ignores with
  | none, _ | some _, true => some ⟨url, 200, [], some content.length, [some content]⟩
  | some start, false =>
      if start < content.length then
        some ⟨url, 206,
          [("content-range", some (String.ofList ("bytes ".toList ++ (toString start).toList ++
            '-' :: (toString (content.length - 1)).toList ++
            '/' :: (toString content.length).toList)))],
          some (content.length - start), [some (content.drop start)]⟩
      else some ⟨url, 416, [], some 0, []⟩

def sampleRequest : ModelDownloadRequest where
  platform := .huggingFace
  repository := "org/repo"
  branch := "main"
  remoteFile := "models/tiny.gguf"
  outputName := "tiny.gguf"
  modelsDirectory := sampleModels
  expectedSha256 := some (sampleTools.hexDigest (sampleShard 0))
  overrideBaseUrl := none

def samplePrepared : Prepared where
  target := ⟨["models", "tiny.gguf"]⟩
  leftover := ⟨["models", ".tiny.part.gguf"]⟩
  url := ⟨"https", some "huggingface.co",
    some ["org", "repo", "resolve", "main", "models", "tiny.gguf"]⟩
  existing := 0

theorem sampleRequest_correct :
    Correct sampleTools sampleRequest samplePrepared (sampleShard 0) := by
  refine ⟨?_, ⟨⟨.gguf, some ⟨0, 2⟩⟩, ?_⟩, ?_⟩
  · unfold Acceptable
    decide +kernel
  · decide +kernel
  · decide +kernel

theorem rangeServer_standard {url : Url} {content : List UInt8} (ignores : Bool)
    (hsecure : enforceTransport url = .ok ()) (hsmall : content.length < 2 ^ 64)
    (hslash : '/' ∉ (toString content.length).toList)
    (hparsed : AddressText.parseUnsigned (2 ^ 64) (toString content.length).toList =
      some content.length) :
    StandardServer url content ignores (rangeServer content ignores) := by
  have hwhole : Carries content ⟨url, 200, [], some content.length, [some content]⟩ 200 0 := by
    refine ⟨rfl, ⟨[content], rfl, List.append_nil _⟩, ?_⟩
    intro total htotal
    have hstated : responseTotal ⟨url, 200, [], some content.length, [some content]⟩ 0 =
        some content.length := by
      simp only [responseTotal, Response.header, List.lookup_nil, Option.join_none,
        Option.bind_none, Option.bind_some, Nat.zero_add, if_pos hsmall]
    exact Option.some.inj (htotal.symm.trans hstated)
  intro range
  cases range with
  | none =>
      refine ⟨_, rfl, hsecure, fun _ => hwhole, ?_, ?_⟩
      · rintro start ⟨⟩
      · rintro start ⟨⟩
  | some start =>
      cases ignores with
      | true =>
          refine ⟨_, rfl, hsecure, fun _ => hwhole, ?_, ?_⟩
          · rintro start - ⟨⟩
          · rintro start - ⟨⟩
      | false =>
          by_cases hlt : start < content.length
          · refine ⟨_, if_pos hlt, hsecure, ?_, ?_, ?_⟩
            · simp only [reduceCtorEq, Bool.false_eq_true, or_self, false_implies]
            · rintro _ ⟨⟩ - -
              refine ⟨rfl, ⟨[content.drop start], rfl, List.append_nil _⟩, ?_⟩
              intro total htotal
              simp only [responseTotal, Response.header, List.lookup_cons_self, Option.join_some,
                Option.bind_some, behindSlash, String.toList_ofList, rsplitOnce_append hslash,
                Option.map_some, Option.getD_some, hparsed] at htotal
              exact (Option.some.inj htotal).symm
            · rintro _ ⟨⟩ - hle
              omega
          · refine ⟨_, if_neg hlt, hsecure, ?_, ?_, fun _ _ _ _ => rfl⟩
            · simp only [reduceCtorEq, Bool.false_eq_true, or_self, false_implies]
            · rintro _ ⟨⟩ - hless
              exact absurd hless hlt

theorem sampleServer_standard (ignores : Bool) :
    StandardServer samplePrepared.url (sampleShard 0) ignores
      (rangeServer (sampleShard 0) ignores) := by
  refine rangeServer_standard ignores ?_ ?_ ?_ ?_
  · decide +kernel
  · decide +kernel
  · decide +kernel
  · decide +kernel

/-- The partial file is the whole file, and every call fails in the same way. -/
theorem downloadModel_gets_stuck :
    Correct sampleTools sampleRequest samplePrepared (sampleShard 0) ∧
      StandardServer samplePrepared.url (sampleShard 0) false (rangeServer (sampleShard 0) false) ∧
      sampleShard 0 <+: sampleShard 0 ∧
      downloadModel sampleTools 9 sampleRequest (rangeServer (sampleShard 0) false)
          ⟨some (.regular (sampleShard 0) 7), none⟩ =
        ⟨.error (.httpStatus 416), ⟨some (.regular (sampleShard 0) 7), none⟩, []⟩ ∧
      ¬ Completed 9 (sampleShard 0) (downloadModel sampleTools 9 sampleRequest
        (rangeServer (sampleShard 0) false) ⟨some (.regular (sampleShard 0) 7), none⟩) := by
  have hstuck : downloadModel sampleTools 9 sampleRequest (rangeServer (sampleShard 0) false)
      ⟨some (.regular (sampleShard 0) 7), none⟩ =
        ⟨.error (.httpStatus 416), ⟨some (.regular (sampleShard 0) 7), none⟩, []⟩ := by
    obtain ⟨response, hsend, hanswer⟩ :=
      sampleServer_standard false (some (sampleShard 0).length)
    exact download_beyond sampleRequest_correct.acceptable (by decide +kernel)
      (by decide +kernel) hanswer.secure hsend (hanswer.beyond _ rfl rfl le_rfl)
  refine ⟨sampleRequest_correct, sampleServer_standard false, List.prefix_rfl, hstuck, ?_⟩
  rw [hstuck]
  exact not_completed_of_error rfl

theorem downloadModel_completes_sample :
    (Completed 9 (sampleShard 0) (downloadModel sampleTools 9 sampleRequest
        (rangeServer (sampleShard 0) false) ⟨some (.regular ((sampleShard 0).take 100) 7), none⟩) ↔
      (sampleShard 0).take 100 = [] ∨ ((sampleShard 0).take 100).length < (sampleShard 0).length ∨
        false = true) :=
  (downloadModel_completes_iff 9 10 sampleRequest_correct (sampleServer_standard false)
    (sampleServer_standard false) ((sampleShard 0).take 100) 7).1 (List.take_prefix _ _)

end Sample

end MindOne.Downloads
