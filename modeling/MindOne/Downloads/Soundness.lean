import MindOne.Downloads.Resumption

/-!
# What a download may leave behind

Whatever the server answers, a call that returns a report leaves a validated target
with the digest of the report, a call that fails leaves no target, and the partial file
stays within the limit and one chunk. The digest is that of the caller, provided that
the caller's text is a digest at all: a text that is none is dropped, and the digest
that the server offers takes its place.
-/

namespace MindOne.Downloads

open CheckedArithmetic MindOne.Engine MindOne.Models MindOne.Stream MindOne.Regulated

/-- What a call leaves, against what was there before. -/
structure Sound (tools : ModelTools) (request : ModelDownloadRequest)
    (send : Url → Option Nat → Option Response) (before : Workspace) (outcome : Outcome) :
    Prop where
  /-- The target of a report is a model with its digest. -/
  validated : ∀ report, outcome.result = .ok report → ∃ content modified found,
    outcome.workspace.target = some (.regular content modified) ∧
      report.sha256 = tools.hexDigest content ∧
      inspect tools (request.modelsDirectory.join request.outputName) content = .ok found
  /-- The digest of the caller is never replaced. -/
  caller : ∀ report, outcome.result = .ok report →
    ∀ value ∈ request.expectedSha256, unmarked value = report.sha256.toList
  failed : ∀ error, outcome.result = .error error → before.target = none →
    outcome.workspace.target = none
  bounded : ∀ bound, (∀ url range response, send url range = some response →
    ∀ piece, some piece ∈ response.chunks → piece.length ≤ bound) →
    outcome.written.length ≤ maxModelBytes + bound

section Soundness
variable {tools : ModelTools} {now : Int} {request : ModelDownloadRequest}
  {send : Url → Option Nat → Option Response} {before : Workspace} {prepared : Prepared}
  {response : Response} {trusted : String} {resumed : Bool} {leftover : Option FileNode}
  {existing : Nat}

/-- A call that ends before the answer is accepted changes nothing. -/
theorem sound_of_refused {error : DownloadError} :
    Sound tools request send before ⟨.error error, before, []⟩ where
  validated _ h := by cases h
  caller _ h := by cases h
  failed _ _ h := h
  bounded _ _ := Nat.zero_le _

/-! ### The body -/

theorem length_openPartialFile (h : safePartialLength leftover = .ok existing)
    {content : List UInt8} (hopen : openPartialFile resumed leftover = .ok content) :
    (if resumed = true then existing else 0) = content.length ∧
      content.length ≤ maxModelBytes := by
  cases leftover with
  | none =>
      cases h
      cases hopen
      exact ⟨ite_self 0, Nat.zero_le _⟩
  | some node =>
      cases node with
      | directory => cases h
      | symlink => cases h
      | regular held modified =>
          simp only [safePartialLength] at h
          split_ifs at h with hlarge
          cases h
          cases hopen
          cases resumed with
          | true => exact ⟨rfl, Nat.not_lt.mp hlarge⟩
          | false => exact ⟨rfl, Nat.zero_le _⟩

/-- A stored body is a validated target, or there is none. -/
theorem store_result (hsame : lowerExtension prepared.leftover = lowerExtension prepared.target) :
    (∃ error, (store tools now prepared trusted resumed response ⟨leftover, none⟩).result =
        .error error ∧
      (store tools now prepared trusted resumed response ⟨leftover, none⟩).workspace.target =
        none) ∨
    (∃ report content,
      (store tools now prepared trusted resumed response ⟨leftover, none⟩).result = .ok report ∧
      (store tools now prepared trusted resumed response ⟨leftover, none⟩).workspace =
        ⟨none, some (.regular content now)⟩ ∧
      Trustworthy tools prepared.target trusted content ∧
      validateEntry tools now prepared.target (some (.regular content now)) trusted =
        .ok report) := by
  cases hopen : openPartialFile resumed leftover with
  | error error =>
      exact .inl ⟨error, by simp only [store, hopen], by simp only [store, hopen]⟩
  | ok content =>
      cases hreceive : receive response.chunks (if resumed = true then prepared.existing else 0)
          content with
      | mk result written =>
          cases result with
          | error error =>
              exact .inl ⟨error, by simp only [store, hopen, hreceive],
                by simp only [store, hopen, hreceive]⟩
          | ok u =>
              simp only [store, hopen, hreceive]
              rcases @publish_regular tools now written now trusted prepared hsame with
                ⟨htrust, report, hreport, hpublish⟩ | ⟨-, error, hpublish⟩
              · rw [hpublish]
                exact .inr ⟨report, written, rfl, rfl, htrust, hreport⟩
              · rw [hpublish]
                exact .inl ⟨error, rfl, rfl⟩

theorem length_written_le (hlength : safePartialLength leftover = .ok prepared.existing)
    {bound : Nat} (hbound : ∀ piece, some piece ∈ response.chunks → piece.length ≤ bound) :
    (store tools now prepared trusted resumed response ⟨leftover, none⟩).written.length ≤
      maxModelBytes + bound := by
  cases hopen : openPartialFile resumed leftover with
  | error error =>
      simp only [store, hopen, List.length_nil, Nat.zero_le]
  | ok content =>
      obtain ⟨hstart, hle⟩ := length_openPartialFile hlength hopen
      have hwritten := length_receive_le hbound hle
      cases hreceive : receive response.chunks content.length content with
      | mk result written =>
          rw [hreceive] at hwritten
          cases result with
          | error error =>
              simp only [store, hopen, hstart, hreceive]
              exact hwritten
          | ok u =>
              simp only [store, hopen, hstart, hreceive]
              exact hwritten

/-! ### One call -/

/-- A call is refused and changes nothing, or the body of an accepted answer is stored. -/
theorem downloadModel_cases :
    (∃ error, downloadModel tools now request send before = ⟨.error error, before, []⟩) ∨
    (∃ prepared response trusted, before.target = none ∧
      safePartialLength before.leftover = .ok prepared.existing ∧
      Acceptable request { prepared with existing := 0 } ∧
      send prepared.url (rangeStart prepared.existing) = some response ∧
      Accepted request prepared.existing response trusted ∧
      downloadModel tools now request send before = store tools now prepared trusted
        (continues prepared.existing response) response before) := by
  cases hprepare : prepare request before with
  | error error => exact .inl ⟨error, by simp only [downloadModel, hprepare]⟩
  | ok prepared =>
      obtain ⟨htarget, hlength, hacceptable⟩ := prepare_eq_ok.mp hprepare
      cases hsend : send prepared.url (rangeStart prepared.existing) with
      | none => exact .inl ⟨.http, by simp only [downloadModel, hprepare, hsend]⟩
      | some response =>
          cases haccept : acceptResponse request prepared.existing response with
          | error error =>
              exact .inl ⟨error, by simp only [downloadModel, hprepare, hsend, haccept]⟩
          | ok accepted =>
              obtain ⟨hresumed, haccepted⟩ := acceptResponse_eq_ok.mp haccept
              refine .inr ⟨prepared, response, accepted.1, htarget, hlength, hacceptable, hsend,
                haccepted, ?_⟩
              rw [← hresumed]
              simp only [downloadModel, hprepare, hsend, haccept]

/-- Only the digest of the caller can be missed. -/
theorem sound_of_caller (h : ∀ report,
    (downloadModel tools now request send before).result = .ok report →
      ∀ value ∈ request.expectedSha256, unmarked value = report.sha256.toList) :
    Sound tools request send before (downloadModel tools now request send before) := by
  rcases @downloadModel_cases tools now request send before with ⟨error, hrefused⟩ |
    ⟨prepared, response, trusted, htarget, hlength, hacceptable, hsend, -, hstore⟩
  · rw [hrefused]
    exact sound_of_refused
  obtain ⟨leftover, target⟩ := before
  cases htarget
  have hresult := @store_result tools now prepared response trusted
    (continues prepared.existing response) leftover hacceptable.lowerExtension
  refine ⟨?_, h, ?_, ?_⟩
  · intro report hreport
    rw [hstore] at hreport ⊢
    rcases hresult with ⟨error, herror, -⟩ | ⟨report', content, hok, hworkspace, htrust, hvalidated⟩
    · rw [hreport] at herror
      cases herror
    · obtain rfl : report = report' := Except.ok.inj (hreport.symm.trans hok)
      obtain ⟨found, hfound⟩ := htrust.structured
      refine ⟨content, now, found, congrArg Workspace.target hworkspace,
        (sha256_of_validateEntry hvalidated).1, ?_⟩
      rw [← hacceptable.target]
      exact hfound
  · intro error herror _
    rw [hstore] at herror ⊢
    rcases hresult with ⟨_, -, hnone⟩ | ⟨report', content, hok, -⟩
    · exact hnone
    · rw [hok] at herror
      cases herror
  · intro bound hbound
    rw [hstore]
    exact length_written_le hlength (hbound _ _ response hsend)

/-- What a report presupposes. -/
theorem reported_cases {report : ValidationReport}
    (h : (downloadModel tools now request send before).result = .ok report) :
    ∃ (prepared : Prepared) (response : Response) (trusted : String) (content : List UInt8)
      (modified : Int),
      Acceptable request { prepared with existing := 0 } ∧
      Accepted request prepared.existing response trusted ∧
      Trustworthy tools prepared.target trusted content ∧
      validateEntry tools now prepared.target (some (.regular content modified)) trusted =
        .ok report := by
  rcases @downloadModel_cases tools now request send before with ⟨error, hrefused⟩ |
    ⟨prepared, response, trusted, htarget, -, hacceptable, -, haccepted, hstore⟩
  · rw [hrefused] at h
    cases h
  obtain ⟨leftover, target⟩ := before
  cases htarget
  rw [hstore] at h
  rcases @store_result tools now prepared response trusted (continues prepared.existing response)
    leftover hacceptable.lowerExtension with ⟨error, herror, -⟩ |
    ⟨report', content, hok, -, htrust, hvalidated⟩
  · rw [h] at herror
    cases herror
  · obtain rfl : report = report' := Except.ok.inj (h.symm.trans hok)
    exact ⟨prepared, response, trusted, content, now, hacceptable, haccepted, htrust, hvalidated⟩

/-- A text of the caller that is a digest is the digest of the report. -/
theorem caller_of_formed
    (h : ∀ value ∈ request.expectedSha256, (normalizeSha256 value).isSome = true)
    {report : ValidationReport}
    (hreport : (downloadModel tools now request send before).result = .ok report) :
    ∀ value ∈ request.expectedSha256, unmarked value = report.sha256.toList := by
  intro value hvalue
  obtain ⟨prepared, response, trusted, content, modified, -, haccepted, -, hvalidated⟩ :=
    reported_cases hreport
  obtain ⟨digest, hdigest⟩ := Option.isSome_iff_exists.mp (h value hvalue)
  have hcaller : digest = trusted := by
    have htrusted := haccepted.digest
    rw [hvalue, Option.bind_some, hdigest, Option.some_or, Option.some.injEq] at htrusted
    exact htrusted
  have hsame := (sha256_of_validateEntry hvalidated).2
  rw [haccepted.trusted, Option.some.injEq] at hsame
  obtain ⟨hunmarked, -, -⟩ := normalizeSha256_eq_some.mp hdigest
  rw [← hsame, ← hcaller, hunmarked, String.toList_ofList]

/-! ### A text that is no digest -/

theorem trimMatches_of_never {p : Char → Bool} {value : List Char}
    (h : ∀ c ∈ value, p c = false) : trimMatches p value = value := by
  have hnever : ∀ l : List Char, (∀ c ∈ l, c ∈ value) → l.dropWhile p = l := by
    intro l hl
    cases l with
    | nil => rfl
    | cons c rest =>
        rw [List.dropWhile_cons_of_neg]
        rw [h c (hl c List.mem_cons_self)]
        exact Bool.false_ne_true
  rw [trimMatches, hnever value fun _ hc => hc,
    hnever value.reverse fun _ hc => List.mem_reverse.mp hc, List.reverse_reverse]

theorem unmarked_of_hex {value : String}
    (h : ∀ c ∈ value.toList, (c.isDigit || ('a' ≤ c && c ≤ 'f')) = true) :
    unmarked value = value.toList := by
  have hspace : trimMatches isWhitespace value.toList = value.toList :=
    trimMatches_of_never fun c hc => Bool.eq_false_iff.mpr (not_isWhitespace_of_hex (h c hc))
  have hweak : trimWeak value.toList = value.toList := by
    unfold trimWeak
    split
    · rename_i rest hvalue
      have hmark := h 'W' (hvalue ▸ List.mem_cons_self)
      exact absurd hmark (by decide)
    · rfl
  have hquote : trimMatches (· = '"') value.toList = value.toList := by
    refine trimMatches_of_never fun c hc => ?_
    rw [decide_eq_false_iff_not]
    rintro rfl
    exact absurd (h _ hc) (by decide)
  rw [unmarked, hspace, hweak, hquote]
  exact (List.map_congr_left fun c hc => toLower_of_hex (h c hc)).trans (List.map_id _)

theorem isHex_hexDigest (tools : ModelTools) (content : List UInt8) :
    (tools.hexDigest content).toList.length = 64 ∧
      ∀ c ∈ (tools.hexDigest content).toList, (c.isDigit || ('a' ≤ c && c ≤ 'f')) = true := by
  rw [ModelTools.hexDigest, String.toList_ofList]
  constructor
  · rw [length_hexEncode, (tools.sha256 content).length_toList]
  · exact List.all_eq_true.mp (hexEncode_lower _)

theorem normalizeSha256_hexDigest (tools : ModelTools) (content : List UInt8) :
    normalizeSha256 (tools.hexDigest content) = some (tools.hexDigest content) := by
  obtain ⟨hlength, hhex⟩ := isHex_hexDigest tools content
  have hsame := unmarked_of_hex hhex
  refine normalizeSha256_eq_some.mpr ⟨?_, ?_, ?_⟩
  · rw [hsame, String.ofList_toList]
  · rw [hsame, hlength]
  · rw [hsame]
    exact List.all_eq_true.mpr hhex

/-- A text without marks that equals a digest is a digest. -/
theorem formed_of_unmarked {value : String} {content : List UInt8}
    (h : unmarked value = (tools.hexDigest content).toList) :
    (normalizeSha256 value).isSome = true := by
  obtain ⟨hlength, hhex⟩ := isHex_hexDigest tools content
  refine Option.isSome_iff_exists.mpr ⟨_, normalizeSha256_eq_some.mpr ⟨rfl, ?_, ?_⟩⟩
  · rw [h, hlength]
  · rw [h]
    exact List.all_eq_true.mpr hhex

/-- The whole content under the digest that the server states. -/
def offering (tools : ModelTools) (content : List UInt8) (url : Url) (_ : Option Nat) :
    Option Response :=
  some ⟨url, 200, [("x-checksum-sha256", some (tools.hexDigest content))], none, [some content]⟩

/-- Without a digest of the caller, the server's own is trusted. -/
theorem download_offered {prepared : Prepared} (h : Acceptable request prepared)
    {content : List UInt8} (hvalid : ∃ found, inspect tools prepared.target content = .ok found)
    (hnone : request.expectedSha256.bind normalizeSha256 = none) :
    Completed now content
      (downloadModel tools now request (offering tools content) ⟨none, none⟩) := by
  let response : Response :=
    ⟨prepared.url, 200, [("x-checksum-sha256", some (tools.hexDigest content))], none,
      [some content]⟩
  have hunstated : ∀ start, responseTotal response start = none := fun _ => rfl
  have hcarries : Carries content response 200 0 := by
    refine ⟨rfl, ⟨[content], rfl, List.append_nil _⟩, ?_⟩
    intro total htotal
    rw [hunstated] at htotal
    cases htotal
  have hheaders : checksumFromHeaders response = some (tools.hexDigest content) := by
    have hheader : response.header "x-checksum-sha256" = some (tools.hexDigest content) := rfl
    have hfirst := normalizeSha256_hexDigest tools content
    simp only [checksumFromHeaders, List.findSome?_cons, hheader, Option.bind_some, hfirst,
      Option.some_or]
  have haccept : acceptResponse request 0 response = .ok (tools.hexDigest content, false) := by
    refine acceptResponse_eq_ok.mpr ⟨rfl, h.transport, .inl rfl, ?_, ?_⟩
    · rw [hnone, Option.none_or, hheaders]
    · intro total htotal
      rw [hunstated] at htotal
      cases htotal
  have houtcome : downloadModel tools now request (offering tools content) ⟨none, none⟩ =
      store tools now { prepared with existing := 0 } (tools.hexDigest content) false response
        ⟨none, none⟩ := by
    have hprepare := h.prepare (rfl : safePartialLength none = .ok 0)
    have hsend : offering tools content prepared.url (rangeStart 0) = some response := rfl
    simp only [downloadModel, hprepare, hsend, haccept]
  have hstored := @store_carried tools now request prepared content [] h hvalid response 200
    hcarries false 0 none rfl rfl (Nat.zero_le _) _ houtcome
  rcases hstored with ⟨-, hdone⟩ | ⟨hdiffers, -⟩
  · exact hdone
  · exact absurd rfl hdiffers

/-- The server's digest replaces a text of the caller that is none. -/
theorem unsound_of_malformed {prepared : Prepared} (h : Acceptable request prepared)
    {content : List UInt8} (hvalid : ∃ found, inspect tools prepared.target content = .ok found)
    {value : String} (hvalue : request.expectedSha256 = some value)
    (hmalformed : normalizeSha256 value = none) :
    ¬ Sound tools request (offering tools content) ⟨none, none⟩
      (downloadModel tools now request (offering tools content) ⟨none, none⟩) := by
  intro hsound
  have hnone : request.expectedSha256.bind normalizeSha256 = none := by
    rw [hvalue, Option.bind_some, hmalformed]
  obtain ⟨⟨report, hreport⟩, -⟩ := @download_offered tools now request prepared h content hvalid hnone
  obtain ⟨found, _, _, -, hdigest, -⟩ := hsound.validated report hreport
  have hcaller := hsound.caller report hreport value hvalue
  rw [hdigest] at hcaller
  have hformed := formed_of_unmarked hcaller
  rw [hmalformed] at hformed
  cases hformed

end Soundness

theorem Acceptable.withChecksum {request : ModelDownloadRequest} {prepared : Prepared}
    (h : Acceptable request prepared) (checksum : Option String) :
    Acceptable { request with expectedSha256 := checksum } prepared := h

def truncatedDigest : String := "b577cc3468ef89207c2f64c86497f30446bad93f4497c3b319c4f68e7946eee"

end MindOne.Downloads
