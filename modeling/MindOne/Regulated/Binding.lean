import MindOne.Regulated.E2ee
import Mathlib.Data.Nat.Pairing
import Mathlib.Data.Nat.Digits.Lemmas
import Mathlib.Data.Set.Function

/-!
# What the end-to-end encryption binds

In the symbolic reading of the cryptography the cipher opens exactly what was sealed,
digests and derived keys do not collide, and the agreement of two key pairs belongs to
these two pairs alone. A message then arrives unchanged, and a result that the consumer
accepts was sealed for its session, its route and the direction of results.
-/

namespace MindOne.Regulated

open CheckedArithmetic MindOne.Stream MindOne.Submission

/-- Two unordered pairs with the same members. -/
def SamePair {α : Type} (a b c d : α) : Prop := (a = c ∧ b = d) ∨ (a = d ∧ b = c)

instance {α : Type} [DecidableEq α] (a b c d : α) : Decidable (SamePair a b c d) :=
  inferInstanceAs (Decidable (_ ∨ _))

/-- The symbolic reading; `made` holds all calls of the cipher, whoever made them. -/
structure Symbolic (primitives : Primitives) (made : Set Sealing) : Prop where
  sha256_injective : Function.Injective primitives.sha256
  sha512_injective : Function.Injective primitives.sha512
  hkdf_injective : ∀ salt secret info salt' secret' info',
    primitives.hkdf salt secret info = primitives.hkdf salt' secret' info' →
      salt = salt' ∧ secret = secret' ∧ info = info'
  agreement_symmetric : ∀ a b, primitives.mulClamped (primitives.mulBaseClamped b) a =
    primitives.mulClamped (primitives.mulBaseClamped a) b
  agreement_distinct : ∀ a b c d, primitives.mulClamped (primitives.mulBaseClamped b) a =
      primitives.mulClamped (primitives.mulBaseClamped d) c →
    SamePair (primitives.mulBaseClamped a) (primitives.mulBaseClamped b)
      (primitives.mulBaseClamped c) (primitives.mulBaseClamped d)
  agreement_ne_zero : ∀ a b,
    primitives.mulClamped (primitives.mulBaseClamped b) a ≠ (Bytes.zero 32).toList
  length_ciphertext : ∀ sealed ∈ made,
    (sealed.ciphertext primitives).length = sealed.plaintext.length + 16
  open_iff : ∀ key nonce aad ciphertext plaintext,
    primitives.openInPlace key nonce aad ciphertext = some plaintext ↔
      ⟨key, nonce, aad, plaintext⟩ ∈ made ∧
        Sealing.ciphertext primitives ⟨key, nonce, aad, plaintext⟩ = ciphertext
  ciphertext_injOn : Set.InjOn (Sealing.ciphertext primitives) made

/-- What the associated data of a message names. -/
structure MessageContext where
  direction : EnvelopeDirection
  routeId : Uuid
  reportId : Uuid
  modelInstanceId : Uuid
  modelWeightsHash : String
  deriving DecidableEq

variable {primitives : Primitives} {made : Set Sealing}
  {fromEnvironment : AttestationProvider → Except ClientVerificationError ClientEvidenceVerifier}

def contextOf (direction : EnvelopeDirection)
    (route : VerifiedRegulatedRoute primitives fromEnvironment) : MessageContext where
  direction := direction
  routeId := route.response.routeId
  reportId := route.response.attestation.reportId
  modelInstanceId := route.response.modelInstanceId
  modelWeightsHash := route.response.attestation.modelWeightsHash

/-- A sealing between a private key and a peer, for one context. -/
structure SealedFor (primitives : Primitives) (sealed : Sealing) (privateKey peer : Bytes 32)
    (context : MessageContext) : Prop where
  aad : regulatedAad context.direction context.routeId context.reportId context.modelInstanceId
    context.modelWeightsHash = .ok sealed.aad
  key : deriveKey primitives privateKey peer sealed.aad = .ok sealed.key

section Derivation

theorem deriveKey_eq_ok {privateKey peer : Bytes 32} {aad key : List UInt8} :
    deriveKey primitives privateKey peer aad = .ok key ↔
      primitives.mulClamped peer privateKey ≠ (Bytes.zero 32).toList ∧
        primitives.hkdf (primitives.sha256 aad) (primitives.mulClamped peer privateKey)
          (utf8 "MindOne Regulated E2EE key v1\x00" ++ aad) = key := by
  simp only [deriveKey, bind_eq_ok, rejectIf_eq_ok, exists_const]
  exact and_congr_right fun _ => ⟨Except.ok.inj, congrArg Except.ok⟩

theorem routeAad_eq_ok {direction : EnvelopeDirection}
    {route : VerifiedRegulatedRoute primitives fromEnvironment} {aad : List UInt8} :
    routeAad direction route = .ok aad ↔
      regulatedAad direction route.response.routeId route.response.attestation.reportId
        route.response.modelInstanceId route.response.attestation.modelWeightsHash = .ok aad :=
  mapError_eq_ok

/-- What the program seals is sealed for the context of its arguments. -/
theorem sealedFor_of_sealing {rng : OsRng} {privateKey peer : Bytes 32}
    {direction : EnvelopeDirection} {route : VerifiedRegulatedRoute primitives fromEnvironment}
    {plaintext : List UInt8} {sealed : Sealing}
    (h : sealing rng privateKey peer direction route plaintext = .ok sealed) :
    SealedFor primitives sealed privateKey peer (contextOf direction route) := by
  simp only [sealing, bind_eq_ok, routeAad_eq_ok] at h
  obtain ⟨_, _, aad, haad, key, hkey, hresult⟩ := h
  cases hresult
  exact ⟨haad, hkey⟩

/-- A sealing determines its context and its two key pairs. -/
theorem SealedFor.unique (symbolic : Symbolic primitives made) {sealed : Sealing}
    {a b c d : Bytes 32} {context context' : MessageContext}
    (h : SealedFor primitives sealed a (primitives.mulBaseClamped b) context)
    (h' : SealedFor primitives sealed c (primitives.mulBaseClamped d) context') :
    context = context' ∧ SamePair (primitives.mulBaseClamped a) (primitives.mulBaseClamped b)
      (primitives.mulBaseClamped c) (primitives.mulBaseClamped d) := by
  obtain ⟨_, hkey⟩ := deriveKey_eq_ok.mp h.key
  obtain ⟨_, hkey'⟩ := deriveKey_eq_ok.mp h'.key
  obtain ⟨_, hsecret, _⟩ := symbolic.hkdf_injective _ _ _ _ _ _ (hkey.trans hkey'.symm)
  obtain ⟨hdirection, hroute, hreport, hinstance, hmodel⟩ := regulatedAad_injective h.aad h'.aad
  refine ⟨?_, symbolic.agreement_distinct a b c d hsecret⟩
  cases context
  cases context'
  simp only at hdirection hroute hreport hinstance hmodel
  rw [hdirection, hroute, hreport, hinstance, hmodel]

/-- Both sides derive one key. -/
theorem deriveKey_symmetric (symbolic : Symbolic primitives made) (a b : Bytes 32)
    (aad : List UInt8) :
    deriveKey primitives a (primitives.mulBaseClamped b) aad =
      deriveKey primitives b (primitives.mulBaseClamped a) aad := by
  simp only [deriveKey, symbolic.agreement_symmetric a b]

theorem exists_deriveKey (symbolic : Symbolic primitives made) (a b : Bytes 32)
    (aad : List UInt8) :
    ∃ key, deriveKey primitives a (primitives.mulBaseClamped b) aad = .ok key :=
  ⟨_, deriveKey_eq_ok.mpr ⟨symbolic.agreement_ne_zero a b, rfl⟩⟩

end Derivation

section Routes

/-- What the static checks of a report leave. -/
structure StaticFields (report : RegulatedRouteAttestation) : Prop where
  modelWeightsHash : ∃ bytes : List UInt8, bytes.length = 32 ∧
    hexEncode bytes = report.modelWeightsHash.toList
  ephemeralPublicKey : ∃ bytes : List UInt8, bytes.length = 32 ∧
    hexEncode bytes = report.ephemeralPublicKey.toList
  ephemeralPublicKey_ne_zero : report.ephemeralPublicKey.toList.all (· == '0') = false

theorem staticFields_of_validate {report : RegulatedRouteAttestation} {u : Unit}
    (h : report.validateStaticFields = .ok u) : StaticFields report := by
  simp only [RegulatedRouteAttestation.validateStaticFields, bind_eq_ok, forM_eq_ok,
    List.forall_mem_cons, rejectIf_eq_ok, exists_const, not_or, not_not, Bool.not_eq_false,
    Bool.not_eq_true] at h
  obtain ⟨⟨_, _, _, _, ⟨hmodelSize, hmodelHex⟩, ⟨hkeySize, hkeyHex⟩, _⟩, _, hnonzero⟩ := h
  rw [length_of_isLowerHex hmodelHex] at hmodelSize
  rw [length_of_isLowerHex hkeyHex] at hkeySize
  exact ⟨exists_hexEncode hmodelSize hmodelHex, exists_hexEncode hkeySize hkeyHex, hnonzero⟩

/-- What the check of a prepared route establishes at its instant. -/
structure Established (primitives : Primitives)
    (fromEnvironment : AttestationProvider → Except ClientVerificationError ClientEvidenceVerifier)
    (now : OffsetDateTime) (report : RegulatedRouteAttestation) : Prop where
  fields : StaticFields report
  reportData : ∃ nonce digest,
    attestationReportData primitives.sha512 (report.binding nonce) = .ok digest ∧
      hexEncode digest = report.reportData.toList
  confirmed : ∃ verifier, fromEnvironment report.provider = .ok verifier ∧
    Confirmed verifier (report.verificationInput now)

theorem established_of_check {now : OffsetDateTime} {response : PrepareRegulatedJobResponse}
    (h : checkPreparedRoute primitives fromEnvironment now response = .ok ()) :
    Established primitives fromEnvironment now response.attestation := by
  simp only [checkPreparedRoute, bind_eq_ok, rejectIf_eq_ok, mapError_eq_ok, exists_const,
    not_not] at h
  obtain ⟨_, _, hfields, _, _, _, _, nonce, _, digest, hdigest, hprinted, verifier, hverifier, _,
    hclaims, _⟩ := h
  exact ⟨staticFields_of_validate hfields, ⟨nonce, digest, hdigest, hprinted⟩, verifier, hverifier,
    confirmed_of_verify hclaims⟩

variable (route : VerifiedRegulatedRoute primitives fromEnvironment)

theorem VerifiedRegulatedRoute.fields : StaticFields route.response.attestation := by
  obtain ⟨_, hcheck⟩ := route.verified
  exact (established_of_check hcheck).fields

theorem exists_routeAad (direction : EnvelopeDirection) :
    ∃ aad, routeAad direction route = .ok aad := by
  obtain ⟨bytes, hlength, hprinted⟩ := route.fields.modelWeightsHash
  exact ⟨_, routeAad_eq_ok.mpr (regulatedAad_eq_ok.mpr ⟨bytes, hlength, hprinted, rfl⟩)⟩

end Routes

section Opening

/-- The accepted texts are the printed forms of keys other than zero. -/
theorem decodePublicKey_of_printed {value : String} {key : Bytes 32}
    (hprinted : hexEncode key.toList = value.toList) (hne : key ≠ Bytes.zero 32) :
    decodePublicKey value = .ok key := by
  simp only [decodePublicKey, bind_eq_ok, okOr_eq_ok, rejectIf_eq_ok, exists_const]
  exact ⟨key.toList, by rw [← hprinted, hexDecode_hexEncode], key, tryInto_eq_some.mpr rfl, hne,
    rfl⟩

variable {route : VerifiedRegulatedRoute primitives fromEnvironment}

/-- An attested key is the printed form of the key that it is read as. -/
theorem printed_of_decodePublicKey {report : RegulatedRouteAttestation} {key : Bytes 32}
    (fields : StaticFields report)
    (h : decodePublicKey report.ephemeralPublicKey = .ok key) :
    hexEncode key.toList = report.ephemeralPublicKey.toList ∧ key ≠ Bytes.zero 32 := by
  simp only [decodePublicKey, bind_eq_ok, okOr_eq_ok, rejectIf_eq_ok, exists_const] at h
  obtain ⟨decoded, hdecoded, array, harray, hne, hresult⟩ := h
  cases hresult
  obtain ⟨bytes, _, hprinted⟩ := fields.ephemeralPublicKey
  rw [← hprinted, hexDecode_hexEncode] at hdecoded
  cases hdecoded
  exact ⟨by rw [tryInto_eq_some.mp harray, hprinted], hne⟩

theorem openMessage_eq_ok {privateKey peer : Bytes 32} {direction : EnvelopeDirection}
    {envelope : RegulatedEnvelope} {plaintext : List UInt8} :
    openMessage privateKey peer direction route envelope = .ok plaintext ↔
      ∃ aad key nonce ciphertext, routeAad direction route = .ok aad ∧
        deriveKey primitives privateKey peer aad = .ok key ∧
        Base64.decode Base64.urlSafe envelope.nonce.toList = some (Bytes.toList (n := 12) nonce) ∧
        Base64.decode Base64.urlSafe envelope.ciphertext.toList = some ciphertext ∧
        primitives.openInPlace key nonce aad ciphertext = some plaintext := by
  simp only [openMessage, bind_eq_ok, okOr_eq_ok, tryInto_eq_some]
  constructor
  · rintro ⟨aad, haad, key, hkey, _, hnonce, nonce, rfl, ciphertext, hciphertext, hopen⟩
    exact ⟨aad, key, nonce, ciphertext, haad, hkey, hnonce, hciphertext, hopen⟩
  · rintro ⟨aad, key, nonce, ciphertext, haad, hkey, hnonce, hciphertext, hopen⟩
    exact ⟨aad, haad, key, hkey, _, hnonce, nonce, rfl, ciphertext, hciphertext, hopen⟩

/-- What is opened was sealed for the context of the route, between the two keys. -/
theorem sealedFor_of_openMessage (symbolic : Symbolic primitives made)
    {privateKey peer : Bytes 32} {direction : EnvelopeDirection} {envelope : RegulatedEnvelope}
    {plaintext : List UInt8}
    (h : openMessage privateKey peer direction route envelope = .ok plaintext) :
    ∃ sealed ∈ made, sealed.plaintext = plaintext ∧
      Base64.decode Base64.urlSafe envelope.ciphertext.toList =
        some (sealed.ciphertext primitives) ∧
      SealedFor primitives sealed privateKey peer (contextOf direction route) := by
  obtain ⟨aad, key, nonce, ciphertext, haad, hkey, _, hciphertext, hopen⟩ := openMessage_eq_ok.mp h
  obtain ⟨hmade, rfl⟩ := (symbolic.open_iff _ _ _ _ _).mp hopen
  exact ⟨_, hmade, rfl, hciphertext, routeAad_eq_ok.mp haad, hkey⟩

/-- What was sealed with one key of a pair of pairs is opened with the other. -/
theorem openMessage_of_sealing (symbolic : Symbolic primitives made) {rng : OsRng}
    {a b sender : Bytes 32} {direction : EnvelopeDirection} {plaintext : List UInt8}
    {sealed : Sealing}
    (h : sealing rng a (primitives.mulBaseClamped b) direction route plaintext = .ok sealed)
    (hmade : sealed ∈ made) :
    openMessage b (primitives.mulBaseClamped a) direction route
      (envelopeOf sender direction route sealed) = .ok plaintext := by
  simp only [sealing, bind_eq_ok] at h
  obtain ⟨_, _, aad, haad, key, hkey, hresult⟩ := h
  cases hresult
  refine openMessage_eq_ok.mpr ⟨aad, key, rng.nonce, _, haad, ?_, ?_, ?_,
    (symbolic.open_iff _ _ _ _ _).mpr ⟨hmade, rfl⟩⟩
  · rw [← deriveKey_symmetric symbolic a b, hkey]
  · rw [envelopeOf, String.toList_ofList, Base64.decode_encode]
  · rw [envelopeOf, String.toList_ofList, Base64.decode_encode]

end Opening

section Sealing

theorem all_zero_iff {n : Nat} {bytes : Bytes n} :
    bytes.toList.all (· == 0) = true ↔ bytes = Bytes.zero n := by
  obtain ⟨bytes, rfl⟩ := bytes
  simp only [Bytes.zero, Bytes.mk.injEq, List.eq_replicate_iff, List.all_eq_true, beq_iff_eq,
    true_and]

variable (route : VerifiedRegulatedRoute primitives fromEnvironment)

theorem exists_sealing (symbolic : Symbolic primitives made) (rng : OsRng) (a b : Bytes 32)
    (direction : EnvelopeDirection) {plaintext : List UInt8} (hpositive : 1 ≤ plaintext.length)
    (hbound : plaintext.length ≤ 899000) :
    ∃ sealed, sealing rng a (primitives.mulBaseClamped b) direction route plaintext =
        .ok sealed ∧ sealed.nonce = rng.nonce ∧ sealed.plaintext = plaintext := by
  obtain ⟨aad, haad⟩ := exists_routeAad route direction
  obtain ⟨key, hkey⟩ := exists_deriveKey symbolic a b aad
  refine ⟨⟨key, rng.nonce, aad, plaintext⟩, ?_, rfl, rfl⟩
  rw [sealing, rejectIf_of_not _ ?_, haad]
  · simp only [bind, Except.bind, hkey]
    rfl
  · rintro (rfl | h)
    · simp at hpositive
    · omega

theorem all_zero_of_hexEncode {bytes : List UInt8}
    (h : (hexEncode bytes).all (· == '0') = true) : bytes.all (· == 0) = true := by
  induction bytes with
  | nil => rfl
  | cons b rest ih =>
      have hsize := b.toNat_lt
      simp only [hexEncode_cons, List.all_cons, Bool.and_eq_true, beq_iff_eq] at h ⊢
      obtain ⟨hhigh, hlow, hrest⟩ := h
      have hhigh := hexDigit_injective (n := 0) (by omega) (by decide) hhigh
      have hlow := hexDigit_injective (n := 0) (by omega) (by decide) hlow
      exact ⟨UInt8.toNat_inj.mp (show b.toNat = 0 by omega), ih hrest⟩

theorem ofList_encode_ne_empty {bytes : List UInt8} (h : 1 ≤ bytes.length) :
    String.ofList (Base64.encode Base64.urlSafe bytes) ≠ "" := by
  intro hempty
  have hlength := congrArg (fun text => text.toList.length) hempty
  simp only [String.toList_ofList, Base64.length_encode, String.toList_empty,
    List.length_nil] at hlength
  omega

/-- The envelope of a sealing passes the checks of the protocol. -/
theorem validate_envelopeOf (direction : EnvelopeDirection)
    {sender : Bytes 32} {sealed : Sealing}
    (hlength : (sealed.ciphertext primitives).length = sealed.plaintext.length + 16)
    (hsender : sender ≠ Bytes.zero 32) (hnonce : sealed.nonce ≠ Bytes.zero 12)
    (hpositive : 1 ≤ sealed.plaintext.length) (hbound : sealed.plaintext.length ≤ 899000) :
    (envelopeOf sender direction route sealed).validate = .ok () := by
  have hkey : validateLowerHex "sender_public_key"
      (envelopeOf sender direction route sealed).senderPublicKey 32 = .ok () :=
    validateLowerHex_eq_ok.mpr ⟨sender.toList, sender.length_toList, String.toList_ofList.symm⟩
  have hnonceText : decodeBase64url "nonce" (envelopeOf sender direction route sealed).nonce 12 12 =
      .ok sealed.nonce.toList :=
    decodeBase64url_eq_ok.mpr ⟨ofList_encode_ne_empty (by rw [sealed.nonce.length_toList]; decide),
      String.toList_ofList.symm, sealed.nonce.length_toList.ge, sealed.nonce.length_toList.le⟩
  have hciphertext : decodeBase64url "ciphertext"
      (envelopeOf sender direction route sealed).ciphertext 17 900000 =
        .ok (sealed.ciphertext primitives) :=
    decodeBase64url_eq_ok.mpr ⟨ofList_encode_ne_empty (by omega), String.toList_ofList.symm,
      by omega, by omega⟩
  refine validate_of_parts rfl rfl hkey ?_ hnonceText ?_ hciphertext
  · refine Bool.eq_false_iff.mpr fun h => hsender (all_zero_iff.mp (all_zero_of_hexEncode ?_))
    rwa [envelopeOf, String.toList_ofList] at h
  · exact Bool.eq_false_iff.mpr fun h => hnonce (all_zero_iff.mp h)

end Sealing

section EndToEnd
variable {route : VerifiedRegulatedRoute primitives fromEnvironment}
  {session : RegulatedClientSession primitives} {holder : Bytes 32}

/-- The holder of the attested key opens a request with the key that its envelope names. -/
def openRequest (holder : Bytes 32) (route : VerifiedRegulatedRoute primitives fromEnvironment)
    (envelope : RegulatedEnvelope) : CliResult (List UInt8) := do
  let peer ← decodePublicKey envelope.senderPublicKey
  openMessage holder peer .request route envelope

/-- The holder of the attested key answers a session. -/
def sealResult (rng : OsRng) (holder peer : Bytes 32)
    (route : VerifiedRegulatedRoute primitives fromEnvironment) (plaintext : List UInt8) :
    CliResult RegulatedEnvelope :=
  sealMessage rng holder peer (primitives.mulBaseClamped holder) .result route plaintext

/-- What one session can rely on over one verified route. -/
structure EndToEnd (made : Set Sealing)
    (route : VerifiedRegulatedRoute primitives fromEnvironment)
    (session : RegulatedClientSession primitives) (holder : Bytes 32) : Prop where
  requestsArrive : ∀ rng plaintext, 1 ≤ plaintext.length → plaintext.length ≤ 899000 →
    ∃ sealed envelope,
      sealing rng session.privateKey (primitives.mulBaseClamped holder) .request route
        plaintext = .ok sealed ∧
      session.encryptRequest rng route plaintext = .ok envelope ∧
      (sealed ∈ made → openRequest holder route envelope = .ok plaintext)
  resultsArrive : ∀ rng plaintext, 1 ≤ plaintext.length → plaintext.length ≤ 899000 →
    ∃ sealed envelope,
      sealing rng holder session.publicKey .result route plaintext = .ok sealed ∧
      sealResult rng holder session.publicKey route plaintext = .ok envelope ∧
      (sealed ∈ made → session.decryptResult route envelope = .ok plaintext)
  resultsBound : ∀ envelope plaintext, session.decryptResult route envelope = .ok plaintext →
    ∃ sealed ∈ made, sealed.plaintext = plaintext ∧
      Base64.decode Base64.urlSafe envelope.ciphertext.toList =
        some (sealed.ciphertext primitives) ∧
      SealedFor primitives sealed session.privateKey (primitives.mulBaseClamped holder)
        (contextOf .result route)
  foreignRejected : ∀ sealed ∈ made, ∀ a b context,
    SealedFor primitives sealed a (primitives.mulBaseClamped b) context →
    (context ≠ contextOf .result route ∨ ¬ SamePair (primitives.mulBaseClamped a)
      (primitives.mulBaseClamped b) session.publicKey (primitives.mulBaseClamped holder)) →
    ∀ envelope plaintext, Base64.decode Base64.urlSafe envelope.ciphertext.toList =
        some (sealed.ciphertext primitives) →
      session.decryptResult route envelope ≠ .ok plaintext
  attested : ∃ nonce digest now verifier,
    attestationReportData primitives.sha512 (route.response.attestation.binding nonce) =
      .ok digest ∧
    hexEncode digest = route.response.attestation.reportData.toList ∧
    fromEnvironment route.response.attestation.provider = .ok verifier ∧
    Confirmed verifier (route.response.attestation.verificationInput now) ∧
    ∀ binding other, attestationReportData primitives.sha512 binding = .ok other →
      hexEncode other = route.response.attestation.reportData.toList →
      binding = route.response.attestation.binding nonce
  laterResponses : ∀ (envelopeFromStr : String → Option RegulatedEnvelope) {α : Type}
    (fromSlice : List UInt8 → Except String α) (resultCiphertext : Option String) (value : α),
    decodeRegulatedJobResult envelopeFromStr fromSlice resultCiphertext route session =
        .ok value →
      ∃ envelope plaintext, session.decryptResult route envelope = .ok plaintext ∧
        fromSlice plaintext = .ok value

theorem encryptRequest_arrives (symbolic : Symbolic primitives made)
    (hheld : decodePublicKey route.response.attestation.ephemeralPublicKey =
      .ok (primitives.mulBaseClamped holder)) (rng : OsRng) {plaintext : List UInt8}
    (hpositive : 1 ≤ plaintext.length) (hbound : plaintext.length ≤ 899000) :
    ∃ sealed envelope,
      sealing rng session.privateKey (primitives.mulBaseClamped holder) .request route
        plaintext = .ok sealed ∧
      session.encryptRequest rng route plaintext = .ok envelope ∧
      (sealed ∈ made → openRequest holder route envelope = .ok plaintext) := by
  obtain ⟨sealed, hsealed, -, -⟩ := exists_sealing route symbolic rng
    session.privateKey holder .request hpositive hbound
  refine ⟨sealed, envelopeOf session.publicKey .request route sealed, hsealed, ?_, ?_⟩
  · rw [RegulatedClientSession.encryptRequest, hheld]
    simp only [bind, Except.bind, sealMessage, hsealed]
    rfl
  · intro hmade
    have hsender : decodePublicKey
        (envelopeOf session.publicKey .request route sealed).senderPublicKey =
          .ok session.publicKey :=
      decodePublicKey_of_printed String.toList_ofList.symm session.publicKey_ne_zero
    rw [openRequest, hsender]
    simp only [bind, Except.bind]
    rw [session.publicKey_eq]
    exact openMessage_of_sealing symbolic hsealed hmade

/-- The consumer opens what passes the checks of the header. -/
theorem decryptResult_of_checks {envelope : RegulatedEnvelope} {peer : Bytes 32}
    (hvalid : envelope.validate = .ok ()) (hdirection : envelope.direction = .result)
    (hroute : envelope.routeId = route.response.routeId)
    (hreport : envelope.reportId = route.response.attestation.reportId)
    (hinstance : envelope.modelInstanceId = route.response.modelInstanceId)
    (hsender : envelope.senderPublicKey = route.response.attestation.ephemeralPublicKey)
    (hpeer : decodePublicKey route.response.attestation.ephemeralPublicKey = .ok peer) :
    session.decryptResult route envelope =
      openMessage session.privateKey peer .result route envelope := by
  rw [RegulatedClientSession.decryptResult, hvalid]
  simp only [bind, Except.bind, Except.mapError]
  rw [rejectIf_of_not, hsender, hpeer]
  rintro (h | h | h | h | h)
  · exact h hdirection
  · exact h hroute
  · exact h hreport
  · exact h hinstance
  · exact h hsender

theorem sealResult_arrives (symbolic : Symbolic primitives made)
    (hheld : decodePublicKey route.response.attestation.ephemeralPublicKey =
      .ok (primitives.mulBaseClamped holder)) (rng : OsRng) {plaintext : List UInt8}
    (hpositive : 1 ≤ plaintext.length) (hbound : plaintext.length ≤ 899000) :
    ∃ sealed envelope,
      sealing rng holder session.publicKey .result route plaintext = .ok sealed ∧
      sealResult rng holder session.publicKey route plaintext = .ok envelope ∧
      (sealed ∈ made → session.decryptResult route envelope = .ok plaintext) := by
  obtain ⟨sealed, hsealed, hnonce, hplaintext⟩ := exists_sealing route symbolic rng
    holder session.privateKey .result hpositive hbound
  rw [← session.publicKey_eq] at hsealed
  refine ⟨sealed, envelopeOf (primitives.mulBaseClamped holder) .result route sealed, hsealed, ?_,
    ?_⟩
  · simp only [sealResult, sealMessage, hsealed, bind, Except.bind]
    rfl
  · intro hmade
    obtain ⟨hprinted, hne⟩ := printed_of_decodePublicKey route.fields hheld
    have hsender : (envelopeOf (primitives.mulBaseClamped holder) .result route
        sealed).senderPublicKey = route.response.attestation.ephemeralPublicKey := by
      apply String.toList_injective
      rw [envelopeOf, String.toList_ofList, hprinted]
    have hvalid := validate_envelopeOf route .result (symbolic.length_ciphertext sealed hmade) hne
      (hnonce ▸ rng.nonce_ne_zero) (hplaintext ▸ hpositive) (hplaintext ▸ hbound)
    rw [decryptResult_of_checks hvalid rfl rfl rfl rfl hsender hheld]
    rw [session.publicKey_eq] at hsealed
    exact openMessage_of_sealing symbolic hsealed hmade

/-- The consumer opens an accepted result with the attested key. -/
theorem openMessage_of_decryptResult {envelope : RegulatedEnvelope} {plaintext : List UInt8}
    {peer : Bytes 32}
    (hpeer : decodePublicKey route.response.attestation.ephemeralPublicKey = .ok peer)
    (h : session.decryptResult route envelope = .ok plaintext) :
    openMessage session.privateKey peer .result route envelope = .ok plaintext := by
  simp only [RegulatedClientSession.decryptResult, bind_eq_ok, rejectIf_eq_ok, exists_const,
    not_or, not_not] at h
  obtain ⟨_, _, ⟨_, _, _, _, hsender⟩, key, hkey, hopen⟩ := h
  rw [hsender, hpeer] at hkey
  cases hkey
  exact hopen

theorem resultsBound_of_held (symbolic : Symbolic primitives made)
    (hheld : decodePublicKey route.response.attestation.ephemeralPublicKey =
      .ok (primitives.mulBaseClamped holder)) {envelope : RegulatedEnvelope}
    {plaintext : List UInt8} (h : session.decryptResult route envelope = .ok plaintext) :
    ∃ sealed ∈ made, sealed.plaintext = plaintext ∧
      Base64.decode Base64.urlSafe envelope.ciphertext.toList =
        some (sealed.ciphertext primitives) ∧
      SealedFor primitives sealed session.privateKey (primitives.mulBaseClamped holder)
        (contextOf .result route) :=
  sealedFor_of_openMessage symbolic (openMessage_of_decryptResult hheld h)

/-- Over a verified route requests and results arrive unchanged, and an accepted result was
sealed as a result of this route between this session and the attested key. -/
theorem regulated_end_to_end (symbolic : Symbolic primitives made)
    (hheld : decodePublicKey route.response.attestation.ephemeralPublicKey =
      .ok (primitives.mulBaseClamped holder)) : EndToEnd made route session holder := by
  constructor
  · intro rng plaintext hpositive hbound
    exact encryptRequest_arrives symbolic hheld rng hpositive hbound
  · intro rng plaintext hpositive hbound
    exact sealResult_arrives symbolic hheld rng hpositive hbound
  · intro envelope plaintext h
    exact resultsBound_of_held symbolic hheld h
  · intro sealed hmade a b context hsealed hforeign envelope plaintext hciphertext h
    obtain ⟨opened, hopened, _, hdecoded, hfor⟩ := resultsBound_of_held symbolic hheld h
    have hsame : sealed.ciphertext primitives = opened.ciphertext primitives :=
      Option.some.inj (hciphertext.symm.trans hdecoded)
    obtain rfl := symbolic.ciphertext_injOn hmade hopened hsame
    obtain ⟨hcontext, hpair⟩ := hsealed.unique symbolic hfor
    rcases hforeign with hother | hother
    · exact hother hcontext
    · exact hother (session.publicKey_eq ▸ hpair)
  · obtain ⟨now, hcheck⟩ := route.verified
    have established := established_of_check hcheck
    obtain ⟨nonce, digest, hdigest, hprinted⟩ := established.reportData
    obtain ⟨verifier, hverifier, hconfirmed⟩ := established.confirmed
    refine ⟨nonce, digest, now, verifier, hdigest, hprinted, hverifier, hconfirmed, ?_⟩
    intro binding other hother hsame
    have heq := hexEncode_injective (hsame.trans hprinted.symm)
    exact attestationReportData_injective symbolic.sha512_injective (heq ▸ hother) hdigest
  · intro envelopeFromStr α fromSlice resultCiphertext value h
    simp only [decodeRegulatedJobResult, bind_eq_ok, mapError_eq_ok] at h
    obtain ⟨_, _, envelope, _, plaintext, hopened, hvalue⟩ := h
    exact ⟨envelope, plaintext, hopened, hvalue⟩

end EndToEnd

section Sample

/-- A function with known values, which it takes nowhere else. -/
def patched {α : Type} [DecidableEq α] (known : List (α × List UInt8)) (other : α → List UInt8)
    (a : α) : List UInt8 :=
  (known.lookup a).getD (List.replicate 65 0 ++ other a)

theorem patched_injective {α : Type} [DecidableEq α] {known : List (α × List UInt8)}
    {other : α → List UInt8} (hknown : (known.map Prod.snd).Nodup)
    (hshort : ∀ entry ∈ known, entry.2.length ≤ 64) (hother : Function.Injective other) :
    Function.Injective (patched known other) := by
  have hmem : ∀ {a value}, known.lookup a = some value → (a, value) ∈ known := by
    intro a value h
    obtain ⟨front, back, rfl, _⟩ := List.lookup_eq_some_iff.mp h
    exact List.mem_append_right _ List.mem_cons_self
  intro a b h
  simp only [patched] at h
  cases ha : known.lookup a with
  | some x =>
      cases hb : known.lookup b with
      | some y =>
          rw [ha, hb] at h
          simp only [Option.getD_some] at h
          have := List.inj_on_of_nodup_map hknown (hmem ha) (hmem hb) h
          exact congrArg Prod.fst this
      | none =>
          have hlength := hshort _ (hmem ha)
          rw [ha, hb] at h
          simp only [Option.getD_some, Option.getD_none] at h
          simp only [h, List.length_append, List.length_replicate] at hlength
          omega
  | none =>
      cases hb : known.lookup b with
      | some y =>
          have hlength := hshort _ (hmem hb)
          rw [ha, hb] at h
          simp only [Option.getD_some, Option.getD_none] at h
          simp only [← h, List.length_append, List.length_replicate] at hlength
          omega
      | none =>
          rw [ha, hb] at h
          exact hother (List.append_cancel_left h)

def sampleScalar : Bytes 32 := ⟨List.replicate 32 7, by decide⟩

def samplePoint : Bytes 32 :=
  ⟨[19, 190, 79, 234, 234, 242, 4, 199, 253, 51, 88, 252, 156, 0, 114, 24, 129, 209, 116, 39, 129,
    40, 34, 126, 198, 116, 243, 127, 127, 233, 123, 109], by decide⟩

def sampleHolder : Bytes 32 := ⟨List.replicate 32 9, by decide⟩

def sampleAttested : Bytes 32 :=
  ⟨[87, 219, 75, 53, 159, 35, 174, 94, 20, 110, 78, 37, 18, 5, 103, 4, 114, 37, 6, 52, 140, 21, 12,
    20, 117, 61, 12, 147, 61, 4, 212, 33], by decide⟩

def sampleShared : List UInt8 :=
  [47, 254, 50, 91, 42, 38, 97, 27, 241, 145, 19, 37, 212, 166, 43, 51, 116, 155, 143, 53, 13, 14,
    136, 186, 145, 227, 22, 172, 170, 230, 101, 84]

def sampleKey : List UInt8 :=
  [207, 147, 14, 113, 147, 29, 43, 58, 129, 25, 60, 244, 51, 21, 58, 245, 69, 24, 121, 63, 0, 60,
    40, 19, 35, 4, 6, 14, 130, 6, 49, 131]

/-- The digest of the associated data of a result of the sample route. -/
def sampleSalt : List UInt8 :=
  [146, 112, 16, 121, 15, 174, 126, 233, 88, 108, 68, 255, 76, 91, 111, 152, 56, 119, 55, 247, 210,
    100, 212, 237, 41, 170, 230, 103, 254, 172, 181, 45]

def sampleAad : List UInt8 :=
  utf8 "MindOne Regulated E2EE AAD v1\x00" ++ ([2] ++ (uuidBytes (.fromU128 1) ++
    (uuidBytes (.fromU128 5) ++ (uuidBytes (.fromU128 3) ++ List.replicate 32 0x55))))

def sampleSealing : Sealing where
  key := sampleKey
  nonce := ⟨[1, 2, 3, 4, 5, 6, 7, 8, 9, 10, 11, 12], by decide⟩
  aad := sampleAad
  plaintext := utf8 "\x7b\"ok\":true\x7d"

def sampleCiphertext : List UInt8 :=
  [187, 34, 21, 176, 145, 177, 96, 100, 0, 60, 225, 142, 84, 138, 27, 96, 197, 218, 165, 198, 17,
    244, 120, 101, 1, 150, 220]

def sampleEvidenceDigest : List UInt8 :=
  [186, 120, 22, 191, 143, 1, 207, 234, 65, 65, 64, 222, 93, 174, 34, 35, 176, 3, 97, 163, 150, 23,
    122, 156, 180, 16, 255, 97, 242, 0, 21, 173]

def sampleReportMessage : List UInt8 :=
  utf8 "MindOne Attestation REPORTDATA v2\x00" ++ (uuidBytes (.fromU128 6) ++
    (uuidBytes (.fromU128 4) ++ (uuidBytes (.fromU128 3) ++ (beBytes 8 32 ++
    (List.replicate 32 7 ++ (List.replicate 32 0x33 ++ (List.replicate 32 0x44 ++
    (List.replicate 32 0x55 ++ (sampleAttested.toList ++ [2])))))))))

def sampleReportData : List UInt8 :=
  [192, 76, 57, 97, 24, 91, 205, 86, 155, 199, 91, 65, 201, 163, 126, 183, 138, 188, 75, 19, 116,
    160, 150, 137, 97, 73, 37, 39, 4, 203, 224, 135, 167, 192, 89, 253, 34, 228, 198, 244, 149, 178,
    204, 214, 52, 0, 232, 3, 93, 243, 29, 121, 206, 94, 241, 131, 163, 238, 157, 110, 106, 130, 252,
    70]

def samplePublic (scalar : Bytes 32) : Bytes 32 :=
  if scalar = sampleScalar then samplePoint
  else if scalar = sampleHolder then sampleAttested else scalar

def Bytes.number {n : Nat} (bytes : Bytes n) : Nat := Nat.ofDigits 256 (bytes.toList.map UInt8.toNat)

theorem Bytes.number_injective {n : Nat} : Function.Injective (Bytes.number (n := n)) := by
  rintro ⟨a, ha⟩ ⟨b, rfl⟩ h
  have hsmall : ∀ bytes : List UInt8, ∀ digit ∈ bytes.map UInt8.toNat, digit < 256 := by
    intro bytes digit hdigit
    obtain ⟨byte, _, rfl⟩ := List.mem_map.mp hdigit
    exact byte.toNat_lt
  have hmap := Nat.ofDigits_inj_of_len_eq (by decide) (by simp [ha]) (hsmall a) (hsmall b) h
  have htoNat : Function.Injective UInt8.toNat := fun _ _ => UInt8.toNat_inj.mp
  exact (Bytes.mk.injEq ..).mpr (List.map_injective_iff.mpr htoNat hmap)

/-- The known agreement, and elsewhere a secret that stands for the unordered pair. -/
def sampleAgreement (point scalar : Bytes 32) : List UInt8 :=
  if SamePair (samplePublic scalar) point samplePoint sampleAttested then sampleShared
  else List.replicate (65 + Nat.pair (min (samplePublic scalar).number point.number)
    (max (samplePublic scalar).number point.number)) 0

theorem SamePair.symm {α : Type} {a b c d : α} (h : SamePair a b c d) : SamePair c d a b := by
  rcases h with ⟨rfl, rfl⟩ | ⟨rfl, rfl⟩
  · exact .inl ⟨rfl, rfl⟩
  · exact .inr ⟨rfl, rfl⟩

theorem SamePair.trans {α : Type} {a b c d e f : α} (h : SamePair a b c d)
    (h' : SamePair c d e f) : SamePair a b e f := by
  rcases h with ⟨rfl, rfl⟩ | ⟨rfl, rfl⟩
  · exact h'
  · rcases h' with ⟨rfl, rfl⟩ | ⟨rfl, rfl⟩
    · exact .inr ⟨rfl, rfl⟩
    · exact .inl ⟨rfl, rfl⟩

theorem samePair_swap {α : Type} {a b c d : α} : SamePair a b c d ↔ SamePair b a c d := by
  simp only [SamePair, or_comm, and_comm]

theorem sampleAgreement_distinct {a b c d : Bytes 32}
    (h : sampleAgreement (samplePublic b) a = sampleAgreement (samplePublic d) c) :
    SamePair (samplePublic a) (samplePublic b) (samplePublic c) (samplePublic d) := by
  have hshared : sampleShared.length = 32 := by decide
  have hlength := congrArg List.length h
  simp only [sampleAgreement] at hlength
  split at hlength
  · rename_i hfirst
    split at hlength
    · rename_i hsecond
      exact hfirst.trans hsecond.symm
    · rw [List.length_replicate] at hlength
      omega
  · split at hlength
    · rw [List.length_replicate] at hlength
      omega
    · simp only [List.length_replicate, Nat.add_left_cancel_iff, Nat.pair_eq_pair] at hlength
      have hnumbers : ((samplePublic a).number = (samplePublic c).number ∧
          (samplePublic b).number = (samplePublic d).number) ∨
          ((samplePublic a).number = (samplePublic d).number ∧
            (samplePublic b).number = (samplePublic c).number) := by
        omega
      rcases hnumbers with ⟨h1, h2⟩ | ⟨h1, h2⟩
      · exact .inl ⟨Bytes.number_injective h1, Bytes.number_injective h2⟩
      · exact .inr ⟨Bytes.number_injective h1, Bytes.number_injective h2⟩

def samplePrimitives : Primitives where
  mulBaseClamped := samplePublic
  mulClamped := sampleAgreement
  sha256 := patched [(utf8 "abc", sampleEvidenceDigest), (sampleAad, sampleSalt)] id
  sha512 := patched [(sampleReportMessage, sampleReportData)] id
  hkdf salt secret info := patched
    [((sampleSalt, sampleShared, utf8 "MindOne Regulated E2EE key v1\x00" ++ sampleAad), sampleKey)]
    (fun (salt, secret, info) => canonicalFormat.fields [salt, secret, info]) (salt, secret, info)
  sealInPlaceAppendTag key nonce aad plaintext :=
    if (⟨key, nonce, aad, plaintext⟩ : Sealing) = sampleSealing then sampleCiphertext
    else plaintext ++ List.replicate 16 0
  openInPlace key nonce aad ciphertext :=
    if key = sampleSealing.key ∧ nonce = sampleSealing.nonce ∧ aad = sampleSealing.aad ∧
      ciphertext = sampleCiphertext then some sampleSealing.plaintext else none

theorem sampleSealing_ciphertext :
    sampleSealing.ciphertext samplePrimitives = sampleCiphertext := by
  simp [Sealing.ciphertext, samplePrimitives]

theorem symbolic_sample : Symbolic samplePrimitives {sampleSealing} := by
  constructor
  · exact patched_injective (by decide) (by decide) fun _ _ => id
  · exact patched_injective (by decide) (by decide) fun _ _ => id
  · intro salt secret info salt' secret' info' h
    have hfields : Function.Injective fun (values : List UInt8 × List UInt8 × List UInt8) =>
        canonicalFormat.fields [values.1, values.2.1, values.2.2] := by
      intro a b hab
      have hlists := canonicalFormat.fields_injective hab
      simp only [List.cons.injEq, and_true] at hlists
      exact Prod.ext hlists.1 (Prod.ext hlists.2.1 hlists.2.2)
    have hvalues := patched_injective (by decide) (by decide) hfields h
    simp only [Prod.mk.injEq] at hvalues
    exact hvalues
  · intro a b
    simp only [samplePrimitives, sampleAgreement, samePair_swap (a := samplePublic a), min_comm,
      max_comm]
  · intro a b c d h
    exact sampleAgreement_distinct h
  · intro a b h
    have hlength := congrArg List.length h
    simp only [samplePrimitives, sampleAgreement] at h hlength
    split at hlength
    · rename_i hknown
      rw [if_pos hknown] at h
      exact absurd h (by decide)
    · simp only [List.length_replicate, Bytes.length_toList] at hlength
      omega
  · rintro sealed rfl
    rw [sampleSealing_ciphertext]
    decide
  · intro key nonce aad ciphertext plaintext
    simp only [samplePrimitives, Sealing.ciphertext, Set.mem_singleton_iff]
    constructor
    · intro h
      split at h
      · rename_i hknown
        obtain ⟨rfl, rfl, rfl, rfl⟩ := hknown
        cases h
        exact ⟨rfl, if_pos rfl⟩
      · cases h
    · rintro ⟨hsealed, rfl⟩
      rw [if_pos hsealed]
      cases hsealed
      exact if_pos ⟨rfl, rfl, rfl, rfl⟩
  · rintro a rfl b rfl _
    rfl

def sampleInstant (seconds : Nat) : OffsetDateTime :=
  ⟨(seconds % 1000000 : Nat) * 1000000000, by omega, by omega⟩

def sampleReport : RegulatedRouteAttestation where
  reportId := .fromU128 5
  challengeId := .fromU128 6
  nodeId := .fromU128 4
  modelInstanceId := .fromU128 3
  provider := .intelTdx
  evidenceKind := .tdxQuote
  evidence := "YWJj"
  evidenceSha256 := String.ofList (hexEncode sampleEvidenceDigest)
  challengeNonce := String.ofList (Base64.encode Base64.urlSafe (List.replicate 32 7))
  reportData := String.ofList (hexEncode sampleReportData)
  teeMeasurement := String.ofList (List.replicate 96 '2')
  sandboxPolicyHash := String.ofList (List.replicate 64 '3')
  runtimeBinaryHash := String.ofList (List.replicate 64 '4')
  modelWeightsHash := String.ofList (List.replicate 64 '5')
  ephemeralPublicKey := String.ofList (hexEncode sampleAttested.toList)
  issuedAt := sampleInstant 1000
  verifiedAt := sampleInstant 1000
  expiresAt := sampleInstant 1120
  collateralExpiresAt := sampleInstant 1120

def sampleResponse : PrepareRegulatedJobResponse where
  routeId := .fromU128 1
  modelId := .fromU128 2
  modelInstanceId := .fromU128 3
  nodeId := .fromU128 4
  expiresAt := sampleInstant 1060
  idempotentReplay := false
  attestation := sampleReport

/-- An adapter that confirms the evidence of the sample report. -/
def sampleEnvironment (provider : AttestationProvider) :
    Except ClientVerificationError ClientEvidenceVerifier :=
  .ok {
    provider := provider
    program := fun input => .ok {
      schemaVersion := clientAdapterSchema
      verifierName := "test"
      provider := input.provider
      evidenceKind := input.evidenceKind
      verified := true
      reportData := input.expectedReportData
      teeMeasurement := sampleReport.teeMeasurement
      signatureVerified := true
      certificateChainVerified := true
      tcbCurrent := true
      collateralCurrent := true
      collateralExpiresAtUnix := 1120 }
    allowedPolicyHashes := [sampleReport.sandboxPolicyHash]
    allowedRuntimeHashes := [sampleReport.runtimeBinaryHash]
    allowedMeasurements := [sampleReport.teeMeasurement] }

theorem isSome_toOption {ε : Type} {x : Except ε Unit} (h : x.toOption.isSome = true) :
    x = .ok () := by
  cases x with
  | error e => cases h
  | ok u => rfl

def sampleRoute : VerifiedRegulatedRoute samplePrimitives sampleEnvironment where
  response := sampleResponse
  verified := ⟨sampleInstant 1001, isSome_toOption (by decide +kernel)⟩

def sampleSession : RegulatedClientSession samplePrimitives where
  privateKey := sampleScalar
  publicKey := samplePoint
  publicKey_eq := by decide +kernel
  publicKey_ne_zero := by decide

/-- The sample result is opened, and nothing else stands behind it. -/
theorem regulated_end_to_end_sample :
    (sampleSession.decryptResult sampleRoute
        (envelopeOf sampleAttested .result sampleRoute sampleSealing)).toOption =
      some (utf8 "\x7b\"ok\":true\x7d") ∧
      EndToEnd {sampleSealing} sampleRoute sampleSession sampleHolder :=
  ⟨by decide +kernel, regulated_end_to_end symbolic_sample
    (decodePublicKey_of_printed String.toList_ofList.symm (by decide))⟩

end Sample

end MindOne.Regulated
