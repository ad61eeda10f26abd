import MindOne.Regulated.Envelopes

/-!
# The byte encodings under the regulated messages

Hexadecimal texts, the associated data of an envelope and the message under a
REPORTDATA digest. Each of them determines what it was written from: the
fields have fixed lengths and stand in a fixed order.
-/

namespace MindOne.Regulated

open CheckedArithmetic MindOne.Stream

section Arrays

/-- `[u8; N]`. -/
structure Bytes (n : Nat) where
  toList : List UInt8
  length_toList : toList.length = n
  deriving DecidableEq

def Bytes.zero (n : Nat) : Bytes n := ⟨List.replicate n 0, List.length_replicate⟩

/-- `<[u8; N]>::try_from`. -/
def Bytes.tryInto (n : Nat) (bytes : List UInt8) : Option (Bytes n) :=
  if h : bytes.length = n then some ⟨bytes, h⟩ else none

theorem tryInto_eq_some {n : Nat} {bytes : List UInt8} {array : Bytes n} :
    Bytes.tryInto n bytes = some array ↔ array.toList = bytes := by
  obtain ⟨stored, hlength⟩ := array
  simp only [Bytes.tryInto]
  constructor
  · intro h
    split at h
    · cases h
      rfl
    · cases h
  · rintro rfl
    rw [dif_pos hlength]

end Arrays

section Hex

/-- `hex::encode`. -/
def hexEncode (bytes : List UInt8) : List Char :=
  bytes.flatMap fun b => [hexDigit (b.toNat / 16), hexDigit (b.toNat % 16)]

theorem hexEncode_cons (b : UInt8) (rest : List UInt8) :
    hexEncode (b :: rest) =
      hexDigit (b.toNat / 16) :: hexDigit (b.toNat % 16) :: hexEncode rest := rfl

def hexValue (c : Char) : Option Nat :=
  if '0' ≤ c ∧ c ≤ '9' then some (c.toNat - 48)
  else if 'a' ≤ c ∧ c ≤ 'f' then some (c.toNat - 87)
  else if 'A' ≤ c ∧ c ≤ 'F' then some (c.toNat - 55)
  else none

/-- `hex::decode`. -/
def hexDecode : List Char → Option (List UInt8)
  | [] => some []
  | [_] => none
  | a :: b :: rest => do
      let high ← hexValue a
      let low ← hexValue b
      let bytes ← hexDecode rest
      return UInt8.ofNat (high * 16 + low) :: bytes

theorem hexValue_hexDigit {n : Nat} (h : n < 16) : hexValue (hexDigit n) = some n :=
  (by decide : ∀ i : Fin 16, hexValue (hexDigit i) = some (i : Nat)) ⟨n, h⟩

theorem isLowerHex_hexDigit {n : Nat} (h : n < 16) : isLowerHex (hexDigit n) = true :=
  (by decide : ∀ i : Fin 16, isLowerHex (hexDigit i) = true) ⟨n, h⟩

/-- A lower-case digit is the digit of its value. -/
theorem hexDigit_of_isLowerHex {c : Char} (h : isLowerHex c = true) :
    ∃ n < 16, hexDigit n = c := by
  simp only [isLowerHex, Bool.or_eq_true, Bool.and_eq_true, decide_eq_true_eq] at h
  have hrange : (48 ≤ c.toNat ∧ c.toNat ≤ 57) ∨ (97 ≤ c.toNat ∧ c.toNat ≤ 102) := h
  have hdecimal : ∀ i : Fin 10, hexDigit i = Char.ofNat (48 + i) := by decide
  have hletter : ∀ i : Fin 6, hexDigit (10 + i) = Char.ofNat (97 + i) := by decide
  rcases hrange with ⟨hlow, hhigh⟩ | ⟨hlow, hhigh⟩
  · refine ⟨c.toNat - 48, by omega, ?_⟩
    have hdigit := hdecimal ⟨c.toNat - 48, by omega⟩
    simp only at hdigit
    rw [hdigit, show 48 + (c.toNat - 48) = c.toNat by omega, Char.ofNat_toNat]
  · refine ⟨10 + (c.toNat - 97), by omega, ?_⟩
    have hdigit := hletter ⟨c.toNat - 97, by omega⟩
    simp only at hdigit
    rw [hdigit, show 97 + (c.toNat - 97) = c.toNat by omega, Char.ofNat_toNat]

@[simp] theorem length_hexEncode (bytes : List UInt8) :
    (hexEncode bytes).length = 2 * bytes.length := by
  simp [hexEncode, List.length_flatMap, Nat.mul_comm]

theorem hexEncode_lower (bytes : List UInt8) : (hexEncode bytes).all isLowerHex = true := by
  refine List.all_eq_true.mpr fun c hc => ?_
  obtain ⟨b, _, hdigit⟩ := List.mem_flatMap.mp hc
  have hsize := b.toNat_lt
  simp only [List.mem_cons, List.not_mem_nil, or_false] at hdigit
  rcases hdigit with rfl | rfl
  · exact isLowerHex_hexDigit (by omega)
  · exact isLowerHex_hexDigit (by omega)

theorem hexDecode_hexEncode (bytes : List UInt8) : hexDecode (hexEncode bytes) = some bytes := by
  induction bytes with
  | nil => rfl
  | cons b rest ih =>
      have hsize := b.toNat_lt
      have hhigh : hexValue (hexDigit (b.toNat / 16)) = some (b.toNat / 16) :=
        hexValue_hexDigit (by omega)
      have hlow : hexValue (hexDigit (b.toNat % 16)) = some (b.toNat % 16) :=
        hexValue_hexDigit (by omega)
      have hbyte : UInt8.ofNat (b.toNat / 16 * 16 + b.toNat % 16) = b := by
        rw [Nat.div_add_mod', UInt8.ofNat_toNat]
      rw [hexEncode_cons]
      simp only [hexDecode, hhigh, hlow, ih, hbyte, bind, Option.bind, pure]

theorem hexEncode_injective : Function.Injective hexEncode := by
  intro a b h
  have hdecode := congrArg hexDecode h
  rw [hexDecode_hexEncode, hexDecode_hexEncode] at hdecode
  exact Option.some.inj hdecode

/-- A lower-case text of an even length is the printed form of bytes. -/
theorem exists_hexEncode {chars : List Char} {n : Nat} (hlength : chars.length = 2 * n)
    (hlower : chars.all isLowerHex = true) :
    ∃ bytes : List UInt8, bytes.length = n ∧ hexEncode bytes = chars := by
  induction n generalizing chars with
  | zero => exact ⟨[], rfl, (List.length_eq_zero_iff.mp hlength).symm⟩
  | succ n ih =>
      obtain _ | ⟨a, _ | ⟨b, rest⟩⟩ := chars
      · simp at hlength
      · simp at hlength; omega
      simp only [List.length_cons] at hlength
      simp only [List.all_cons, Bool.and_eq_true] at hlower
      obtain ⟨ha, hb, hrest⟩ := hlower
      obtain ⟨bytes, hbytes, rfl⟩ := ih (by omega) hrest
      obtain ⟨high, hhigh, rfl⟩ := hexDigit_of_isLowerHex ha
      obtain ⟨low, hlow, rfl⟩ := hexDigit_of_isLowerHex hb
      refine ⟨UInt8.ofNat (high * 16 + low) :: bytes, by simp [hbytes], ?_⟩
      have hbyte : (UInt8.ofNat (high * 16 + low)).toNat = high * 16 + low := by
        rw [UInt8.toNat_ofNat']
        omega
      have hdiv : (high * 16 + low) / 16 = high := by omega
      have hmod : (high * 16 + low) % 16 = low := by omega
      rw [hexEncode_cons, hbyte, hdiv, hmod]

theorem length_of_isLowerHex {text : String} (h : text.toList.all isLowerHex = true) :
    text.utf8ByteSize = text.toList.length :=
  utf8ByteSize_of_bare fun c hc => bare_lowerHex (List.all_eq_true.mp h c hc)

/-- The checked texts are the printed forms of so many bytes. -/
theorem validateLowerHex_eq_ok {field value : String} {decodedLen : Nat} {u : Unit} :
    validateLowerHex field value decodedLen = .ok u ↔
      ∃ bytes : List UInt8, bytes.length = decodedLen ∧ hexEncode bytes = value.toList := by
  simp only [validateLowerHex, rejectIf_eq_ok, not_or, not_not, Bool.not_eq_false]
  constructor
  · rintro ⟨hsize, hlower⟩
    rw [length_of_isLowerHex hlower] at hsize
    exact exists_hexEncode (by omega) hlower
  · rintro ⟨bytes, hlength, hprinted⟩
    have hlower : value.toList.all isLowerHex = true := hprinted ▸ hexEncode_lower bytes
    refine ⟨?_, hlower⟩
    rw [length_of_isLowerHex hlower, ← hprinted, length_hexEncode, hlength, Nat.mul_comm]

end Hex

/-- The last `width` bytes of a number, most significant first. -/
def beBytes : Nat → Nat → List UInt8
  | 0, _ => []
  | width + 1, n => beBytes width (n / 256) ++ [UInt8.ofNat (n % 256)]

@[simp] theorem length_beBytes (width n : Nat) : (beBytes width n).length = width := by
  induction width generalizing n with
  | zero => rfl
  | succ width ih => simp [beBytes, ih]

theorem beBytes_injective {width m n : Nat} (hm : m < 256 ^ width) (hn : n < 256 ^ width)
    (h : beBytes width m = beBytes width n) : m = n := by
  induction width generalizing m n with
  | zero => omega
  | succ width ih =>
      simp only [beBytes] at h
      obtain ⟨hrest, hlast⟩ := List.append_inj' h rfl
      have hhigh := ih (by omega) (by omega) hrest
      have hlow := congrArg UInt8.toNat (List.cons.inj hlast).1
      simp only [UInt8.toNat_ofNat'] at hlow
      omega

def uuidBytes (id : Uuid) : List UInt8 := beBytes 16 id.asU128.toNat

@[simp] theorem length_uuidBytes (id : Uuid) : (uuidBytes id).length = 16 := length_beBytes _ _

theorem uuidBytes_injective : Function.Injective uuidBytes := by
  rintro ⟨a⟩ ⟨b⟩ h
  have hvalue := @beBytes_injective 16 _ _ a.isLt b.isLt h
  exact congrArg Uuid.mk (BitVec.toNat_inj.mp hvalue)

section AssociatedData

def EnvelopeDirection.code : EnvelopeDirection → UInt8
  | .request => 1
  | .result => 2

theorem EnvelopeDirection.code_injective : Function.Injective EnvelopeDirection.code := by
  intro a b h
  cases a with
  | request => cases b with
    | request => rfl
    | result => exact absurd h (by decide)
  | result => cases b with
    | request => exact absurd h (by decide)
    | result => rfl

/-- The associated data, which both sides compute and neither sends. -/
def regulatedAad (direction : EnvelopeDirection) (routeId reportId modelInstanceId : Uuid)
    (modelWeightsHash : String) : Except ProtocolValidationError (List UInt8) := do
  validateLowerHex "model_weights_hash" modelWeightsHash 32
  let modelHash ← okOr ⟨"model_weights_hash", "模型哈希编码无效"⟩
    (hexDecode modelWeightsHash.toList)
  return utf8 "MindOne Regulated E2EE AAD v1\x00" ++ ([direction.code] ++ (uuidBytes routeId ++
    (uuidBytes reportId ++ (uuidBytes modelInstanceId ++ modelHash))))

variable {direction direction' : EnvelopeDirection}
  {routeId routeId' reportId reportId' modelInstanceId modelInstanceId' : Uuid}
  {modelWeightsHash modelWeightsHash' : String} {aad : List UInt8}

theorem regulatedAad_eq_ok :
    regulatedAad direction routeId reportId modelInstanceId modelWeightsHash = .ok aad ↔
      ∃ modelHash : List UInt8, modelHash.length = 32 ∧
        hexEncode modelHash = modelWeightsHash.toList ∧
        utf8 "MindOne Regulated E2EE AAD v1\x00" ++ ([direction.code] ++ (uuidBytes routeId ++
          (uuidBytes reportId ++ (uuidBytes modelInstanceId ++ modelHash)))) = aad := by
  simp only [regulatedAad, bind_eq_ok, validateLowerHex_eq_ok, okOr_eq_ok]
  constructor
  · rintro ⟨_, ⟨modelHash, hlength, hprinted⟩, decoded, hdecoded, hresult⟩
    rw [← hprinted, hexDecode_hexEncode] at hdecoded
    cases hdecoded
    exact ⟨modelHash, hlength, hprinted, Except.ok.inj hresult⟩
  · rintro ⟨modelHash, hlength, hprinted, rfl⟩
    exact ⟨(), ⟨modelHash, hlength, hprinted⟩, modelHash,
      by rw [← hprinted, hexDecode_hexEncode], rfl⟩

/-- Every bound value can be read off the associated data. -/
theorem regulatedAad_injective
    (h : regulatedAad direction routeId reportId modelInstanceId modelWeightsHash = .ok aad)
    (h' : regulatedAad direction' routeId' reportId' modelInstanceId' modelWeightsHash' =
      .ok aad) :
    direction = direction' ∧ routeId = routeId' ∧ reportId = reportId' ∧
      modelInstanceId = modelInstanceId' ∧ modelWeightsHash = modelWeightsHash' := by
  obtain ⟨modelHash, _, hprinted, haad⟩ := regulatedAad_eq_ok.mp h
  obtain ⟨modelHash', _, hprinted', haad'⟩ := regulatedAad_eq_ok.mp h'
  have hfields := List.append_cancel_left (haad.trans haad'.symm)
  obtain ⟨hdirection, hfields⟩ := List.append_inj hfields rfl
  obtain ⟨hroute, hfields⟩ := List.append_inj hfields (by simp)
  obtain ⟨hreport, hfields⟩ := List.append_inj hfields (by simp)
  obtain ⟨hinstance, hmodel⟩ := List.append_inj hfields (by simp)
  refine ⟨EnvelopeDirection.code_injective (List.cons.inj hdirection).1,
    uuidBytes_injective hroute, uuidBytes_injective hreport, uuidBytes_injective hinstance, ?_⟩
  apply String.toList_injective
  rw [← hprinted, ← hprinted', hmodel]

end AssociatedData

section ReportData

inductive AttestationKeyOrigin where
  | controlSoftware | teeRuntime
  deriving DecidableEq, Repr

def AttestationKeyOrigin.code : AttestationKeyOrigin → UInt8
  | .controlSoftware => 1
  | .teeRuntime => 2

theorem AttestationKeyOrigin.code_injective : Function.Injective AttestationKeyOrigin.code := by
  intro a b h
  cases a with
  | controlSoftware => cases b with
    | controlSoftware => rfl
    | teeRuntime => exact absurd h (by decide)
  | teeRuntime => cases b with
    | controlSoftware => exact absurd h (by decide)
    | teeRuntime => rfl

@[ext] structure AttestationReportBinding where
  challengeId : Uuid
  nodeId : Uuid
  modelInstanceId : Uuid
  nonce : List UInt8
  sandboxPolicyHash : String
  runtimeBinaryHash : String
  modelWeightsHash : String
  ephemeralPublicKey : String
  keyOrigin : AttestationKeyOrigin

def validateSha256 (field value : String) : Except ProtocolValidationError Unit :=
  rejectIf (value.utf8ByteSize ≠ 64 ∨ value.toList.all isLowerHex = false)
    ⟨field, "必须是 64 位小写 SHA-256"⟩

def decodeFixedHex (field value : String) (decodedLen : Nat) :
    Except ProtocolValidationError (List UInt8) := do
  validateLowerHex field value decodedLen
  okOr ⟨field, "十六进制编码无效"⟩ (hexDecode value.toList)

theorem decodeFixedHex_eq_ok {field value : String} {decodedLen : Nat} {bytes : List UInt8} :
    decodeFixedHex field value decodedLen = .ok bytes ↔
      bytes.length = decodedLen ∧ hexEncode bytes = value.toList := by
  simp only [decodeFixedHex, bind_eq_ok, validateLowerHex_eq_ok, okOr_eq_ok]
  constructor
  · rintro ⟨_, ⟨decoded, hlength, hprinted⟩, hdecoded⟩
    rw [← hprinted, hexDecode_hexEncode] at hdecoded
    cases hdecoded
    exact ⟨hlength, hprinted⟩
  · rintro ⟨hlength, hprinted⟩
    exact ⟨(), ⟨bytes, hlength, hprinted⟩, by rw [← hprinted, hexDecode_hexEncode]⟩

/-- The digest in the REPORTDATA of the hardware evidence. -/
def attestationReportData (sha512 : List UInt8 → List UInt8)
    (binding : AttestationReportBinding) : Except ProtocolValidationError (List UInt8) := do
  rejectIf (binding.nonce.length ≠ 32) ⟨"nonce", "远程证明 nonce 必须正好为 32 字节"⟩
  validateSha256 "sandbox_policy_hash" binding.sandboxPolicyHash
  validateSha256 "runtime_binary_hash" binding.runtimeBinaryHash
  validateSha256 "model_weights_hash" binding.modelWeightsHash
  validateLowerHex "ephemeral_public_key" binding.ephemeralPublicKey 32
  let policy ← decodeFixedHex "sandbox_policy_hash" binding.sandboxPolicyHash 32
  let runtime ← decodeFixedHex "runtime_binary_hash" binding.runtimeBinaryHash 32
  let model ← decodeFixedHex "model_weights_hash" binding.modelWeightsHash 32
  let publicKey ← decodeFixedHex "ephemeral_public_key" binding.ephemeralPublicKey 32
  return sha512 (utf8 "MindOne Attestation REPORTDATA v2\x00" ++ (uuidBytes binding.challengeId ++
    (uuidBytes binding.nodeId ++ (uuidBytes binding.modelInstanceId ++
    (beBytes 8 binding.nonce.length ++ (binding.nonce ++ (policy ++ (runtime ++ (model ++
    (publicKey ++ [binding.keyOrigin.code]))))))))))

/-- Every attested value can be read off the digest, where digests do not collide. -/
theorem attestationReportData_injective {sha512 : List UInt8 → List UInt8}
    (hsha : Function.Injective sha512) {a b : AttestationReportBinding} {digest : List UInt8}
    (ha : attestationReportData sha512 a = .ok digest)
    (hb : attestationReportData sha512 b = .ok digest) : a = b := by
  simp only [attestationReportData, bind_eq_ok, rejectIf_eq_ok, exists_const, not_not,
    decodeFixedHex_eq_ok] at ha hb
  obtain ⟨hnonce, _, _, _, _, _, _, _, _, policy, ⟨hpolicy, hpolicyText⟩, runtime,
    ⟨hruntime, hruntimeText⟩, model, ⟨hmodel, hmodelText⟩, publicKey,
    ⟨hpublicKey, hpublicKeyText⟩, hdigest⟩ := ha
  obtain ⟨hnonce', _, _, _, _, _, _, _, _, policy', ⟨hpolicy', hpolicyText'⟩, runtime',
    ⟨hruntime', hruntimeText'⟩, model', ⟨hmodel', hmodelText'⟩, publicKey',
    ⟨hpublicKey', hpublicKeyText'⟩, hdigest'⟩ := hb
  have hmessage := hsha ((Except.ok.inj hdigest).trans (Except.ok.inj hdigest').symm)
  have hfields := List.append_cancel_left hmessage
  obtain ⟨hchallengeId, hfields⟩ := List.append_inj hfields (by simp)
  obtain ⟨hnodeId, hfields⟩ := List.append_inj hfields (by simp)
  obtain ⟨hinstanceId, hfields⟩ := List.append_inj hfields (by simp)
  obtain ⟨_, hfields⟩ := List.append_inj hfields (by simp)
  obtain ⟨hnonceBytes, hfields⟩ := List.append_inj hfields (hnonce.trans hnonce'.symm)
  obtain ⟨hpolicyBytes, hfields⟩ := List.append_inj hfields (hpolicy.trans hpolicy'.symm)
  obtain ⟨hruntimeBytes, hfields⟩ := List.append_inj hfields (hruntime.trans hruntime'.symm)
  obtain ⟨hmodelBytes, hfields⟩ := List.append_inj hfields (hmodel.trans hmodel'.symm)
  obtain ⟨hpublicKeyBytes, horigin⟩ := List.append_inj hfields (hpublicKey.trans hpublicKey'.symm)
  apply AttestationReportBinding.ext
  · exact uuidBytes_injective hchallengeId
  · exact uuidBytes_injective hnodeId
  · exact uuidBytes_injective hinstanceId
  · exact hnonceBytes
  · exact String.toList_injective (hpolicyText.symm.trans (hpolicyBytes ▸ hpolicyText'))
  · exact String.toList_injective (hruntimeText.symm.trans (hruntimeBytes ▸ hruntimeText'))
  · exact String.toList_injective (hmodelText.symm.trans (hmodelBytes ▸ hmodelText'))
  · exact String.toList_injective (hpublicKeyText.symm.trans (hpublicKeyBytes ▸ hpublicKeyText'))
  · exact AttestationKeyOrigin.code_injective (List.cons.inj horigin).1

end ReportData

end MindOne.Regulated
