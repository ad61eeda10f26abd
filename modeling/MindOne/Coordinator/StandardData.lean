import MindOne.Coordinator.Requests
import MindOne.Regulated.Encodings

/-!
# Standard data at rest

Payloads and results of standard jobs are stored as versioned envelopes of an
authenticated cipher, bound to the job and to the direction. Rows from before carry their
plain texts and an unkeyed fingerprint; the migration rewrites them in one transaction,
batch by batch, until none is left.
-/

namespace MindOne.Coordinator

open CheckedArithmetic KeyedTable MindOne.Stream
open MindOne.Regulated (Bytes hexEncode hexDecode uuidBytes isLowerHex)

/-- What follows a marker at the start of a text. -/
def stripMarker : List Char → List Char → Option (List Char)
  | [], text => some text
  | _ :: _, [] => none
  | a :: marker, b :: text => if a = b then stripMarker marker text else none

theorem stripMarker_eq_some {marker text rest : List Char} :
    stripMarker marker text = some rest ↔ text = marker ++ rest := by
  induction marker generalizing text with
  | nil => simp [stripMarker]
  | cons a marker ih =>
      cases text with
      | nil => simp [stripMarker]
      | cons b text =>
          by_cases h : a = b
          · subst h
            simp [stripMarker, ih]
          · simp [stripMarker, h, Ne.symm h]

/-- `starts_with`, and `LIKE` with a pattern that ends in the only wildcard. -/
def startsWith (marker text : String) : Bool := (stripMarker marker.toList text.toList).isSome

theorem startsWith_append (marker rest : String) : startsWith marker (marker ++ rest) = true := by
  rw [startsWith, String.toList_append, stripMarker_eq_some.mpr rfl]
  rfl

def envelopeMarker : String := "mindone-standard-aead-v1:"

def fingerprintMarker : String := "mindone-standard-hmac-v1:"

def storageVersion : Int := 1

def maxStoredValueBytes : Nat := 1300000

def migrationBatchSize : Nat := 100

/-- `StandardDataError` carries nothing. -/
inductive StandardDataError where
  | mk
  deriving DecidableEq, Repr

inductive StandardDataMigrationError where
  | database | protection
  deriving DecidableEq, Repr

/-- The functions of the cryptographic library. -/
structure StoragePrimitives where
  /-- HKDF-SHA256 with a salt, a secret and an info, to 32 bytes. -/
  hkdf : (salt secret info : List UInt8) → Bytes 32
  hmac : (key : Bytes 32) → (message : List UInt8) → Bytes 32
  sealInPlaceSeparateTag : (key : Bytes 32) → (nonce : Bytes 12) → (aad plaintext : List UInt8) →
    List UInt8 × Bytes 16
  openInPlace : (key : Bytes 32) → (nonce : Bytes 12) → (aad sealed : List UInt8) →
    Option (List UInt8)

/-- What was sealed is opened again, under the same key, nonce and associated data. -/
structure StoragePrimitives.Lawful (primitives : StoragePrimitives) : Prop where
  length_sealed : ∀ key nonce aad plaintext,
    (primitives.sealInPlaceSeparateTag key nonce aad plaintext).1.length = plaintext.length
  open_sealed : ∀ key nonce aad plaintext,
    primitives.openInPlace key nonce aad
      ((primitives.sealInPlaceSeparateTag key nonce aad plaintext).1 ++
        (primitives.sealInPlaceSeparateTag key nonce aad plaintext).2.toList) = some plaintext

section Cipher
variable (primitives : StoragePrimitives)

def deriveSubkey (masterKey : Bytes 32) (purpose : String) : Bytes 32 :=
  primitives.hkdf (utf8 "MindOne Standard data at-rest HKDF salt v1") masterKey.toList
    (utf8 purpose)

def encryptionKeyInfo : String := "MindOne Standard AEAD encryption key v1"

def fingerprintKeyInfo : String := "MindOne Standard fingerprint HMAC key v1"

def commitmentKeyInfo : String := "MindOne Standard key commitment key v1"

def keyCommitment (masterKey : Bytes 32) : Bytes 32 :=
  primitives.hmac (deriveSubkey primitives masterKey commitmentKeyInfo)
    (utf8 "MindOne Standard database key commitment v1")

def StorageDirection.label : StorageDirection → String
  | .payload => "payload"
  | .result => "result"

def storageAad (jobId : Uuid) (direction : StorageDirection) : List UInt8 :=
  utf8 "MindOne Standard database AEAD v1\x00" ++ uuidBytes jobId ++ [0] ++ utf8 direction.label

/-- A draw of the system's generator is empty where it fails. -/
def encryptForStorage (draw : Option (Bytes 12)) (key : Bytes 32) (jobId : Uuid)
    (direction : StorageDirection) (plaintext : List UInt8) : Except StandardDataError String := do
  rejectIf (plaintext = [] ∨ maxStoredValueBytes < plaintext.length) .mk
  let nonce ← okOr .mk draw
  let sealed := primitives.sealInPlaceSeparateTag (deriveSubkey primitives key encryptionKeyInfo)
    nonce (storageAad jobId direction) plaintext
  return envelopeMarker ++ String.ofList
    (Base64.encode Base64.urlSafe (nonce.toList ++ (sealed.1 ++ sealed.2.toList)))

def decryptFromStorage (key : Bytes 32) (jobId : Uuid) (direction : StorageDirection)
    (envelope : String) : Except StandardDataError (List UInt8) := do
  let encoded ← okOr .mk (stripMarker envelopeMarker.toList envelope.toList)
  rejectIf (encoded = [] ∨ maxStoredValueBytes * 2 < (String.ofList encoded).utf8ByteSize) .mk
  let sealed ← okOr .mk (Base64.decode Base64.urlSafe encoded)
  rejectIf (sealed.length ≤ 12 + 16) .mk
  let nonce ← okOr .mk (Bytes.tryInto 12 (sealed.take 12))
  okOr .mk (primitives.openInPlace (deriveSubkey primitives key encryptionKeyInfo) nonce
    (storageAad jobId direction) (sealed.drop 12))

def fingerprintFromLegacyDigest (key : Bytes 32) (legacyDigest : Bytes 32) : String :=
  fingerprintMarker ++ String.ofList (hexEncode (primitives.hmac
    (deriveSubkey primitives key fingerprintKeyInfo)
    (utf8 "MindOne Standard request fingerprint storage v1\x00" ++ legacyDigest.toList)).toList)

def validLowerHex (value : List Char) (expectedLength : Nat) : Bool :=
  value.length == expectedLength && value.all isLowerHex

variable {primitives}

theorem startsWith_encryptForStorage {draw : Option (Bytes 12)} {key : Bytes 32} {jobId : Uuid}
    {direction : StorageDirection} {plaintext : List UInt8} {stored : String}
    (h : encryptForStorage primitives draw key jobId direction plaintext = .ok stored) :
    startsWith envelopeMarker stored = true := by
  simp only [encryptForStorage, bind_eq_ok] at h
  obtain ⟨_, _, _, _, hresult⟩ := h
  cases hresult
  exact startsWith_append _ _

/-- A stored text is read back as what was stored. -/
theorem decryptFromStorage_encryptForStorage (lawful : primitives.Lawful)
    {draw : Option (Bytes 12)} {key : Bytes 32} {jobId : Uuid} {direction : StorageDirection}
    {plaintext : List UInt8} {stored : String}
    (h : encryptForStorage primitives draw key jobId direction plaintext = .ok stored) :
    decryptFromStorage primitives key jobId direction stored = .ok plaintext := by
  simp only [encryptForStorage, bind_eq_ok, rejectIf_eq_ok, okOr_eq_ok, exists_const, not_or] at h
  obtain ⟨⟨hnonempty, hbound⟩, nonce, _, hresult⟩ := h
  cases hresult
  have hlength := lawful.length_sealed (deriveSubkey primitives key encryptionKeyInfo) nonce
    (storageAad jobId direction) plaintext
  have hopen := lawful.open_sealed (deriveSubkey primitives key encryptionKeyInfo) nonce
    (storageAad jobId direction) plaintext
  generalize primitives.sealInPlaceSeparateTag _ nonce _ plaintext = sealed at hlength hopen ⊢
  have hpositive := List.length_pos_of_ne_nil hnonempty
  have htotal : (nonce.toList ++ (sealed.1 ++ sealed.2.toList)).length = plaintext.length + 28 := by
    rw [List.length_append, List.length_append, nonce.length_toList, sealed.2.length_toList,
      hlength]
    omega
  have hsize : (String.ofList (Base64.encode Base64.urlSafe
      (nonce.toList ++ (sealed.1 ++ sealed.2.toList)))).utf8ByteSize =
        ((plaintext.length + 28) * 4 + 2) / 3 := by
    rw [Regulated.utf8ByteSize_of_bare (Regulated.bare_encode String.toList_ofList.symm),
      String.toList_ofList, Base64.length_encode, htotal]
  have hencoded : Base64.encode Base64.urlSafe (nonce.toList ++ (sealed.1 ++ sealed.2.toList)) ≠
      [] := by
    intro hempty
    have hzero := congrArg List.length hempty
    rw [Base64.length_encode, htotal] at hzero
    simp only [List.length_nil] at hzero
    omega
  simp only [maxStoredValueBytes, not_lt] at hbound
  simp only [decryptFromStorage, bind_eq_ok, okOr_eq_ok, rejectIf_eq_ok, exists_const]
  refine ⟨Base64.encode Base64.urlSafe (nonce.toList ++ (sealed.1 ++ sealed.2.toList)), ?_, ?_,
    nonce.toList ++ (sealed.1 ++ sealed.2.toList), Base64.decode_encode _, ?_, nonce, ?_, ?_⟩
  · rw [stripMarker_eq_some, String.toList_append, String.toList_ofList]
  · rintro (hempty | hlarge)
    · exact hencoded hempty
    · rw [hsize] at hlarge
      simp only [maxStoredValueBytes] at hlarge
      omega
  · rw [htotal]
    omega
  · rw [Regulated.tryInto_eq_some, List.take_left' nonce.length_toList]
  · rw [List.drop_left' nonce.length_toList, hopen]

end Cipher

end MindOne.Coordinator
