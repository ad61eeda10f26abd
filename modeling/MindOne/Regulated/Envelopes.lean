import MindOne.Lib.Base64
import MindOne.Lib.JsonText
import MindOne.Stream.Events

/-!
# The envelopes of regulated jobs

An envelope carries one encrypted message of a regulated job together with the
route that it belongs to. A checked envelope has a fixed form: only the length of
its ciphertext is free, and its printed form is longer than the ciphertext by a
constant.
-/

namespace MindOne.Regulated

open CheckedArithmetic MindOne.Stream

def regulatedEnvelopeVersion : Nat := 1

def regulatedAlgorithm : String := "x25519-hkdf-sha256-chacha20poly1305"

inductive EnvelopeDirection where
  | request | result
  deriving DecidableEq, Repr

def EnvelopeDirection.asStr : EnvelopeDirection → String
  | .request => "request"
  | .result => "result"

structure RegulatedEnvelope where
  version : Nat
  algorithm : String
  direction : EnvelopeDirection
  routeId : Uuid
  reportId : Uuid
  modelInstanceId : Uuid
  senderPublicKey : String
  nonce : String
  ciphertext : String
  deriving DecidableEq

def isLowerHex (c : Char) : Bool := ('0' ≤ c && c ≤ '9') || ('a' ≤ c && c ≤ 'f')

def validateLowerHex (field value : String) (decodedLen : Nat) :
    Except ProtocolValidationError Unit :=
  rejectIf (value.utf8ByteSize ≠ decodedLen * 2 ∨ value.toList.all isLowerHex = false)
    ⟨field, "必须是 " ++ toString decodedLen ++ " 字节的小写十六进制"⟩

def isAsciiWhitespace (c : Char) : Bool :=
  c.toNat = 32 || c.toNat = 9 || c.toNat = 10 || c.toNat = 12 || c.toNat = 13

def decodeBase64url (field value : String) (minimum maximum : Nat) :
    Except ProtocolValidationError (List UInt8) := do
  rejectIf (value = "" ∨ maximum * 4 / 3 + 4 < value.utf8ByteSize ∨
      (value.toList.any fun c => isAsciiWhitespace c || c == '=') = true)
    ⟨field, "必须是无 padding 的 URL-safe base64"⟩
  let decoded ← okOr ⟨field, "URL-safe base64 编码无效"⟩
    (Base64.decode Base64.urlSafe value.toList)
  rejectIf (¬ (minimum ≤ decoded.length ∧ decoded.length ≤ maximum))
    ⟨field, "解码后长度超出协议范围"⟩
  return decoded

def RegulatedEnvelope.validate (envelope : RegulatedEnvelope) :
    Except ProtocolValidationError Unit := do
  rejectIf (envelope.version ≠ regulatedEnvelopeVersion)
    ⟨"version", "Regulated envelope 版本不受支持"⟩
  rejectIf (envelope.algorithm ≠ regulatedAlgorithm)
    ⟨"algorithm", "Regulated envelope 算法不受支持"⟩
  validateLowerHex "sender_public_key" envelope.senderPublicKey 32
  rejectIf (envelope.senderPublicKey.toList.all (· == '0') = true)
    ⟨"sender_public_key", "X25519 公钥不能是全零值"⟩
  let nonce ← decodeBase64url "nonce" envelope.nonce 12 12
  rejectIf (nonce.all (· == 0) = true) ⟨"nonce", "AEAD nonce 不能是全零值"⟩
  let ciphertext ← decodeBase64url "ciphertext" envelope.ciphertext 17 900000
  rejectIf (ciphertext.length < 17)
    ⟨"ciphertext", "Regulated ciphertext 缺少 AEAD tag 或明文"⟩

/-- The printed members in the order of the declaration. -/
def RegulatedEnvelope.members (envelope : RegulatedEnvelope) : List (String × String) :=
  [("version", toString envelope.version),
    ("algorithm", JsonText.quote envelope.algorithm),
    ("direction", JsonText.quote envelope.direction.asStr),
    ("route_id", JsonText.quote envelope.routeId.text),
    ("report_id", JsonText.quote envelope.reportId.text),
    ("model_instance_id", JsonText.quote envelope.modelInstanceId.text),
    ("sender_public_key", JsonText.quote envelope.senderPublicKey),
    ("nonce", JsonText.quote envelope.nonce),
    ("ciphertext", JsonText.quote envelope.ciphertext)]

/-- `serde_json::to_string`. -/
def RegulatedEnvelope.json (envelope : RegulatedEnvelope) : String :=
  JsonText.object envelope.members

/-- Characters of one byte that neither a check nor a serializer touches. -/
def Bare (c : Char) : Prop := Plain c ∧ JsonText.Quiet c

instance (c : Char) : Decidable (Bare c) := inferInstanceAs (Decidable (_ ∧ _))

theorem bare_hexDigit (n : Nat) : Bare (hexDigit n) := by
  by_cases h : n < 16
  · exact (by decide : ∀ i : Fin 16, Bare (hexDigit i)) ⟨n, h⟩
  · have hdefault : hexDigit n = '0' := by simp [hexDigit, Nat.le_of_not_lt h]
    rw [hdefault]
    decide

theorem bare_text (id : Uuid) : ∀ c ∈ id.text.toList, Bare c := by
  intro c hc
  obtain rfl | ⟨digit, rfl⟩ := Uuid.mem_text hc
  · decide
  · exact bare_hexDigit digit

theorem bare_lowerHex {c : Char} (h : isLowerHex c = true) : Bare c := by
  simp only [isLowerHex, Bool.or_eq_true, Bool.and_eq_true, decide_eq_true_eq] at h
  have hrange : (48 ≤ c.toNat ∧ c.toNat ≤ 57) ∨ (97 ≤ c.toNat ∧ c.toNat ≤ 102) := h
  refine ⟨⟨?_, by omega⟩, by omega, by omega, by omega⟩
  simp only [isControl, Bool.or_eq_false_iff, Bool.and_eq_false_iff, decide_eq_false_iff_not]
  omega

theorem bare_urlSafe {c : Char} (h : c ∈ Base64.urlSafe.symbols) : Bare c :=
  forall_of_all (p := Bare) (by decide) c h

theorem utf8ByteSize_of_bare {text : String} (h : ∀ c ∈ text.toList, Bare c) :
    text.utf8ByteSize = text.toList.length :=
  length_utf8_of_plain fun c hc => (h c hc).1

theorem quote_of_bare {text : String} (h : ∀ c ∈ text.toList, Bare c) :
    JsonText.quote text = "\"" ++ text ++ "\"" :=
  JsonText.quote_of_quiet fun c hc => (h c hc).2

theorem bare_encode {bytes : List UInt8} {text : String}
    (h : Base64.encode Base64.urlSafe bytes = text.toList) : ∀ c ∈ text.toList, Bare c := by
  intro c hc
  rw [← h] at hc
  exact bare_urlSafe (Base64.mem_symbols hc)

theorem urlSafe_unspaced {c : Char} (h : c ∈ Base64.urlSafe.symbols) :
    (isAsciiWhitespace c || c == '=') = false :=
  forall_of_all (p := fun c => (isAsciiWhitespace c || c == '=') = false) (by decide) c h

/-- The accepted texts are the encodings of the lengths in between. -/
theorem decodeBase64url_eq_ok {field value : String} {minimum maximum : Nat} {bytes : List UInt8} :
    decodeBase64url field value minimum maximum = .ok bytes ↔
      value ≠ "" ∧ Base64.encode Base64.urlSafe bytes = value.toList ∧
        minimum ≤ bytes.length ∧ bytes.length ≤ maximum := by
  simp only [decodeBase64url, bind_eq_ok, okOr_eq_ok, rejectIf_eq_ok, exists_const, not_not]
  constructor
  · rintro ⟨hform, decoded, hdecode, hlength, hresult⟩
    cases hresult
    exact ⟨fun h => hform (.inl h), Base64.encode_of_decode hdecode, hlength⟩
  · rintro ⟨hne, hencode, hmin, hmax⟩
    have hsize : value.utf8ByteSize = (bytes.length * 4 + 2) / 3 := by
      rw [utf8ByteSize_of_bare (bare_encode hencode), ← hencode, Base64.length_encode]
    refine ⟨?_, bytes, ?_, ⟨hmin, hmax⟩, rfl⟩
    · rintro (h | h | h)
      · exact hne h
      · omega
      · obtain ⟨c, hc, hspace⟩ := List.any_eq_true.mp h
        rw [← hencode] at hc
        exact absurd hspace (by rw [urlSafe_unspaced (Base64.mem_symbols hc)]; decide)
    · rw [← hencode, Base64.decode_encode]

/-- What the checks leave open in an envelope. -/
structure FixedForm (envelope : RegulatedEnvelope) : Prop where
  version : envelope.version = regulatedEnvelopeVersion
  algorithm : envelope.algorithm = regulatedAlgorithm
  senderSize : envelope.senderPublicKey.utf8ByteSize = 64
  senderHex : envelope.senderPublicKey.toList.all isLowerHex = true
  nonce : ∃ bytes, Base64.encode Base64.urlSafe bytes = envelope.nonce.toList ∧ bytes.length = 12
  ciphertext : ∃ bytes, Base64.encode Base64.urlSafe bytes = envelope.ciphertext.toList ∧
    17 ≤ bytes.length ∧ bytes.length ≤ 900000

theorem fixedForm_of_validate {envelope : RegulatedEnvelope} (h : envelope.validate = .ok ()) :
    FixedForm envelope := by
  simp only [RegulatedEnvelope.validate, validateLowerHex, bind_eq_ok, rejectIf_eq_ok,
    exists_const, not_not, decodeBase64url_eq_ok, not_or] at h
  obtain ⟨hversion, halgorithm, ⟨hsize, hhex⟩, _, nonce, ⟨_, hnonce, hmin, hmax⟩, _, ciphertext,
    ⟨_, hciphertext, hlow, hhigh⟩, _⟩ := h
  exact ⟨hversion, halgorithm, by omega, Bool.not_eq_false _ ▸ hhex, ⟨nonce, hnonce, by omega⟩,
    ⟨ciphertext, hciphertext, hlow, hhigh⟩⟩

theorem validate_of_parts {envelope : RegulatedEnvelope} {nonce ciphertext : List UInt8}
    (hversion : envelope.version = regulatedEnvelopeVersion)
    (halgorithm : envelope.algorithm = regulatedAlgorithm)
    (hkey : validateLowerHex "sender_public_key" envelope.senderPublicKey 32 = .ok ())
    (hnonzero : envelope.senderPublicKey.toList.all (· == '0') = false)
    (hnonce : decodeBase64url "nonce" envelope.nonce 12 12 = .ok nonce)
    (hused : nonce.all (· == 0) = false)
    (hciphertext : decodeBase64url "ciphertext" envelope.ciphertext 17 900000 = .ok ciphertext) :
    envelope.validate = .ok () := by
  have hlength := (decodeBase64url_eq_ok.mp hciphertext).2.2.1
  simp only [RegulatedEnvelope.validate, hkey, hnonce, hciphertext, bind_eq_ok, rejectIf_eq_ok,
    exists_const, Except.ok.injEq, exists_eq_left', not_not, hnonzero, hused, Bool.false_eq_true,
    not_false_eq_true, true_and, not_lt]
  exact ⟨hversion, halgorithm, hlength⟩

section Printed

theorem bare_quote {text : String} (h : ∀ c ∈ text.toList, Bare c) :
    (JsonText.quote text).utf8ByteSize = text.utf8ByteSize + 2 ∧
      ∀ c ∈ (JsonText.quote text).toList, Plain c := by
  have hmark : ∀ c ∈ "\"".toList, Plain c := forall_of_all (by decide)
  rw [quote_of_bare h]
  constructor
  · rw [String.utf8ByteSize_append, String.utf8ByteSize_append,
      show "\"".utf8ByteSize = 1 from rfl]
    omega
  · intro c hc
    simp only [String.toList_append, List.mem_append] at hc
    rcases hc with (hc | hc) | hc
    · exact hmark c hc
    · exact (h c hc).1
    · exact hmark c hc

/-- A printed object of bare keys and plain values is plain. -/
theorem plain_members {fields : List (String × String)}
    (hkeys : ∀ key ∈ fields.map Prod.fst, ∀ c ∈ key.toList, Bare c)
    (hvalues : ∀ value ∈ fields.map Prod.snd, ∀ c ∈ value.toList, Plain c) :
    ∀ c ∈ (JsonText.members fields).toList, Plain c := by
  have hcolon : ∀ c ∈ ":".toList, Plain c := forall_of_all (by decide)
  have hcomma : ∀ c ∈ ",".toList, Plain c := forall_of_all (by decide)
  fun_induction JsonText.members fields with
  | case1 => intro c hc; cases hc
  | case2 key value =>
    have hkey := hkeys key List.mem_cons_self
    have hvalue := hvalues value List.mem_cons_self
    intro c hc
    simp only [String.toList_append, List.mem_append] at hc
    rcases hc with (hc | hc) | hc
    · exact (bare_quote hkey).2 c hc
    · exact hcolon c hc
    · exact hvalue c hc
  | case3 key value rest _ ih =>
    have hkey := hkeys key List.mem_cons_self
    have hvalue := hvalues value List.mem_cons_self
    intro c hc
    simp only [String.toList_append, List.mem_append] at hc
    rcases hc with (((hc | hc) | hc) | hc) | hc
    · exact (bare_quote hkey).2 c hc
    · exact hcolon c hc
    · exact hvalue c hc
    · exact hcomma c hc
    · exact ih (fun key hmem => hkeys key (List.mem_cons_of_mem _ hmem))
        (fun value hmem => hvalues value (List.mem_cons_of_mem _ hmem)) c hc

def envelopeKeys : List String :=
  ["version", "algorithm", "direction", "route_id", "report_id", "model_instance_id",
    "sender_public_key", "nonce", "ciphertext"]

theorem bare_envelopeKeys : ∀ key ∈ envelopeKeys, ∀ c ∈ key.toList, Bare c := by
  have hall : envelopeKeys.all (fun key => key.toList.all fun c => decide (Bare c)) = true := by
    decide
  intro key hkey
  exact forall_of_all (List.all_eq_true.mp hall key hkey)

variable {envelope : RegulatedEnvelope}

/-- The values of a checked envelope are printed as they are. -/
theorem FixedForm.bare (h : FixedForm envelope) :
    (∀ c ∈ envelope.algorithm.toList, Bare c) ∧ (∀ c ∈ envelope.direction.asStr.toList, Bare c) ∧
      (∀ c ∈ envelope.senderPublicKey.toList, Bare c) ∧ (∀ c ∈ envelope.nonce.toList, Bare c) ∧
      ∀ c ∈ envelope.ciphertext.toList, Bare c := by
  obtain ⟨nonce, hnonce, _⟩ := h.nonce
  obtain ⟨ciphertext, hciphertext, _⟩ := h.ciphertext
  refine ⟨?_, ?_, ?_, bare_encode hnonce, bare_encode hciphertext⟩
  · rw [h.algorithm]
    exact forall_of_all (by decide)
  · cases envelope.direction with
    | request => exact forall_of_all (by decide)
    | result => exact forall_of_all (by decide)
  · intro c hc
    exact bare_lowerHex (List.all_eq_true.mp h.senderHex c hc)

theorem FixedForm.plain_json (h : FixedForm envelope) : ∀ c ∈ envelope.json.toList, Plain c := by
  obtain ⟨halgorithm, hdirection, hsender, hnonce, hciphertext⟩ := h.bare
  have hopen : ∀ c ∈ "\x7b".toList, Plain c := forall_of_all (by decide)
  have hclose : ∀ c ∈ "\x7d".toList, Plain c := forall_of_all (by decide)
  have hversion : ∀ c ∈ (toString envelope.version).toList, Plain c := by
    rw [h.version]
    exact forall_of_all (by decide)
  intro c hc
  simp only [RegulatedEnvelope.json, JsonText.object, String.toList_append, List.mem_append] at hc
  rcases hc with (hc | hc) | hc
  · exact hopen c hc
  · have hkeys : ∀ key ∈ envelope.members.map Prod.fst, ∀ c ∈ key.toList, Bare c :=
      bare_envelopeKeys
    refine plain_members hkeys (fun value hvalue => ?_) c hc
    simp only [RegulatedEnvelope.members, List.map_cons, List.map_nil, List.mem_cons,
      List.not_mem_nil, or_false] at hvalue
    rcases hvalue with rfl | rfl | rfl | rfl | rfl | rfl | rfl | rfl | rfl
    · exact hversion
    · exact (bare_quote halgorithm).2
    · exact (bare_quote hdirection).2
    · exact (bare_quote (bare_text _)).2
    · exact (bare_quote (bare_text _)).2
    · exact (bare_quote (bare_text _)).2
    · exact (bare_quote hsender).2
    · exact (bare_quote hnonce).2
    · exact (bare_quote hciphertext).2
  · exact hclose c hc

theorem FixedForm.utf8ByteSize_json (h : FixedForm envelope) :
    envelope.json.utf8ByteSize = envelope.direction.asStr.utf8ByteSize +
      envelope.ciphertext.utf8ByteSize + 368 := by
  obtain ⟨halgorithm, hdirection, hsender, hnonce, hciphertext⟩ := h.bare
  have hid : ∀ id : Uuid, id.text.utf8ByteSize = 36 := fun id => by
    rw [utf8ByteSize_of_bare (bare_text id), Uuid.length_text]
  have hnonceSize : envelope.nonce.utf8ByteSize = 16 := by
    obtain ⟨bytes, hencode, hlength⟩ := h.nonce
    rw [utf8ByteSize_of_bare hnonce, ← hencode, Base64.length_encode, hlength]
  have hkey : ∀ key ∈ envelopeKeys, (JsonText.quote key).utf8ByteSize = key.utf8ByteSize + 2 :=
    fun key hmem => (bare_quote (bare_envelopeKeys key hmem)).1
  simp only [envelopeKeys, List.forall_mem_cons] at hkey
  simp only [RegulatedEnvelope.json, RegulatedEnvelope.members, JsonText.object, JsonText.members,
    String.utf8ByteSize_append, hkey, (bare_quote hdirection).1,
    (bare_quote hsender).1, (bare_quote hnonce).1, (bare_quote hciphertext).1,
    (bare_quote (bare_text _)).1, hid, hnonceSize, h.senderSize, h.version, h.algorithm]
  generalize envelope.direction.asStr.utf8ByteSize = direction
  generalize envelope.ciphertext.utf8ByteSize = ciphertext
  change 1 + (7 + 2 + 1 + 1 + 1 + (9 + 2 + 1 + 37 + 1 + (9 + 2 + 1 + (direction + 2) + 1 +
    (8 + 2 + 1 + 38 + 1 + (9 + 2 + 1 + 38 + 1 + (17 + 2 + 1 + 38 + 1 + (17 + 2 + 1 + 66 + 1 +
    (5 + 2 + 1 + 18 + 1 + (10 + 2 + 1 + (ciphertext + 2)))))))))) + 1 = _
  omega

end Printed

end MindOne.Regulated
