import MindOne.Accounting.Ledger
import MindOne.Lib.HashChain

/-!
# Tamper evidence

The canonical bytes can be read back to the content of the entry, except for
the part of its instant below a microsecond. A chain that validates therefore
commits, through its last hash, to the content of every entry in it. The
digest is only assumed to separate the byte strings of the entries at hand.
-/

namespace MindOne.Accounting

open CheckedArithmetic

/-- The two entries say the same, up to the quantisation of the instant. -/
structure LedgerEntry.AgreesOnContent (a b : LedgerEntry) : Prop where
  hashVersion : a.hashVersion = b.hashVersion
  id : a.id = b.id
  accountId : a.accountId = b.accountId
  requestId : a.requestId = b.requestId
  idempotencyKey : a.idempotencyKey = b.idempotencyKey
  kind : a.kind = b.kind
  amountMicro : a.amountMicro = b.amountMicro
  balanceBeforeMicro : a.balanceBeforeMicro = b.balanceBeforeMicro
  balanceAfterMicro : a.balanceAfterMicro = b.balanceAfterMicro
  createdAt : a.createdAtUnixMicros = b.createdAtUnixMicros
  previousHash : a.previousHash = b.previousHash
  metadata : a.metadata = b.metadata

/-- An absent request and a present one never render alike. -/
theorem requestText_injective {a b : Option Uuid}
    (h : (a.map Uuid.text).getD "" = (b.map Uuid.text).getD "") : a = b := by
  cases a with
  | none =>
      cases b with
      | none => rfl
      | some b => exact absurd h.symm b.text_ne_empty
  | some a =>
      cases b with
      | none => exact absurd h a.text_ne_empty
      | some b => exact congrArg some (Uuid.text_injective h)

theorem metadataTexts_injective {a b : List (String × String)}
    (h : (a.flatMap fun pair => [pair.1, pair.2]) = b.flatMap fun pair => [pair.1, pair.2]) :
    a = b := by
  induction a generalizing b with
  | nil =>
      cases b with
      | nil => rfl
      | cons pair b => simp at h
  | cons pair a ih =>
      cases b with
      | nil => simp at h
      | cons other b =>
          obtain ⟨key, value⟩ := pair
          obtain ⟨key', value'⟩ := other
          simp only [List.flatMap_cons, List.cons_append, List.nil_append,
            List.cons.injEq] at h
          obtain ⟨rfl, rfl, hrest⟩ := h
          rw [ih hrest]

namespace LedgerEntry
variable {a b : LedgerEntry}

/-- The canonical bytes are read back field by field. -/
theorem agreesOnContent_of_canonicalBytes {bytes : List UInt8}
    (ha : a.canonicalBytes = .ok bytes) (hb : b.canonicalBytes = .ok bytes) :
    a.AgreesOnContent b := by
  obtain ⟨va, ta, hta, rfl⟩ := canonicalBytes_eq_ok.mp ha
  obtain ⟨vb, tb, htb, h⟩ := canonicalBytes_eq_ok.mp hb
  have htexts := utf8_injective.list_map (canonicalFormat.fields_injective h)
  simp only [canonicalTexts, List.cons_append, List.nil_append, List.cons.injEq,
    true_and] at htexts
  obtain ⟨-, -, id, account, request, key, rfl, amount, before, after, created, previous,
    -, pairs⟩ := htexts
  exact {
    hashVersion := va.trans vb.symm
    id := Uuid.text_injective id
    accountId := Uuid.text_injective account
    requestId := requestText_injective request
    idempotencyKey := key
    kind := LedgerKind.eq_of_entryType hta htb
    amountMicro := toString_int_injective amount
    balanceBeforeMicro := toString_int_injective before
    balanceAfterMicro := toString_int_injective after
    createdAt := toString_int_injective created
    previousHash := previous
    metadata := Metadata.eq_of_entries (metadataTexts_injective pairs) }

end LedgerEntry

/-- Entries chain through `previousHash` and `hash`. -/
def entryLinks : HashChain.Links LedgerEntry String where
  previous := LedgerEntry.previousHash
  digest := LedgerEntry.hash

section Chains
variable {digest : List UInt8 → String} {xs ys : List LedgerEntry}

theorem linked_of_validateChainFrom {expected : String} {timestamp : Option OffsetDateTime}
    {u : Unit} (h : validateChainFrom digest expected timestamp xs = .ok u) :
    entryLinks.Linked expected xs ∧ ∀ entry ∈ xs, entry.validate digest = .ok () := by
  induction xs generalizing expected timestamp with
  | nil => simp
  | cons entry rest ih =>
      simp only [validateChainFrom, bind_eq_ok, exists_const, rejectIf_eq_ok,
        not_not] at h
      obtain ⟨_, valid, link, -, hrest⟩ := h
      obtain ⟨linked, all⟩ := ih hrest
      exact ⟨⟨link, linked⟩, List.forall_mem_cons.mpr ⟨valid, all⟩⟩

theorem head_eq_of_getLast {entry : LedgerEntry} (h : xs.getLast? = some entry) :
    entryLinks.head genesisHash xs = entry.hash := by
  obtain ⟨rest, rfl⟩ := List.getLast?_eq_some_iff.mp h
  exact entryLinks.head_append rest entry

/-- Two validated chains whose last entries carry the same hash have the same
length and agree entry by entry on everything that is hashed and on the hash
itself; and canonical bytes determine the content of any entry at all. -/
theorem validateChain_tamper_evident
    (separates : ∀ x ∈ xs, ∀ y ∈ ys, ∀ p q, x.canonicalBytes = .ok p →
      y.canonicalBytes = .ok q → digest p = digest q → p = q)
    (notGenesis : ∀ entry ∈ xs ++ ys, ∀ p, entry.canonicalBytes = .ok p →
      digest p ≠ genesisHash)
    (hxs : validateChain digest xs = .ok ()) (hys : validateChain digest ys = .ok ())
    {x y : LedgerEntry} (hx : xs.getLast? = some x) (hy : ys.getLast? = some y)
    (hash : x.hash = y.hash) :
    List.Forall₂ (fun a b => a.AgreesOnContent b ∧ a.hash = b.hash) xs ys ∧
    ∀ (a b : LedgerEntry) (bytes : List UInt8), a.canonicalBytes = .ok bytes →
      b.canonicalBytes = .ok bytes → a.AgreesOnContent b := by
  obtain ⟨linkedXs, validXs⟩ := linked_of_validateChainFrom hxs
  obtain ⟨linkedYs, validYs⟩ := linked_of_validateChainFrom hys
  refine ⟨entryLinks.commit ?_ (fun a b h => h.1.previousHash) ?_ ?_ linkedXs linkedYs ?_,
    fun a b bytes => LedgerEntry.agreesOnContent_of_canonicalBytes⟩
  · intro a ha b hb hab
    obtain ⟨-, p, hp, hashA⟩ := LedgerEntry.validate_eq_ok.mp (validXs a ha)
    obtain ⟨-, q, hq, hashB⟩ := LedgerEntry.validate_eq_ok.mp (validYs b hb)
    have hpq := separates a ha b hb p q hp hq (hashA.symm.trans (Eq.trans hab hashB))
    subst hpq
    exact ⟨LedgerEntry.agreesOnContent_of_canonicalBytes hp hq, hab⟩
  · intro a ha
    obtain ⟨-, p, hp, hashA⟩ := LedgerEntry.validate_eq_ok.mp (validXs a ha)
    exact fun h => notGenesis a (by simp [ha]) p hp (hashA.symm.trans h)
  · intro b hb
    obtain ⟨-, q, hq, hashB⟩ := LedgerEntry.validate_eq_ok.mp (validYs b hb)
    exact fun h => notGenesis b (by simp [hb]) q hq (hashB.symm.trans h)
  · rw [head_eq_of_getLast hx, head_eq_of_getLast hy, hash]

end Chains

section Sample

/-- The first entry of the sample chain; its bytes and digest are listed below. -/
def sampleDebit : LedgerEntry where
  hashVersion := 2
  id := .fromU128 1
  accountId := .fromU128 100
  requestId := some (.fromU128 200)
  idempotencyKey := "entry-0"
  kind := .consumerDeduction
  amountMicro := -500000
  balanceBeforeMicro := 2000000
  balanceAfterMicro := 1500000
  createdAt := ⟨1784282400000000000, by decide⟩
  previousHash := genesisHash
  metadata := .singleton "source" "unit_test"
  hash := "7192c8404fbcac2b0a64ff6cef31756a8407f7a4c63dc1d2d8c066b4f1fff2ad"

/-- The second entry, some nanoseconds into its microsecond. -/
def sampleCredit (nanos : Fin 1000) : LedgerEntry where
  hashVersion := 2
  id := .fromU128 2
  accountId := .fromU128 100
  requestId := some (.fromU128 201)
  idempotencyKey := "entry-1"
  kind := .nodeQuotaCredit
  amountMicro := 200000
  balanceBeforeMicro := 1500000
  balanceAfterMicro := 1700000
  createdAt := ⟨1784282401000000000 + nanos, by omega⟩
  previousHash := "7192c8404fbcac2b0a64ff6cef31756a8407f7a4c63dc1d2d8c066b4f1fff2ad"
  metadata := .singleton "source" "unit_test"
  hash := "b02af7eb2b7efa92abc6cb333bfa72236f60a34eba6e9c6f40c818e0d636991c"

def sampleDebitText : String :=
  "14:mindone-ledger1:25:quota36:00000000-0000-0000-0000-000000000001" ++
  "36:00000000-0000-0000-0000-00000000006436:00000000-0000-0000-0000-0000000000c8" ++
  "7:entry-018:consumer_deduction7:-5000007:20000007:150000016:1784282400000000" ++
  "64:00000000000000000000000000000000000000000000000000000000000000001:1" ++
  "6:source9:unit_test"

def sampleCreditText : String :=
  "14:mindone-ledger1:25:quota36:00000000-0000-0000-0000-000000000002" ++
  "36:00000000-0000-0000-0000-00000000006436:00000000-0000-0000-0000-0000000000c9" ++
  "7:entry-111:node_reward6:2000007:15000007:170000016:1784282401000000" ++
  "64:7192c8404fbcac2b0a64ff6cef31756a8407f7a4c63dc1d2d8c066b4f1fff2ad1:1" ++
  "6:source9:unit_test"

/-- SHA-256 in lower-case hexadecimal, on the two byte strings of the sample. -/
def sampleDigest (bytes : List UInt8) : String :=
  if bytes = utf8 sampleDebitText then
    "7192c8404fbcac2b0a64ff6cef31756a8407f7a4c63dc1d2d8c066b4f1fff2ad"
  else if bytes = utf8 sampleCreditText then
    "b02af7eb2b7efa92abc6cb333bfa72236f60a34eba6e9c6f40c818e0d636991c"
  else ""

theorem sampleDebit_bytes : sampleDebit.canonicalBytes = .ok (utf8 sampleDebitText) := by
  decide +kernel

theorem sampleCredit_bytes (nanos : Fin 1000) :
    (sampleCredit nanos).canonicalBytes = .ok (utf8 sampleCreditText) := by
  have hmicros : (sampleCredit nanos).createdAtUnixMicros =
      (sampleCredit 0).createdAtUnixMicros := by
    have hnanos := nanos.isLt
    simp only [LedgerEntry.createdAtUnixMicros, sampleCredit, postgresEpochUnixSeconds]
    rw [Int.tdiv_eq_ediv_of_nonneg (by omega), Int.tdiv_eq_ediv_of_nonneg (by simp)]
    simp only [Fin.val_zero]
    omega
  have hzero : (sampleCredit 0).canonicalBytes = .ok (utf8 sampleCreditText) := by
    decide +kernel
  rw [← hzero]
  unfold LedgerEntry.canonicalBytes
  rw [hmicros]
  rfl

theorem sample_valid (nanos : Fin 1000) :
    validateChain sampleDigest [sampleDebit, sampleCredit nanos] = .ok () := by
  have hdebit : sampleDebit.validateFields = .ok () := by decide +kernel
  have hcredit : (sampleCredit 0).validateFields = .ok () := by decide +kernel
  have horder : ¬ ∃ timestamp ∈ some sampleDebit.createdAt,
      (sampleCredit nanos).createdAt.unixTimestampNanos < timestamp.unixTimestampNanos := by
    simp only [Option.mem_some_iff, exists_eq_left', sampleCredit, sampleDebit]
    omega
  simp only [validateChain, validateChainFrom, bind_eq_ok, exists_const, rejectIf_eq_ok,
    not_not]
  refine ⟨(), LedgerEntry.validate_eq_ok.mpr ⟨LedgerEntry.validateFields_eq_ok.mp hdebit, _,
      sampleDebit_bytes, ?_⟩, rfl, by simp,
    (), LedgerEntry.validate_eq_ok.mpr ⟨LedgerEntry.validateFields_eq_ok.mp hcredit, _,
      sampleCredit_bytes nanos, ?_⟩, rfl, horder, trivial⟩
  · simp [sampleDigest, sampleDebit]
  · have hne : utf8 sampleCreditText ≠ utf8 sampleDebitText := by decide +kernel
    simp [sampleDigest, sampleCredit, hne]

/-- Two copies of the chain whose last instants differ by 999 nanoseconds. -/
theorem validateChain_tamper_evident_sample :
    List.Forall₂ (fun a b : LedgerEntry => a.AgreesOnContent b ∧ a.hash = b.hash)
      [sampleDebit, sampleCredit 0] [sampleDebit, sampleCredit 999] := by
  have hbytes {nanos : Fin 1000} {entry : LedgerEntry} {p : List UInt8}
      (hmem : entry ∈ [sampleDebit, sampleCredit nanos]) (hp : entry.canonicalBytes = .ok p) :
      p = utf8 sampleDebitText ∨ p = utf8 sampleCreditText := by
    simp only [List.mem_cons, List.not_mem_nil, or_false] at hmem
    rcases hmem with rfl | rfl
    · exact .inl (Except.ok.inj (hp.symm.trans sampleDebit_bytes))
    · exact .inr (Except.ok.inj (hp.symm.trans (sampleCredit_bytes nanos)))
  have hne : utf8 sampleCreditText ≠ utf8 sampleDebitText := by decide +kernel
  have hdebit : sampleDigest (utf8 sampleDebitText) = sampleDebit.hash := by
    simp [sampleDigest, sampleDebit]
  have hcredit : sampleDigest (utf8 sampleCreditText) = (sampleCredit 0).hash := by
    simp [sampleDigest, sampleCredit, hne]
  refine (validateChain_tamper_evident ?_ ?_ (sample_valid 0)
    (sample_valid 999) rfl rfl rfl).1
  · intro x hx y hy p q hp hq hpq
    rcases hbytes hx hp with rfl | rfl <;> rcases hbytes hy hq with rfl | rfl
    · rfl
    · exact absurd ((hdebit.symm.trans hpq).trans hcredit) (by decide)
    · exact absurd ((hcredit.symm.trans hpq).trans hdebit) (by decide)
    · rfl
  · intro entry hmem p hp
    have hp' : p = utf8 sampleDebitText ∨ p = utf8 sampleCreditText := by
      rcases List.mem_append.mp hmem with h | h
      · exact hbytes h hp
      · exact hbytes h hp
    rcases hp' with rfl | rfl
    · exact hdebit ▸ by decide
    · exact hcredit ▸ by decide

end Sample

end MindOne.Accounting
