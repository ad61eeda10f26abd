import MindOne.Accounting.TamperEvidence

/-!
# Balances along a validated chain

`validateChain` checks every entry by itself and the hash links between them. It
compares neither the accounts nor the balances of neighbours, so it accepts
slices that no single ledger holds. What it leaves out is what the trigger on
the ledger tables checks before it moves a stored head.
-/

namespace MindOne.Accounting

open CheckedArithmetic

/-- Balances chain from each entry to the next. -/
def balanceLinks : HashChain.Links LedgerEntry Int where
  previous := LedgerEntry.balanceBeforeMicro
  digest := LedgerEntry.balanceAfterMicro

/-- The entries are the history of one balance: one account, one ledger, and no
entry that starts from another balance than the one before it left. -/
structure BalanceAudit (entries : List LedgerEntry) : Prop where
  account : ∀ a ∈ entries, ∀ b ∈ entries, a.accountId = b.accountId
  scope : ∀ a ∈ entries, ∀ b ∈ entries, a.kind.scope = b.kind.scope
  continuous : entries.IsChain fun a b => b.balanceBeforeMicro = a.balanceAfterMicro
  balance : ∀ first ∈ entries.head?, ∀ last ∈ entries.getLast?,
    last.balanceAfterMicro =
      first.balanceBeforeMicro + (entries.map LedgerEntry.amountMicro).sum

/-- The head that is stored for the ledger of one account. -/
structure StoredHead where
  scope : String
  accountId : Uuid
  hash : String
  balanceMicro : Int
  deriving DecidableEq, Repr

/-- The head after one more entry, when the advance trigger lets the entry extend it. -/
def StoredHead.advance (head : StoredHead) (entry : LedgerEntry) : Option StoredHead :=
  if entry.kind.scope = head.scope ∧ entry.accountId = head.accountId ∧
      entry.previousHash = head.hash ∧ entry.balanceBeforeMicro = head.balanceMicro ∧
      entry.balanceAfterMicro = entry.balanceBeforeMicro + entry.amountMicro then
    some { head with hash := entry.hash, balanceMicro := entry.balanceAfterMicro }
  else none

/-- The head that an entry was written against. -/
def LedgerEntry.headBefore (self : LedgerEntry) : StoredHead :=
  ⟨self.kind.scope, self.accountId, self.previousHash, self.balanceBeforeMicro⟩

/-- The trigger takes the entries one after another, into the ledger of the first. -/
def TakenByTrigger : List LedgerEntry → Prop
  | [] => True
  | first :: rest =>
      ((first :: rest).foldlM StoredHead.advance first.headBefore).isSome = true

instance (entries : List LedgerEntry) : Decidable (TakenByTrigger entries) := by
  cases entries <;> unfold TakenByTrigger <;> infer_instance

theorem StoredHead.advance_eq_some {head next : StoredHead} {entry : LedgerEntry} :
    head.advance entry = some next ↔
      (entry.kind.scope = head.scope ∧ entry.accountId = head.accountId ∧
        entry.previousHash = head.hash ∧ entry.balanceBeforeMicro = head.balanceMicro ∧
        entry.balanceAfterMicro = entry.balanceBeforeMicro + entry.amountMicro) ∧
      next = { head with hash := entry.hash, balanceMicro := entry.balanceAfterMicro } := by
  rw [StoredHead.advance, Option.ite_none_right_eq_some, Option.some.injEq, eq_comm (b := next)]

/-- Along linked entries with sound amounts the trigger only adds the owner and
the continuity of the balances. -/
theorem foldlM_advance_isSome {head : StoredHead} {entries : List LedgerEntry}
    (linked : entryLinks.Linked head.hash entries)
    (amounts : ∀ entry ∈ entries,
      entry.balanceBeforeMicro + entry.amountMicro = entry.balanceAfterMicro) :
    (entries.foldlM StoredHead.advance head).isSome = true ↔
      (∀ entry ∈ entries, entry.kind.scope = head.scope ∧ entry.accountId = head.accountId) ∧
      balanceLinks.Linked head.balanceMicro entries := by
  induction entries generalizing head with
  | nil => simp
  | cons entry rest ih =>
      obtain ⟨previous, hrest⟩ := linked
      obtain ⟨amount, hamounts⟩ := List.forall_mem_cons.mp amounts
      rw [List.foldlM_cons, List.forall_mem_cons, HashChain.Links.Linked]
      cases hadvance : head.advance entry with
      | none =>
          simp only [Option.bind_eq_bind, Option.bind_none, Option.isSome_none,
            Bool.false_eq_true, false_iff]
          rintro ⟨⟨⟨scope, account⟩, -⟩, before, -⟩
          have htaken := StoredHead.advance_eq_some.mpr
            ⟨⟨scope, account, previous, before, amount.symm⟩, rfl⟩
          rw [hadvance] at htaken
          cases htaken
      | some next =>
          obtain ⟨⟨scope, account, -, before, -⟩, rfl⟩ := StoredHead.advance_eq_some.mp hadvance
          simp only [Option.bind_eq_bind, Option.bind_some]
          rw [ih hrest hamounts]
          constructor
          · rintro ⟨owners, balances⟩
            exact ⟨⟨⟨scope, account⟩, owners⟩, before, balances⟩
          · rintro ⟨⟨-, owners⟩, -, balances⟩
            exact ⟨owners, balances⟩

/-- Continuous balances end at the first one plus everything that was booked. -/
theorem balanceLinks_head {start : Int} {entries : List LedgerEntry}
    (linked : balanceLinks.Linked start entries)
    (amounts : ∀ entry ∈ entries,
      entry.balanceBeforeMicro + entry.amountMicro = entry.balanceAfterMicro) :
    balanceLinks.head start entries = start + (entries.map LedgerEntry.amountMicro).sum := by
  induction entries generalizing start with
  | nil => simp
  | cons entry rest ih =>
      obtain ⟨before, hrest⟩ := linked
      obtain ⟨amount, hamounts⟩ := List.forall_mem_cons.mp amounts
      have hbefore : entry.balanceBeforeMicro = start := before
      rw [HashChain.Links.head, ih hrest hamounts, List.map_cons, List.sum_cons]
      change entry.balanceAfterMicro + _ = _
      omega

section Slices
variable {digest : List UInt8 → String} {entries : List LedgerEntry}

end Slices

section Sample

/-- A credit in another ledger of another account, hashed onto the sample debit. -/
def sampleStray : LedgerEntry where
  hashVersion := 2
  id := .fromU128 3
  accountId := .fromU128 101
  requestId := some (.fromU128 201)
  idempotencyKey := "entry-1"
  kind := .contributionCredit
  amountMicro := 7
  balanceBeforeMicro := 0
  balanceAfterMicro := 7
  createdAt := ⟨1784282401000000000, by decide⟩
  previousHash := "7192c8404fbcac2b0a64ff6cef31756a8407f7a4c63dc1d2d8c066b4f1fff2ad"
  metadata := .singleton "source" "unit_test"
  hash := "304134679290b1568ff6d71c53c6734be1e4e3d6bd4b307b9fac2f64b495d6ba"

def sampleStrayText : String :=
  "14:mindone-ledger1:212:contribution36:00000000-0000-0000-0000-000000000003" ++
  "36:00000000-0000-0000-0000-00000000006536:00000000-0000-0000-0000-0000000000c9" ++
  "7:entry-117:node_contribution1:71:01:716:1784282401000000" ++
  "64:7192c8404fbcac2b0a64ff6cef31756a8407f7a4c63dc1d2d8c066b4f1fff2ad1:1" ++
  "6:source9:unit_test"

/-- SHA-256 in lower-case hexadecimal, on the bytes of the two entries. -/
def sampleStrayDigest (bytes : List UInt8) : String :=
  if bytes = utf8 sampleDebitText then
    "7192c8404fbcac2b0a64ff6cef31756a8407f7a4c63dc1d2d8c066b4f1fff2ad"
  else if bytes = utf8 sampleStrayText then
    "304134679290b1568ff6d71c53c6734be1e4e3d6bd4b307b9fac2f64b495d6ba"
  else ""

end Sample

end MindOne.Accounting
