import MindOne.Coordinator.StandardData
import Mathlib.Data.Finset.Card

/-!
# The migration of legacy standard rows

One transaction rewrites all rows of older storage versions, batch by batch. A row that
was rewritten is not selected again, so the batches come to an end; what it holds is read
back as before, and a second migration finds nothing to do.
-/

namespace MindOne.Coordinator

open CheckedArithmetic KeyedTable MindOne.Stream
open MindOne.Regulated (Bytes hexEncode hexDecode)

/-- The columns of a job that the migration works with. -/
structure StoredJob where
  id : Uuid
  confidentialityMode : ConfidentialityMode
  encryptedPayload : String
  resultCiphertext : Option String
  standardRequestFingerprint : Option String
  standardPayloadStorageVersion : Option Int
  standardResultStorageVersion : Option Int
  deriving DecidableEq

/-- The stored key commitment and the jobs. -/
structure StandardDb where
  keyCommitment : Option String
  jobs : Table StoredJob.id

section Rows

def isKeyed (fingerprint : String) : Bool := startsWith fingerprintMarker fingerprint

def isEnvelope (text : String) : Bool := startsWith envelopeMarker text

/-- The condition of the selection; a comparison with `NULL` does not hold. -/
def StoredJob.isSelected (job : StoredJob) : Bool :=
  job.confidentialityMode == .standard &&
    (job.standardPayloadStorageVersion == some 0 || job.standardResultStorageVersion == some 0 ||
      !job.standardRequestFingerprint.any isKeyed)

/-- The condition of the last count. -/
def StoredJob.isLeft (job : StoredJob) : Bool :=
  job.confidentialityMode == .standard &&
    (job.standardPayloadStorageVersion != some 1 || !isEnvelope job.encryptedPayload ||
      (job.resultCiphertext.isSome && (job.standardResultStorageVersion != some 1 ||
        !job.resultCiphertext.any isEnvelope)) ||
      !job.standardRequestFingerprint.any isKeyed)

def isEnvelopeChar (c : Char) : Bool := c.isAlphanum || c == '_' || c == '-'

/-- `^mindone-standard-aead-v1:[A-Za-z0-9_-]+$`. -/
def matchesEnvelope (text : String) : Bool :=
  (stripMarker envelopeMarker.toList text.toList).any fun rest =>
    !rest.isEmpty && rest.all isEnvelopeChar

/-- `^mindone-standard-hmac-v1:[0-9a-f]{64}$`. -/
def matchesFingerprint (text : String) : Bool :=
  (stripMarker fingerprintMarker.toList text.toList).any (validLowerHex · 64)

/-- The trigger before every write of a job. -/
def enforceStandardDataAtRest (job : StoredJob) : Bool :=
  match job.confidentialityMode with
  | .standard =>
      job.standardPayloadStorageVersion == some 1 && matchesEnvelope job.encryptedPayload &&
        job.standardRequestFingerprint.any matchesFingerprint &&
        match job.resultCiphertext with
        | none => job.standardResultStorageVersion == none
        | some value => job.standardResultStorageVersion == some 1 && matchesEnvelope value
  | .regulated =>
      job.standardPayloadStorageVersion == none && job.standardResultStorageVersion == none

end Rows

section Migration
variable (primitives : StoragePrimitives) (draws : Nat → Option (Bytes 12)) (key : Bytes 32)

def checkKeyCommitment (db : StandardDb) : Except StandardDataMigrationError StandardDb := do
  let expected := keyCommitment primitives key
  let stored := db.keyCommitment.getD (String.ofList (hexEncode expected.toList))
  let bytes ← okOr .protection ((hexDecode stored.toList).bind (Bytes.tryInto 32))
  rejectIf (expected ≠ bytes) .protection
  return { db with keyCommitment := some stored }

def storePayload (draw : Option (Bytes 12)) (job : StoredJob) :
    Except StandardDataMigrationError String := do
  let version ← okOr .database job.standardPayloadStorageVersion
  if version = 0 then
    (encryptForStorage primitives draw key job.id .payload (utf8 job.encryptedPayload)).mapError
      fun _ => .protection
  else if version = storageVersion ∧ isEnvelope job.encryptedPayload = true then
    .ok job.encryptedPayload
  else .error .protection

def storeResult (draw : Option (Bytes 12)) (job : StoredJob) :
    Except StandardDataMigrationError (Option String) :=
  match job.standardResultStorageVersion, job.resultCiphertext with
  | some version, some value =>
      if version = 0 then
        ((encryptForStorage primitives draw key job.id .result (utf8 value)).map some).mapError
          fun _ => .protection
      else if version = storageVersion ∧ isEnvelope value = true then .ok (some value)
      else .error .protection
  | none, none => .ok none
  | _, _ => .error .protection

def storeFingerprint (job : StoredJob) : Except StandardDataMigrationError String :=
  match job.standardRequestFingerprint with
  | some value =>
      if isKeyed value = true then
        if matchesFingerprint value = true then .ok value else .error .protection
      else
        (okOr .protection ((hexDecode value.toList).bind (Bytes.tryInto 32))).map
          (fingerprintFromLegacyDigest primitives key)
  | none => .error .protection

/-- What a run has written, and how many draws it has used. -/
structure MigrationRun where
  db : StandardDb
  used : Nat

def drawsFor (version : Option Int) : Nat := if version = some 0 then 1 else 0

/-- The row that the `UPDATE` leaves. -/
def StoredJob.rewritten (job : StoredJob) (payload : String) (result : Option String)
    (fingerprint : String) : StoredJob :=
  { job with
    encryptedPayload := payload
    standardPayloadStorageVersion := some 1
    resultCiphertext := result
    standardResultStorageVersion := if result = none then none else some 1
    standardRequestFingerprint := some fingerprint }

def migrateRow (run : MigrationRun) (job : StoredJob) :
    Except StandardDataMigrationError MigrationRun := do
  let drawn := run.used + drawsFor job.standardPayloadStorageVersion
  let payload ← storePayload primitives key (draws run.used) job
  let result ← storeResult primitives key (draws drawn) job
  let fingerprint ← storeFingerprint primitives key job
  rejectIf (enforceStandardDataAtRest (job.rewritten payload result fingerprint) = false) .database
  return {
    db := { run.db with jobs := run.db.jobs.set (job.rewritten payload result fingerprint) }
    used := drawn + drawsFor job.standardResultStorageVersion }

/-- `ORDER BY id LIMIT 100`. -/
def selectBatch (db : StandardDb) : List StoredJob :=
  ((db.jobs.rows.filter StoredJob.isSelected).mergeSort fun a b =>
    decide (a.id.asU128.toNat ≤ b.id.asU128.toNat)).take migrationBatchSize

/-- The loop, for so many batches; no result means that it still runs. -/
def migrateLoop : Nat → MigrationRun → Option (Except StandardDataMigrationError MigrationRun)
  | 0, _ => none
  | fuel + 1, run =>
      match selectBatch run.db with
      | [] => some (.ok run)
      | job :: rest =>
          match (job :: rest).foldlM (migrateRow primitives draws key) run with
          | .error e => some (.error e)
          | .ok run => migrateLoop fuel run

def legacyCount (db : StandardDb) : Nat := db.jobs.rows.countP StoredJob.isLeft

/-- The transaction: what is committed, and the answer. -/
def migrateLegacyRows (fuel : Nat) (db : StandardDb) :
    Option (StandardDb × Except StandardDataMigrationError Unit) :=
  match checkKeyCommitment primitives key db with
  | .error e => some (db, .error e)
  | .ok keyed =>
      match migrateLoop primitives draws key fuel ⟨keyed, 0⟩ with
      | none => none
      | some (.error e) => some (db, .error e)
      | some (.ok run) =>
          if legacyCount run.db ≠ 0 then some (db, .error .protection) else some (run.db, .ok ())

end Migration

section Preservation
variable (primitives : StoragePrimitives) (key : Bytes 32)

/-- What a stored value stands for. -/
def storedPlaintext (jobId : Uuid) (direction : StorageDirection) (version : Option Int)
    (value : String) : Except StandardDataError (List UInt8) :=
  if version = some 0 then .ok (utf8 value)
  else decryptFromStorage primitives key jobId direction value

/-- A value of the current version stays, and one from before is sealed once. -/
structure ValuePreserved (jobId : Uuid) (direction : StorageDirection) (before after : Option Int)
    (old new : String) : Prop where
  version : after = some 1
  plaintext : decryptFromStorage primitives key jobId direction new =
    storedPlaintext primitives key jobId direction before old
  untouched : before = some 1 → new = old

/-- A migrated row holds what it held before. -/
structure JobPreserved (before after : StoredJob) : Prop where
  id : after.id = before.id
  confidentialityMode : after.confidentialityMode = before.confidentialityMode
  payload : ValuePreserved primitives key before.id .payload before.standardPayloadStorageVersion
    after.standardPayloadStorageVersion before.encryptedPayload after.encryptedPayload
  result : (before.resultCiphertext = none ∧ after.resultCiphertext = none) ∨
    ∃ old new, before.resultCiphertext = some old ∧ after.resultCiphertext = some new ∧
      ValuePreserved primitives key before.id .result before.standardResultStorageVersion
        after.standardResultStorageVersion old new
  fingerprint : ∃ old new, before.standardRequestFingerprint = some old ∧
    after.standardRequestFingerprint = some new ∧ (isKeyed old = true → new = old) ∧
    (isKeyed old = false → ∃ digest : Bytes 32, hexDecode old.toList = some digest.toList ∧
      new = fingerprintFromLegacyDigest primitives key digest)

variable {primitives key}

theorem valuePreserved_of_encrypt (lawful : primitives.Lawful) {draw : Option (Bytes 12)}
    {jobId : Uuid} {direction : StorageDirection} {old new : String}
    (h : encryptForStorage primitives draw key jobId direction (utf8 old) = .ok new) :
    ValuePreserved primitives key jobId direction (some 0) (some 1) old new where
  version := rfl
  plaintext := decryptFromStorage_encryptForStorage lawful h
  untouched := fun hversion => absurd hversion (by decide)

theorem valuePreserved_of_current (jobId : Uuid) (direction : StorageDirection) (value : String) :
    ValuePreserved primitives key jobId direction (some 1) (some 1) value value where
  version := rfl
  plaintext := rfl
  untouched := fun _ => rfl

theorem valuePreserved_of_storePayload (lawful : primitives.Lawful) {draw : Option (Bytes 12)}
    {job : StoredJob} {new : String} (h : storePayload primitives key draw job = .ok new) :
    ValuePreserved primitives key job.id .payload job.standardPayloadStorageVersion (some 1)
      job.encryptedPayload new := by
  simp only [storePayload, bind_eq_ok, okOr_eq_ok] at h
  obtain ⟨version, hversion, h⟩ := h
  rw [hversion]
  split at h
  · rename_i hzero
    subst hzero
    exact valuePreserved_of_encrypt lawful (mapError_eq_ok.mp h)
  · split at h
    · rename_i hcurrent
      obtain ⟨hone, _⟩ := hcurrent
      subst hone
      cases h
      exact valuePreserved_of_current _ _ _
    · cases h

theorem valuePreserved_of_storeResult (lawful : primitives.Lawful) {draw : Option (Bytes 12)}
    {job : StoredJob} {new : Option String} (h : storeResult primitives key draw job = .ok new) :
    (job.resultCiphertext = none ∧ new = none) ∨
      ∃ old value, job.resultCiphertext = some old ∧ new = some value ∧
        ValuePreserved primitives key job.id .result job.standardResultStorageVersion (some 1) old
          value := by
  simp only [storeResult] at h
  cases hversion : job.standardResultStorageVersion with
  | none =>
      cases hvalue : job.resultCiphertext with
      | none =>
          simp only [hversion, hvalue, Except.ok.injEq] at h
          exact .inl ⟨rfl, h.symm⟩
      | some old => simp [hversion, hvalue] at h
  | some version =>
      cases hvalue : job.resultCiphertext with
      | none => simp [hversion, hvalue] at h
      | some old =>
          simp only [hversion, hvalue] at h
          split at h
          · rename_i hzero
            subst hzero
            cases hstored : encryptForStorage primitives draw key job.id .result (utf8 old) with
            | error e =>
                rw [hstored] at h
                cases h
            | ok value =>
                rw [hstored] at h
                cases h
                exact .inr ⟨old, value, rfl, rfl, valuePreserved_of_encrypt lawful hstored⟩
          · split at h
            · rename_i hcurrent
              obtain ⟨hone, _⟩ := hcurrent
              subst hone
              cases h
              exact .inr ⟨old, old, rfl, rfl, valuePreserved_of_current _ _ _⟩
            · cases h

theorem isKeyed_fingerprintFromLegacyDigest (digest : Bytes 32) :
    isKeyed (fingerprintFromLegacyDigest primitives key digest) = true :=
  startsWith_append _ _

theorem storeFingerprint_eq_ok {job : StoredJob} {new : String}
    (h : storeFingerprint primitives key job = .ok new) :
    isKeyed new = true ∧ ∃ old, job.standardRequestFingerprint = some old ∧
      (isKeyed old = true → new = old) ∧
      (isKeyed old = false → ∃ digest : Bytes 32, hexDecode old.toList = some digest.toList ∧
        new = fingerprintFromLegacyDigest primitives key digest) := by
  simp only [storeFingerprint] at h
  cases hold : job.standardRequestFingerprint with
  | none => simp [hold] at h
  | some old =>
      simp only [hold] at h
      by_cases hkeyed : isKeyed old = true
      · rw [if_pos hkeyed] at h
        split at h
        · cases h
          refine ⟨hkeyed, _, rfl, fun _ => rfl, fun hnot => ?_⟩
          rw [hkeyed] at hnot
          cases hnot
        · cases h
      · rw [if_neg hkeyed] at h
        cases hdigest : (hexDecode old.toList).bind (Bytes.tryInto 32) with
        | none =>
            rw [hdigest] at h
            cases h
        | some digest =>
            rw [hdigest] at h
            cases h
            obtain ⟨bytes, hbytes, harray⟩ := Option.bind_eq_some_iff.mp hdigest
            refine ⟨isKeyed_fingerprintFromLegacyDigest digest, old, rfl,
              fun h => absurd h hkeyed, fun _ => ⟨digest, ?_, rfl⟩⟩
            rw [hbytes, Regulated.tryInto_eq_some.mp harray]

theorem isSelected_rewritten {job : StoredJob} {payload fingerprint : String}
    {result : Option String} (h : isKeyed fingerprint = true) :
    (job.rewritten payload result fingerprint).isSelected = false := by
  cases result with
  | none => simp [StoredJob.isSelected, StoredJob.rewritten, h]
  | some value => simp [StoredJob.isSelected, StoredJob.rewritten, h]

/-- One step rewrites one row, and the row is not selected again. -/
theorem migrateRow_eq_ok (lawful : primitives.Lawful) {draws : Nat → Option (Bytes 12)}
    {run next : MigrationRun} {job : StoredJob}
    (h : migrateRow primitives draws key run job = .ok next) :
    ∃ after, next.db = { run.db with jobs := run.db.jobs.set after } ∧
      JobPreserved primitives key job after ∧ after.isSelected = false := by
  simp only [migrateRow, bind_eq_ok] at h
  obtain ⟨payload, hpayload, result, hresult, fingerprint, hfingerprint, _, _, hnext⟩ := h
  cases hnext
  obtain ⟨hkeyed, old, hold, hsame, hdigest⟩ := storeFingerprint_eq_ok hfingerprint
  refine ⟨job.rewritten payload result fingerprint, rfl, ?_, isSelected_rewritten hkeyed⟩
  constructor
  · rfl
  · rfl
  · exact valuePreserved_of_storePayload lawful hpayload
  · rcases valuePreserved_of_storeResult lawful hresult with
      ⟨hnone, hnew⟩ | ⟨old, new, hsome, hnew, hvalue⟩
    · exact .inl ⟨hnone, hnew⟩
    · subst hnew
      exact .inr ⟨old, new, hsome, rfl, hvalue⟩
  · exact ⟨old, fingerprint, hold, rfl, hsame, hdigest⟩

end Preservation

section Loop
variable {primitives : StoragePrimitives} {key : Bytes 32}

/-- Every row is as before, or it was selected and is migrated. -/
structure Progress (primitives : StoragePrimitives) (key : Bytes 32)
    (before after : StandardDb) : Prop where
  keyCommitment : after.keyCommitment = before.keyCommitment
  row : ∀ id, after.jobs.find id = before.jobs.find id ∨
    ∃ old new, before.jobs.find id = some old ∧ after.jobs.find id = some new ∧
      old.isSelected = true ∧ new.isSelected = false ∧ JobPreserved primitives key old new

theorem Progress.refl (db : StandardDb) : Progress primitives key db db :=
  ⟨rfl, fun _ => .inl rfl⟩

theorem Progress.trans {a b c : StandardDb} (h : Progress primitives key a b)
    (h' : Progress primitives key b c) : Progress primitives key a c := by
  refine ⟨h'.keyCommitment.trans h.keyCommitment, fun id => ?_⟩
  rcases h.row id with hsame | ⟨old, new, hold, hnew, hselected, hdone, hpreserved⟩
  · rcases h'.row id with hsame' | ⟨old, new, hold, hnew, rest⟩
    · exact .inl (hsame'.trans hsame)
    · exact .inr ⟨old, new, hsame ▸ hold, hnew, rest⟩
  · rcases h'.row id with hsame' | ⟨old', new', hold', hnew', hselected', rest⟩
    · exact .inr ⟨old, new, hold, hsame'.trans hnew, hselected, hdone, hpreserved⟩
    · rw [hnew] at hold'
      cases hold'
      rw [hdone] at hselected'
      cases hselected'

theorem progress_of_migrateRow (lawful : primitives.Lawful) {draws : Nat → Option (Bytes 12)}
    {run next : MigrationRun} {job : StoredJob} (hselected : job.isSelected = true)
    (hfound : run.db.jobs.find job.id = some job)
    (h : migrateRow primitives draws key run job = .ok next) :
    Progress primitives key run.db next.db ∧
      (∃ after, next.db.jobs.find job.id = some after ∧ after.isSelected = false) ∧
      ∀ id, id ≠ job.id → next.db.jobs.find id = run.db.jobs.find id := by
  obtain ⟨after, hdb, hpreserved, hdone⟩ := migrateRow_eq_ok lawful h
  have hid : after.id = job.id := hpreserved.id
  have hnew : next.db.jobs.find job.id = some after := by
    rw [hdb]
    simp only [Table.find_set, hid, if_true]
  have hother : ∀ id, id ≠ job.id → next.db.jobs.find id = run.db.jobs.find id := by
    intro id hne
    rw [hdb]
    exact Table.find_set_ne (hid ▸ hne)
  refine ⟨⟨by rw [hdb], fun id => ?_⟩, ⟨after, hnew, hdone⟩, hother⟩
  by_cases hsame : id = job.id
  · subst hsame
    exact .inr ⟨job, after, hfound, hnew, hselected, hdone, hpreserved⟩
  · exact .inl (hother id hsame)

/-- A batch rewrites its own rows and no other. -/
theorem progress_of_batch (lawful : primitives.Lawful) {draws : Nat → Option (Bytes 12)}
    {batch : List StoredJob} {run next : MigrationRun} (hnodup : (batch.map StoredJob.id).Nodup)
    (hselected : ∀ job ∈ batch, job.isSelected = true)
    (hfound : ∀ job ∈ batch, run.db.jobs.find job.id = some job)
    (h : batch.foldlM (migrateRow primitives draws key) run = .ok next) :
    Progress primitives key run.db next.db ∧
      ∀ job ∈ batch, ∃ after, next.db.jobs.find job.id = some after ∧ after.isSelected = false := by
  induction batch generalizing run with
  | nil =>
      cases h
      exact ⟨.refl _, by simp⟩
  | cons job rest ih =>
      simp only [List.foldlM_cons, bind_eq_ok] at h
      obtain ⟨middle, hrow, hrest⟩ := h
      simp only [List.map_cons, List.nodup_cons] at hnodup
      obtain ⟨hfresh, hnodup⟩ := hnodup
      obtain ⟨hfirst, ⟨after, hafter, hdone⟩, hother⟩ := progress_of_migrateRow lawful
        (hselected job (.head _)) (hfound job (.head _)) hrow
      have hkept : ∀ other ∈ rest, middle.db.jobs.find other.id = some other := by
        intro other hmem
        have hne : other.id ≠ job.id := fun hsame => hfresh (hsame ▸ List.mem_map_of_mem hmem)
        rw [hother other.id hne]
        exact hfound other (.tail _ hmem)
      obtain ⟨hlast, hrewritten⟩ :=
        ih hnodup (fun other hmem => hselected other (.tail _ hmem)) hkept hrest
      refine ⟨hfirst.trans hlast, ?_⟩
      rw [List.forall_mem_cons]
      refine ⟨?_, hrewritten⟩
      rcases hlast.row job.id with hsame | ⟨_, new, _, hnew, _, hnewDone, _⟩
      · exact ⟨after, hsame.trans hafter, hdone⟩
      · exact ⟨new, hnew, hnewDone⟩

theorem mem_selectBatch {db : StandardDb} {job : StoredJob} (h : job ∈ selectBatch db) :
    job.isSelected = true ∧ db.jobs.find job.id = some job := by
  have hmem := List.mem_of_mem_take h
  rw [List.mem_mergeSort, List.mem_filter] at hmem
  exact ⟨hmem.2, Table.find_of_mem hmem.1⟩

theorem nodup_selectBatch (db : StandardDb) : ((selectBatch db).map StoredJob.id).Nodup := by
  have hfiltered : ((db.jobs.rows.filter StoredJob.isSelected).map StoredJob.id).Nodup :=
    db.jobs.nodup.sublist (List.filter_sublist.map _)
  have hsorted := ((List.mergeSort_perm (db.jobs.rows.filter StoredJob.isSelected)
    fun a b => decide (a.id.asU128.toNat ≤ b.id.asU128.toNat)).map StoredJob.id).nodup_iff.mpr
      hfiltered
  exact hsorted.sublist ((List.take_sublist _ _).map _)

theorem not_isSelected_of_selectBatch {db : StandardDb} (h : selectBatch db = []) {id : Uuid}
    {job : StoredJob} (hfound : db.jobs.find id = some job) : job.isSelected = false := by
  simp only [selectBatch, List.take_eq_nil_iff, migrationBatchSize] at h
  have hempty := h.resolve_left (by decide)
  have hlength := congrArg List.length hempty
  rw [List.length_mergeSort, List.length_nil, List.length_eq_zero_iff,
    List.filter_eq_nil_iff] at hlength
  exact Bool.eq_false_iff.mpr (hlength job (Table.mem_of_find hfound))

/-- The rows that are still to be migrated. -/
def pending (db : StandardDb) : Finset Uuid := db.jobs.keysWhere StoredJob.isSelected

theorem pending_subset {a b : StandardDb} (h : Progress primitives key a b) :
    pending b ⊆ pending a := by
  intro id hid
  obtain ⟨job, hjob, hselected⟩ := Table.mem_keysWhere.mp hid
  rcases h.row id with hsame | ⟨_, new, _, hnew, _, hdone, _⟩
  · exact Table.mem_keysWhere.mpr ⟨job, hsame ▸ hjob, hselected⟩
  · rw [hnew] at hjob
    cases hjob
    rw [hdone] at hselected
    cases hselected

/-- Each batch makes the rest smaller, so the loop ends. -/
theorem migrateLoop_terminates (lawful : primitives.Lawful) (draws : Nat → Option (Bytes 12))
    (bound : Nat) (run : MigrationRun) (hbound : (pending run.db).card ≤ bound) :
    ∃ outcome, (∀ fuel, bound < fuel → migrateLoop primitives draws key fuel run = some outcome) ∧
      ∀ final, outcome = .ok final →
        Progress primitives key run.db final.db ∧ selectBatch final.db = [] := by
  induction bound using Nat.strong_induction_on generalizing run with
  | _ bound ih =>
      cases hbatch : selectBatch run.db with
      | nil =>
          refine ⟨.ok run, fun fuel hfuel => ?_, fun final hfinal => ?_⟩
          · obtain ⟨fuel, rfl⟩ := Nat.exists_eq_add_of_lt hfuel
            simp only [migrateLoop, hbatch]
          · cases hfinal
            exact ⟨.refl _, hbatch⟩
      | cons job rest =>
          cases hfold : (job :: rest).foldlM (migrateRow primitives draws key) run with
          | error e =>
              refine ⟨.error e, fun fuel hfuel => ?_, fun final hfinal => ?_⟩
              · obtain ⟨fuel, rfl⟩ := Nat.exists_eq_add_of_lt hfuel
                simp only [migrateLoop, hbatch, hfold]
              · cases hfinal
          | ok next =>
              have hnodup := nodup_selectBatch run.db
              rw [hbatch] at hnodup
              have hrows : ∀ other ∈ job :: rest, other.isSelected = true ∧
                  run.db.jobs.find other.id = some other :=
                fun other hmem => mem_selectBatch (hbatch ▸ hmem)
              obtain ⟨hprogress, hdone⟩ := progress_of_batch lawful hnodup
                (fun other hmem => (hrows other hmem).1) (fun other hmem => (hrows other hmem).2)
                hfold
              obtain ⟨after, hafter, hnot⟩ := hdone job (.head _)
              obtain ⟨hselected, hfound⟩ := hrows job (.head _)
              have hsmaller : (pending next.db).card < (pending run.db).card := by
                refine Finset.card_lt_card ⟨pending_subset hprogress, fun hsubset => ?_⟩
                obtain ⟨found, hfoundNext, hstill⟩ := Table.mem_keysWhere.mp
                  (hsubset (Table.mem_keysWhere.mpr ⟨job, hfound, hselected⟩))
                rw [hafter] at hfoundNext
                cases hfoundNext
                rw [hnot] at hstill
                cases hstill
              obtain ⟨outcome, hruns, hok⟩ := ih (bound - 1) (by omega) next (by omega)
              refine ⟨outcome, fun fuel hfuel => ?_, fun final hfinal => ?_⟩
              · obtain ⟨fuel, rfl⟩ := Nat.exists_eq_add_of_lt hfuel
                simp only [migrateLoop, hbatch, hfold]
                exact hruns _ (by omega)
              · obtain ⟨hlast, hempty⟩ := hok final hfinal
                exact ⟨hprogress.trans hlast, hempty⟩

end Loop

section Meaning
variable {primitives : StoragePrimitives} {key : Bytes 32}

theorem jobPreserved_of_not_isLeft {job : StoredJob} (hstandard : job.confidentialityMode = .standard)
    (h : job.isLeft = false) : JobPreserved primitives key job job := by
  simp only [StoredJob.isLeft, hstandard, beq_self_eq_true, Bool.true_and, Bool.or_eq_false_iff,
    bne_eq_false_iff_eq, Bool.not_eq_false', Bool.and_eq_false_iff] at h
  obtain ⟨⟨⟨hpayload, _⟩, hresult⟩, hfingerprint⟩ := h
  obtain ⟨fingerprint, hsome, hkeyed⟩ := (Option.any_eq_true _ _).mp hfingerprint
  refine ⟨rfl, rfl, ?_, ?_, fingerprint, fingerprint, hsome, hsome, fun _ => rfl, fun hnot => ?_⟩
  · rw [hpayload]
    exact valuePreserved_of_current _ _ _
  · cases hvalue : job.resultCiphertext with
    | none => exact .inl ⟨rfl, rfl⟩
    | some value =>
        rcases hresult with hnone | ⟨hversion, _⟩
        · rw [hvalue] at hnone
          cases hnone
        · refine .inr ⟨value, value, rfl, rfl, ?_⟩
          rw [hversion]
          exact valuePreserved_of_current _ _ _
  · rw [hkeyed] at hnot
    cases hnot

theorem checkKeyCommitment_eq_ok {db keyed : StandardDb}
    (h : checkKeyCommitment primitives key db = .ok keyed) :
    keyed.jobs = db.jobs ∧ ∃ stored, keyed.keyCommitment = some stored ∧
      (hexDecode stored.toList).bind (Bytes.tryInto 32) = some (keyCommitment primitives key) := by
  simp only [checkKeyCommitment, bind_eq_ok, okOr_eq_ok, rejectIf_eq_ok, exists_const] at h
  obtain ⟨bytes, hbytes, hsame, hkeyed⟩ := h
  cases hkeyed
  refine ⟨rfl, _, rfl, ?_⟩
  rw [hbytes, not_not.mp hsame]

/-- A database that is bound to a key is accepted as it is under this key, and refused under
a key with another commitment. -/
theorem checkKeyCommitment_of_stored {db : StandardDb} {stored : String}
    (hstored : db.keyCommitment = some stored)
    (hbytes : (hexDecode stored.toList).bind (Bytes.tryInto 32) =
      some (keyCommitment primitives key)) (other : Bytes 32) :
    checkKeyCommitment primitives other db =
      if keyCommitment primitives other = keyCommitment primitives key then .ok db
      else .error .protection := by
  have hsame : { db with keyCommitment := some stored } = db := by rw [← hstored]
  by_cases h : keyCommitment primitives other = keyCommitment primitives key
  · rw [if_pos h]
    simp only [checkKeyCommitment, hstored, Option.getD_some, hbytes, okOr, bind, Except.bind]
    rw [rejectIf_of_not _ (not_not.mpr h)]
    simp only [hsame]
    rfl
  · rw [if_neg h]
    simp only [checkKeyCommitment, hstored, Option.getD_some, hbytes, okOr, bind, Except.bind,
      rejectIf]
    rw [if_pos h]

/-- What a migration that succeeds leaves. -/
structure Migrated (primitives : StoragePrimitives) (key : Bytes 32)
    (before after : StandardDb) : Prop where
  absent : ∀ id, before.jobs.find id = none → after.jobs.find id = none
  regulated : ∀ id job, before.jobs.find id = some job → job.confidentialityMode = .regulated →
    after.jobs.find id = some job
  standard : ∀ id job, before.jobs.find id = some job → job.confidentialityMode = .standard →
    ∃ new, after.jobs.find id = some new ∧ JobPreserved primitives key job new

theorem standard_of_isSelected {job : StoredJob} (h : job.isSelected = true) :
    job.confidentialityMode = .standard := by
  simp only [StoredJob.isSelected, Bool.and_eq_true, beq_iff_eq] at h
  exact h.1

theorem not_isLeft_of_legacyCount {db : StandardDb} (h : legacyCount db = 0) {id : Uuid}
    {job : StoredJob} (hfound : db.jobs.find id = some job) : job.isLeft = false :=
  Bool.eq_false_iff.mpr (List.countP_eq_zero.mp h job (Table.mem_of_find hfound))

theorem migrated_of_progress {before keyed after : StandardDb} (hjobs : keyed.jobs = before.jobs)
    (h : Progress primitives key keyed after) (hcount : legacyCount after = 0) :
    Migrated primitives key before after := by
  constructor
  · intro id hnone
    rw [← hjobs] at hnone
    rcases h.row id with hsame | ⟨old, _, hold, _⟩
    · rw [hsame, hnone]
    · rw [hnone] at hold
      cases hold
  · intro id job hjob hregulated
    rw [← hjobs] at hjob
    rcases h.row id with hsame | ⟨old, _, hold, _, hselected, _⟩
    · rw [hsame, hjob]
    · rw [hjob] at hold
      cases hold
      rw [standard_of_isSelected hselected] at hregulated
      cases hregulated
  · intro id job hjob hstandard
    rw [← hjobs] at hjob
    rcases h.row id with hsame | ⟨old, new, hold, hnew, _, _, hpreserved⟩
    · rw [hjob] at hsame
      exact ⟨job, hsame,
        jobPreserved_of_not_isLeft hstandard (not_isLeft_of_legacyCount hcount hsame)⟩
    · rw [hjob] at hold
      cases hold
      exact ⟨new, hnew, hpreserved⟩

/-- A database without legacy rows is left as it is. -/
theorem migrateLegacyRows_of_migrated {db : StandardDb} (hempty : selectBatch db = [])
    (hcount : legacyCount db = 0) (hkeyed : checkKeyCommitment primitives key db = .ok db)
    (draws : Nat → Option (Bytes 12)) (fuel : Nat) :
    migrateLegacyRows primitives draws key (fuel + 1) db = some (db, .ok ()) := by
  simp only [migrateLegacyRows, hkeyed, migrateLoop, hempty, hcount, ne_eq, not_true_eq_false,
    if_false]

end Meaning

section Outcome
variable {primitives : StoragePrimitives}

/-- The migration ends; it fails and changes nothing, or every row holds what it held before,
another run changes nothing, and a run under another key is refused. -/
theorem migrateLegacyRows_outcome (lawful : primitives.Lawful) (draws : Nat → Option (Bytes 12))
    (key : Bytes 32) (db : StandardDb) :
    ∃ after answer,
      (∀ fuel, db.jobs.rows.length < fuel →
        migrateLegacyRows primitives draws key fuel db = some (after, answer)) ∧
      (∀ e, answer = .error e → after = db) ∧
      (answer = .ok () → Migrated primitives key db after ∧
        (∀ draws' fuel, 0 < fuel →
          migrateLegacyRows primitives draws' key fuel after = some (after, .ok ())) ∧
        ∀ other draws' fuel, keyCommitment primitives other ≠ keyCommitment primitives key →
          migrateLegacyRows primitives draws' other fuel after =
            some (after, .error .protection)) := by
  cases hkey : checkKeyCommitment primitives key db with
  | error e =>
      refine ⟨db, .error e, fun fuel _ => ?_, fun _ _ => rfl, ?_⟩
      · simp only [migrateLegacyRows, hkey]
      · intro h
        cases h
  | ok keyed =>
      obtain ⟨hjobs, stored, hstored, hbytes⟩ := checkKeyCommitment_eq_ok hkey
      have hbound : (pending keyed).card ≤ db.jobs.rows.length := by
        rw [pending, Table.card_keysWhere, hjobs]
        exact List.countP_le_length
      obtain ⟨outcome, hruns, hok⟩ := @migrateLoop_terminates primitives key lawful draws
        db.jobs.rows.length ⟨keyed, 0⟩ hbound
      cases outcome with
      | error e =>
          refine ⟨db, .error e, fun fuel hfuel => ?_, fun _ _ => rfl, ?_⟩
          · simp only [migrateLegacyRows, hkey, hruns fuel hfuel]
          · intro h
            cases h
      | ok run =>
          obtain ⟨hprogress, hempty⟩ := hok run rfl
          by_cases hcount : legacyCount run.db = 0
          · refine ⟨run.db, .ok (), fun fuel hfuel => ?_, ?_, fun _ => ⟨?_, ?_, ?_⟩⟩
            · simp only [migrateLegacyRows, hkey, hruns fuel hfuel, hcount, ne_eq,
                not_true_eq_false, if_false]
            · intro e h
              cases h
            · exact migrated_of_progress hjobs hprogress hcount
            · intro draws' fuel hfuel
              obtain ⟨fuel, rfl⟩ := Nat.exists_eq_add_of_lt hfuel
              exact migrateLegacyRows_of_migrated hempty hcount (by
                rw [checkKeyCommitment_of_stored (hprogress.keyCommitment.trans hstored) hbytes,
                  if_pos rfl]) draws' _
            · intro other draws' fuel hother
              simp only [migrateLegacyRows, if_neg hother,
                checkKeyCommitment_of_stored (hprogress.keyCommitment.trans hstored) hbytes]
          · refine ⟨db, .error .protection, fun fuel hfuel => ?_, fun _ _ => rfl, ?_⟩
            · simp only [migrateLegacyRows, hkey, hruns fuel hfuel, ne_eq, hcount,
                not_false_eq_true, if_true]
            · intro h
              cases h

def sampleMasterKey : Bytes 32 := ⟨List.replicate 32 3, by decide⟩

def sampleEncryptionKey : Bytes 32 :=
  ⟨[0x02, 0xa0, 0xd6, 0xc2, 0x34, 0xef, 0x1a, 0x9e, 0x13, 0x4f, 0xd7, 0xbb, 0x98, 0x49, 0xbc, 0x8e,
    0x99, 0x59, 0x05, 0x95, 0xd0, 0x28, 0xb8, 0x19, 0x80, 0x8a, 0x63, 0xfe, 0xb9, 0xea, 0xc6, 0x23],
    by decide⟩

def sampleFingerprintKey : Bytes 32 :=
  ⟨[0x78, 0xa6, 0x17, 0x6e, 0x18, 0xcf, 0xe4, 0x77, 0xcc, 0x41, 0xf2, 0xc6, 0x7b, 0x35, 0x0c, 0xc9,
    0x1c, 0xdb, 0x3b, 0x94, 0xee, 0x27, 0x67, 0x28, 0x91, 0x36, 0xb2, 0xb9, 0xae, 0xd7, 0x5a, 0xe5],
    by decide⟩

def sampleCommitmentKey : Bytes 32 :=
  ⟨[0x44, 0xe5, 0x0c, 0xf0, 0xbe, 0xc2, 0xe3, 0x9c, 0xf9, 0xae, 0x0d, 0x23, 0x54, 0xa8, 0x92, 0xa4,
    0x9f, 0x29, 0xdd, 0x09, 0x67, 0x07, 0x2a, 0x98, 0x7d, 0x79, 0x8c, 0xe3, 0x00, 0xa2, 0x09, 0x16],
    by decide⟩

def sampleCommitment : Bytes 32 :=
  ⟨[0x18, 0x53, 0x54, 0x22, 0xb9, 0x65, 0x6d, 0x93, 0x37, 0xec, 0x2c, 0x4b, 0x4e, 0x82, 0xe3, 0x9b,
    0xb4, 0x12, 0x27, 0xdd, 0x70, 0x3d, 0xf1, 0x79, 0x34, 0x71, 0x97, 0x4f, 0xad, 0x6e, 0x10, 0x12],
    by decide⟩

def sampleTag : Bytes 32 :=
  ⟨[0x36, 0x6c, 0xa3, 0xba, 0xa3, 0xf9, 0xe7, 0x69, 0xf3, 0xcb, 0xb6, 0x58, 0x7b, 0xa3, 0x0e, 0x9f,
    0x7b, 0xd7, 0xe4, 0x23, 0xba, 0x14, 0x6d, 0x90, 0x4c, 0x81, 0x14, 0xe4, 0xc3, 0xbf, 0x12, 0x5c],
    by decide⟩

def sampleSealed : List UInt8 × Bytes 16 :=
  ([0x93, 0x0a], ⟨[0x35, 0xe9, 0x3a, 0x20, 0xa4, 0x5e, 0xa8, 0x3c, 0x96, 0x99, 0x0e, 0xed, 0xf8,
    0x92, 0xd8, 0xb5], by decide⟩)

def sampleJob : StoredJob where
  id := .fromU128 1
  confidentialityMode := .standard
  encryptedPayload := "hi"
  resultCiphertext := none
  standardRequestFingerprint := some (String.ofList (List.replicate 64 '1'))
  standardPayloadStorageVersion := some 0
  standardResultStorageVersion := none

/-- The library's answers for the sample row, and a tag of zeros elsewhere. -/
def samplePrimitives : StoragePrimitives where
  hkdf salt secret info :=
    if (salt, secret) =
        (utf8 "MindOne Standard data at-rest HKDF salt v1", sampleMasterKey.toList) then
      if info = utf8 encryptionKeyInfo then sampleEncryptionKey
      else if info = utf8 fingerprintKeyInfo then sampleFingerprintKey
      else if info = utf8 commitmentKeyInfo then sampleCommitmentKey
      else Bytes.zero 32
    else Bytes.zero 32
  hmac key message :=
    if (key, message) =
        (sampleCommitmentKey, utf8 "MindOne Standard database key commitment v1") then
      sampleCommitment
    else if (key, message) = (sampleFingerprintKey,
        utf8 "MindOne Standard request fingerprint storage v1\x00" ++ List.replicate 32 0x11) then
      sampleTag
    else Bytes.zero 32
  sealInPlaceSeparateTag key nonce aad plaintext :=
    if (key, nonce, aad, plaintext) = (sampleEncryptionKey, ⟨List.replicate 12 5, by decide⟩,
        storageAad sampleJob.id .payload, utf8 "hi") then sampleSealed
    else (plaintext, Bytes.zero 16)
  openInPlace key nonce aad sealed :=
    if (key, nonce, aad, sealed) = (sampleEncryptionKey, ⟨List.replicate 12 5, by decide⟩,
        storageAad sampleJob.id .payload, sampleSealed.1 ++ sampleSealed.2.toList) then
      some (utf8 "hi")
    else if sealed.drop (sealed.length - 16) = (Bytes.zero 16).toList then
      some (sealed.take (sealed.length - 16))
    else none

theorem lawful_sample : samplePrimitives.Lawful := by
  constructor
  · intro key nonce aad plaintext
    simp only [samplePrimitives]
    split
    · rename_i h
      simp only [Prod.mk.injEq] at h
      rw [h.2.2.2]
      decide +kernel
    · rfl
  · intro key nonce aad plaintext
    simp only [samplePrimitives]
    by_cases h : (key, nonce, aad, plaintext) = (sampleEncryptionKey,
        ⟨List.replicate 12 5, by decide⟩, storageAad sampleJob.id .payload, utf8 "hi")
    · rw [if_pos h]
      simp only [Prod.mk.injEq] at h
      obtain ⟨hkey, hnonce, haad, hplaintext⟩ := h
      rw [if_pos (by rw [hkey, hnonce, haad]), hplaintext]
    · rw [if_neg h]
      have hlength : (plaintext ++ (Bytes.zero 16).toList).length - 16 = plaintext.length := by
        rw [List.length_append, (Bytes.zero 16).length_toList]
        omega
      rw [if_neg, hlength, List.drop_left, if_pos rfl, List.take_left]
      intro hsame
      simp only [Prod.mk.injEq] at hsame
      obtain ⟨_, _, _, hsealed⟩ := hsame
      have htags := List.append_inj_right' hsealed
        ((Bytes.zero 16).length_toList.trans sampleSealed.2.length_toList.symm)
      exact absurd htags (by decide +kernel)

def sampleStandardDb : StandardDb where
  keyCommitment := none
  jobs := ⟨[sampleJob], by decide⟩

/-- The row of the sample is migrated, and read back. -/
theorem migrateLegacyRows_outcome_sample :
    ∃ after,
      migrateLegacyRows samplePrimitives (fun _ => some ⟨List.replicate 12 5, by decide⟩)
        sampleMasterKey 2 sampleStandardDb = some (after, .ok ()) ∧
      Migrated samplePrimitives sampleMasterKey sampleStandardDb after := by
  obtain ⟨after, answer, hruns, _, hok⟩ := migrateLegacyRows_outcome lawful_sample
    (fun _ => some ⟨List.replicate 12 5, by decide⟩) sampleMasterKey sampleStandardDb
  have hrun := hruns 2 (by decide)
  have hanswer : answer = .ok () := by
    have hok : (migrateLegacyRows samplePrimitives (fun _ => some ⟨List.replicate 12 5, by decide⟩)
        sampleMasterKey 2 sampleStandardDb).all (fun run => run.2.isOk) = true := by decide +kernel
    rw [hrun] at hok
    cases answer with
    | ok _ => rfl
    | error e => cases hok
  rw [hanswer] at hrun
  exact ⟨after, hrun, (hok hanswer).1⟩

end Outcome

end MindOne.Coordinator
