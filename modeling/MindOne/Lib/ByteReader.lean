import Mathlib.Algebra.Group.Nat.Defs
import Mathlib.Data.List.Infix
import Mathlib.Data.Nat.Basic

/-!
# Readers of bytes

Programs that read a file forwards, count their reads and may skip bytes without looking
at them. One predicate says what a reader has consumed and how many reads this took, another
one what a reader does on given bytes; both compose along the steps of a program.
-/

namespace ByteReader

section Numbers

/-- The number that little-endian bytes stand for. -/
def leNumber (bytes : List UInt8) : Nat :=
  bytes.foldr (fun byte number => byte.toNat + 256 * number) 0

def leBytes : Nat → Nat → List UInt8
  | 0, _ => []
  | width + 1, number => UInt8.ofNat number :: leBytes width (number / 256)

@[simp] theorem length_leBytes (width number : Nat) : (leBytes width number).length = width := by
  induction width generalizing number with
  | zero => rfl
  | succ width ih => rw [leBytes, List.length_cons, ih]

theorem leNumber_lt (bytes : List UInt8) : leNumber bytes < 256 ^ bytes.length := by
  induction bytes with
  | nil => simp [leNumber]
  | cons byte rest ih =>
      have hbyte := byte.toNat_lt
      rw [List.length_cons, Nat.pow_succ]
      simp only [leNumber, List.foldr_cons] at ih ⊢
      omega

theorem leNumber_leBytes {width number : Nat} (h : number < 256 ^ width) :
    leNumber (leBytes width number) = number := by
  induction width generalizing number with
  | zero =>
      simp only [Nat.pow_zero] at h
      simp only [leBytes, leNumber, List.foldr_nil]
      omega
  | succ width ih =>
      have hquotient : number / 256 < 256 ^ width := by
        rw [Nat.pow_succ] at h
        omega
      have hrest := ih hquotient
      simp only [leNumber] at hrest
      simp only [leBytes, leNumber, List.foldr_cons, hrest, UInt8.toNat_ofNat']
      omega

theorem leBytes_leNumber (bytes : List UInt8) : leBytes bytes.length (leNumber bytes) = bytes := by
  induction bytes with
  | nil => rfl
  | cons byte rest ih =>
      have hbyte := byte.toNat_lt
      have hnumber : leNumber (byte :: rest) = byte.toNat + 256 * leNumber rest := rfl
      have hquotient : (byte.toNat + 256 * leNumber rest) / 256 = leNumber rest := by omega
      rw [List.length_cons, leBytes, hnumber, hquotient, ih]
      congr 1
      apply UInt8.toNat_inj.mp
      rw [UInt8.toNat_ofNat']
      omega

end Numbers

/-- What is left of a file, the place in it, and the reads so far. Past the end nothing is left. -/
structure Cursor where
  rest : List UInt8
  position : Nat
  reads : Nat

abbrev Reader (ε : Type) := EStateM ε Cursor

section Programs
variable {ε α β : Type}

/-- All of so many bytes or an error; an empty buffer is filled without a read. -/
def readExact (e : ε) (n : Nat) : Reader ε (List UInt8) := fun cursor =>
  if n = 0 then .ok [] cursor
  else if n ≤ cursor.rest.length then
    .ok (cursor.rest.take n) ⟨cursor.rest.drop n, cursor.position + n, cursor.reads + 1⟩
  else .error e { cursor with reads := cursor.reads + 1 }

/-- A seek forwards, which may pass the end of the file. -/
def skip (n : Nat) : Reader ε Unit := fun cursor =>
  .ok () { cursor with rest := cursor.rest.drop n, position := cursor.position + n }

def refuseIf (condition : Prop) [Decidable condition] (e : ε) : Reader ε Unit :=
  if condition then throw e else pure ()

def require (e : ε) : Option α → Reader ε α
  | some a => pure a
  | none => throw e

/-- A loop that throws its results away. -/
def times (x : Reader ε Unit) : Nat → Reader ε Unit
  | 0 => pure ()
  | n + 1 => do
      x
      times x n

/-- A loop that hands a state on. -/
def iterate (x : β → Reader ε β) : Nat → β → Reader ε β
  | 0, b => pure b
  | n + 1, b => do
      let b ← x b
      iterate x n b

/-- A loop that collects its results. -/
def collect (x : Reader ε α) : Nat → Reader ε (List α)
  | 0 => pure []
  | n + 1 => do
      let a ← x
      let rest ← collect x n
      return a :: rest

end Programs

/-- So many more reads than bytes. -/
structure Advances (slack : Nat) (before after : Cursor) : Prop where
  suffix : after.rest <:+ before.rest
  reads : after.reads + after.rest.length ≤ before.reads + before.rest.length + slack

theorem Advances.refl (slack : Nat) (cursor : Cursor) : Advances slack cursor cursor :=
  ⟨List.suffix_rfl, by omega⟩

theorem Advances.trans {slack : Nat} {a b c : Cursor} (h : Advances 0 a b)
    (h' : Advances slack b c) : Advances slack a c := by
  refine ⟨h'.suffix.trans h.suffix, ?_⟩
  have hfirst := h.reads
  have hsecond := h'.reads
  omega

section Reads
variable {ε α β : Type} {skips : Prop}

/-- A reader that succeeds has consumed certain bytes, or, if it skips, has passed the end of
the file. It makes one read for each byte at most, and one more when it fails. -/
structure Reads (skips : Prop) (x : Reader ε α) (P : α → List UInt8 → Prop) : Prop where
  ok : ∀ before a after, x before = .ok a after → Advances 0 before after ∧
    ((skips ∧ after.rest = []) ∨ ∃ bytes, before.rest = bytes ++ after.rest ∧
      after.position = before.position + bytes.length ∧ P a bytes)
  error : ∀ before e after, x before = .error e after → Advances 1 before after

theorem run_bind_eq_ok {x : Reader ε α} {f : α → Reader ε β} {before after : Cursor} {b : β} :
    (x >>= f) before = .ok b after ↔
      ∃ a middle, x before = .ok a middle ∧ f a middle = .ok b after := by
  simp only [bind, EStateM.bind]
  cases x before with
  | ok a middle => simp
  | error e middle => simp

theorem run_bind_eq_error {x : Reader ε α} {f : α → Reader ε β} {before after : Cursor} {e : ε} :
    (x >>= f) before = .error e after ↔ x before = .error e after ∨
      ∃ a middle, x before = .ok a middle ∧ f a middle = .error e after := by
  simp only [bind, EStateM.bind]
  cases x before with
  | ok a middle => simp
  | error e middle => simp

theorem run_refuseIf_eq_ok {condition : Prop} [Decidable condition] {e : ε} {done : Unit}
    {before after : Cursor} :
    refuseIf condition e before = .ok done after ↔ ¬ condition ∧ before = after := by
  by_cases h : condition
  · have hrefused : (refuseIf condition e : Reader ε Unit) before = .error e before := by
      rw [refuseIf, if_pos h]
      rfl
    rw [hrefused]
    simp [h]
  · simp [refuseIf, h, pure, EStateM.pure]

theorem reads_pure (a : α) {P : α → List UInt8 → Prop} (h : P a []) :
    Reads skips (pure a : Reader ε α) P where
  ok := by
    intro before a after hrun
    cases hrun
    exact ⟨.refl 0 _, .inr ⟨[], rfl, rfl, h⟩⟩
  error := by
    intro before e after hrun
    cases hrun

theorem reads_throw (e : ε) {P : α → List UInt8 → Prop} :
    Reads skips (throw e : Reader ε α) P where
  ok := by
    intro before a after hrun
    cases hrun
  error := by
    intro before e after hrun
    cases hrun
    exact .refl 1 _

theorem Reads.mono {x : Reader ε α} {P Q : α → List UInt8 → Prop} (h : Reads skips x P)
    (hmono : ∀ a bytes, P a bytes → Q a bytes) : Reads skips x Q where
  ok := by
    intro before a after hrun
    obtain ⟨hadvance, hpassed | ⟨bytes, hbytes, hposition, hP⟩⟩ := h.ok before a after hrun
    · exact ⟨hadvance, .inl hpassed⟩
    · exact ⟨hadvance, .inr ⟨bytes, hbytes, hposition, hmono a bytes hP⟩⟩
  error := h.error

theorem Reads.bind {x : Reader ε α} {f : α → Reader ε β} {P : α → List UInt8 → Prop}
    {Q : α → β → List UInt8 → Prop} (hx : Reads skips x P) (hf : ∀ a, Reads skips (f a) (Q a)) :
    Reads skips (x >>= f) fun b bytes =>
      ∃ a front back, bytes = front ++ back ∧ P a front ∧ Q a b back where
  ok := by
    intro before b after hrun
    obtain ⟨a, middle, hfirst, hsecond⟩ := run_bind_eq_ok.mp hrun
    obtain ⟨hadvance, hfirst⟩ := hx.ok before a middle hfirst
    obtain ⟨hadvance', hsecond⟩ := (hf a).ok middle b after hsecond
    refine ⟨hadvance.trans hadvance', ?_⟩
    rcases hsecond with hpassed | ⟨back, hback, hposition', hQ⟩
    · exact .inl hpassed
    · rcases hfirst with ⟨hskips, hnone⟩ | ⟨front, hfront, hposition, hP⟩
      · rw [hnone] at hback
        exact .inl ⟨hskips, (List.append_eq_nil_iff.mp hback.symm).2⟩
      · refine .inr ⟨front ++ back, by rw [hfront, hback, List.append_assoc], ?_,
          a, front, back, rfl, hP, hQ⟩
        rw [hposition', hposition, List.length_append, Nat.add_assoc]
  error := by
    intro before e after hrun
    rcases run_bind_eq_error.mp hrun with hfirst | ⟨a, middle, hfirst, hsecond⟩
    · exact hx.error before e after hfirst
    · exact (hx.ok before a middle hfirst).1.trans ((hf a).error middle e after hsecond)

theorem reads_ite {condition : Prop} [Decidable condition] {x y : Reader ε α}
    {P : α → List UInt8 → Prop} (hx : condition → Reads skips x P)
    (hy : ¬ condition → Reads skips y P) : Reads skips (if condition then x else y) P := by
  split
  · exact hx ‹_›
  · exact hy ‹_›

theorem reads_refuseIf (condition : Prop) [Decidable condition] (e : ε) :
    Reads skips (refuseIf condition e) fun _ bytes => bytes = [] ∧ ¬ condition :=
  reads_ite (fun _ => reads_throw e) (fun h => reads_pure () ⟨rfl, h⟩)

theorem reads_require (e : ε) (value : Option α) :
    Reads skips (require e value) fun a bytes => bytes = [] ∧ value = some a := by
  cases value with
  | none => exact reads_throw e
  | some a => exact reads_pure a ⟨rfl, rfl⟩

theorem reads_readExact (e : ε) (n : Nat) :
    Reads skips (readExact e n) fun a bytes => a = bytes ∧ bytes.length = n where
  ok := by
    intro before a after hrun
    simp only [readExact] at hrun
    split at hrun
    · rename_i hzero
      cases hrun
      exact ⟨.refl 0 _, .inr ⟨[], rfl, rfl, rfl, hzero.symm⟩⟩
    · split at hrun
      · rename_i hpositive hlength
        cases hrun
        refine ⟨⟨List.drop_suffix _ _, ?_⟩, .inr ⟨before.rest.take n, ?_, ?_, rfl, ?_⟩⟩
        · simp only [List.length_drop]
          omega
        · exact (List.take_append_drop n before.rest).symm
        · simp only [List.length_take, Nat.min_eq_left hlength]
        · rw [List.length_take, Nat.min_eq_left hlength]
      · cases hrun
  error := by
    intro before e' after hrun
    simp only [readExact] at hrun
    split at hrun
    · cases hrun
    · split at hrun
      · cases hrun
      · cases hrun
        refine ⟨List.suffix_rfl, ?_⟩
        simp only
        omega

theorem reads_skip (n : Nat) :
    Reads True (skip n : Reader ε Unit) fun _ bytes => bytes.length = n where
  ok := by
    intro before a after hrun
    cases hrun
    refine ⟨⟨List.drop_suffix _ _, by simp only [List.length_drop]; omega⟩, ?_⟩
    by_cases hlength : n ≤ before.rest.length
    · refine .inr ⟨before.rest.take n, (List.take_append_drop n before.rest).symm, ?_, ?_⟩
      · simp only [List.length_take, Nat.min_eq_left hlength]
      · rw [List.length_take, Nat.min_eq_left hlength]
    · exact .inl ⟨trivial, List.drop_eq_nil_of_le (by omega)⟩
  error := by
    intro before e after hrun
    cases hrun

section Loops
variable {γ : Type} {encode : γ → List UInt8} {P : γ → Prop}

/-- The bytes of a loop are those of its rounds. -/
theorem Reads.times {x : Reader ε Unit}
    (hx : Reads skips x fun _ bytes => ∃ item, P item ∧ bytes = encode item) (n : Nat) :
    Reads skips (times x n) fun _ bytes => ∃ items : List γ, items.length = n ∧
      (∀ item ∈ items, P item) ∧ bytes = items.flatMap encode := by
  induction n with
  | zero => exact reads_pure () ⟨[], rfl, by simp, rfl⟩
  | succ n ih =>
      refine (hx.bind fun _ => ih).mono ?_
      rintro _ _ ⟨_, _, _, rfl, ⟨item, hitem, rfl⟩, items, hlength, hitems, rfl⟩
      exact ⟨item :: items, by rw [List.length_cons, hlength],
        List.forall_mem_cons.mpr ⟨hitem, hitems⟩, rfl⟩

theorem Reads.collect {x : Reader ε α} {value : γ → α}
    (hx : Reads skips x fun a bytes => ∃ item, P item ∧ bytes = encode item ∧ a = value item)
    (n : Nat) : Reads skips (collect x n) fun list bytes => ∃ items : List γ, items.length = n ∧
      (∀ item ∈ items, P item) ∧ bytes = items.flatMap encode ∧ list = items.map value := by
  induction n with
  | zero => exact reads_pure [] ⟨[], rfl, by simp, rfl, rfl⟩
  | succ n ih =>
      refine (hx.bind fun a => ih.bind fun rest => reads_pure (a :: rest)
        (P := fun list bytes => list = a :: rest ∧ bytes = []) ⟨rfl, rfl⟩).mono ?_
      rintro _ _ ⟨_, _, _, rfl, ⟨item, hitem, rfl, rfl⟩, _, _, _, rfl,
        ⟨items, hlength, hitems, rfl, rfl⟩, rfl, rfl⟩
      refine ⟨item :: items, by rw [List.length_cons, hlength],
        List.forall_mem_cons.mpr ⟨hitem, hitems⟩, ?_, rfl⟩
      rw [List.flatMap_cons, List.append_nil]

/-- The bytes of a loop with a state are items that move the state on. -/
theorem Reads.iterate {x : β → Reader ε β} {step : β → γ → Option β}
    (hx : ∀ b, Reads skips (x b) fun b' bytes =>
      ∃ item, P item ∧ bytes = encode item ∧ step b item = some b') (n : Nat) (b : β) :
    Reads skips (iterate x n b) fun b' bytes => ∃ items : List γ, items.length = n ∧
      (∀ item ∈ items, P item) ∧ bytes = items.flatMap encode ∧ items.foldlM step b = some b' := by
  induction n generalizing b with
  | zero => exact reads_pure b ⟨[], rfl, by simp, rfl, rfl⟩
  | succ n ih =>
      refine ((hx b).bind fun b => ih b).mono ?_
      rintro b' _ ⟨next, front, _, rfl, ⟨item, hitem, rfl, hstep⟩, items, hlength, hitems, rfl,
        hfold⟩
      refine ⟨item :: items, by rw [List.length_cons, hlength],
        List.forall_mem_cons.mpr ⟨hitem, hitems⟩, rfl, ?_⟩
      rw [List.foldlM_cons, hstep]
      exact hfold

end Loops

end Reads

section Yields
variable {ε α β : Type}

/-- What a reader does on a file that goes on with certain bytes: it consumes them and gives a
result, or it fails. What follows the bytes makes no difference. -/
def Yields (x : Reader ε α) (bytes : List UInt8) : Option α → Prop
  | some a => ∀ tail position reads, ∃ reads', x ⟨bytes ++ tail, position, reads⟩ =
      .ok a ⟨tail, position + bytes.length, reads'⟩
  | none => ∀ tail position reads, ∃ e after, x ⟨bytes ++ tail, position, reads⟩ = .error e after

theorem yields_pure (a : α) : Yields (pure a : Reader ε α) [] (some a) :=
  fun _ _ reads => ⟨reads, rfl⟩

theorem yields_throw (e : ε) (bytes : List UInt8) : Yields (throw e : Reader ε α) bytes none :=
  fun _ _ _ => ⟨e, _, rfl⟩

theorem Yields.bind {x : Reader ε α} {f : α → Reader ε β} {front back : List UInt8} {a : α}
    {outcome : Option β} (hx : Yields x front (some a)) (hf : Yields (f a) back outcome) :
    Yields (x >>= f) (front ++ back) outcome := by
  cases outcome with
  | some b =>
      intro tail position reads
      obtain ⟨reads', hfirst⟩ := hx (back ++ tail) position reads
      obtain ⟨reads'', hsecond⟩ := hf tail (position + front.length) reads'
      refine ⟨reads'', run_bind_eq_ok.mpr ⟨a, ⟨back ++ tail, position + front.length, reads'⟩, ?_, ?_⟩⟩
      · rw [List.append_assoc, hfirst]
      · rw [hsecond, List.length_append, Nat.add_assoc]
  | none =>
      intro tail position reads
      obtain ⟨reads', hfirst⟩ := hx (back ++ tail) position reads
      obtain ⟨e, after, hsecond⟩ := hf tail (position + front.length) reads'
      have hfirst' : x ⟨front ++ back ++ tail, position, reads⟩ =
          .ok a ⟨back ++ tail, position + front.length, reads'⟩ := by
        rw [List.append_assoc, hfirst]
      refine ⟨e, after, run_bind_eq_error.mpr (.inr ⟨a, _, hfirst', hsecond⟩)⟩

theorem Yields.bind_none {x : Reader ε α} {front : List UInt8} (hx : Yields x front none)
    (f : α → Reader ε β) (back : List UInt8) : Yields (x >>= f) (front ++ back) none := by
  intro tail position reads
  obtain ⟨e, after, hfirst⟩ := hx (back ++ tail) position reads
  refine ⟨e, after, run_bind_eq_error.mpr (.inl ?_)⟩
  rw [List.append_assoc, hfirst]

/-- A step that looks at no bytes. -/
theorem Yields.bind_of_nil {x : Reader ε α} {f : α → Reader ε β} {bytes : List UInt8} {a : α}
    {outcome : Option β} (hx : Yields x [] (some a)) (hf : Yields (f a) bytes outcome) :
    Yields (x >>= f) bytes outcome := by
  rw [← List.nil_append bytes]
  exact hx.bind hf

/-- A last step that looks at no bytes. -/
theorem Yields.bind_last {x : Reader ε α} {f : α → Reader ε β} {bytes : List UInt8} {a : α}
    {outcome : Option β} (hx : Yields x bytes (some a)) (hf : Yields (f a) [] outcome) :
    Yields (x >>= f) bytes outcome := by
  rw [← List.append_nil bytes]
  exact hx.bind hf

theorem yields_refuseIf_of_not {condition : Prop} [Decidable condition] (e : ε)
    (h : ¬ condition) : Yields (refuseIf condition e) [] (some ()) := by
  rw [refuseIf, if_neg h]
  exact yields_pure ()

theorem yields_refuseIf_of {condition : Prop} [Decidable condition] (e : ε) (h : condition)
    (f : Unit → Reader ε β) (bytes : List UInt8) :
    Yields (refuseIf condition e >>= f) bytes none := by
  have hthrow : Yields (refuseIf condition e) [] none := by
    rw [refuseIf, if_pos h]
    exact yields_throw e []
  exact hthrow.bind_none f bytes

theorem yields_require (e : ε) (value : Option α) : Yields (require e value) [] value := by
  cases value with
  | none => exact yields_throw e []
  | some a => exact yields_pure a

theorem yields_readExact (e : ε) (bytes : List UInt8) :
    Yields (readExact e bytes.length) bytes (some bytes) := by
  intro tail position reads
  by_cases hempty : bytes.length = 0
  · refine ⟨reads, ?_⟩
    rw [readExact, if_pos hempty, List.length_eq_zero_iff.mp hempty]
    rfl
  · refine ⟨reads + 1, ?_⟩
    rw [readExact, if_neg hempty, if_pos (by simp)]
    simp

theorem yields_skip (bytes : List UInt8) :
    Yields (skip bytes.length : Reader ε Unit) bytes (some ()) := by
  intro tail position reads
  refine ⟨reads, ?_⟩
  rw [skip, List.drop_left]

section Loops
variable {γ : Type} {encode : γ → List UInt8} {items : List γ}

/-- A loop succeeds when each of its rounds does. -/
theorem Yields.times {x : Reader ε Unit} {accepts : γ → Bool}
    (h : ∀ item ∈ items, Yields x (encode item) (if accepts item then some () else none)) :
    Yields (times x items.length) (items.flatMap encode)
      (if items.all accepts then some () else none) := by
  induction items with
  | nil => exact yields_pure ()
  | cons item rest ih =>
      rw [List.forall_mem_cons] at h
      obtain ⟨hitem, hrest⟩ := h
      cases haccepts : accepts item with
      | true =>
          rw [haccepts, if_pos rfl] at hitem
          rw [List.all_cons, haccepts, Bool.true_and]
          exact hitem.bind (ih hrest)
      | false =>
          rw [haccepts, if_neg Bool.false_ne_true] at hitem
          rw [List.all_cons, haccepts, Bool.false_and, if_neg Bool.false_ne_true]
          exact hitem.bind_none _ _

theorem Yields.iterate {x : β → Reader ε β} {step : β → γ → Option β}
    (h : ∀ item ∈ items, ∀ b, Yields (x b) (encode item) (step b item)) (b : β) :
    Yields (iterate x items.length b) (items.flatMap encode) (items.foldlM step b) := by
  induction items generalizing b with
  | nil => exact yields_pure b
  | cons item rest ih =>
      rw [List.forall_mem_cons] at h
      obtain ⟨hitem, hrest⟩ := h
      have hfirst := hitem b
      rw [List.foldlM_cons]
      cases hstep : step b item with
      | some next =>
          rw [hstep] at hfirst
          exact hfirst.bind (ih hrest next)
      | none =>
          rw [hstep] at hfirst
          exact hfirst.bind_none _ _

theorem Yields.collect {x : Reader ε α} {value : γ → α}
    (h : ∀ item ∈ items, Yields x (encode item) (some (value item))) :
    Yields (collect x items.length) (items.flatMap encode) (some (items.map value)) := by
  induction items with
  | nil => exact yields_pure []
  | cons item rest ih =>
      rw [List.forall_mem_cons] at h
      obtain ⟨hitem, hrest⟩ := h
      rw [List.flatMap_cons, ← List.append_nil (rest.flatMap encode)]
      exact hitem.bind ((ih hrest).bind (yields_pure _))

end Loops

end Yields

end ByteReader
