import MindOne.Engine.Gguf

/-!
# The format of GGUF files

Values, metadata entries and tensor infos as trees, and their bytes. For each reader of the
validator one lemma says which bytes it has consumed when it succeeds, and one what it does
on the bytes of a given tree.
-/

namespace MindOne.Engine

open CheckedArithmetic MindOne.Stream Spans ByteReader

/-- A metadata value; an array states the kind of its elements, also when it has none. -/
inductive GgufValue where
  | scalar (kind : Nat) (bytes : List UInt8)
  | string (text : List UInt8)
  | array (elementKind : Nat) (elements : List GgufValue)

namespace GgufValue

def kind : GgufValue → Nat
  | scalar kind _ => kind
  | string _ => 8
  | array _ _ => 9

mutual

def encode : GgufValue → List UInt8
  | scalar _ bytes => bytes
  | string text => leBytes 8 text.length ++ text
  | array elementKind elements =>
      leBytes 4 elementKind ++ (leBytes 8 elements.length ++ encodeAll elements)

def encodeAll : List GgufValue → List UInt8
  | [] => []
  | element :: rest => encode element ++ encodeAll rest

end

theorem encodeAll_eq (elements : List GgufValue) :
    encodeAll elements = elements.flatMap encode := by
  induction elements with
  | nil => rfl
  | cons element rest ih => rw [encodeAll, ih, List.flatMap_cons]

/-- Sizes and counts are those that the bytes can state. -/
inductive WellFormed : GgufValue → Prop where
  | scalar {kind : Nat} {bytes : List UInt8} (h : ggufFixedWidth kind = some bytes.length) :
      WellFormed (scalar kind bytes)
  | string {text : List UInt8} (h : text.length < 256 ^ 8) : WellFormed (string text)
  | array {elementKind : Nat} {elements : List GgufValue} (hkind : elementKind < 256 ^ 4)
      (hcount : elements.length < 256 ^ 8)
      (hkinds : ∀ element ∈ elements, element.kind = elementKind)
      (h : ∀ element ∈ elements, WellFormed element) :
      WellFormed (array elementKind elements)

mutual

/-- What the validator accepts with so many levels left. -/
def accepted : Nat → GgufValue → Bool
  | _, scalar _ _ => true
  | levels, string text =>
      decide (0 < levels) && decide (text.length ≤ maxStringBytes) && (fromUtf8 text).isSome
  | levels, array _ elements =>
      decide (0 < levels) && decide (elements.length ≤ maxGgufCount) &&
        acceptedAll (levels - 1) elements

def acceptedAll : Nat → List GgufValue → Bool
  | _, [] => true
  | levels, element :: rest => accepted levels element && acceptedAll levels rest

end

theorem acceptedAll_eq (levels : Nat) (elements : List GgufValue) :
    acceptedAll levels elements = elements.all (accepted levels) := by
  induction elements with
  | nil => rfl
  | cons element rest ih => rw [acceptedAll, ih, List.all_cons]

end GgufValue

section Primitives

theorem reads_number {x : GgufReader Nat} {width : Nat} {skips : Prop}
    (hx : x = do let bytes ← readBytes width; return leNumber bytes) :
    Reads skips x fun number bytes => number < 256 ^ width ∧ bytes = leBytes width number := by
  rw [hx]
  refine ((reads_readExact _ width).bind fun bytes => reads_pure (leNumber bytes)
    (P := fun number rest => number = leNumber bytes ∧ rest = []) ⟨rfl, rfl⟩).mono ?_
  rintro _ _ ⟨bytes, _, _, rfl, ⟨rfl, hlength⟩, rfl, rfl⟩
  subst hlength
  exact ⟨leNumber_lt bytes, by rw [List.append_nil, leBytes_leNumber]⟩

theorem reads_readU16 {skips : Prop} : Reads skips readU16 fun number bytes =>
    number < 256 ^ 2 ∧ bytes = leBytes 2 number := reads_number rfl

theorem reads_readU32 {skips : Prop} : Reads skips readU32 fun number bytes =>
    number < 256 ^ 4 ∧ bytes = leBytes 4 number := reads_number rfl

theorem reads_readU64 {skips : Prop} : Reads skips readU64 fun number bytes =>
    number < 256 ^ 8 ∧ bytes = leBytes 8 number := reads_number rfl

theorem yields_number {x : GgufReader Nat} {width number : Nat}
    (hx : x = do let bytes ← readBytes width; return leNumber bytes)
    (h : number < 256 ^ width) : Yields x (leBytes width number) (some number) := by
  have hread := yields_readExact (.invalidGguf "failed to fill whole buffer" : ValidationError)
    (leBytes width number)
  rw [length_leBytes] at hread
  rw [hx]
  refine hread.bind_last ?_
  rw [leNumber_leBytes h]
  exact yields_pure number

theorem yields_readU32 {number : Nat} (h : number < 256 ^ 4) :
    Yields readU32 (leBytes 4 number) (some number) := yields_number rfl h

theorem yields_readU64 {number : Nat} (h : number < 256 ^ 8) :
    Yields readU64 (leBytes 8 number) (some number) := yields_number rfl h

/-- The bytes of a string with its length. -/
def encodeString (text : List UInt8) : List UInt8 := leBytes 8 text.length ++ text

/-- The text of a string that is not too long and valid. -/
def stringText (text : List UInt8) : Option String :=
  if text.length ≤ maxStringBytes then fromUtf8 text else none

theorem reads_readGgufString {skips : Prop} : Reads skips readGgufString fun value bytes =>
    ∃ text, text.length < 256 ^ 8 ∧ bytes = encodeString text ∧ stringText text = some value := by
  refine (reads_readU64.bind fun length => (reads_refuseIf _ _).bind fun _ =>
    (reads_readExact _ length).bind fun text => reads_require _ (fromUtf8 text)).mono ?_
  rintro value _ ⟨length, _, _, rfl, ⟨hlength, rfl⟩, _, _, _, rfl, ⟨rfl, hbound⟩, text, _, _, rfl,
    ⟨rfl, hsize⟩, rfl, hvalue⟩
  subst hsize
  refine ⟨text, hlength, by simp [encodeString], ?_⟩
  rw [stringText, if_pos (by omega), hvalue]

theorem yields_readGgufString {text : List UInt8} (h : text.length < 256 ^ 8) :
    Yields readGgufString (encodeString text) (stringText text) := by
  refine (yields_readU64 h).bind ?_
  by_cases hbound : text.length ≤ maxStringBytes
  · rw [stringText, if_pos hbound]
    refine (yields_refuseIf_of_not _ (by omega)).bind_of_nil ?_
    exact (yields_readExact _ text).bind_last (yields_require _ _)
  · rw [stringText, if_neg hbound]
    exact yields_refuseIf_of _ (by omega) _ _

end Primitives

section Values

theorem ggufFixedWidth_bounds {kind width : Nat} (h : ggufFixedWidth kind = some width) :
    0 < width ∧ width ≤ 8 ∧ kind < 256 ^ 4 := by
  simp only [ggufFixedWidth, List.mem_cons, List.not_mem_nil, or_false] at h
  split at h
  · cases h
    omega
  · split at h
    · cases h
      omega
    · split at h
      · cases h
        omega
      · split at h
        · cases h
          omega
        · cases h

theorem reads_seekForward (n : Nat) :
    Reads True (seekForward n) fun _ bytes => bytes.length = n := by
  refine ((reads_refuseIf _ _).bind fun _ => reads_skip n).mono ?_
  rintro _ _ ⟨_, _, bytes, rfl, ⟨rfl, _⟩, hlength⟩
  exact hlength

theorem yields_seekForward {bytes : List UInt8} (h : bytes.length < 2 ^ 63) :
    Yields (seekForward bytes.length) bytes (some ()) :=
  (yields_refuseIf_of_not _ (by omega)).bind_of_nil (yields_skip bytes)

/-- Bytes of the right number are an array of scalars. -/
theorem exists_scalars {kind width count : Nat} {bytes : List UInt8}
    (hwidth : ggufFixedWidth kind = some width) (hlength : bytes.length = count * width) :
    ∃ elements : List GgufValue, elements.length = count ∧
      bytes = elements.flatMap GgufValue.encode ∧
      ∀ element ∈ elements, element.kind = kind ∧ element.WellFormed ∧
        ∀ levels, element.accepted levels = true := by
  induction count generalizing bytes with
  | zero =>
      rw [Nat.zero_mul, List.length_eq_zero_iff] at hlength
      exact ⟨[], rfl, hlength, by simp⟩
  | succ count ih =>
      have hmore : count * width + width = bytes.length := by rw [hlength, Nat.succ_mul]
      have hrest : (bytes.drop width).length = count * width := by
        rw [List.length_drop]
        omega
      obtain ⟨elements, hcount, helements, hall⟩ := ih hrest
      have hfirst : (bytes.take width).length = width := by
        rw [List.length_take]
        omega
      refine ⟨.scalar kind (bytes.take width) :: elements, by rw [List.length_cons, hcount], ?_, ?_⟩
      · rw [List.flatMap_cons, ← helements]
        exact (List.take_append_drop width bytes).symm
      · refine List.forall_mem_cons.mpr ⟨⟨rfl, .scalar (by rw [hfirst, hwidth]), ?_⟩, hall⟩
        exact fun _ => GgufValue.accepted.eq_1 _ _ _

theorem reads_skipElements {skipElement : GgufReader Unit} {levels elementType : Nat}
    (h : Reads True skipElement fun _ bytes => ∃ value : GgufValue,
      (value.kind = elementType ∧ value.WellFormed ∧ value.accepted levels = true) ∧
        bytes = value.encode) (count : Nat) :
    Reads True (skipElements skipElement elementType count) fun _ bytes =>
      ∃ elements : List GgufValue, elements.length = count ∧
        (∀ element ∈ elements, element.kind = elementType ∧ element.WellFormed ∧
          element.accepted levels = true) ∧ bytes = elements.flatMap GgufValue.encode := by
  rw [skipElements]
  cases hwidth : ggufFixedWidth elementType with
  | none => exact h.times count
  | some width =>
      refine ((reads_require _ _).bind fun bytes => reads_seekForward bytes).mono ?_
      rintro _ _ ⟨size, _, bytes, rfl, ⟨rfl, hsize⟩, hlength⟩
      rw [(checkedMul_eq_some.mp hsize).2] at hlength
      obtain ⟨elements, hcount, hbytes, hall⟩ := exists_scalars hwidth hlength
      refine ⟨elements, hcount, fun element hmem => ?_, hbytes⟩
      obtain ⟨hkind, hwell, haccepted⟩ := hall element hmem
      exact ⟨hkind, hwell, haccepted levels⟩

/-- What a skipped value was, if the end of the file has not been passed. -/
theorem reads_skipGgufValue (levels kind : Nat) :
    Reads True (skipGgufValue levels kind) fun _ bytes => ∃ value : GgufValue,
      (value.kind = kind ∧ value.WellFormed ∧ value.accepted levels = true) ∧
        bytes = value.encode := by
  induction levels generalizing kind with
  | zero => exact reads_throw _
  | succ levels ih =>
      rw [skipGgufValue]
      cases hwidth : ggufFixedWidth kind with
      | some width =>
          refine (reads_seekForward width).mono fun _ bytes hlength => ?_
          exact ⟨.scalar kind bytes, ⟨rfl, .scalar (by rw [hlength, hwidth]),
            GgufValue.accepted.eq_1 _ _ _⟩, rfl⟩
      | none =>
          refine reads_ite (fun hstring => ?_) fun _ => reads_ite (fun harray => ?_) fun _ =>
            reads_throw _
          · refine (reads_readGgufString.bind fun _ => reads_pure ()
              (P := fun _ bytes => bytes = []) rfl).mono ?_
            rintro _ _ ⟨value, _, _, rfl, ⟨text, hlength, rfl, htext⟩, rfl⟩
            refine ⟨.string text, ⟨hstring.symm, .string hlength, ?_⟩, by simp [encodeString,
              GgufValue.encode]⟩
            rw [stringText, Option.ite_none_right_eq_some] at htext
            simp [GgufValue.accepted, htext.1, htext.2]
          · refine (reads_readU32.bind fun elementType => reads_readU64.bind fun count =>
              (reads_refuseIf _ _).bind fun _ => reads_skipElements (ih elementType) count).mono ?_
            rintro _ _ ⟨elementType, _, _, rfl, ⟨htype, rfl⟩, count, _, _, rfl, ⟨hcount, rfl⟩, _, _, _,
              rfl, ⟨rfl, hbound⟩, elements, rfl, hall, rfl⟩
            refine ⟨.array elementType elements, ⟨harray.symm, .array htype hcount
              (fun element hmem => (hall element hmem).1)
              fun element hmem => (hall element hmem).2.1, ?_⟩, ?_⟩
            · simp only [GgufValue.accepted, GgufValue.acceptedAll_eq, Bool.and_eq_true,
                decide_eq_true_eq, List.all_eq_true, Nat.add_sub_cancel]
              exact ⟨⟨by omega, by omega⟩, fun element hmem => (hall element hmem).2.2⟩
            · simp [GgufValue.encode, GgufValue.encodeAll_eq]

theorem encode_of_fixedWidth {kind width : Nat} (hwidth : ggufFixedWidth kind = some width)
    {value : GgufValue} (hkind : value.kind = kind) (h : value.WellFormed) :
    value.encode.length = width ∧ ∀ levels, value.accepted levels = true := by
  cases h with
  | scalar hsize =>
      rw [GgufValue.kind] at hkind
      rw [hkind, hwidth, Option.some.injEq] at hsize
      exact ⟨hsize.symm, fun _ => GgufValue.accepted.eq_1 _ _ _⟩
  | string =>
      rw [← hkind] at hwidth
      cases hwidth
  | array =>
      rw [← hkind] at hwidth
      cases hwidth

theorem length_flatMap_encode {width : Nat} {elements : List GgufValue}
    (h : ∀ element ∈ elements, element.encode.length = width) :
    (elements.flatMap GgufValue.encode).length = elements.length * width := by
  induction elements with
  | nil => simp
  | cons element rest ih =>
      rw [List.forall_mem_cons] at h
      obtain ⟨helement, hrest⟩ := h
      rw [List.flatMap_cons, List.length_append, helement, ih hrest, List.length_cons, Nat.succ_mul,
        Nat.add_comm]

theorem yields_skipElements {skipElement : GgufReader Unit} {levels elementType : Nat}
    {elements : List GgufValue} (hcount : elements.length ≤ maxGgufCount)
    (hkinds : ∀ element ∈ elements, element.kind = elementType)
    (hwell : ∀ element ∈ elements, element.WellFormed)
    (h : ggufFixedWidth elementType = none → ∀ element ∈ elements,
      Yields skipElement element.encode (if element.accepted levels then some () else none)) :
    Yields (skipElements skipElement elementType elements.length)
      (elements.flatMap GgufValue.encode)
      (if elements.all (GgufValue.accepted levels) then some () else none) := by
  rw [skipElements]
  cases hwidth : ggufFixedWidth elementType with
  | none => exact Yields.times (h hwidth)
  | some width =>
      have hscalars : ∀ element ∈ elements, element.encode.length = width ∧
          ∀ levels, element.accepted levels = true :=
        fun element hmem => encode_of_fixedWidth hwidth (hkinds element hmem) (hwell element hmem)
      have hall : elements.all (GgufValue.accepted levels) = true :=
        List.all_eq_true.mpr fun element hmem => (hscalars element hmem).2 levels
      have hlength := length_flatMap_encode fun element hmem => (hscalars element hmem).1
      have hbound : elements.length * width ≤ maxGgufCount * 8 :=
        Nat.mul_le_mul hcount (ggufFixedWidth_bounds hwidth).2.1
      have hfits : maxGgufCount * 8 < 2 ^ 63 := by decide
      have hproduct : checkedMul elements.length width =
          some (elements.flatMap GgufValue.encode).length :=
        checkedMul_eq_some.mpr ⟨by omega, hlength⟩
      rw [hall, if_pos rfl]
      simp only [hproduct]
      exact (yields_require _ _).bind_of_nil (yields_seekForward (by omega))

/-- What the validator does on the bytes of a value. -/
theorem yields_skipGgufValue {value : GgufValue} (h : value.WellFormed) {levels : Nat}
    (hlevels : 0 < levels ∨ ggufFixedWidth value.kind = none) :
    Yields (skipGgufValue levels value.kind) value.encode
      (if value.accepted levels then some () else none) := by
  induction h generalizing levels with
  | @scalar kind bytes hsize =>
      have hpositive : 0 < levels := hlevels.resolve_right (by simp [GgufValue.kind, hsize])
      obtain ⟨levels, rfl⟩ := Nat.exists_eq_add_of_lt hpositive
      have hbounds := ggufFixedWidth_bounds hsize
      rw [GgufValue.accepted, if_pos rfl, GgufValue.kind, GgufValue.encode, skipGgufValue, hsize]
      exact yields_seekForward (by omega)
  | @string text hlength =>
      cases levels with
      | zero =>
          simp only [GgufValue.accepted, lt_self_iff_false, decide_false, Bool.false_and,
            Bool.false_eq_true, if_false]
          exact yields_throw _ _
      | succ levels =>
          have htext : (GgufValue.string text).accepted (levels + 1) =
              (stringText text).isSome := by
            by_cases hbound : text.length ≤ maxStringBytes
            · simp [GgufValue.accepted, stringText, hbound]
            · simp [GgufValue.accepted, stringText, hbound]
          have hread := yields_readGgufString hlength
          rw [htext, GgufValue.kind, GgufValue.encode, skipGgufValue]
          change Yields (readGgufString >>= fun _ => pure ()) (encodeString text) _
          cases hvalue : stringText text with
          | some value =>
              rw [hvalue] at hread
              exact hread.bind_last (yields_pure ())
          | none =>
              rw [hvalue] at hread
              rw [← List.append_nil (encodeString text)]
              exact hread.bind_none _ _
  | @array elementKind elements hkind hcount hkinds hwell ih =>
      cases levels with
      | zero =>
          simp only [GgufValue.accepted, lt_self_iff_false, decide_false, Bool.false_and,
            Bool.false_eq_true, if_false]
          exact yields_throw _ _
      | succ levels =>
          rw [GgufValue.accepted, GgufValue.acceptedAll_eq, GgufValue.kind, GgufValue.encode,
            GgufValue.encodeAll_eq, skipGgufValue]
          change Yields (do
            let elementType ← readU32
            let count ← readU64
            refuseIf (maxGgufCount < count) (.invalidGguf s!"元数据数组长度 {count} 超限")
            skipElements (skipGgufValue levels elementType) elementType count) _ _
          refine (yields_readU32 hkind).bind ((yields_readU64 hcount).bind ?_)
          by_cases hbound : elements.length ≤ maxGgufCount
          · refine (yields_refuseIf_of_not _ (by omega)).bind_of_nil ?_
            simp only [hbound, Nat.zero_lt_succ, decide_true, Bool.true_and, Nat.add_sub_cancel]
            refine yields_skipElements hbound hkinds hwell fun hnone element hmem => ?_
            rw [← hkinds element hmem] at hnone ⊢
            exact ih element hmem (.inr hnone)
          · simp only [hbound, decide_false, Bool.and_false, Bool.false_and, Bool.false_eq_true,
              if_false]
            exact yields_refuseIf_of _ (by omega) _ _

end Values

/-- A metadata entry: its key and its value. -/
structure GgufEntry where
  key : List UInt8
  value : GgufValue

/-- The number in the bytes of a scalar. -/
def GgufValue.number : GgufValue → Nat
  | .scalar _ bytes => leNumber bytes
  | _ => 0

namespace GgufEntry

def encode (entry : GgufEntry) : List UInt8 :=
  encodeString entry.key ++ (leBytes 4 entry.value.kind ++ entry.value.encode)

structure WellFormed (entry : GgufEntry) : Prop where
  key : entry.key.length < 256 ^ 8
  value : entry.value.WellFormed

/-- An entry that states the alignment. -/
def IsAlignment (entry : GgufEntry) : Prop :=
  stringText entry.key = some "general.alignment" ∧ entry.value.kind = 4

instance (entry : GgufEntry) : Decidable entry.IsAlignment := inferInstanceAs (Decidable (_ ∧ _))

end GgufEntry

def validAlignment (alignment : Nat) : Bool :=
  decide (alignment ≠ 0) && isPowerOfTwo alignment && decide (alignment ≤ 4096)

/-- What an entry does to the state of the loop. -/
def GgufMetadata.add (metadata : GgufMetadata) (entry : GgufEntry) : Option GgufMetadata :=
  match stringText entry.key with
  | none => none
  | some key =>
      if key = "general.alignment" ∧ entry.value.kind = 4 then
        if validAlignment entry.value.number then
          some { metadata with alignment := entry.value.number } else none
      else if key = "split.no" then
        if entry.value.kind ≠ 2 ∨ metadata.splitIndex ≠ none then none
        else some { metadata with splitIndex := some entry.value.number }
      else if key = "split.count" then
        if entry.value.kind ≠ 2 ∨ metadata.splitCount ≠ none then none
        else some { metadata with splitCount := some entry.value.number }
      else if entry.value.accepted (maxArrayDepth + 1) then some metadata else none

section Entries

theorem scalar_of_kind {value : GgufValue} (h : value.WellFormed) {width : Nat}
    (hwidth : ggufFixedWidth value.kind = some width) :
    ∃ bytes, value = .scalar value.kind bytes ∧ bytes.length = width := by
  cases h with
  | @scalar kind bytes hsize =>
      rw [GgufValue.kind, hsize, Option.some.injEq] at hwidth
      exact ⟨bytes, rfl, hwidth⟩
  | string => cases hwidth
  | array => cases hwidth

theorem kind_lt {value : GgufValue} (h : value.WellFormed) : value.kind < 256 ^ 4 := by
  cases h with
  | scalar hsize => exact (ggufFixedWidth_bounds hsize).2.2
  | string => simp [GgufValue.kind]
  | array => simp [GgufValue.kind]

theorem not_refused_iff {alignment : Nat} :
    ¬ (alignment = 0 ∨ isPowerOfTwo alignment = false ∨ 4096 < alignment) ↔
      validAlignment alignment = true := by
  simp only [validAlignment, not_or, Bool.not_eq_false, not_lt, Bool.and_eq_true,
    decide_eq_true_eq, ne_eq, and_assoc]

/-- A number of the width of its kind is a scalar. -/
theorem scalar_number {kind width number : Nat} (hwidth : ggufFixedWidth kind = some width)
    (h : number < 256 ^ width) :
    (GgufValue.scalar kind (leBytes width number)).WellFormed ∧
      (GgufValue.scalar kind (leBytes width number)).number = number :=
  ⟨.scalar (by rw [length_leBytes, hwidth]), leNumber_leBytes h⟩

theorem reads_readAlignment (metadata : GgufMetadata) :
    Reads True (readAlignment metadata) fun metadata' bytes => ∃ value : GgufValue,
      value.kind = 4 ∧ value.WellFormed ∧ bytes = value.encode ∧
        validAlignment value.number = true ∧
        metadata' = { metadata with alignment := value.number } := by
  refine (reads_readU32.bind fun alignment => (reads_refuseIf _ _).bind fun _ => reads_pure _
    (P := fun metadata' bytes => metadata' = { metadata with alignment } ∧ bytes = [])
      ⟨rfl, rfl⟩).mono ?_
  rintro _ _ ⟨alignment, _, _, rfl, ⟨hsize, rfl⟩, _, _, _, rfl, ⟨rfl, hvalid⟩, rfl, rfl⟩
  obtain ⟨hwell, hnumber⟩ := @scalar_number 4 4 alignment rfl hsize
  refine ⟨.scalar 4 (leBytes 4 alignment), rfl, hwell, by simp [GgufValue.encode], ?_, ?_⟩
  · rw [hnumber]
    exact not_refused_iff.mp hvalid
  · rw [hnumber]

theorem yields_readAlignment (metadata : GgufMetadata) {value : GgufValue} (h : value.WellFormed)
    (hkind : value.kind = 4) : Yields (readAlignment metadata) value.encode
      (if validAlignment value.number then some { metadata with alignment := value.number }
        else none) := by
  have hwidth : ggufFixedWidth value.kind = some 4 := by
    rw [hkind]
    rfl
  obtain ⟨bytes, hvalue, hlength⟩ := scalar_of_kind h hwidth
  have hnumber : value.number = leNumber bytes := by
    rw [hvalue]
    rfl
  have hbytes : value.encode = leBytes 4 (leNumber bytes) := by
    rw [hvalue, ← hlength, leBytes_leNumber]
    rfl
  have hsize : leNumber bytes < 256 ^ 4 := hlength ▸ leNumber_lt bytes
  rw [hnumber, hbytes, ← List.append_nil (leBytes 4 (leNumber bytes))]
  refine (yields_readU32 hsize).bind ?_
  by_cases hvalid : validAlignment (leNumber bytes) = true
  · rw [if_pos hvalid]
    exact (yields_refuseIf_of_not _ (not_refused_iff.mpr hvalid)).bind_of_nil (yields_pure _)
  · rw [if_neg hvalid]
    exact yields_refuseIf_of _ (by rwa [← not_refused_iff, not_not] at hvalid) _ _

theorem reads_splitNumber (condition : Prop) [Decidable condition] (e : ValidationError)
    (f : Nat → GgufMetadata) :
    Reads True (do
      refuseIf condition e
      let number ← readU16
      return f number) fun metadata bytes => ¬ condition ∧ ∃ value : GgufValue,
        value.kind = 2 ∧ value.WellFormed ∧ bytes = value.encode ∧ metadata = f value.number := by
  refine ((reads_refuseIf _ _).bind fun _ => reads_readU16.bind fun number => reads_pure _
    (P := fun metadata bytes => metadata = f number ∧ bytes = []) ⟨rfl, rfl⟩).mono ?_
  rintro _ _ ⟨_, _, _, rfl, ⟨rfl, hallowed⟩, number, _, _, rfl, ⟨hsize, rfl⟩, rfl, rfl⟩
  obtain ⟨hwell, hnumber⟩ := @scalar_number 2 2 number rfl hsize
  refine ⟨hallowed, .scalar 2 (leBytes 2 number), rfl, hwell, by simp [GgufValue.encode], ?_⟩
  rw [hnumber]

theorem yields_splitNumber (condition : Prop) [Decidable condition] (e : ValidationError)
    (f : Nat → GgufMetadata) {value : GgufValue} (h : value.WellFormed)
    (hkind : ¬ condition → value.kind = 2) :
    Yields (do
      refuseIf condition e
      let number ← readU16
      return f number) value.encode (if condition then none else some (f value.number)) := by
  by_cases hcondition : condition
  · rw [if_pos hcondition]
    exact yields_refuseIf_of _ hcondition _ _
  · rw [if_neg hcondition]
    refine (yields_refuseIf_of_not _ hcondition).bind_of_nil ?_
    have hwidth : ggufFixedWidth value.kind = some 2 := by
      rw [hkind hcondition]
      rfl
    obtain ⟨bytes, hvalue, hlength⟩ := scalar_of_kind h hwidth
    have hnumber : value.number = leNumber bytes := by
      rw [hvalue]
      rfl
    have hbytes : value.encode = leBytes 2 (leNumber bytes) := by
      rw [hvalue, ← hlength, leBytes_leNumber]
      rfl
    rw [hnumber, hbytes]
    exact (yields_number (x := readU16) rfl (hlength ▸ leNumber_lt bytes)).bind_last (yields_pure _)

/-- What an entry was, and what it did to the state. -/
theorem reads_readMetadataEntry (metadata : GgufMetadata) :
    Reads True (readMetadataEntry metadata) fun metadata' bytes => ∃ entry : GgufEntry,
      entry.WellFormed ∧ bytes = entry.encode ∧ metadata.add entry = some metadata' := by
  have hvalue : ∀ (key : String) (valueType : Nat), Reads True (
      if key = "general.alignment" ∧ valueType = 4 then readAlignment metadata
      else if key = "split.no" then readSplitIndex metadata valueType
      else if key = "split.count" then readSplitCount metadata valueType
      else do
        skipGgufValue (maxArrayDepth + 1) valueType
        return metadata) fun metadata' bytes => ∃ value : GgufValue, value.kind = valueType ∧
          value.WellFormed ∧ bytes = value.encode ∧ ∀ entry : GgufEntry, entry.value = value →
            stringText entry.key = some key → metadata.add entry = some metadata' := by
    intro key valueType
    refine reads_ite (fun halignment => ?_) fun halignment => reads_ite (fun hno => ?_) fun hno =>
      reads_ite (fun hcount => ?_) fun hcount => ?_
    · refine (reads_readAlignment metadata).mono ?_
      rintro _ _ ⟨value, hkind, hwell, hbytes, hvalid, rfl⟩
      refine ⟨value, by rw [hkind, halignment.2], hwell, hbytes, fun entry hentry hkey => ?_⟩
      rw [GgufMetadata.add, hkey, hentry]
      simp only [hkind, halignment.1, and_self, if_true, hvalid]
    · refine (reads_splitNumber _ _ _).mono ?_
      rintro _ _ ⟨hallowed, value, hkind, hwell, hbytes, rfl⟩
      rw [not_or, not_not, not_not] at hallowed
      refine ⟨value, by rw [hkind, hallowed.1], hwell, hbytes, fun entry hentry hkey => ?_⟩
      rw [GgufMetadata.add, hkey, hentry]
      simp [hno, hkind, hallowed.2]
    · refine (reads_splitNumber _ _ _).mono ?_
      rintro _ _ ⟨hallowed, value, hkind, hwell, hbytes, rfl⟩
      rw [not_or, not_not, not_not] at hallowed
      refine ⟨value, by rw [hkind, hallowed.1], hwell, hbytes, fun entry hentry hkey => ?_⟩
      rw [GgufMetadata.add, hkey, hentry]
      simp [hcount, hkind, hallowed.2]
    · refine ((reads_skipGgufValue _ _).bind fun _ => reads_pure metadata
        (P := fun metadata' bytes => metadata' = metadata ∧ bytes = []) ⟨rfl, rfl⟩).mono ?_
      rintro _ _ ⟨_, _, _, rfl, ⟨value, ⟨hkind, hwell, haccepted⟩, rfl⟩, rfl, rfl⟩
      refine ⟨value, hkind, hwell, by rw [List.append_nil], fun entry hentry hkey => ?_⟩
      rw [GgufMetadata.add, hkey, hentry]
      rw [← hkind] at halignment
      simp only [halignment, hno, hcount, if_false, haccepted, if_true]
  refine (reads_readGgufString.bind fun key => reads_readU32.bind fun valueType =>
    hvalue key valueType).mono ?_
  rintro metadata' _ ⟨key, _, _, rfl, ⟨text, hlength, rfl, hkey⟩, _, _, _, rfl, ⟨_, rfl⟩, value,
    rfl, hwell, rfl, hadd⟩
  exact ⟨⟨text, value⟩, ⟨hlength, hwell⟩, rfl, hadd ⟨text, value⟩ rfl hkey⟩

theorem yields_readMetadataEntry (metadata : GgufMetadata) {entry : GgufEntry}
    (h : entry.WellFormed) :
    Yields (readMetadataEntry metadata) entry.encode (metadata.add entry) := by
  have hkey := yields_readGgufString h.key
  rw [GgufMetadata.add, GgufEntry.encode, readMetadataEntry]
  cases htext : stringText entry.key with
  | none =>
      rw [htext] at hkey
      exact hkey.bind_none _ _
  | some key =>
      rw [htext] at hkey
      refine hkey.bind ((yields_readU32 (kind_lt h.value)).bind ?_)
      by_cases halignment : key = "general.alignment" ∧ entry.value.kind = 4
      · simp only [halignment, and_self, if_true]
        exact yields_readAlignment metadata h.value halignment.2
      · simp only [halignment, if_false]
        by_cases hno : key = "split.no"
        · simp only [hno, if_true]
          exact yields_splitNumber _ _ _ h.value fun hallowed => by
            simpa using (not_or.mp hallowed).1
        · simp only [hno, if_false]
          by_cases hcount : key = "split.count"
          · simp only [hcount, if_true]
            exact yields_splitNumber _ _ _ h.value fun hallowed => by
              simpa using (not_or.mp hallowed).1
          · simp only [hcount, if_false]
            have hskip := @yields_skipGgufValue entry.value h.value (maxArrayDepth + 1)
              (.inl (by decide))
            cases haccepted : entry.value.accepted (maxArrayDepth + 1) with
            | true =>
                rw [haccepted, if_pos rfl] at hskip
                exact hskip.bind_last (yields_pure metadata)
            | false =>
                rw [haccepted, if_neg Bool.false_ne_true] at hskip
                rw [← List.append_nil entry.value.encode, if_neg Bool.false_ne_true]
                exact hskip.bind_none _ _

end Entries

/-- A tensor info as it stands in the file. -/
structure TensorInfo where
  name : List UInt8
  dimensions : List Nat
  kind : Nat
  offset : Nat

namespace TensorInfo

def encode (info : TensorInfo) : List UInt8 :=
  encodeString info.name ++ (leBytes 4 info.dimensions.length ++
    (info.dimensions.flatMap (leBytes 8) ++ (leBytes 4 info.kind ++ leBytes 8 info.offset)))

def tensor (info : TensorInfo) : GgufTensor := ⟨info.offset, info.dimensions.prod, info.kind⟩

structure Sound (info : TensorInfo) : Prop where
  name : info.name.length < 256 ^ 8 ∧ (stringText info.name).isSome = true
  rank : 1 ≤ info.dimensions.length ∧ info.dimensions.length ≤ 4
  dimensions : ∀ dimension ∈ info.dimensions, dimension ≠ 0 ∧ dimension < 256 ^ 8
  elements : info.dimensions.prod < 2 ^ 64
  kind : info.kind < 256 ^ 4
  offset : info.offset < 256 ^ 8

end TensorInfo

section Infos

theorem reads_readDimensions {skips : Prop} (n elements : Nat) :
    Reads skips (readDimensions n elements) fun total bytes => ∃ dimensions : List Nat,
      dimensions.length = n ∧ (∀ dimension ∈ dimensions, dimension ≠ 0 ∧ dimension < 256 ^ 8) ∧
      bytes = dimensions.flatMap (leBytes 8) ∧ total = elements * dimensions.prod ∧
      (elements < 2 ^ 64 → total < 2 ^ 64) := by
  induction n generalizing elements with
  | zero => exact reads_pure elements ⟨[], rfl, by simp, rfl, by simp, id⟩
  | succ n ih =>
      refine (reads_readU64.bind fun dimension => (reads_refuseIf _ _).bind fun _ =>
        (reads_require _ _).bind fun next => ih next).mono ?_
      rintro total _ ⟨dimension, _, _, rfl, ⟨hsize, rfl⟩, _, _, _, rfl, ⟨rfl, hnonzero⟩, next, _, _,
        rfl, ⟨rfl, hnext⟩, dimensions, hlength, hall, rfl, htotal, hbound⟩
      obtain ⟨hfits, hproduct⟩ := checkedMul_eq_some.mp hnext
      refine ⟨dimension :: dimensions, by rw [List.length_cons, hlength],
        List.forall_mem_cons.mpr ⟨⟨hnonzero, hsize⟩, hall⟩, by simp, ?_, fun _ => hbound ?_⟩
      · rw [htotal, hproduct, List.prod_cons, Nat.mul_assoc]
      · rwa [hproduct]

theorem yields_readDimensions {dimensions : List Nat} {elements : Nat}
    (h : ∀ dimension ∈ dimensions, dimension ≠ 0 ∧ dimension < 256 ^ 8)
    (hfits : elements * dimensions.prod < 2 ^ 64) :
    Yields (readDimensions dimensions.length elements) (dimensions.flatMap (leBytes 8))
      (some (elements * dimensions.prod)) := by
  induction dimensions generalizing elements with
  | nil =>
      rw [List.prod_nil, Nat.mul_one]
      exact yields_pure elements
  | cons dimension rest ih =>
      rw [List.forall_mem_cons] at h
      obtain ⟨⟨hnonzero, hsize⟩, hrest⟩ := h
      rw [List.prod_cons, ← Nat.mul_assoc] at hfits ⊢
      have hpositive : 0 < rest.prod := List.prod_pos_iff_forall_pos_nat.mpr fun other hmem =>
        Nat.pos_of_ne_zero (hrest other hmem).1
      have hproduct : elements * dimension < 2 ^ 64 :=
        (Nat.le_mul_of_pos_right _ hpositive).trans_lt hfits
      rw [List.flatMap_cons]
      refine (yields_readU64 hsize).bind ((yields_refuseIf_of_not _ hnonzero).bind_of_nil ?_)
      rw [checkedMul_eq_some.mpr ⟨hproduct, rfl⟩]
      exact (yields_require _ _).bind_of_nil (ih hrest hfits)

/-- What the info of a tensor was. -/
theorem reads_readTensor {skips : Prop} : Reads skips readTensor fun tensor bytes =>
    ∃ info : TensorInfo, info.Sound ∧ bytes = info.encode ∧ tensor = info.tensor := by
  refine (reads_readGgufString.bind fun _ => reads_readU32.bind fun dimensions =>
    (reads_refuseIf _ _).bind fun _ => (reads_readDimensions dimensions 1).bind fun elements =>
    reads_readU32.bind fun kind => reads_readU64.bind fun offset => reads_pure _
      (P := fun tensor bytes => tensor = ⟨offset, elements, kind⟩ ∧ bytes = []) ⟨rfl, rfl⟩).mono ?_
  rintro _ _ ⟨name, _, _, rfl, ⟨text, hlength, rfl, hname⟩, _, _, _, rfl, ⟨_, rfl⟩, _, _, _, rfl,
    ⟨rfl, hrank⟩, elements, _, _, rfl, ⟨dimensions, rfl, hall, rfl, htotal, hbound⟩, kind, _, _,
    rfl, ⟨hkind, rfl⟩, offset, _, _, rfl, ⟨hoffset, rfl⟩, rfl, rfl⟩
  rw [Nat.one_mul] at htotal
  have helements : dimensions.prod < 2 ^ 64 := htotal ▸ hbound (by decide)
  have hrank' : 1 ≤ dimensions.length ∧ dimensions.length ≤ 4 := by omega
  refine ⟨⟨text, dimensions, kind, offset⟩, ⟨⟨hlength, by rw [hname]; rfl⟩, hrank', hall,
    helements, hkind, hoffset⟩, by simp [TensorInfo.encode], ?_⟩
  rw [TensorInfo.tensor, htotal]

theorem yields_readTensor {info : TensorInfo} (h : info.Sound) :
    Yields readTensor info.encode (some info.tensor) := by
  obtain ⟨name, hname⟩ := Option.isSome_iff_exists.mp h.name.2
  have hstring := yields_readGgufString h.name.1
  rw [hname] at hstring
  have hdimensions := @yields_readDimensions info.dimensions 1 h.dimensions (by
    rw [Nat.one_mul]
    exact h.elements)
  rw [Nat.one_mul] at hdimensions
  have hrank := h.rank
  rw [TensorInfo.encode]
  refine hstring.bind ((yields_readU32 (by omega)).bind ?_)
  refine (yields_refuseIf_of_not _ (by omega)).bind_of_nil (hdimensions.bind ?_)
  exact (yields_readU32 h.kind).bind ((yields_readU64 h.offset).bind_last (yields_pure _))

end Infos

end MindOne.Engine
