import MindOne.Engine.Safetensors
import Mathlib.Algebra.BigOperators.Group.List.Basic
import Mathlib.Data.List.Perm.Basic

/-!
# Well-formed layouts of safetensors files

A header is read as a list of tensors with their shapes and places. The validator accepts
it exactly when the tensors, put into the order of their places, tile the data buffer, and
then each byte of the buffer belongs to one tensor.
-/

namespace MindOne.Engine

open CheckedArithmetic MindOne.Stream Json Spans
open ByteReader (leNumber)

section Keys

/-- No object, at any depth, has a key twice. -/
inductive UniqueKeys : Value → Prop where
  | null : UniqueKeys .null
  | bool (value : Bool) : UniqueKeys (.bool value)
  | int (value : Int) : UniqueKeys (.int value)
  | float (text : String) : UniqueKeys (.float text)
  | string (value : String) : UniqueKeys (.string value)
  | array {items : List Value} (h : ∀ item ∈ items, UniqueKeys item) : UniqueKeys (.array items)
  | object {fields : Fields} (hkeys : (fields.map Prod.fst).Nodup)
      (h : ∀ field ∈ fields, UniqueKeys field.2) : UniqueKeys (.object fields)

theorem uniqueKeys_array {items : List Value} :
    UniqueKeys (.array items) ↔ ∀ item ∈ items, UniqueKeys item := by
  constructor
  · intro h
    cases h with
    | array h => exact h
  · exact .array

theorem uniqueKeys_object {fields : Fields} : UniqueKeys (.object fields) ↔
    (fields.map Prod.fst).Nodup ∧ ∀ field ∈ fields, UniqueKeys field.2 := by
  constructor
  · intro h
    cases h with
    | object hkeys h => exact ⟨hkeys, h⟩
  · rintro ⟨hkeys, h⟩
    exact .object hkeys h

theorem map_eq_ok {ε α β : Type*} {f : α → β} {x : Except ε α} {b : β} :
    x.map f = .ok b ↔ ∃ a, x = .ok a ∧ f a = b := by
  cases x with
  | error e => simp [Except.map]
  | ok a => simp [Except.map]

theorem containsKey_eq_true {fields : Fields} {key : String} :
    fields.containsKey key = true ↔ key ∈ fields.map Prod.fst := by
  simp [Fields.containsKey]

theorem insert_of_new {fields : Fields} {key : String} (h : key ∉ fields.map Prod.fst)
    (value : Value) : fields.insert key value = fields ++ [(key, value)] := by
  rw [Fields.insert, if_neg (fun hkey => h (containsKey_eq_true.mp hkey))]

theorem nodup_keys_append {fields : Fields} {key : String} {value : Value} :
    ((fields ++ [(key, value)]).map Prod.fst).Nodup ↔
      key ∉ fields.map Prod.fst ∧ (fields.map Prod.fst).Nodup := by
  rw [List.map_append, List.map_singleton, ← List.concat_eq_append, List.nodup_concat]

mutual

/-- The visitor gives the tree that it reads, if its keys are unique. -/
theorem uniqueValue_eq_ok : ∀ (tree : Value) {value : Value},
    uniqueValue tree = .ok value ↔ value = tree ∧ UniqueKeys tree
  | .null, _ => by simp [uniqueValue, UniqueKeys.null, eq_comm]
  | .bool value, _ => by simp [uniqueValue, UniqueKeys.bool value, eq_comm]
  | .int value, _ => by simp [uniqueValue, UniqueKeys.int value, eq_comm]
  | .float text, _ => by simp [uniqueValue, UniqueKeys.float text, eq_comm]
  | .string value, _ => by simp [uniqueValue, UniqueKeys.string value, eq_comm]
  | .array items, value => by
      rw [uniqueValue, map_eq_ok, uniqueKeys_array]
      constructor
      · rintro ⟨out, hout, rfl⟩
        obtain ⟨hsame, hitems⟩ := (uniqueItems_eq_ok items).mp hout
        exact ⟨congrArg Value.array hsame, hitems⟩
      · rintro ⟨hvalue, hitems⟩
        exact ⟨items, (uniqueItems_eq_ok items).mpr ⟨rfl, hitems⟩, hvalue.symm⟩
  | .object fields, value => by
      rw [uniqueValue, map_eq_ok, uniqueKeys_object]
      constructor
      · rintro ⟨out, hout, rfl⟩
        obtain ⟨hsame, hkeys, hfields⟩ := (uniqueFields_eq_ok fields [] .nil).mp hout
        exact ⟨congrArg Value.object hsame, hkeys, hfields⟩
      · rintro ⟨hvalue, hkeys, hfields⟩
        exact ⟨fields, (uniqueFields_eq_ok fields [] .nil).mpr ⟨rfl, hkeys, hfields⟩, hvalue.symm⟩

theorem uniqueItems_eq_ok : ∀ (items : List Value) {out : List Value},
    uniqueItems items = .ok out ↔ out = items ∧ ∀ item ∈ items, UniqueKeys item
  | [], out => by simp [uniqueItems, eq_comm]
  | item :: rest, out => by
      simp only [uniqueItems, bind_eq_ok, uniqueValue_eq_ok item, uniqueItems_eq_ok rest,
        List.forall_mem_cons]
      constructor
      · rintro ⟨_, ⟨rfl, hitem⟩, _, ⟨rfl, hrest⟩, hout⟩
        cases hout
        exact ⟨rfl, hitem, hrest⟩
      · rintro ⟨rfl, hitem, hrest⟩
        exact ⟨item, ⟨rfl, hitem⟩, rest, ⟨rfl, hrest⟩, rfl⟩

theorem uniqueFields_eq_ok : ∀ (fields values : Fields) {out : Fields},
    (values.map Prod.fst).Nodup →
    (uniqueFields values fields = .ok out ↔ out = values ++ fields ∧
      ((values ++ fields).map Prod.fst).Nodup ∧ ∀ field ∈ fields, UniqueKeys field.2)
  | [], values, out, hnodup => by simp [uniqueFields, eq_comm, hnodup]
  | (key, value) :: rest, values, out, hnodup => by
      have hsplit : values ++ (key, value) :: rest = values ++ [(key, value)] ++ rest := by simp
      simp only [uniqueFields, bind_eq_ok, rejectIf_eq_ok, exists_const, containsKey_eq_true,
        uniqueValue_eq_ok value, List.forall_mem_cons]
      constructor
      · rintro ⟨hnew, read, ⟨hread, hvalue⟩, hrest⟩
        rw [insert_of_new hnew, hread] at hrest
        obtain ⟨hout, hkeys, hfields⟩ := (uniqueFields_eq_ok rest (values ++ [(key, value)])
          (nodup_keys_append.mpr ⟨hnew, hnodup⟩)).mp hrest
        rw [hsplit]
        exact ⟨hout, hkeys, hvalue, hfields⟩
      · rintro ⟨hout, hkeys, hvalue, hfields⟩
        rw [hsplit] at hout hkeys
        have hnodup' : ((values ++ [(key, value)]).map Prod.fst).Nodup := by
          rw [List.map_append] at hkeys
          exact hkeys.of_append_left
        obtain ⟨hnew, _⟩ := nodup_keys_append.mp hnodup'
        refine ⟨hnew, value, ⟨rfl, hvalue⟩, ?_⟩
        rw [insert_of_new hnew]
        exact (uniqueFields_eq_ok rest (values ++ [(key, value)]) hnodup').mpr
          ⟨hout, hkeys, hfields⟩

end

end Keys

/-- A tensor as its header entry describes it. -/
structure TensorLayout where
  name : String
  elementSize : Nat
  shape : List Nat
  start : Nat
  stop : Nat

def TensorLayout.span (tensor : TensorLayout) : Span := ⟨tensor.start, tensor.stop⟩

def TensorLayout.range (tensor : TensorLayout) : TensorRange :=
  ⟨tensor.start, tensor.stop, tensor.name⟩

/-- What an entry of the header has to say about a tensor. -/
structure Describes (entry : String × Value) (tensor : TensorLayout) : Prop where
  name : tensor.name = entry.1
  nonempty : entry.1 ≠ ""
  nameLength : entry.1.utf8ByteSize ≤ 4096
  fields : ∃ object : Fields, entry.2 = .object object ∧
    (∃ dtype, object.get "dtype" = some (.string dtype) ∧
      dtypeSize dtype = some tensor.elementSize) ∧
    (∃ shape, object.get "shape" = some (.array shape) ∧
      shape.map Value.asU64 = tensor.shape.map some) ∧
    ∃ start stop, object.get "data_offsets" = some (.array [start, stop]) ∧
      start.asU64 = some tensor.start ∧ stop.asU64 = some tensor.stop
  rank : tensor.shape.length ≤ 32
  products : ∀ k, (tensor.shape.take k).prod < 2 ^ 64
  size : tensor.shape.prod * tensor.elementSize < 2 ^ 64
  proper : tensor.start ≤ tensor.stop
  extent : tensor.stop - tensor.start = tensor.shape.prod * tensor.elementSize

section Entries

theorem foldlM_elements {name : String} {shape : List Value} {product elements : Nat}
    (hproduct : product < 2 ^ 64) :
    shape.foldlM (fun product dimension => do
      let value ← okOr (⟨s!"张量 {name} shape 无效"⟩ : InvalidSafetensors) dimension.asU64
      okOr ⟨s!"张量 {name} 元素数溢出"⟩ (checkedMul product value)) product = .ok elements ↔
    ∃ dimensions : List Nat, shape.map Value.asU64 = dimensions.map some ∧
      (∀ k, product * (dimensions.take k).prod < 2 ^ 64) ∧
      elements = product * dimensions.prod := by
  induction shape generalizing product with
  | nil =>
      constructor
      · intro h
        cases h
        exact ⟨[], rfl, by simpa using hproduct, by simp⟩
      · rintro ⟨dimensions, hdimensions, _, helements⟩
        have hnil : dimensions = [] := by simpa using hdimensions.symm
        rw [helements, hnil]
        simp [pure, Except.pure]
  | cons dimension rest ih =>
      simp only [List.foldlM_cons, bind_eq_ok, okOr_eq_ok, checkedMul_eq_some]
      constructor
      · rintro ⟨next, ⟨value, hvalue, hnext, hproduct'⟩, hrest⟩
        rw [hproduct'] at hrest
        obtain ⟨dimensions, hdimensions, hproducts, helements⟩ := (ih hnext).mp hrest
        refine ⟨value :: dimensions, by rw [List.map_cons, hvalue, hdimensions]; rfl, ?_, ?_⟩
        · intro k
          cases k with
          | zero => simpa using hproduct
          | succ k => simpa [mul_assoc] using hproducts k
        · rw [helements, List.prod_cons, mul_assoc]
      · rintro ⟨dimensions, hdimensions, hproducts, helements⟩
        cases dimensions with
        | nil => cases hdimensions
        | cons value dimensions =>
            rw [List.map_cons, List.map_cons, List.cons.injEq] at hdimensions
            obtain ⟨hvalue, hdimensions⟩ := hdimensions
            have hnext : product * value < 2 ^ 64 := by simpa using hproducts 1
            refine ⟨product * value, ⟨value, hvalue, hnext, rfl⟩, (ih hnext).mpr ?_⟩
            refine ⟨dimensions, hdimensions, fun k => ?_, ?_⟩
            · simpa [mul_assoc] using hproducts (k + 1)
            · rw [helements, List.prod_cons, mul_assoc]

theorem elementCount_eq_ok {name : String} {shape : List Value} {elements : Nat} :
    elementCount name shape = .ok elements ↔ ∃ dimensions : List Nat,
      shape.map Value.asU64 = dimensions.map some ∧ (∀ k, (dimensions.take k).prod < 2 ^ 64) ∧
      elements = dimensions.prod := by
  rw [elementCount, foldlM_elements (by decide)]
  simp only [one_mul]

theorem asObject_eq_some {value : Value} {fields : Fields} :
    value.asObject = some fields ↔ value = .object fields := by
  cases value <;> simp [Value.asObject]

theorem asArray_eq_some {value : Value} {items : List Value} :
    value.asArray = some items ↔ value = .array items := by
  cases value <;> simp [Value.asArray]

theorem asStr_eq_some {value : Value} {text : String} :
    value.asStr = some text ↔ value = .string text := by
  cases value <;> simp [Value.asStr]

/-- An entry is read as the tensor that it describes, if this lies in the buffer. -/
theorem tensorRange_eq_ok {dataLen : Nat} {name : String} {value : Value} {range : TensorRange} :
    tensorRange dataLen name value = .ok range ↔
      ∃ tensor, Describes (name, value) tensor ∧ tensor.stop ≤ dataLen ∧ range = tensor.range := by
  simp only [tensorRange, bind_eq_ok, okOr_eq_ok, rejectIf_eq_ok, exists_const,
    Option.bind_eq_some_iff, Option.filter_eq_some_iff, elementCount_eq_ok, checkedMul_eq_some,
    asObject_eq_some, asArray_eq_some, asStr_eq_some, not_or, not_lt, not_not]
  constructor
  · rintro ⟨⟨hnonempty, hname⟩, object, hobject, dtype, ⟨_, hdtype, rfl⟩, elementSize, hsize,
      items, ⟨_, hshape, rfl⟩, hrank, elements, ⟨shape, hitems, hproducts, rfl⟩, offsets,
      ⟨⟨_, hoffsets, rfl⟩, hlength⟩, start, ⟨first, hfirst, hstart⟩, stop,
      ⟨second, hsecond, hstop⟩, ⟨hproper, hbound⟩, _, ⟨hfits, rfl⟩, hextent, hrange⟩
    cases hrange
    obtain ⟨a, b, rfl⟩ := List.length_eq_two.mp (beq_iff_eq.mp hlength)
    cases hfirst
    cases hsecond
    refine ⟨⟨name, elementSize, shape, start, stop⟩, ?_, hbound, rfl⟩
    have hrank' : shape.length = items.length := by
      simpa using (congrArg List.length hitems).symm
    exact ⟨rfl, hnonempty, hname, ⟨object, hobject, ⟨dtype, hdtype, hsize⟩,
      ⟨items, hshape, hitems⟩, ⟨_, _, hoffsets, hstart, hstop⟩⟩, hrank'.trans_le hrank, hproducts,
      hfits, hproper, hextent⟩
  · rintro ⟨tensor, ⟨hname, hnonempty, hlength, ⟨object, hobject, ⟨dtype, hdtype, hsize⟩,
      ⟨items, hshape, hitems⟩, first, second, hoffsets, hstart, hstop⟩, hrank, hproducts, hfits,
      hproper, hextent⟩, hbound, hrange⟩
    have hrank' : tensor.shape.length = items.length := by
      simpa using (congrArg List.length hitems).symm
    refine ⟨⟨hnonempty, hlength⟩, object, hobject, dtype, ⟨_, hdtype, rfl⟩, tensor.elementSize,
      hsize, items, ⟨_, hshape, rfl⟩, hrank'.ge.trans hrank, tensor.shape.prod,
      ⟨tensor.shape, hitems, hproducts, rfl⟩, [first, second], ⟨⟨_, hoffsets, rfl⟩, rfl⟩,
      tensor.start, ⟨first, rfl, hstart⟩, tensor.stop, ⟨second, rfl, hstop⟩, ⟨hproper, hbound⟩, _,
      ⟨hfits, rfl⟩, hextent, ?_⟩
    rw [hrange, TensorLayout.range, hname]
    rfl

/-- The entries that place a tensor. -/
def tensorEntries (entries : List (String × Value)) : List (String × Value) :=
  entries.filter fun entry => entry.1 ≠ "__metadata__"

/-- A map from strings to strings. -/
def IsMetadata (value : Value) : Prop :=
  ∃ metadata : Fields, value = .object metadata ∧
    ∀ field ∈ metadata, ∃ text, field.2 = .string text

theorem isStringMap_eq_true {value : Value} : isStringMap value = true ↔ IsMetadata value := by
  simp only [isStringMap, Option.any_eq_true, asObject_eq_some, List.all_eq_true, IsMetadata]
  have hstring : ∀ v : Value, v.isString = true ↔ ∃ text, v = .string text := by
    intro v
    cases v <;> simp [Value.isString]
  simp only [hstring]

theorem foldlM_indexEntry {dataLen : Nat} {entries : List (String × Value)}
    {ranges out : List TensorRange} :
    entries.foldlM (indexEntry dataLen) ranges = .ok out ↔
      (∀ entry ∈ entries, entry.1 = "__metadata__" → IsMetadata entry.2) ∧
      ∃ tensors, List.Forall₂ Describes (tensorEntries entries) tensors ∧
        (∀ tensor ∈ tensors, tensor.stop ≤ dataLen) ∧
        out = ranges ++ tensors.map TensorLayout.range := by
  induction entries generalizing ranges with
  | nil =>
      constructor
      · intro h
        cases h
        exact ⟨by simp, [], .nil, by simp, by simp⟩
      · rintro ⟨_, tensors, htensors, _, hout⟩
        cases htensors
        rw [hout, List.map_nil, List.append_nil]
        rfl
  | cons entry rest ih =>
      rw [List.foldlM_cons, bind_eq_ok, List.forall_mem_cons]
      by_cases hname : entry.1 = "__metadata__"
      · have hskip : tensorEntries (entry :: rest) = tensorEntries rest := by
          simp [tensorEntries, hname]
        simp only [indexEntry, hname, if_true, map_eq_ok, rejectIf_eq_ok, Bool.not_eq_false,
          isStringMap_eq_true, ih, hskip, exists_const, forall_true_left]
        constructor
        · rintro ⟨next, ⟨hmetadata, rfl⟩, hrest, htensors⟩
          exact ⟨⟨hmetadata, hrest⟩, htensors⟩
        · rintro ⟨⟨hmetadata, hrest⟩, htensors⟩
          exact ⟨ranges, ⟨hmetadata, rfl⟩, hrest, htensors⟩
      · have htake : tensorEntries (entry :: rest) = entry :: tensorEntries rest := by
          simp [tensorEntries, hname]
        simp only [indexEntry, hname, if_false, map_eq_ok, tensorRange_eq_ok, ih, htake,
          IsEmpty.forall_iff, true_and]
        constructor
        · rintro ⟨next, ⟨_, ⟨tensor, htensor, hbound, rfl⟩, rfl⟩, hrest, tensors, htensors,
            hbounds, hout⟩
          refine ⟨hrest, tensor :: tensors, .cons htensor htensors, ?_, by simpa using hout⟩
          exact List.forall_mem_cons.mpr ⟨hbound, hbounds⟩
        · rintro ⟨hrest, tensors, htensors, hbounds, hout⟩
          cases htensors with
          | cons htensor htensors =>
              rw [List.forall_mem_cons] at hbounds
              exact ⟨_, ⟨_, ⟨_, htensor, hbounds.1, rfl⟩, rfl⟩, hrest, _, htensors, hbounds.2,
                by simpa using hout⟩

theorem checkNeighbours_eq_ok {ranges : List TensorRange} {done : Unit} :
    checkNeighbours ranges = .ok done ↔
      ranges.IsChain fun a b => a.span.stop = b.span.start := by
  induction ranges with
  | nil => simp [checkNeighbours]
  | cons left rest ih =>
      cases rest with
      | nil => simp [checkNeighbours]
      | cons right rest =>
          simp only [checkNeighbours, bind_eq_ok, rejectIf_eq_ok, exists_const, ih,
            List.isChain_cons_cons, TensorRange.span]
          constructor
          · rintro ⟨hoverlap, hhole, hrest⟩
            exact ⟨by omega, hrest⟩
          · rintro ⟨hmeet, hrest⟩
            exact ⟨by omega, by omega, hrest⟩

end Entries

/-- A header whose entries place tensors that tile the data buffer. -/
structure WellFormed (dataLen : Nat) (tree : Value) (tensors : List TensorLayout) : Prop where
  unique : UniqueKeys tree
  entries : ∃ fields : Fields, tree = .object fields ∧
    (∀ value, ("__metadata__", value) ∈ fields → IsMetadata value) ∧
    List.Forall₂ Describes (tensorEntries fields) tensors
  nonempty : tensors ≠ []
  tiles : ∃ order : List TensorLayout, order.Perm tensors ∧
    (order.Pairwise fun a b => a.span.Precedes b.span) ∧
    Tiles TensorLayout.span 0 order dataLen

section Verdict

/-- What the checks after the loop ask of the tensors. -/
theorem checks_eq_tiles {dataLen : Nat} {tensors : List TensorLayout} (hnonempty : tensors ≠ [])
    (hproper : ∀ tensor ∈ tensors, tensor.start ≤ tensor.stop) :
    ((∃ a, (sortSpans TensorRange.span (tensors.map TensorLayout.range)).head? = some a ∧
        a.start = 0) ∧
      ((sortSpans TensorRange.span (tensors.map TensorLayout.range)).IsChain fun a b =>
        a.span.stop = b.span.start) ∧
      ∃ a, (sortSpans TensorRange.span (tensors.map TensorLayout.range)).getLast? = some a ∧
        a.stop = dataLen) ↔
    Tiles TensorLayout.span 0 (sortSpans TensorLayout.span tensors) dataLen := by
  have hperm := perm_sortSpans TensorRange.span (tensors.map TensorLayout.range)
  have hproper' : ∀ a ∈ sortSpans TensorRange.span (tensors.map TensorLayout.range),
      a.span.start ≤ a.span.stop := by
    intro a ha
    obtain ⟨tensor, htensor, rfl⟩ := List.mem_map.mp (hperm.subset ha)
    exact hproper tensor htensor
  have hnonempty' : sortSpans TensorRange.span (tensors.map TensorLayout.range) ≠ [] := by
    intro hnil
    rw [hnil, List.nil_perm, List.map_eq_nil_iff] at hperm
    exact hnonempty hperm
  have hspans : (sortSpans TensorRange.span (tensors.map TensorLayout.range)).map TensorRange.span =
      (sortSpans TensorLayout.span tensors).map TensorLayout.span := by
    refine map_sortSpans_of_perm ?_
    rw [List.map_map]
    exact .refl _
  rw [← @tiles_map _ TensorLayout.span, ← hspans, tiles_map]
  exact (tiles_iff_neighbours hproper' hnonempty').symm

theorem tiles_sortSpans_iff {dataLen : Nat} {tensors : List TensorLayout} :
    Tiles TensorLayout.span 0 (sortSpans TensorLayout.span tensors) dataLen ↔
      ∃ order : List TensorLayout, order.Perm tensors ∧
        (order.Pairwise fun a b => a.span.Precedes b.span) ∧
        Tiles TensorLayout.span 0 order dataLen := by
  constructor
  · intro h
    exact ⟨_, perm_sortSpans _ tensors, pairwise_sortSpans _ tensors, h⟩
  · rintro ⟨order, hperm, hsorted, h⟩
    exact tiles_sortSpans_of_perm hperm hsorted h

def headerLength (file : List UInt8) : Nat := leNumber (file.take 8)

def headerText (file : List UInt8) : List UInt8 := (file.drop 8).take (headerLength file)

def dataLength (file : List UInt8) : Nat := file.length - (8 + headerLength file)

/-- The first eight bytes are the length of a header that the file can hold. -/
structure HasHeader (file : List UInt8) : Prop where
  size : 16 ≤ file.length
  positive : 2 ≤ headerLength file
  bounded : headerLength file ≤ maxSafetensorsHeader
  inside : 8 + headerLength file ≤ file.length

variable {deserializer : List UInt8 → Except String Value}

theorem mapError_parseUniqueJson_eq_ok {bytes : List UInt8} {value : Value} :
    (parseUniqueJson deserializer bytes).mapError InvalidSafetensors.mk = .ok value ↔
      deserializer bytes = .ok value ∧ UniqueKeys value := by
  rw [mapError_eq_ok, parseUniqueJson, bind_eq_ok]
  constructor
  · rintro ⟨tree, htree, hvalue⟩
    obtain ⟨rfl, hunique⟩ := (uniqueValue_eq_ok tree).mp hvalue
    exact ⟨htree, hunique⟩
  · rintro ⟨htree, hunique⟩
    exact ⟨value, htree, (uniqueValue_eq_ok value).mpr ⟨rfl, hunique⟩⟩

theorem perm_tensorEntries {fields fields' : List (String × Value)} (h : fields.Perm fields') :
    (tensorEntries fields).Perm (tensorEntries fields') := h.filter _

theorem WellFormed.proper {dataLen : Nat} {tree : Value} {tensors : List TensorLayout}
    (h : WellFormed dataLen tree tensors) :
    ∀ tensor ∈ tensors, tensor.start ≤ tensor.stop ∧ tensor.stop ≤ dataLen := by
  obtain ⟨order, hperm, _, htiles⟩ := h.tiles
  intro tensor htensor
  exact (htiles.bounds tensor (hperm.mem_iff.mpr htensor)).2

theorem proper_of_describes {entries : List (String × Value)} {tensors : List TensorLayout}
    (h : List.Forall₂ Describes entries tensors) :
    ∀ tensor ∈ tensors, tensor.start ≤ tensor.stop := by
  induction h with
  | nil => simp
  | cons htensor _ ih => exact List.forall_mem_cons.mpr ⟨htensor.proper, ih⟩

/-- The entries of a header in another order are the same tensors. -/
theorem WellFormed.of_perm {dataLen : Nat} {fields fields' : Fields} {tensors : List TensorLayout}
    (h : WellFormed dataLen (.object fields) tensors) (hperm : fields'.Perm fields) :
    ∃ tensors', tensors'.Perm tensors ∧ WellFormed dataLen (.object fields') tensors' := by
  obtain ⟨fields, hfields, hmetadata, htensors⟩ := h.entries
  cases hfields
  obtain ⟨tensors', htensors', hsame⟩ :=
    List.perm_comp_forall₂ (perm_tensorEntries hperm) htensors
  obtain ⟨order, horder, hsorted, htiles⟩ := h.tiles
  obtain ⟨hkeys, hunique⟩ := uniqueKeys_object.mp h.unique
  refine ⟨tensors', hsame, ?_, ⟨fields', rfl, ?_, htensors'⟩, ?_, order, horder.trans hsame.symm,
    hsorted, htiles⟩
  · refine uniqueKeys_object.mpr ⟨(hperm.map Prod.fst).nodup_iff.mpr hkeys, fun field hmem => ?_⟩
    exact hunique field (hperm.subset hmem)
  · intro value hmem
    exact hmetadata value (hperm.subset hmem)
  · intro hnil
    rw [hnil, List.nil_perm] at hsame
    exact h.nonempty hsame

theorem not_all_ne {α : Type} {item : Option α} {f : α → Nat} {value : Nat} :
    ¬ item.all (fun a => decide (f a ≠ value)) = true ↔ ∃ a, item = some a ∧ f a = value := by
  cases item <;> simp

/-- The header is well formed exactly when its entries are, in the order of the map. -/
theorem wellFormed_of_members {dataLen : Nat} {fields : Fields} {tensors : List TensorLayout}
    (hunique : UniqueKeys (.object fields))
    (hmetadata : ∀ entry ∈ members fields, entry.1 = "__metadata__" → IsMetadata entry.2)
    (htensors : List.Forall₂ Describes (tensorEntries (members fields)) tensors)
    (hnonempty : tensors ≠ [])
    (htiles : Tiles TensorLayout.span 0 (sortSpans TensorLayout.span tensors) dataLen) :
    ∃ tensors', tensors'.length = tensors.length ∧
      WellFormed dataLen (.object fields) tensors' := by
  have hperm : (members fields).Perm fields := List.perm_insertionSort _ fields
  have hwell : WellFormed dataLen (.object (members fields)) tensors := by
    obtain ⟨hkeys, hvalues⟩ := uniqueKeys_object.mp hunique
    refine ⟨uniqueKeys_object.mpr ⟨(hperm.map Prod.fst).nodup_iff.mpr hkeys, fun field hmem => ?_⟩,
      ⟨members fields, rfl, fun value hmem => hmetadata _ hmem rfl, htensors⟩, hnonempty,
      tiles_sortSpans_iff.mp htiles⟩
    exact hvalues field (hperm.subset hmem)
  obtain ⟨tensors', hsame, h⟩ := hwell.of_perm hperm.symm
  exact ⟨tensors', hsame.length_eq, h⟩

theorem validateSafetensors_eq_ok {file : List UInt8} (hfile : HasHeader file) {n : Nat} :
    validateSafetensors deserializer file = .ok n ↔ ∃ tree tensors,
      deserializer (headerText file) = .ok tree ∧ WellFormed (dataLength file) tree tensors ∧
        n = tensors.length := by
  have hsize : ¬ file.length < 8 := by
    have := hfile.size
    omega
  have hlength : ¬ (leNumber (file.take 8) = 0 ∨ maxSafetensorsHeader < leNumber (file.take 8)) := by
    have hpositive := hfile.positive
    have hbounded := hfile.bounded
    simp only [headerLength] at hpositive hbounded
    omega
  have hinside : ¬ file.length < 8 + leNumber (file.take 8) := not_lt.mpr hfile.inside
  simp only [validateSafetensors, bind_eq_ok, rejectIf_eq_ok, hsize, hlength, hinside,
    not_false_eq_true, exists_const, true_and, mapError_parseUniqueJson_eq_ok, okOr_eq_ok,
    asObject_eq_some, foldlM_indexEntry, List.nil_append, checkNeighbours_eq_ok, not_all_ne]
  constructor
  · rintro ⟨_, ⟨htree, hunique⟩, fields, rfl, _, ⟨hmetadata, tensors, htensors, _, rfl⟩,
      hnonempty, hfirst, hchain, hlast, hn⟩
    cases hn
    rw [List.map_eq_nil_iff] at hnonempty
    have htiles := (checks_eq_tiles hnonempty (proper_of_describes htensors)).mp
      ⟨hfirst, hchain, hlast⟩
    obtain ⟨tensors', hlength', hwell⟩ :=
      wellFormed_of_members hunique hmetadata htensors hnonempty htiles
    exact ⟨.object fields, tensors', htree, hwell, by rw [hlength', List.length_map]⟩
  · rintro ⟨tree, tensors, htree, hwell, rfl⟩
    obtain ⟨fields, rfl, _⟩ := hwell.entries
    have hperm : (members fields).Perm fields := List.perm_insertionSort _ fields
    obtain ⟨tensors', hsame, hwell'⟩ := hwell.of_perm hperm
    obtain ⟨_, hfields, hmetadata, htensors⟩ := hwell'.entries
    cases hfields
    have hchecks := (checks_eq_tiles hwell'.nonempty (proper_of_describes htensors)).mpr
      (tiles_sortSpans_iff.mpr hwell'.tiles)
    obtain ⟨hfirst, hchain, hlast⟩ := hchecks
    refine ⟨_, ⟨htree, hwell.unique⟩, fields, rfl, _, ⟨?_, tensors', htensors,
      fun tensor hmem => (hwell'.proper tensor hmem).2, rfl⟩, ?_, hfirst, hchain, hlast, ?_⟩
    · rintro ⟨name, value⟩ hmem rfl
      exact hmetadata value hmem
    · rw [List.map_eq_nil_iff]
      exact hwell'.nonempty
    · rw [List.length_map, hsame.length_eq]
      rfl

/-- What the layout of an accepted file says about its data buffer. -/
structure Covered (dataLen : Nat) (tensors : List TensorLayout) : Prop where
  names : (tensors.map TensorLayout.name).Nodup
  bytes : ∀ position, position < dataLen →
    ∃! tensor, tensor ∈ tensors ∧ tensor.span.Contains position
  apart : tensors.Pairwise fun a b => a.span.Apart b.span
  inside : ∀ tensor ∈ tensors, tensor.stop ≤ dataLen ∧
    tensor.start + tensor.shape.prod * tensor.elementSize = tensor.stop

theorem map_name_of_describes {entries : List (String × Value)} {tensors : List TensorLayout}
    (h : List.Forall₂ Describes entries tensors) :
    tensors.map TensorLayout.name = entries.map Prod.fst := by
  induction h with
  | nil => rfl
  | cons htensor _ ih => rw [List.map_cons, List.map_cons, htensor.name, ih]

theorem extent_of_describes {entries : List (String × Value)} {tensors : List TensorLayout}
    (h : List.Forall₂ Describes entries tensors) :
    ∀ tensor ∈ tensors, tensor.start + tensor.shape.prod * tensor.elementSize = tensor.stop := by
  induction h with
  | nil => simp
  | cons htensor _ ih =>
      refine List.forall_mem_cons.mpr ⟨?_, ih⟩
      rw [← htensor.extent, Nat.add_sub_cancel' htensor.proper]

theorem WellFormed.covered {dataLen : Nat} {tree : Value} {tensors : List TensorLayout}
    (h : WellFormed dataLen tree tensors) : Covered dataLen tensors := by
  obtain ⟨fields, htree, _, htensors⟩ := h.entries
  obtain ⟨order, hperm, _, htiles⟩ := h.tiles
  obtain ⟨hkeys, _⟩ := uniqueKeys_object.mp (htree ▸ h.unique)
  constructor
  · rw [map_name_of_describes htensors]
    exact hkeys.sublist (List.filter_sublist.map Prod.fst)
  · intro position hposition
    obtain ⟨tensor, htensor, hcontains⟩ := htiles.exists_contains (Nat.zero_le _) hposition
    refine ⟨tensor, ⟨hperm.subset htensor, hcontains⟩, ?_⟩
    rintro other ⟨hother, hcontains'⟩
    exact eq_of_contains htiles.pairwise (hperm.mem_iff.mpr hother) htensor hcontains' hcontains
  · have hapart : order.Pairwise fun a b => a.span.Apart b.span :=
      htiles.pairwise.imp fun hle => .inl hle
    exact hperm.pairwise hapart fun hab => hab.symm
  · intro tensor htensor
    exact ⟨(h.proper tensor htensor).2, extent_of_describes htensors tensor htensor⟩

/-- The validator accepts exactly the well-formed layouts. These cover each byte of the buffer
once, and the order of their entries makes no difference. -/
theorem validateSafetensors_exact (deserializer : List UInt8 → Except String Value)
    {file : List UInt8} (hfile : HasHeader file) :
    (∀ n, validateSafetensors deserializer file = .ok n ↔ ∃ tree tensors,
      deserializer (headerText file) = .ok tree ∧ WellFormed (dataLength file) tree tensors ∧
        n = tensors.length) ∧
    (∀ tree tensors, WellFormed (dataLength file) tree tensors →
      Covered (dataLength file) tensors) ∧
    ∀ fields other fields', deserializer (headerText file) = .ok (.object fields) →
      HasHeader other → dataLength other = dataLength file →
      deserializer (headerText other) = .ok (.object fields') → fields.Perm fields' →
      ∀ n, validateSafetensors deserializer other = .ok n ↔
        validateSafetensors deserializer file = .ok n := by
  refine ⟨fun n => validateSafetensors_eq_ok hfile, fun tree tensors h => h.covered, ?_⟩
  intro fields other fields' hfields hother hlength hfields' hperm n
  rw [validateSafetensors_eq_ok hfile, validateSafetensors_eq_ok hother, hlength, hfields, hfields']
  simp only [Except.ok.injEq]
  constructor
  · rintro ⟨_, tensors, rfl, hwell, rfl⟩
    obtain ⟨tensors', hsame, hwell'⟩ := hwell.of_perm hperm
    exact ⟨_, tensors', rfl, hwell', hsame.length_eq.symm⟩
  · rintro ⟨_, tensors, rfl, hwell, rfl⟩
    obtain ⟨tensors', hsame, hwell'⟩ := hwell.of_perm hperm.symm
    exact ⟨_, tensors', rfl, hwell', hsame.length_eq.symm⟩

def sampleHeader : String :=
  "\x7b\"a\":\x7b\"dtype\":\"U8\",\"shape\":[2],\"data_offsets\":[0,2]\x7d," ++
  "\"b\":\x7b\"dtype\":\"F32\",\"shape\":[0,3],\"data_offsets\":[0,0]\x7d\x7d"

def sampleTree : Value :=
  .object [
    ("a", .object [("dtype", .string "U8"), ("shape", .array [.int 2]),
      ("data_offsets", .array [.int 0, .int 2])]),
    ("b", .object [("dtype", .string "F32"), ("shape", .array [.int 0, .int 3]),
      ("data_offsets", .array [.int 0, .int 0])])]

/-- The reader's answer for the sample header. -/
def sampleDeserializer (bytes : List UInt8) : Except String Value :=
  if bytes = utf8 sampleHeader then .ok sampleTree
  else .error "expected value at line 1 column 1"

def sampleSafetensors : List UInt8 := [108, 0, 0, 0, 0, 0, 0, 0] ++ utf8 sampleHeader ++ [7, 7]

theorem hasHeader_sample : HasHeader sampleSafetensors := by
  constructor <;> decide +kernel

/-- A tensor of two bytes and an empty one at the same offset. -/
theorem validateSafetensors_exact_sample : ∃ tree tensors,
    sampleDeserializer (headerText sampleSafetensors) = .ok tree ∧
      WellFormed (dataLength sampleSafetensors) tree tensors ∧ 2 = tensors.length := by
  have hok : validateSafetensors sampleDeserializer sampleSafetensors = .ok 2 := by
    decide +kernel
  exact ((validateSafetensors_exact sampleDeserializer hasHeader_sample).1 2).mp hok

end Verdict

end MindOne.Engine
