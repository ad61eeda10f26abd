import MindOne.Lib.ByteReader
import MindOne.Lib.Spans
import MindOne.Stream.Events

/-!
# The header of a safetensors file

A file starts with the length of its header, then the header, a JSON object that places
the tensors in the data buffer behind it. The validator accepts a file when its tensors
tile the buffer.
-/

namespace MindOne.Engine

open CheckedArithmetic MindOne.Stream Json Spans
open ByteReader (leNumber)

def maxSafetensorsHeader : Nat := 100 * 1024 * 1024

/-- Why `InvalidSafetensors` is returned. -/
structure InvalidSafetensors where
  reason : String
  deriving DecidableEq, Repr

/-- `u64::checked_mul`. -/
def checkedMul (left right : Nat) : Option Nat :=
  if left * right < 2 ^ 64 then some (left * right) else none

theorem checkedMul_eq_some {left right product : Nat} :
    checkedMul left right = some product ↔ left * right < 2 ^ 64 ∧ product = left * right := by
  rw [checkedMul, Option.ite_none_right_eq_some, Option.some.injEq, eq_comm (b := product)]

mutual

/-- The visitor: the members of an object have different keys. -/
def uniqueValue : Value → Except String Value
  | .array items => (uniqueItems items).map Value.array
  | .object fields => (uniqueFields [] fields).map Value.object
  | value => .ok value

def uniqueItems : List Value → Except String (List Value)
  | [] => .ok []
  | value :: rest => do
      let value ← uniqueValue value
      let rest ← uniqueItems rest
      return value :: rest

def uniqueFields (values : Fields) : List (String × Value) → Except String Fields
  | [] => .ok values
  | (key, value) :: rest => do
      rejectIf (values.containsKey key = true) ("JSON 对象包含重复键：" ++ key)
      let value ← uniqueValue value
      uniqueFields (values.insert key value) rest

end

/-- `from_slice` to the end of the text. The reader gives the members of an object as they
stand in the text, with repeated keys. -/
def parseUniqueJson (deserializer : List UInt8 → Except String Value) (bytes : List UInt8) :
    Except String Value := do
  let tree ← deserializer bytes
  uniqueValue tree

/-- A map of the library is read in the order of its keys. -/
def members (fields : Fields) : List (String × Value) :=
  fields.insertionSort fun a b => byteRank a.1 ≤ byteRank b.1

def dtypeSize (dtype : String) : Option Nat :=
  if dtype ∈ ["BOOL", "U8", "I8", "F8_E4M3", "F8_E5M2"] then some 1
  else if dtype ∈ ["U16", "I16", "F16", "BF16"] then some 2
  else if dtype ∈ ["U32", "I32", "F32"] then some 4
  else if dtype ∈ ["U64", "I64", "F64"] then some 8
  else none

structure TensorRange where
  start : Nat
  stop : Nat
  name : String
  deriving DecidableEq, Repr

def TensorRange.span (range : TensorRange) : Span := ⟨range.start, range.stop⟩

def elementCount (name : String) (shape : List Value) : Except InvalidSafetensors Nat :=
  shape.foldlM (fun product dimension => do
    let value ← okOr ⟨s!"张量 {name} shape 无效"⟩ dimension.asU64
    okOr ⟨s!"张量 {name} 元素数溢出"⟩ (checkedMul product value)) 1

def tensorRange (dataLen : Nat) (name : String) (tensor : Value) :
    Except InvalidSafetensors TensorRange := do
  rejectIf (name = "" ∨ 4096 < name.utf8ByteSize) ⟨"张量名称为空或过长"⟩
  let object ← okOr ⟨s!"张量 {name} 描述不是对象"⟩ tensor.asObject
  let dtype ← okOr ⟨s!"张量 {name} 缺少 dtype"⟩ ((object.get "dtype").bind Value.asStr)
  let elementSize ← okOr ⟨s!"张量 {name} 使用未知 dtype {dtype}"⟩ (dtypeSize dtype)
  let shape ← okOr ⟨s!"张量 {name} 缺少 shape"⟩ ((object.get "shape").bind Value.asArray)
  rejectIf (32 < shape.length) ⟨s!"张量 {name} 维度过多"⟩
  let elements ← elementCount name shape
  let offsets ← okOr ⟨s!"张量 {name} data_offsets 无效"⟩
    (((object.get "data_offsets").bind Value.asArray).filter fun offsets => offsets.length == 2)
  let start ← okOr ⟨s!"张量 {name} 起始偏移无效"⟩ (offsets[0]?.bind Value.asU64)
  let stop ← okOr ⟨s!"张量 {name} 结束偏移无效"⟩ (offsets[1]?.bind Value.asU64)
  rejectIf (stop < start ∨ dataLen < stop) ⟨s!"张量 {name} 偏移越界"⟩
  let wanted ← okOr ⟨s!"张量 {name} 字节数溢出"⟩ (checkedMul elements elementSize)
  rejectIf (stop - start ≠ wanted) ⟨s!"张量 {name} 字节数与 shape/dtype 不一致"⟩
  return ⟨start, stop, name⟩

def isStringMap (value : Value) : Bool :=
  value.asObject.any fun metadata => metadata.all fun field => field.2.isString

def indexEntry (dataLen : Nat) (ranges : List TensorRange) (entry : String × Value) :
    Except InvalidSafetensors (List TensorRange) :=
  if entry.1 = "__metadata__" then
    (rejectIf (isStringMap entry.2 = false) ⟨"__metadata__ 必须是字符串到字符串的对象"⟩).map
      fun _ => ranges
  else (tensorRange dataLen entry.1 entry.2).map fun range => ranges ++ [range]

/-- `windows(2)`. -/
def checkNeighbours : List TensorRange → Except InvalidSafetensors Unit
  | left :: right :: rest => do
      rejectIf (right.start < left.stop) ⟨s!"张量 {left.name} 与 {right.name} 数据区重叠"⟩
      rejectIf (left.stop < right.start)
        ⟨s!"张量 {left.name} 与 {right.name} 之间存在未索引数据空洞"⟩
      checkNeighbours (right :: rest)
  | _ => .ok ()

/-- A list in memory is shorter than `2^64`, so the count of the tensors is its length. -/
def validateSafetensors (deserializer : List UInt8 → Except String Value) (file : List UInt8) :
    Except InvalidSafetensors Nat := do
  rejectIf (file.length < 8) ⟨"failed to fill whole buffer"⟩
  let headerLen := leNumber (file.take 8)
  rejectIf (headerLen = 0 ∨ maxSafetensorsHeader < headerLen)
    ⟨s!"header 长度 {headerLen} 超出安全范围"⟩
  rejectIf (file.length < 8 + headerLen) ⟨"header 超出文件边界"⟩
  let value ← (parseUniqueJson deserializer ((file.drop 8).take headerLen)).mapError
    InvalidSafetensors.mk
  let tensors ← okOr ⟨"header 顶层必须是 JSON 对象"⟩ value.asObject
  let dataLen := file.length - (8 + headerLen)
  let ranges ← (members tensors).foldlM (indexEntry dataLen) []
  rejectIf (ranges = []) ⟨"文件没有张量"⟩
  let sorted := sortSpans TensorRange.span ranges
  rejectIf (sorted.head?.all (fun range => range.start ≠ 0) = true)
    ⟨"张量数据没有从 data buffer 起点连续覆盖"⟩
  checkNeighbours sorted
  rejectIf (sorted.getLast?.all (fun range => range.stop ≠ dataLen) = true)
    ⟨"data buffer 尾部存在未索引字节"⟩
  return ranges.length

end MindOne.Engine
