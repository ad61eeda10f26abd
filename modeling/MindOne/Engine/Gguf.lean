import MindOne.Engine.ModelRecords
import MindOne.Engine.Safetensors

/-!
# GGUF files

A GGUF file is read forwards: its header, the metadata entries, the tensor infos. Values
of the metadata that are not needed are skipped, by seeks where their size is known. Behind
the infos the data area starts at the next aligned place, and the tensors lie in it.
-/

namespace MindOne.Engine

open CheckedArithmetic MindOne.Stream Spans ByteReader

def maxGgufCount : Nat := 10000000

def maxStringBytes : Nat := 16 * 1024 * 1024

def maxArrayDepth : Nat := 4

abbrev GgufReader := Reader ValidationError

/-- `read_exact`, with the error of a file that ends too early. -/
def readBytes (n : Nat) : GgufReader (List UInt8) :=
  readExact (.invalidGguf "failed to fill whole buffer") n

def readU16 : GgufReader Nat := do
  let bytes ← readBytes 2
  return leNumber bytes

def readU32 : GgufReader Nat := do
  let bytes ← readBytes 4
  return leNumber bytes

def readU64 : GgufReader Nat := do
  let bytes ← readBytes 8
  return leNumber bytes

/-- `String::from_utf8`. -/
def fromUtf8 (bytes : List UInt8) : Option String := String.fromUTF8? ⟨bytes.toArray⟩

def readGgufString : GgufReader String := do
  let length ← readU64
  refuseIf (maxStringBytes < length) (.invalidGguf s!"字符串长度 {length} 超限")
  let value ← readBytes length
  require (.invalidGguf "字符串不是 UTF-8") (fromUtf8 value)

def ggufFixedWidth (valueType : Nat) : Option Nat :=
  if valueType ∈ [0, 1, 7] then some 1
  else if valueType ∈ [2, 3] then some 2
  else if valueType ∈ [4, 5, 6] then some 4
  else if valueType ∈ [10, 11, 12] then some 8
  else none

/-- The place in a file stays far below `2^63`, so only the distance can be too large. -/
def seekForward (bytes : Nat) : GgufReader Unit := do
  refuseIf (2 ^ 63 ≤ bytes) (.invalidGguf "跳过长度溢出")
  skip bytes

/-- The elements of an array: one seek where their width is known, else one after the other. -/
def skipElements (skipElement : GgufReader Unit) (elementType count : Nat) : GgufReader Unit :=
  match ggufFixedWidth elementType with
  | some width => do
      let bytes ← require (.invalidGguf "元数据数组大小溢出") (checkedMul count width)
      seekForward bytes
  | none => times skipElement count

/-- The recursion counts the levels that are left; none is left below depth `maxArrayDepth`. -/
def skipGgufValue : Nat → Nat → GgufReader Unit
  | 0, _ => throw (.invalidGguf "元数据数组嵌套过深")
  | levels + 1, valueType =>
      match ggufFixedWidth valueType with
      | some width => seekForward width
      | none =>
          if valueType = 8 then do
            let _ ← readGgufString
            return ()
          else if valueType = 9 then do
            let elementType ← readU32
            let count ← readU64
            refuseIf (maxGgufCount < count) (.invalidGguf s!"元数据数组长度 {count} 超限")
            skipElements (skipGgufValue levels elementType) elementType count
          else throw (.invalidGguf s!"未知元数据类型 {valueType}")

/-- What the loop over the metadata keeps. -/
structure GgufMetadata where
  alignment : Nat
  splitIndex : Option Nat
  splitCount : Option Nat
  deriving DecidableEq, Repr

def GgufMetadata.initial : GgufMetadata := ⟨32, none, none⟩

/-- `u64::is_power_of_two`. -/
def isPowerOfTwo (n : Nat) : Bool := (List.range 64).any fun k => n == 2 ^ k

def readAlignment (metadata : GgufMetadata) : GgufReader GgufMetadata := do
  let alignment ← readU32
  refuseIf (alignment = 0 ∨ isPowerOfTwo alignment = false ∨ 4096 < alignment)
    (.invalidGguf "general.alignment 无效")
  return { metadata with alignment }

def readSplitIndex (metadata : GgufMetadata) (valueType : Nat) : GgufReader GgufMetadata := do
  refuseIf (valueType ≠ 2 ∨ metadata.splitIndex ≠ none) (.invalidGguf "split.no 类型无效或重复")
  let index ← readU16
  return { metadata with splitIndex := some index }

def readSplitCount (metadata : GgufMetadata) (valueType : Nat) : GgufReader GgufMetadata := do
  refuseIf (valueType ≠ 2 ∨ metadata.splitCount ≠ none) (.invalidGguf "split.count 类型无效或重复")
  let count ← readU16
  return { metadata with splitCount := some count }

/-- One round of the loop over the metadata. -/
def readMetadataEntry (metadata : GgufMetadata) : GgufReader GgufMetadata := do
  let key ← readGgufString
  let valueType ← readU32
  if key = "general.alignment" ∧ valueType = 4 then readAlignment metadata
  else if key = "split.no" then readSplitIndex metadata valueType
  else if key = "split.count" then readSplitCount metadata valueType
  else do
    skipGgufValue (maxArrayDepth + 1) valueType
    return metadata

/-- The split that the metadata states, if it states one. -/
def GgufMetadata.split (metadata : GgufMetadata) : Except ValidationError (Option GgufSplitInfo) :=
  match metadata.splitIndex, metadata.splitCount with
  | none, none => .ok none
  | some index, some count =>
      if index = 0 ∧ count ≤ 1 then .ok none
      else if 1 < count ∧ index < count then .ok (some ⟨index, count⟩)
      else .error (.invalidGguf "split.no/split.count 必须同时存在且编号有效")
  | _, _ => .error (.invalidGguf "split.no/split.count 必须同时存在且编号有效")

structure GgufTensor where
  offset : Nat
  elements : Nat
  kind : Nat
  deriving DecidableEq, Repr

def readDimensions : Nat → Nat → GgufReader Nat
  | 0, elements => pure elements
  | dimensions + 1, elements => do
      let dimension ← readU64
      refuseIf (dimension = 0) (.invalidGguf "张量维度不能为零")
      let elements ← require (.invalidGguf "张量元素数量溢出") (checkedMul elements dimension)
      readDimensions dimensions elements

def readTensor : GgufReader GgufTensor := do
  let _ ← readGgufString
  let dimensions ← readU32
  refuseIf (dimensions = 0 ∨ 4 < dimensions) (.invalidGguf s!"张量维度 {dimensions} 无效")
  let elements ← readDimensions dimensions 1
  let kind ← readU32
  let offset ← readU64
  return ⟨offset, elements, kind⟩

/-- `(value + (alignment - 1)) & !(alignment - 1)` in 64 bits. -/
def alignUp (value alignment : Nat) : Option Nat :=
  if alignment = 0 ∨ 2 ^ 64 ≤ value + (alignment - 1) then none
  else some ((value + (alignment - 1)) &&& (2 ^ 64 - 1 - (alignment - 1)))

def validateTensorAlignment (offset alignment : Nat) : Except ValidationError Unit :=
  rejectIf (¬ alignment ∣ offset) (.invalidGguf s!"张量偏移 {offset} 未按 {alignment} 字节对齐")

/-- The elements and the bytes of a block. -/
def ggmlBlock : Nat → Option (Nat × Nat)
  | 0 => some (1, 4)
  | 1 => some (1, 2)
  | 2 => some (32, 18)
  | 3 => some (32, 20)
  | 6 => some (32, 22)
  | 7 => some (32, 24)
  | 8 => some (32, 34)
  | 9 => some (32, 40)
  | 10 => some (256, 84)
  | 11 => some (256, 110)
  | 12 => some (256, 144)
  | 13 => some (256, 176)
  | 14 => some (256, 210)
  | 15 => some (256, 292)
  | 16 => some (256, 66)
  | 17 => some (256, 74)
  | 18 => some (256, 98)
  | 19 => some (256, 50)
  | 20 => some (32, 18)
  | 21 => some (256, 110)
  | 22 => some (256, 82)
  | 23 => some (256, 136)
  | 24 => some (1, 1)
  | 25 => some (1, 2)
  | 26 => some (1, 4)
  | 27 => some (1, 8)
  | 28 => some (1, 8)
  | 29 => some (256, 56)
  | 30 => some (1, 2)
  | _ => none

def ggmlTensorBytes (elements kind : Nat) : Except ValidationError Nat := do
  let block ← okOr (.invalidGguf s!"不支持的 GGML 张量类型 {kind}") (ggmlBlock kind)
  rejectIf (¬ block.1 ∣ elements)
    (.invalidGguf ("张量元素数 " ++ toString elements ++ " 不是量化块 " ++ toString block.1 ++
      " 的整数倍"))
  okOr (.invalidGguf "张量字节数溢出") (checkedMul (elements / block.1) block.2)

def tensorSpan (alignment dataLen : Nat) (tensor : GgufTensor) : Except ValidationError Span := do
  validateTensorAlignment tensor.offset alignment
  let bytes ← ggmlTensorBytes tensor.elements tensor.kind
  rejectIf (2 ^ 64 ≤ tensor.offset + bytes) (.invalidGguf "张量数据偏移溢出")
  rejectIf (dataLen < tensor.offset + bytes)
    (.invalidGguf ("张量数据越界：offset=" ++ toString tensor.offset ++ " bytes=" ++ toString bytes ++
      " data=" ++ toString dataLen))
  return ⟨tensor.offset, tensor.offset + bytes⟩

def checkOverlaps : List Span → Except ValidationError Unit
  | left :: right :: rest => do
      rejectIf (right.start < left.stop) (.invalidGguf "张量数据区重叠")
      checkOverlaps (right :: rest)
  | _ => .ok ()

/-- The checks behind the tensor infos, which end at a certain place. -/
def checkDataArea (fileSize infoEnd alignment : Nat) (tensors : List GgufTensor) :
    Except ValidationError Unit := do
  let dataStart ← okOr (.invalidGguf "数据区偏移溢出") (alignUp infoEnd alignment)
  rejectIf (fileSize ≤ dataStart) (.invalidGguf "GGUF 没有有效数据区")
  let ranges ← tensors.mapM (tensorSpan alignment (fileSize - dataStart))
  checkOverlaps (sortSpans id ranges)

def streamPosition : GgufReader Nat := fun cursor => .ok cursor.position cursor

def orThrow {α : Type} : Except ValidationError α → GgufReader α
  | .ok a => pure a
  | .error e => throw e

def ggufMagic : List UInt8 := utf8 "GGUF"

/-- What stands before the tensor infos. -/
structure GgufHead where
  tensorCount : Nat
  alignment : Nat
  split : Option GgufSplitInfo
  deriving DecidableEq, Repr

def readGgufHead : GgufReader GgufHead := do
  let magic ← readBytes 4
  refuseIf (magic ≠ ggufMagic) (.invalidGguf "magic 不匹配")
  let version ← readU32
  refuseIf (¬ (1 ≤ version ∧ version ≤ 3)) (.invalidGguf s!"不支持 GGUF v{version}")
  let tensorCount ← readU64
  let metadataCount ← readU64
  refuseIf (tensorCount = 0 ∨ maxGgufCount < tensorCount)
    (.invalidGguf s!"张量数量 {tensorCount} 无效")
  refuseIf (maxGgufCount < metadataCount) (.invalidGguf s!"元数据数量 {metadataCount} 超限")
  let metadata ← iterate readMetadataEntry metadataCount .initial
  let split ← orThrow metadata.split
  return ⟨tensorCount, metadata.alignment, split⟩

/-- The tensor infos and the data area behind them. -/
def readGgufTensors (fileSize : Nat) (head : GgufHead) :
    GgufReader (Nat × Option GgufSplitInfo) := do
  let tensors ← collect readTensor head.tensorCount
  let infoEnd ← streamPosition
  orThrow (checkDataArea fileSize infoEnd head.alignment tensors)
  return (head.tensorCount, head.split)

def validateGguf (fileSize : Nat) : GgufReader (Nat × Option GgufSplitInfo) := do
  let head ← readGgufHead
  readGgufTensors fileSize head

/-- The validator on a whole file, from its start. -/
def runGguf (file : List UInt8) :
    EStateM.Result ValidationError Cursor (Nat × Option GgufSplitInfo) :=
  validateGguf file.length ⟨file, 0, 0⟩

end MindOne.Engine
