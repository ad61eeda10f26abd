import MindOne.Lib.AddressText
import MindOne.Lib.CheckedArithmetic
import MindOne.Lib.PrefixMatch
import MindOne.Stream.Events
import Mathlib.Data.List.Forall2
import Mathlib.Data.List.Sort

/-!
# The local map from address prefixes to autonomous systems

The map is loaded once from a file of the deployment. An address is looked up in the
prefixes of its own family, from the longest to the shortest. Prefixes are canonical and
not repeated, so at most one prefix of each length matches, and the order of the file does
not matter. An IPv4-mapped address is kept as the IPv6 address that it is.
-/

namespace MindOne.AntiAbuse

open AddressText CheckedArithmetic PrefixMatch
open MindOne.Stream (okOr okOr_eq_ok)

structure AsnMapEntry where
  cidr : String
  asn : UInt32
  deriving DecidableEq

structure AsnMapDocument where
  version : UInt8
  entries : List AsnMapEntry

inductive AsnPrefix where
  | v4 (network : BitVec 32) (prefixLen : Nat) (asn : UInt32)
  | v6 (network : BitVec 128) (prefixLen : Nat) (asn : UInt32)
  deriving DecidableEq

inductive AsnMapError where
  | read (problem : String)
  | unsafeFile
  | unsafePermissions
  | tooLarge
  | invalidJson (problem : String)
  | unsupportedVersion (version : UInt8)
  | invalidEntryCount
  | invalidAsn
  | invalidCidr (value : String)
  | nonCanonicalCidr (value : String)
  | duplicatePrefix (value : String)
  deriving DecidableEq

/-- The map is refused, or a machine word overflows. -/
inductive AsnFailure where
  | refused (error : AsnMapError)
  | overflow
  deriving DecidableEq

def maxAsnMapBytes : Nat := 8 * 1024 * 1024

def maxAsnMapEntries : Nat := 100000

/-- The subtraction and the shift overflow where the length is out of range. -/
def prefixMask (width prefixLen : Nat) : Except AsnFailure (BitVec width) :=
  if prefixLen = 0 then .ok 0
  else do
    rejectIf (width < prefixLen) .overflow
    rejectIf (width ≤ width - prefixLen) .overflow
    return mask width prefixLen

def v4Mask (prefixLen : Nat) : Except AsnFailure (BitVec 32) := prefixMask 32 prefixLen

def v6Mask (prefixLen : Nat) : Except AsnFailure (BitVec 128) := prefixMask 128 prefixLen

namespace AsnPrefix

def fromCidr (value : String) (asn : UInt32) : Except AsnFailure AsnPrefix := do
  let (address, suffix) ← okOr (.refused (.invalidCidr value)) (splitOnce '/' value.toList)
  let address ← okOr (.refused (.invalidCidr value)) (IpAddr.fromStr address)
  let prefixLen ← okOr (.refused (.invalidCidr value)) (parseUnsigned 256 suffix)
  match address with
  | .v4 address => do
      rejectIf (32 < prefixLen) (.refused (.invalidCidr value))
      let bits ← v4Mask prefixLen
      rejectIf (address &&& bits ≠ address) (.refused (.nonCanonicalCidr value))
      return .v4 address prefixLen asn
  | .v6 address => do
      rejectIf (128 < prefixLen) (.refused (.invalidCidr value))
      let bits ← v6Mask prefixLen
      rejectIf (address &&& bits ≠ address) (.refused (.nonCanonicalCidr value))
      return .v6 address prefixLen asn

def prefixLen : AsnPrefix → Nat
  | .v4 _ prefixLen _ => prefixLen
  | .v6 _ prefixLen _ => prefixLen

def asn : AsnPrefix → UInt32
  | .v4 _ _ asn => asn
  | .v6 _ _ asn => asn

def identity : AsnPrefix → Nat × Nat × Nat
  | .v4 network prefixLen _ => (4, network.toNat, prefixLen)
  | .v6 network prefixLen _ => (6, network.toNat, prefixLen)

def contains : AsnPrefix → IpAddr → Except AsnFailure Bool
  | .v4 network prefixLen _, .v4 address => do
      let bits ← v4Mask prefixLen
      return decide (address &&& bits = network)
  | .v6 network prefixLen _, .v6 address => do
      let bits ← v6Mask prefixLen
      return decide (address &&& bits = network)
  | _, _ => .ok false

end AsnPrefix

/-- The sort puts the longer prefixes first and keeps the order of the others. -/
def sortByLength (prefixes : List AsnPrefix) : List AsnPrefix :=
  prefixes.insertionSort fun a b => b.prefixLen ≤ a.prefixLen

/-- The first of the prefixes that contains the address. -/
def findAsn : List AsnPrefix → IpAddr → Except AsnFailure (Option UInt32)
  | [], _ => .ok none
  | entry :: rest, address => do
      if ← entry.contains address then return some entry.asn else findAsn rest address

structure LocalAsnResolver where
  entries : List AsnPrefix

/-- What the loader has taken from the entries so far. -/
structure AsnEntries where
  seen : List (Nat × Nat × Nat)
  entries : List AsnPrefix

def AsnEntries.insert (loaded : AsnEntries) (entry : AsnMapEntry) :
    Except AsnFailure AsnEntries := do
  rejectIf (entry.asn = 0 ∨ entry.asn = 4294967295) (.refused .invalidAsn)
  let found ← AsnPrefix.fromCidr entry.cidr entry.asn
  rejectIf (found.identity ∈ loaded.seen) (.refused (.duplicatePrefix entry.cidr))
  return ⟨found.identity :: loaded.seen, loaded.entries ++ [found]⟩

/-- The file as the operating system describes it. -/
structure AsnMapFile where
  isSymlink : Bool
  isFile : Bool
  mode : Nat
  len : Nat
  bytes : Except String (List UInt8)

namespace LocalAsnResolver
variable (fromSlice : List UInt8 → Except String AsnMapDocument)

def fromJson (bytes : List UInt8) : Except AsnFailure LocalAsnResolver := do
  let document ← (fromSlice bytes).mapError fun problem => .refused (.invalidJson problem)
  rejectIf (document.version ≠ 1) (.refused (.unsupportedVersion document.version))
  rejectIf (document.entries = [] ∨ maxAsnMapEntries < document.entries.length)
    (.refused .invalidEntryCount)
  let loaded ← document.entries.foldlM AsnEntries.insert ⟨[], []⟩
  return ⟨sortByLength loaded.entries⟩

/-- `metadata` is what `symlink_metadata` finds. -/
def fromFile (metadata : Except String AsnMapFile) : Except AsnFailure LocalAsnResolver := do
  let file ← metadata.mapError fun problem => .refused (.read problem)
  rejectIf (file.isSymlink ∨ ¬file.isFile) (.refused .unsafeFile)
  rejectIf (file.mode &&& 0o022 ≠ 0) (.refused .unsafePermissions)
  rejectIf (maxAsnMapBytes < file.len) (.refused .tooLarge)
  let bytes ← file.bytes.mapError fun problem => .refused (.read problem)
  rejectIf (maxAsnMapBytes < bytes.length) (.refused .tooLarge)
  fromJson fromSlice bytes

def lookup (resolver : LocalAsnResolver) (address : IpAddr) :
    Except AsnFailure (Option UInt32) :=
  findAsn resolver.entries address

end LocalAsnResolver

end MindOne.AntiAbuse
