import MindOne.Engine.Installs
import MindOne.Lib.AddressText
import MindOne.Lib.MixedOrders
import MindOne.Regulated.Encodings

/-!
# Versions of engines

Two semantic versions compare by their numbers and then by their prereleases. If one of
two versions is none, both compare by the numbers that stand in them, and then as texts.
The newest engine has the greatest version, then the latest installation, and then the
greatest identifier.
-/

namespace MindOne.Engine

open AddressText MixedOrders MindOne.Regulated

/-- Texts compare byte by byte, that is, character by character. -/
def compareText (left right : List Char) : Ordering := List.compareLex compare left right

/-! ### Numbers in a text -/

section Numbers

/-- The runs of digits, the first of which may have begun already. -/
def numericRunsFrom : List Char → List Char → List (List Char)
  | run, [] => if run = [] then [] else [run]
  | run, c :: rest =>
      if c.isDigit = true then numericRunsFrom (run ++ [c]) rest
      else if run = [] then numericRunsFrom [] rest
      else run :: numericRunsFrom [] rest

def numericRuns (value : List Char) : List (List Char) := numericRunsFrom [] value

/-- A run without its leading zeros. -/
def significant (number : List Char) : List Char :=
  match number.dropWhile (· = '0') with
  | [] => ['0']
  | digits => digits

def compareRun (left right : List Char) : Ordering :=
  (compare (significant left).length (significant right).length).then
    (compareText (significant left) (significant right))

/-- Pair by pair, and then by the number of runs. -/
def compareRuns : List (List Char) → List (List Char) → Ordering
  | left :: lefts, right :: rights => (compareRun left right).then (compareRuns lefts rights)
  | lefts, rights => compare lefts.length rights.length

def compareByNumbers (left right : List Char) : Ordering :=
  (compareRuns (numericRuns left) (numericRuns right)).then
    (compareText (left.map Char.toLower) (right.map Char.toLower))

end Numbers

/-! ### Semantic versions -/

section Semver

structure ParsedSemver where
  core : List Nat
  prerelease : Option (List Char)
  deriving DecidableEq

def stripV : List Char → List Char
  | 'v' :: rest => rest
  | value => value

/-- The text before the first separator, and what stands behind it. -/
def cutAt (separator : Char) (value : List Char) : List Char × Option (List Char) :=
  match splitOnce separator value with
  | some (before, after) => (before, some after)
  | none => (value, none)

def parseSemver (value : List Char) : Option ParsedSemver :=
  let withoutBuild := (cutAt '+' (stripV value)).1
  let (core, prerelease) := cutAt '-' withoutBuild
  let components := core.splitOn '.'
  if components.length < 2 ∨
      components.any (fun component => component = [] || !component.all Char.isDigit) = true ∨
      prerelease = some [] then none
  else (components.mapM (parseUnsigned (2 ^ 64))).map fun core => ⟨core, prerelease⟩

/-- The first numbers; missing ones count as zero. -/
def componentsOf (count : Nat) (core : List Nat) : List Nat :=
  (List.range count).map fun index => core.getD index 0

def compareCore (left right : List Nat) : Ordering :=
  let count := max left.length right.length
  List.compareLex compare (componentsOf count left) (componentsOf count right)

/-- Numbers come before other identifiers. -/
def compareIdentifier (left right : List Char) : Ordering :=
  match parseUnsigned (2 ^ 64) left, parseUnsigned (2 ^ 64) right with
  | some left, some right => compare left right
  | some _, none => .lt
  | none, some _ => .gt
  | none, none => compareText left right

def comparePrerelease (left right : List Char) : Ordering :=
  List.compareLex compareIdentifier (left.splitOn '.') (right.splitOn '.')

def comparePrereleases : Option (List Char) → Option (List Char) → Ordering
  | none, none => .eq
  | none, some _ => .gt
  | some _, none => .lt
  | some left, some right => comparePrerelease left right

def compareSemver (left right : ParsedSemver) : Ordering :=
  (compareCore left.core right.core).then (comparePrereleases left.prerelease right.prerelease)

end Semver

/-! ### The newest engine -/

def compareVersions (left right : String) : Ordering :=
  match parseSemver left.toList, parseSemver right.toList with
  | some left, some right => compareSemver left right
  | _, _ => compareByNumbers left.toList right.toList

def compareEngines (left right : InstalledEngine) : Ordering :=
  (compareVersions left.version right.version).then
    ((compare left.installedAtUnix right.installedAtUnix).then
      (compare (uuidBytes left.id) (uuidBytes right.id)))

def newestEngine (engines : List InstalledEngine) : Option InstalledEngine :=
  maxBy compareEngines engines

example : [compareVersions "1.10.0" "1.9.9", compareVersions "1.0.0" "1.0.0-rc.10",
    compareVersions "1.0.0-rc.10" "1.0.0-rc.2", compareVersions "b10" "b9"] =
    [.gt, .gt, .gt, .gt] := by decide +kernel

example : [compareVersions "1.0" "1_0", compareVersions "1_0" "1.0.0",
    compareVersions "1.0.0" "1.0"] = [.lt, .lt, .eq] := by decide +kernel

end MindOne.Engine
