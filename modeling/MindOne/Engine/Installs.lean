import MindOne.Engine.ModelRecords
import MindOne.Lib.KeyedTable
import Mathlib.Data.List.Sort
import Mathlib.Logic.Function.Basic

/-!
# Installing an engine

An installation holds the lock of its directory, takes the archive from the cache or
downloads it, extracts it into a staging directory of its own, gives that its final
name, and registers what the final directory holds. The rename and the write of the
registry are two operations. A later installation trusts the registry alone: a final
directory without a record is refused.
-/

namespace MindOne.Engine

open CheckedArithmetic KeyedTable MindOne.Stream

inductive EngineName where
  | llamaCpp | vllm | ollama | tensorrtLlm
  deriving DecidableEq, Repr

namespace EngineName

def asStr : EngineName → String
  | .llamaCpp => "llama.cpp"
  | .vllm => "vllm"
  | .ollama => "ollama"
  | .tensorrtLlm => "tensorrt-llm"

def executableNames : EngineName → List String
  | .llamaCpp => ["llama-server", "llama-server.exe"]
  | .vllm => ["vllm", "vllm.exe"]
  | .ollama => ["ollama", "ollama.exe"]
  | .tensorrtLlm => ["trtllm-serve", "trtllm-serve.exe"]

end EngineName

/-- The engines that are installed from an archive. -/
inductive NativeEngine where
  | llamaCpp | ollama
  deriving DecidableEq, Repr

def NativeEngine.name : NativeEngine → EngineName
  | .llamaCpp => .llamaCpp
  | .ollama => .ollama

inductive EngineInstallError where
  | unsupported (engine : EngineName) (reason : String)
  | invalidVersion
  | missingReleaseAsset (selector : String)
  | missingReleaseChecksum (asset : String)
  | checksumMismatch (expected actual : String)
  | extractionFailed (reason : String)
  | registryCorrupt (reason : String)
  | http
  | downloadTooLarge (limitBytes : Nat)
  | healthCheckFailed (reason : String)
  | io
  deriving DecidableEq

structure EngineFileIntegrity where
  relativePath : List String
  sizeBytes : Nat
  sha256 : String
  deriving DecidableEq

structure InstalledEngine where
  id : Uuid
  name : EngineName
  version : String
  target : String
  directory : PathBuf
  executable : PathBuf
  sha256 : String
  files : List EngineFileIntegrity
  installedAtUnix : Int
  source : String
  deriving DecidableEq

structure EngineRegistryData where
  version : Nat
  default : Option EngineName
  engines : List InstalledEngine

structure EngineFile where
  relativePath : List String
  content : List UInt8
  deriving DecidableEq

/-- The plain files of an engine, in the order in which a walk meets them, and the number of
directories below it. -/
structure EngineTree where
  files : Table EngineFile.relativePath
  directories : Nat

structure EngineDirectory where
  path : PathBuf
  tree : EngineTree

structure CachedFile where
  name : String
  content : List UInt8

structure GithubAsset where
  name : String
  browserDownloadUrl : String
  digest : Option String

structure GithubRelease where
  tagName : String
  assets : List GithubAsset

structure InstallServices where
  enginesRoot : PathBuf
  operatingSystem : String
  architecture : String
  /-- Why the platform cannot run an engine. -/
  unsupportedReason : NativeEngine → Option String
  release : NativeEngine → String → Except EngineInstallError GithubRelease
  isHttps : String → Bool
  /-- The text of a checksum file. -/
  fetchText : String → Except EngineInstallError (List Char)
  fetch : String → Except EngineInstallError (List UInt8)
  sha256 : List UInt8 → String
  /-- The directory that an archive of that name and content gives. -/
  extract : String → List UInt8 → Except EngineInstallError EngineTree
  /-- What the executable prints, if it succeeds and prints something. -/
  probe : List UInt8 → Option String

def maxArchiveEntries : Nat := 100000
def maxArchiveBytes : Nat := 4 * 1024 * 1024 * 1024
def maxManagedEngineBytes : Nat := 64 * 1024 * 1024 * 1024

/-- Letters, digits, dots, underscores and hyphens, at most 64. -/
def validateVersion (value : String) : Except EngineInstallError Unit :=
  rejectIf (value = "" ∨ 64 < value.utf8ByteSize ∨
      value.toList.all (fun c => c.toNat < 128 &&
        (c.isAlphanum || c = '.' || c = '_' || c = '-')) = false)
    .invalidVersion

def validatePathSegment (value : String) : Except EngineInstallError Unit :=
  rejectIf (value = "" ∨ 255 < value.utf8ByteSize ∨ value = "." ∨ value = ".." ∨
      value.toList.any (fun c => c = '/' || c = '\\' || isControl c) = true)
    (.registryCorrupt ("不安全的路径段：" ++ value.quote))

def llamaCppReleaseAssetSelector (operatingSystem architecture : String) : Option String :=
  match operatingSystem, architecture with
  | "macos", "aarch64" => some "bin-macos-arm64.tar.gz"
  | "macos", "x86_64" => some "bin-macos-x64.tar.gz"
  | "linux", "x86_64" => some "bin-ubuntu-x64.tar.gz"
  | "linux", "aarch64" => some "bin-ubuntu-arm64.tar.gz"
  | "windows", "x86_64" => some "bin-win-cpu-x64.zip"
  | "windows", "aarch64" => some "bin-win-cpu-arm64.zip"
  | _, _ => none

def ollamaReleaseAssetSelector (operatingSystem architecture : String) : Option String :=
  match operatingSystem, architecture with
  | "macos", "aarch64" | "macos", "x86_64" => some "ollama-darwin.tgz"
  | "linux", "x86_64" => some "ollama-linux-amd64.tar.zst"
  | "linux", "aarch64" => some "ollama-linux-arm64.tar.zst"
  | "windows", "x86_64" => some "ollama-windows-amd64.zip"
  | "windows", "aarch64" => some "ollama-windows-arm64.zip"
  | _, _ => none

section Metadata
variable (services : InstallServices)

def targetTriple : String := services.operatingSystem ++ "-" ++ services.architecture

/-- The asset of a release for this platform. -/
def releaseAsset (engine : NativeEngine) (release : GithubRelease) :
    Except EngineInstallError GithubAsset :=
  match engine with
  | .llamaCpp => do
      let selector ← okOr (.unsupported .llamaCpp ("没有 " ++ services.operatingSystem ++ "-" ++
          services.architecture ++ " 的官方预编译资产映射"))
        (llamaCppReleaseAssetSelector services.operatingSystem services.architecture)
      okOr (.missingReleaseAsset selector) (release.assets.find? fun asset =>
        selector.toList.isSuffixOf asset.name.toList)
  | .ollama => do
      let selector ← okOr (.unsupported .ollama ("Ollama 官方 release 没有 " ++
          services.operatingSystem ++ "-" ++ services.architecture ++ " 的受管资产映射"))
        (ollamaReleaseAssetSelector services.operatingSystem services.architecture)
      okOr (.missingReleaseAsset selector) (release.assets.find? fun asset =>
        asset.name = selector)

/-- What a call installs. -/
structure Selection where
  engine : NativeEngine
  release : GithubRelease
  asset : GithubAsset

def selectAsset (engine : NativeEngine) (requestedVersion : String) (release : GithubRelease) :
    Except EngineInstallError Selection := do
  validateVersion release.tagName
  rejectIf (requestedVersion ≠ "latest" ∧ release.tagName ≠ requestedVersion)
    (.registryCorrupt ("release 返回版本 " ++ release.tagName ++ "，与请求版本 " ++
      requestedVersion ++ " 不一致"))
  let asset ← releaseAsset services engine release
  (validatePathSegment asset.name).mapError fun _ =>
    .missingReleaseAsset ("发行资产名称不是安全单段路径：" ++ asset.name)
  validatePathSegment (targetTriple services)
  return ⟨engine, release, asset⟩

/-- The part of a call that only looks at the release. -/
def selectRelease (engine : NativeEngine) (requestedVersion : String) :
    Except EngineInstallError Selection := do
  validateVersion requestedVersion
  match services.unsupportedReason engine with
  | some reason => .error (.unsupported engine.name reason)
  | none => selectAsset services engine requestedVersion (← services.release engine requestedVersion)

def isHexDigest (value : List Char) : Bool :=
  value.length = 64 && value.all fun c =>
    c.isDigit || ('a' ≤ c && c ≤ 'f') || ('A' ≤ c && c ≤ 'F')

def parseSha256Digest (value : String) : Option String :=
  let start := "sha256:".toList
  if start <+: value.toList then
    let digest := (value.toList.drop start.length).map Char.toLower
    if isHexDigest digest = true then some (String.ofList digest) else none
  else none

def splitWhitespace (line : List Char) : List (List Char) :=
  (line.splitOnP isWhitespace).filter (· ≠ [])

def parseChecksumLine (line : List Char) (assetName : String) : Option String :=
  match splitWhitespace line with
  | checksum :: fileName :: _ =>
      let checksum := checksum.map Char.toLower
      if fileName.dropWhile (· = '*') = assetName.toList ∧ isHexDigest checksum = true then
        some (String.ofList checksum)
      else none
  | _ => none

def releaseChecksum (release : GithubRelease) (assetName : String) :
    Except EngineInstallError String := do
  let asset ← okOr (.missingReleaseChecksum assetName) (release.assets.find? fun asset =>
    String.ofList (asset.name.toList.map Char.toLower) ∈
      ["sha256sum.txt", "sha256sums.txt", "checksums.txt"])
  (validatePathSegment asset.name).mapError fun _ =>
    .missingReleaseChecksum ("checksum 资产名称不安全：" ++ asset.name)
  rejectIf (services.isHttps asset.browserDownloadUrl = false)
    (.missingReleaseChecksum ("checksum 下载地址不是 HTTPS：" ++ asset.browserDownloadUrl))
  let text ← services.fetchText asset.browserDownloadUrl
  okOr (.missingReleaseChecksum assetName)
    ((text.splitOn '\n').findSome? (parseChecksumLine · assetName))

def Selection.checksum (selection : Selection) : Except EngineInstallError String :=
  match selection.asset.digest.bind parseSha256Digest with
  | some digest => .ok digest
  | none => releaseChecksum services selection.release selection.asset.name

def finalDirectory (name : EngineName) (version target : String) : PathBuf :=
  ((services.enginesRoot.join name.asStr).join version).join target

def Selection.directory (selection : Selection) : PathBuf :=
  finalDirectory services selection.engine.name selection.release.tagName (targetTriple services)

end Metadata

section Integrity
variable (services : InstallServices)

def EngineFile.integrity (file : EngineFile) : EngineFileIntegrity where
  relativePath := file.relativePath
  sizeBytes := file.content.length
  sha256 := services.sha256 file.content

def buildEngineManifest (tree : EngineTree) :
    Except EngineInstallError (List EngineFileIntegrity) := do
  rejectIf (maxArchiveEntries < tree.files.rows.length + tree.directories)
    (.registryCorrupt "引擎目录条目超过安全上限")
  rejectIf (maxManagedEngineBytes < (tree.files.rows.map fun file => file.content.length).sum)
    (.registryCorrupt "受管引擎目录超过 64 GiB 安全上限")
  return (tree.files.rows.map (EngineFile.integrity services)).insertionSort
    fun left right => left.relativePath.map byteRank ≤ right.relativePath.map byteRank

/-- A file with a name of the executable, at most six levels deep. -/
def findEngineExecutable (tree : EngineTree) (name : EngineName) :
    Except EngineInstallError EngineFile :=
  okOr (.extractionFailed ("归档中没有 " ++ name.asStr ++ " 可执行文件"))
    (tree.files.rows.find? fun file => file.relativePath.length ≤ 6 ∧
      ∃ fileName ∈ file.relativePath.getLast?, fileName ∈ name.executableNames)

/-- `strip_prefix`: the components below a directory. -/
def PathBuf.below (path directory : PathBuf) : Option (List String) :=
  if directory.components <+: path.components then
    some (path.components.drop directory.components.length)
  else none

def PathBuf.joinAll (path : PathBuf) (relative : List String) : PathBuf :=
  ⟨path.components ++ relative⟩

def InstalledEngine.verifyIntegrityIn (installed : InstalledEngine)
    (final : Table EngineDirectory.path) : Except EngineInstallError Unit := do
  let directory ← okOr (.registryCorrupt ("引擎目录无法解析 " ++ installed.directory.display))
    (final.find installed.directory)
  (validateVersion installed.version).mapError fun _ =>
    .registryCorrupt ("引擎版本字段不安全：" ++ installed.version)
  (validatePathSegment installed.target).mapError fun _ =>
    .registryCorrupt ("引擎 target 字段不安全：" ++ installed.target)
  rejectIf (installed.directory ≠
      finalDirectory services installed.name installed.version installed.target)
    (.registryCorrupt ("引擎目录不属于登记文件对应的受管路径：" ++ installed.directory.display))
  let relative ← okOr (.registryCorrupt ("引擎可执行文件逃逸安装目录：" ++
      installed.executable.display)) (installed.executable.below installed.directory)
  let file ← okOr .io (directory.tree.files.find relative)
  rejectIf (¬ ∃ fileName ∈ installed.executable.fileName,
      fileName ∈ installed.name.executableNames)
    (.registryCorrupt ("引擎可执行文件名与引擎类型不匹配：" ++ installed.executable.display))
  rejectIf (services.sha256 file.content ≠ installed.sha256)
    (.checksumMismatch installed.sha256 (services.sha256 file.content))
  rejectIf (installed.files = [])
    (.registryCorrupt ("引擎登记缺少完整目录清单：" ++ installed.directory.display))
  let files ← buildEngineManifest services directory.tree
  rejectIf (files ≠ installed.files)
    (.registryCorrupt ("引擎目录文件清单或哈希已变化：" ++ installed.directory.display))

end Integrity

/-- What the calls share: the cache, the final directories and the registry file. -/
structure InstallDisk where
  cache : Table CachedFile.name
  final : Table EngineDirectory.path
  registry : Option EngineRegistryData

def readEngineData : Option EngineRegistryData → Except EngineInstallError EngineRegistryData
  | none => .ok ⟨1, none, []⟩
  | some data =>
      if data.version ≠ 1 then
        .error (.registryCorrupt ("不支持 registry 版本 " ++ toString data.version))
      else .ok data

def InstalledEngine.SameKey (name : EngineName) (version target : String)
    (installed : InstalledEngine) : Prop :=
  installed.name = name ∧ installed.version = version ∧ installed.target = target

instance (name : EngineName) (version target : String) (installed : InstalledEngine) :
    Decidable (installed.SameKey name version target) :=
  inferInstanceAs (Decidable (_ ∧ _ ∧ _))

/-- How far a call has come. -/
inductive InstallStage where
  | idle
  | requested (engine : NativeEngine) (version : String)
  | selected (selection : Selection)
  /-- From here on the call holds the lock of its final directory. -/
  | locked (selection : Selection)
  | missing (selection : Selection)
  | checked (selection : Selection) (checksum : String)
  /-- The cache has another file of that name. -/
  | stale (selection : Selection) (checksum : String)
  | downloading (selection : Selection) (checksum : String)
  | downloaded (selection : Selection) (checksum : String)
  | cached (selection : Selection)
  | extracted (selection : Selection) (tree : EngineTree) (executable : EngineFile)
  | probed (selection : Selection) (tree : EngineTree) (executable : EngineFile)
  | renamed (selection : Selection) (executable : EngineFile)
  | described (selection : Selection) (installed : InstalledEngine)
  | verified (selection : Selection) (installed : InstalledEngine)
  /-- The registry has been written; its directory is synchronised. -/
  | written (selection : Selection) (installed : InstalledEngine)
  | ended (result : Except EngineInstallError InstalledEngine)

/-- The selection of a call that holds the lock. -/
def InstallStage.holding : InstallStage → Option Selection
  | .idle | .requested _ _ | .selected _ | .ended _ => none
  | .locked selection | .missing selection | .checked selection _ | .stale selection _
  | .downloading selection _ | .downloaded selection _ | .cached selection
  | .extracted selection _ _ | .probed selection _ _ | .renamed selection _
  | .described selection _ | .verified selection _ | .written selection _ => some selection

def InstallStage.Resting : InstallStage → Prop
  | .idle | .ended _ => True
  | _ => False

structure InstallSystem where
  disk : InstallDisk
  holder : PathBuf → Option Nat
  calls : Nat → InstallStage

inductive InstallEvent where
  | call (i : Nat) (engine : NativeEngine) (version : String)
  /-- The next operation of a call, with an identifier and the time for its record. -/
  | advance (i : Nat) (id : Uuid) (now : Int)
  /-- The call fails with an error of its environment, or its process ends. -/
  | stop (i : Nat)

namespace InstallSystem
variable (services : InstallServices) (system : InstallSystem) (i : Nat)

def setCall (stage : InstallStage) : InstallSystem :=
  { system with calls := Function.update system.calls i stage }

/-- The call returns, and its lock goes. -/
def finish (selection : Selection) (result : Except EngineInstallError InstalledEngine) :
    InstallSystem :=
  { system with
    calls := Function.update system.calls i (.ended result)
    holder := Function.update system.holder (selection.directory services) none }

def select (engine : NativeEngine) (version : String) : InstallSystem :=
  match selectRelease services engine version with
  | .error error => system.setCall i (.ended (.error error))
  | .ok selection => system.setCall i (.selected selection)

/-- `acquire_install_lock` waits for the holder. -/
def lock (selection : Selection) : Option InstallSystem :=
  match system.holder (selection.directory services) with
  | some _ => none
  | none => some {
      disk := system.disk
      holder := Function.update system.holder (selection.directory services) (some i)
      calls := Function.update system.calls i (.locked selection) }

end InstallSystem

section Steps
variable (services : InstallServices)

/-- `EngineRegistry::exact`: the record of an installation that is there already. -/
def exactEngine (disk : InstallDisk) (name : EngineName) (version target : String)
    (expectedDirectory : PathBuf) : Except EngineInstallError InstalledEngine := do
  let data ← readEngineData disk.registry
  let installed ← okOr (.registryCorrupt ("安装目录已存在但没有可信登记，拒绝接管：" ++
      expectedDirectory.display))
    (data.engines.find? fun engine => engine.SameKey name version target)
  rejectIf (installed.directory ≠ expectedDirectory)
    (.registryCorrupt ("已有安装登记目录与预期受管目录不一致：" ++ installed.directory.display ++
      " / " ++ expectedDirectory.display))
  installed.verifyIntegrityIn services disk.final
  return installed

/-- The locked section of `upsert`. -/
def upsertEngine (installed : InstalledEngine) (data : EngineRegistryData) : EngineRegistryData :=
  { data with engines := data.engines.filter (fun engine =>
      ¬ engine.SameKey installed.name installed.version installed.target) ++ [installed] }

/-- What `download_asset` fetches. -/
def downloadAsset (url : String) : Except EngineInstallError (List UInt8) := do
  rejectIf (services.isHttps url = false)
    (.unsupported .llamaCpp "发行文件下载地址不是有效 HTTPS URL")
  let content ← services.fetch url
  rejectIf (maxArchiveBytes < content.length) (.downloadTooLarge maxArchiveBytes)
  return content

def probeVersion (selection : Selection) : String :=
  String.ofList (selection.release.tagName.toList.dropWhile (· = 'v'))

/-- Only Ollama is run: it has to state the version of the release. -/
def probeEngine (selection : Selection) (executable : EngineFile) :
    Except EngineInstallError Unit :=
  match selection.engine with
  | .llamaCpp => .ok ()
  | .ollama =>
      match services.probe executable.content with
      | none => .error (.healthCheckFailed (PathBuf.display ⟨executable.relativePath⟩ ++
          " --version 未成功返回真实版本"))
      | some text =>
          rejectIf (¬ (probeVersion selection).toList <:+: text.toList)
            (.healthCheckFailed (PathBuf.display ⟨executable.relativePath⟩ ++
              " 返回版本与官方 release 不一致"))

/-- The record of what the final directory holds. -/
def describeEngine (final : Table EngineDirectory.path) (selection : Selection)
    (executable : EngineFile) (id : Uuid) (now : Int) :
    Except EngineInstallError InstalledEngine := do
  let directory ← okOr .io (final.find (selection.directory services))
  let file ← okOr .io (directory.tree.files.find executable.relativePath)
  let files ← buildEngineManifest services directory.tree
  return {
    id
    name := selection.engine.name
    version := selection.release.tagName
    target := targetTriple services
    directory := selection.directory services
    executable := (selection.directory services).joinAll executable.relativePath
    sha256 := services.sha256 file.content
    files
    installedAtUnix := now
    source := selection.asset.browserDownloadUrl }

namespace InstallSystem
variable (system : InstallSystem) (i : Nat)

def lookAtDirectory (selection : Selection) : InstallSystem :=
  match system.disk.final.find (selection.directory services) with
  | none => system.setCall i (.missing selection)
  | some _ => system.finish services i selection (exactEngine services system.disk
      selection.engine.name selection.release.tagName (targetTriple services)
      (selection.directory services))

def lookUpChecksum (selection : Selection) : InstallSystem :=
  match selection.checksum services with
  | .error error => system.finish services i selection (.error error)
  | .ok checksum => system.setCall i (.checked selection checksum)

/-- The first part of `prepare_cached_asset`. -/
def lookAtCache (selection : Selection) (checksum : String) : InstallSystem :=
  match system.disk.cache.find selection.asset.name with
  | none => system.setCall i (.downloading selection checksum)
  | some file =>
      if services.sha256 file.content = checksum then system.setCall i (.cached selection)
      else system.setCall i (.stale selection checksum)

/-- The second one; somebody else may have removed the file. -/
def removeStale (selection : Selection) (checksum : String) : InstallSystem :=
  match system.disk.cache.find selection.asset.name with
  | none => system.finish services i selection (.error .io)
  | some _ =>
      { system.setCall i (.downloading selection checksum) with
        disk := { system.disk with cache := system.disk.cache.erase selection.asset.name } }

/-- The temporary file gets its name, unless there is one of that name. -/
def download (selection : Selection) (checksum : String) : InstallSystem :=
  match downloadAsset services selection.asset.browserDownloadUrl with
  | .error error => system.finish services i selection (.error error)
  | .ok content =>
      match system.disk.cache.find selection.asset.name with
      | some _ => system.finish services i selection (.error .io)
      | none =>
          { system.setCall i (.downloaded selection checksum) with
            disk := { system.disk with
              cache := system.disk.cache.set ⟨selection.asset.name, content⟩ } }

def checkDownload (selection : Selection) (checksum : String) : InstallSystem :=
  match system.disk.cache.find selection.asset.name with
  | none => system.finish services i selection (.error .io)
  | some file =>
      if services.sha256 file.content = checksum then system.setCall i (.cached selection)
      else
        { system.finish services i selection (.error (.checksumMismatch checksum
            (services.sha256 file.content))) with
          disk := { system.disk with cache := system.disk.cache.erase selection.asset.name } }

def extract (selection : Selection) : InstallSystem :=
  match system.disk.cache.find selection.asset.name with
  | none => system.finish services i selection (.error .io)
  | some file =>
      match services.extract selection.asset.name file.content with
      | .error error => system.finish services i selection (.error error)
      | .ok tree =>
          match findEngineExecutable tree selection.engine.name with
          | .error error => system.finish services i selection (.error error)
          | .ok executable => system.setCall i (.extracted selection tree executable)

def probe (selection : Selection) (tree : EngineTree) (executable : EngineFile) :
    InstallSystem :=
  match probeEngine services selection executable with
  | .error error => system.finish services i selection (.error error)
  | .ok _ => system.setCall i (.probed selection tree executable)

/-- `fs::rename` of the staging directory to the final one. -/
def rename (selection : Selection) (tree : EngineTree) (executable : EngineFile) :
    InstallSystem :=
  match system.disk.final.find (selection.directory services) with
  | some _ => system.finish services i selection (.error .io)
  | none =>
      { system.setCall i (.renamed selection executable) with
        disk := { system.disk with
          final := system.disk.final.set ⟨selection.directory services, tree⟩ } }

def describe (selection : Selection) (executable : EngineFile) (id : Uuid) (now : Int) :
    InstallSystem :=
  match describeEngine services system.disk.final selection executable id now with
  | .error error => system.finish services i selection (.error error)
  | .ok installed => system.setCall i (.described selection installed)

/-- The check before the registry is opened for writing. -/
def verifyRecord (selection : Selection) (installed : InstalledEngine) : InstallSystem :=
  match installed.verifyIntegrityIn services system.disk.final with
  | .error error => system.finish services i selection (.error error)
  | .ok _ => system.setCall i (.verified selection installed)

def upsert (selection : Selection) (installed : InstalledEngine) : InstallSystem :=
  match readEngineData system.disk.registry with
  | .error error => system.finish services i selection (.error error)
  | .ok data =>
      { system.setCall i (.written selection installed) with
        disk := { system.disk with registry := some (upsertEngine installed data) } }

def advance (id : Uuid) (now : Int) : Option InstallSystem :=
  match system.calls i with
  | .idle | .ended _ => none
  | .requested engine version => some (system.select services i engine version)
  | .selected selection => system.lock services i selection
  | .locked selection => some (system.lookAtDirectory services i selection)
  | .missing selection => some (system.lookUpChecksum services i selection)
  | .checked selection checksum => some (system.lookAtCache services i selection checksum)
  | .stale selection checksum => some (system.removeStale services i selection checksum)
  | .downloading selection checksum => some (system.download services i selection checksum)
  | .downloaded selection checksum => some (system.checkDownload services i selection checksum)
  | .cached selection => some (system.extract services i selection)
  | .extracted selection tree executable =>
      some (system.probe services i selection tree executable)
  | .probed selection tree executable =>
      some (system.rename services i selection tree executable)
  | .renamed selection executable =>
      some (system.describe services i selection executable id now)
  | .described selection installed => some (system.verifyRecord services i selection installed)
  | .verified selection installed => some (system.upsert services i selection installed)
  | .written selection installed =>
      some (system.finish services i selection (.ok installed))

def stop : Option InstallSystem :=
  match system.calls i with
  | .idle | .ended _ => none
  | .requested _ _ | .selected _ => some (system.setCall i (.ended (.error .io)))
  | stage => stage.holding.map fun selection =>
      system.finish services i selection (.error .io)

def step (event : InstallEvent) (system : InstallSystem) : Option InstallSystem :=
  match event with
  | .call i engine version =>
      match system.calls i with
      | .idle | .ended _ => some (system.setCall i (.requested engine version))
      | _ => none
  | .advance i id now => system.advance services i id now
  | .stop i => system.stop services i

def initial (disk : InstallDisk) : InstallSystem := ⟨disk, fun _ => none, fun _ => .idle⟩

end InstallSystem

end Steps

end MindOne.Engine
