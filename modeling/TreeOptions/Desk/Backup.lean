import Mathlib.Data.Char
import Mathlib.Data.List.Lex
import TreeOptions.Foundations.Checked
import TreeOptions.Foundations.Directory
import TreeOptions.Foundations.Durable
import TreeOptions.Foundations.Grouping

/-!
# Backups and restores of the desk

A backup is a copy of the run directory and of the supervised directory, with a manifest that lists
every file by its hash. It leaves out locks, unfinished writes and the request for a backup itself.

A restore verifies the backup, and builds a tree beside its destination: a file of authority or of
a consumed command goes below `archive/`, every other file to its own path, and a receipt is
written last. Then the tree is renamed onto the destination in one step.
-/

set_option autoImplicit false

namespace TreeOptions.Desk

open Checked Durable

/-! ## Files -/

/-- The parts of a path. -/
abbrev RelPath :=
  List String

abbrev Bytes :=
  List UInt8

inductive BackupRoot
  | run
  | supervised
deriving DecidableEq

def BackupRoot.key : BackupRoot → String
  | run => "run"
  | supervised => "supervised"

/-- What a walk comes to: a regular file, a link to a directory, or anything else. -/
inductive Node
  | file (content : Bytes)
  | linkedDirectory
  | irregular

/-- The two directories of a desk as a walk finds them, each under its path below its root. A
directory that does not exist has no entries. -/
structure LiveRoots where
  runPath : RelPath
  supervisedPath : RelPath
  run : List (RelPath × Node)
  supervised : List (RelPath × Node)

inductive BackupError
  | destinationInsideLiveRoot (live : RelPath)
  | destinationContainsLiveRoot (live : RelPath)
  | destinationNotEmpty
  | notARegularFile (root : BackupRoot) (path : RelPath)
  | supervisedStateBusy
  | manifestUnreadable
  | manifestInvalid
  | fileMissing (path : RelPath)
  | fileMismatch (path : RelPath)
  | unlistedFile
  | osError
  | restoreFailedCleaned (cause : BackupError)
  | restoreFailedPartial (cause : BackupError)

def startsWith (name start : String) : Bool :=
  start.toList.isPrefixOf name.toList

def endsWith (name ending : String) : Bool :=
  ending.toList.isSuffixOf name.toList

/-! ## The snapshot -/

def backupRequest : String :=
  "BACKUP-REQUEST"

/-- Never copied: locks, writes in progress, the backup trigger. -/
def excluded (root : BackupRoot) (path : RelPath) : Bool :=
  let name := path.getLastD ""
  let top := path.length = 1
  endsWith name ".tmp" ||
    (root = .run && top && (name = "runtime.lock" || startsWith name backupRequest)) ||
    (root = .supervised && top && name = ".lock")

def walkEntry (root : BackupRoot) (found : List (RelPath × Bytes)) (entry : RelPath × Node) :
    Except BackupError (List (RelPath × Bytes)) :=
  match entry.2 with
  | .linkedDirectory => .error (.notARegularFile root entry.1)
  | .file content =>
    .ok (if excluded root entry.1 then found else found ++ [(root.key :: entry.1, content)])
  | .irregular =>
    if excluded root entry.1 then .ok found else .error (.notARegularFile root entry.1)

/-- Every regular file below a root that is not excluded, with its path in the backup. -/
def walk (root : BackupRoot) (entries : List (RelPath × Node)) :
    Except BackupError (List (RelPath × Bytes)) :=
  entries.foldlM (walkEntry root) []

structure ManifestEntry where
  path : RelPath
  sha256 : String
  bytes : ℕ

structure Manifest where
  ownerEpoch : Option String
  takenAt : ℤ
  runPath : RelPath
  supervisedPath : RelPath
  files : List ManifestEntry

/-- A backup below its root: the manifest, where it can be read as one, and the files. -/
structure Backup where
  parent : RelPath
  manifest : Option Manifest
  files : Directory RelPath Node

section Hashed

variable (sha256 : Bytes → String)

def entryOf (file : RelPath × Bytes) : ManifestEntry where
  path := file.1
  sha256 := sha256 file.2
  bytes := file.2.length

def copyTree (files : List (RelPath × Bytes)) : Directory RelPath Node :=
  files.foldl (fun tree file => tree.write file.1 (.file file.2)) DefaultDict.empty

/-- Copy both roots. The supervised one is copied under its lock, which another holder may have. -/
def snapshot (live : LiveRoots) (dest : RelPath) (now : ℤ) (ownerEpoch : Option String)
    (busy : Bool) : Except BackupError Backup := do
  refuse (live.runPath.isPrefixOf dest) (.destinationInsideLiveRoot live.runPath)
  refuse (live.supervisedPath.isPrefixOf dest) (.destinationInsideLiveRoot live.supervisedPath)
  let run ← walk .run live.run
  refuse busy .supervisedStateBusy
  let supervised ← walk .supervised live.supervised
  let files := run ++ supervised
  return {
    parent := dest
    manifest := some {
      ownerEpoch, takenAt := now
      runPath := live.runPath
      supervisedPath := live.supervisedPath
      files := files.map (entryOf sha256) }
    files := copyTree files }

/-! ## Verification -/

/-- A path of a manifest: below `run/` or `supervised/`, without a way out of it. -/
def manifestPath (path : RelPath) : Except BackupError Unit := do
  refuse (path.any fun part => part.toList.contains '\\') .manifestInvalid
  refuse (path.any fun part => part ∈ ["", ".", ".."]) .manifestInvalid
  refuse (path.length < 2 ∨ path.head? ∉ [some BackupRoot.run.key, some BackupRoot.supervised.key])
    .manifestInvalid

/-- A hash in lower case. -/
def isSha (text : String) : Bool :=
  text.toList.length = 64 &&
    text.toList.all fun c => c.isDigit || (decide ('a' ≤ c) && decide (c ≤ 'f'))

def contentOf (backup : Backup) (path : RelPath) : Option Bytes :=
  match backup.files.get path with
  | some (.file content) => some content
  | _ => none

def verifyEntry (backup : Backup) (listed : List RelPath) (entry : ManifestEntry) :
    Except BackupError (List RelPath) := do
  manifestPath entry.path
  refuse (isSha entry.sha256 = false) .manifestInvalid
  refuse (entry.path ∈ listed) .manifestInvalid
  match contentOf backup entry.path with
  | none => .error (.fileMissing entry.path)
  | some content => do
      refuse (sha256 content ≠ entry.sha256 ∨ content.length ≠ entry.bytes)
        (.fileMismatch entry.path)
      return listed ++ [entry.path]

/-- The manifest, when every listed file matches and nothing else exists. -/
def verify (backup : Backup) : Except BackupError Manifest :=
  match backup.manifest with
  | none => .error .manifestUnreadable
  | some manifest => do
      let listed ← manifest.files.foldlM (verifyEntry sha256 backup) []
      refuse (backup.files.names.any fun path => path ∉ listed) .unlistedFile
      return manifest

end Hashed

/-! ## Authority and restrictions -/

/-- Authority and consumed-command state: archived on restore, never active. -/
def quarantined (path : RelPath) : Bool :=
  match path with
  | key :: first :: rest =>
    if key = BackupRoot.run.key then
      first = "requests" ||
        (rest = [] && (first = "owner.json" || first = "FLATTEN" ||
          startsWith first "RESOLVE-FLAT-"))
    else
      first = "permits" ||
        (rest = [] && startsWith first "mandate" && endsWith first ".json" &&
          first ≠ "mandate.revoked.json")
  | _ => false

/-! ## The restore -/

def archiveName : String :=
  "archive"

def receiptName : String :=
  "RESTORE.json"

structure Receipt where
  backupOwnerEpoch : Option String
  backupTakenAt : ℤ
  restoredAt : ℤ
  restored : List RelPath
  quarantined : List RelPath

inductive RestoredFile
  | copied (content : Bytes)
  | receipt (receipt : Receipt)

abbrev RestoredTree :=
  Directory RelPath RestoredFile

/-- What stands at a destination. -/
inductive Target
  | missing
  | emptyDirectory
  | occupied (tree : RestoredTree)
  | other

/-- A destination, and the hidden tree beside it. -/
structure Destination where
  target : Target
  building : Option RestoredTree

def Destination.put (destination : Destination) (path : RelPath) (file : RestoredFile) :
    Destination :=
  { destination with building := destination.building.map fun tree => tree.write path file }

/-- The destination is no live root, is not inside of one and contains none, and is empty. -/
def checkDestination (into : RelPath) (liveRoots : List RelPath) (target : Target) :
    Except BackupError Unit := do
  let _ ← liveRoots.mapM fun live => do
    refuse (live.isPrefixOf into) (.destinationInsideLiveRoot live)
    refuse (into.isPrefixOf live) (.destinationContainsLiveRoot live)
  match target with
  | .missing | .emptyDirectory => .ok ⟨⟩
  | .occupied _ | .other => .error .destinationNotEmpty

inductive RestoreOp
  | makeParent
  | makePartial
  | copy (path : RelPath)
  | makeRoots
  | writeReceipt
  | sync
  | rename
  | cleanUp
  | syncParent

/-- Where a file is restored to. -/
def placeOf (path : RelPath) : RelPath :=
  if quarantined path then archiveName :: path else path

section Restore

variable (sha256 : Bytes → String)

/-- A file is copied, and hashed as it was written. -/
def copyFile (backup : Backup) (entry : ManifestEntry) :
    Durable RestoreOp Destination BackupError Unit := do
  let content ← check (match contentOf backup entry.path with
    | some content => .ok content
    | none => .error .osError)
  operate (.copy entry.path) .osError fun destination =>
    destination.put (placeOf entry.path) (.copied content)
  refuseIf (sha256 content ≠ entry.sha256) (.fileMismatch entry.path)

def copyFiles (backup : Backup) :
    List ManifestEntry → Durable RestoreOp Destination BackupError Unit
  | [] => pure ⟨⟩
  | entry :: rest => do
      copyFile sha256 backup entry
      copyFiles backup rest

/-- The paths in the order of their texts. -/
def sortedPaths (paths : List RelPath) : List RelPath :=
  sortedBy (fun path => (String.intercalate "/" path).toList) paths

def receiptOf (manifest : Manifest) (now : ℤ) : Receipt where
  backupOwnerEpoch := manifest.ownerEpoch
  backupTakenAt := manifest.takenAt
  restoredAt := now
  restored := sortedPaths
    ((manifest.files.map ManifestEntry.path).filter fun path => !quarantined path)
  quarantined := sortedPaths ((manifest.files.map ManifestEntry.path).filter quarantined)

/-- The tree is built, its receipt last. -/
def buildRestore (backup : Backup) (manifest : Manifest) (now : ℤ) :
    Durable RestoreOp Destination BackupError Receipt := do
  copyFiles sha256 backup manifest.files
  operate .makeRoots .osError id
  operate .writeReceipt .osError fun destination =>
    destination.put [receiptName] (.receipt (receiptOf manifest now))
  operate .sync .osError id
  return receiptOf manifest now

/-- The tree becomes the destination. -/
def commit (destination : Destination) : Destination :=
  match destination.building with
  | some tree => { target := .occupied tree, building := none }
  | none => destination

/-- The commit point: the tree is renamed onto a destination that is missing or empty. -/
def publish (backup : Backup) (manifest : Manifest) (now : ℤ) :
    Durable RestoreOp Destination BackupError Receipt := do
  let receipt ← buildRestore sha256 backup manifest now
  operate .rename .osError commit
  return receipt

/-- A tree that is not finished is removed, where it can be. -/
def cleanUp (cause : BackupError) : Durable RestoreOp Destination BackupError Receipt := do
  attempt (operate .cleanUp .osError fun destination => { destination with building := none })
    fun _ => pure ⟨⟩
  let destination ← observe
  raise (if destination.building.isSome then .restoreFailedPartial cause
    else .restoreFailedCleaned cause)

def restore (backup : Backup) (into : RelPath) (liveRoots : List RelPath) (now : ℤ) :
    Durable RestoreOp Destination BackupError Receipt := do
  let manifest ← check (verify sha256 backup)
  let destination ← observe
  check (checkDestination into
    (liveRoots ++ [backup.parent] ++ [manifest.runPath, manifest.supervisedPath])
    destination.target)
  operate .makeParent .osError id
  operate .makePartial .osError fun destination =>
    { destination with building := some DefaultDict.empty }
  let receipt ← attempt (publish sha256 backup manifest now) cleanUp
  attempt (operate .syncParent .osError id) fun _ => pure ⟨⟩
  return receipt

end Restore

end TreeOptions.Desk
