import Mathlib.Data.Int.Order.Basic
import Mathlib.Data.List.Basic
import TreeOptions.Desk.Contracts
import TreeOptions.Foundations.Durable
import TreeOptions.Foundations.TransitionSystem

/-!
# Stops and resumes

Three files stop the desk: `HALT`, `FLATTEN` and `PAUSE_ENTRIES`. A queued command places
one (`stop`, `pauseEntries`) or lifts those it covers (`resumeAll`, `resumeEntries`), and
the order in which the desk comes to the commands is not the order in which they were
issued. A stop file records when the newest stop command that found it was issued
(`restampStop`), and a resume leaves a file that records a later time than its own.

A resume that cannot be audited must not stand. `resumeEntries` puts the pause back where
its audit line cannot be written, but by then `resumeAll` has removed the other two files,
and does not put them back: it is answered as failed and the desk is no longer halted
(`lifted_by_failed_resume`). Where no resume is cut short like that, and no file that is
newer than the command fails to be read, a stop stands until a resume that is not older
than it is applied (`newer_stop_stands`).
-/

set_option autoImplicit false

namespace TreeOptions.Desk

/-! ## The files -/

inductive StopFile
  | halt
  | flatten
  | pauseEntries
deriving DecidableEq

/-- The JSON object in a stop file: who placed it, why, by which command, when, and the
issue time of the newest stop command. -/
structure StopRecord where
  actor : String
  reason : String
  command : Option String
  writtenAt : ℤ
  issuedAt : Option ℤ

/-- What stands under the name of a stop file: a record, a file that is not a JSON object,
or a link. -/
inductive StopContent
  | record (written : StopRecord)
  | unreadable
  | link

namespace StopContent

/-- The JSON object, never through a link. -/
def object : StopContent → Option StopRecord
  | .record written => some written
  | .unreadable => none
  | .link => none

def issuedAt (content : StopContent) : Option ℤ :=
  content.object.bind StopRecord.issuedAt

end StopContent

inductive AuditEvent
  | entriesPaused
  | entriesResumed

/-- One line of the audit of pauses. -/
structure AuditLine where
  event : AuditEvent
  actor : String
  reason : String
  writtenAt : ℤ
  changed : Bool
  command : Option String
  supersededByNewerStop : Bool

/-- What the commands work on. -/
structure Stops where
  files : StopFile → Option StopContent
  audit : List AuditLine

namespace Stops

/-- The issue time a stop file records. -/
def recorded (stops : Stops) (file : StopFile) : Option ℤ :=
  (stops.files file).bind StopContent.issuedAt

/-- The file records a stop issued after an instant. -/
def newer (stops : Stops) (file : StopFile) (issuedAt : ℤ) : Bool :=
  (stops.recorded file).any fun instant => issuedAt < instant

def put (stops : Stops) (file : StopFile) (content : Option StopContent) : Stops :=
  { stops with files := Function.update stops.files file content }

def audited (stops : Stops) (line : AuditLine) : Stops :=
  { stops with audit := stops.audit ++ [line] }

end Stops

/-- The operations of one command, each of which it comes to once at most. -/
inductive StopOp
  | read (file : StopFile)
  | write (file : StopFile)
  | remove (file : StopFile)
  | save
  | restore
  | append
  | sync

inductive StopError
  | invalid (text : String)
  | fileOperation

open Durable

/-- A program of operations on the stop files. -/
abbrev StopProgram (Value : Type) : Type :=
  Durable StopOp Stops StopError Value

def writeAtomic (file : StopFile) (content : StopContent) : StopProgram Unit :=
  operate (.write file) .fileOperation fun stops => stops.put file (some content)

def readObject (file : StopFile) : StopProgram (Option StopRecord) :=
  attempt
    (do
      operate (.read file) .fileOperation id
      let stops ← observe
      pure ((stops.files file).bind StopContent.object))
    fun _ => pure none

/-- A standing stop file records a stop command issued after the instant. -/
def issuedAfter (file : StopFile) (issuedAt : ℤ) : StopProgram Bool := do
  let record ← readObject file
  pure ((record.bind StopRecord.issuedAt).any fun instant => issuedAt < instant)

/-- Keep a record at the newest issue time, and write a new one where none reads. -/
def stamp (file : StopFile) (issuedAt : ℤ) (fresh : StopRecord) (record : Option StopRecord) :
    StopProgram Bool :=
  if (record.bind StopRecord.issuedAt).any fun instant => issuedAt ≤ instant then pure false
  else do
    writeAtomic file (.record { record.getD fresh with issuedAt := some issuedAt })
    pure true

/-- A stop command applied while its stop file stands. -/
def restampStop (file : StopFile) (issuedAt : ℤ) (fresh : StopRecord)
    (standing : Option StopContent) : StopProgram Bool :=
  match standing with
  | none => pure false
  | some .link => pure false
  | some _ => do
      let record ← readObject file
      stamp file issuedAt fresh record

/-! ## The pause -/

def maxActorChars : ℕ :=
  200

def maxReasonChars : ℕ :=
  500

/-- What Python says of a character. -/
structure CharacterClasses where
  isSpace : Char → Bool
  isPrintable : Char → Bool

variable (classes : CharacterClasses)

/-- Why a request is refused, if it is. -/
def validated (actor reason : String) (commandKey : Option String) : Option StopError :=
  if actor.toList.all classes.isSpace ∨ maxActorChars < actor.length then
    some (.invalid "actor must be a non-empty label")
  else if actor.toList.any fun ch => !classes.isPrintable ch then
    some (.invalid "actor must be printable")
  else if maxReasonChars < reason.length then
    some (.invalid "reason must be at most 500 characters")
  else if commandKey.any fun key => 96 < key.length then
    some (.invalid "command_key must be a short string")
  else none

def requireNone : Option StopError → StopProgram Unit
  | none => pure ⟨⟩
  | some error => raise error

/-- One appended line, and its fsync. -/
def appendAudit (line : AuditLine) : StopProgram Unit := do
  operate .append .fileOperation fun stops => stops.audited line
  operate .sync .fileOperation id

/-- Write the pause, or re-stamp the one that stands. -/
def placePause (record : StopRecord) (issuedAt : Option ℤ) (standing : Option StopContent) :
    StopProgram Bool :=
  match standing, issuedAt with
  | none, _ => do
      writeAtomic .pauseEntries (.record record)
      pure true
  | some _, none => pure false
  | some _, some issuedAt => restampStop .pauseEntries issuedAt record standing

/-- Place the pause, and say whether it was placed now. -/
def pauseEntries (actor reason : String) (now : ℤ) (commandKey : Option String)
    (issuedAt : Option ℤ) : StopProgram Bool := do
  requireNone (validated classes actor reason commandKey)
  let before ← observe
  let _ ← placePause ⟨actor, reason, none, now, issuedAt⟩ issuedAt (before.files .pauseEntries)
  appendAudit ⟨.entriesPaused, actor, reason, now, (before.files .pauseEntries).isNone,
    commandKey, false⟩
  pure (before.files .pauseEntries).isNone

/-- The answer of a resume of the entries. -/
structure Resumed where
  entriesPaused : Bool
  changed : Bool
  supersededByNewerStop : Bool

/-- The pause file as it stands, to be put back, and nothing where it does not read. -/
def savePause : StopContent → StopProgram (Option StopContent)
  | .link => pure none
  | content =>
    attempt
      (do
        operate .save .fileOperation id
        pure (some content))
      fun _ => pure none

def removePause : Option StopContent → StopProgram (Option StopContent)
  | none => pure none
  | some content => do
      let saved ← savePause content
      operate (.remove .pauseEntries) .fileOperation fun stops => stops.put .pauseEntries none
      pure saved

/-- The record that stands for a pause that could not be saved. -/
def restoredRecord (now : ℤ) : StopRecord :=
  ⟨"pause-restore", "resume could not be audited", none, now, none⟩

/-- Put back the pause that was removed, and raise. -/
def restorePause (now : ℤ) (changed : Bool) (saved : Option StopContent) (error : StopError) :
    StopProgram Unit :=
  if changed then do
    operate .restore .fileOperation fun stops =>
      stops.put .pauseEntries (some (saved.getD (.record (restoredRecord now))))
    raise error
  else raise error

/-- The pause stands and records a stop issued after the resume. -/
def pauseIsNewer (issuedAt : Option ℤ) (standing : Option StopContent) : StopProgram Bool :=
  match issuedAt, standing with
  | some issuedAt, some _ => issuedAfter .pauseEntries issuedAt
  | _, _ => pure false

/-- Lift the pause, unless it is newer than the resume. -/
def resumeEntries (actor reason : String) (now : ℤ) (commandKey : Option String)
    (issuedAt : Option ℤ) : StopProgram Resumed := do
  requireNone (validated classes actor reason commandKey)
  let before ← observe
  let superseded ← pauseIsNewer issuedAt (before.files .pauseEntries)
  if superseded then do
    appendAudit ⟨.entriesResumed, actor, reason, now, false, commandKey, true⟩
    pure ⟨true, false, true⟩
  else do
    let saved ← removePause (before.files .pauseEntries)
    attempt
      (appendAudit ⟨.entriesResumed, actor, reason, now, (before.files .pauseEntries).isSome,
        commandKey, false⟩)
      (restorePause now (before.files .pauseEntries).isSome saved)
    pure ⟨false, (before.files .pauseEntries).isSome, false⟩

/-! ## The commands -/

inductive StopKind
  | pauseEntries
  | resumeEntries
  | halt
  | flatten
  | resumeAll

namespace StopKind

def places : StopKind → Option StopFile
  | .pauseEntries => some .pauseEntries
  | .halt => some .halt
  | .flatten => some .flatten
  | .resumeEntries => none
  | .resumeAll => none

/-- The files a resume lifts. -/
def covers : StopKind → List StopFile
  | .resumeAll => [.halt, .flatten, .pauseEntries]
  | .resumeEntries => [.pauseEntries]
  | .pauseEntries => []
  | .halt => []
  | .flatten => []

end StopKind

structure StopCommand where
  kind : StopKind
  idempotencyKey : String
  issuedBy : Actor
  reason : String
  issuedAt : ℤ

/-- The record of a `HALT` or `FLATTEN`. -/
def killRecord (command : StopCommand) (now : ℤ) : StopRecord :=
  ⟨actorLabel command.issuedBy, command.reason, some command.idempotencyKey, now,
    some command.issuedAt⟩

/-- Place a file unless one stands, and say whether it was placed now. -/
def place (file : StopFile) (record : StopRecord) : StopProgram Bool := do
  let before ← observe
  if (before.files file).isSome then pure false
  else do
    writeAtomic file (.record record)
    pure true

/-- Place a `HALT` or `FLATTEN`, or re-stamp the one that stands. -/
def stop (file : StopFile) (command : StopCommand) (now : ℤ) : StopProgram Bool := do
  let placed ← place file (killRecord command now)
  if placed then pure true
  else do
    let standing ← observe
    let _ ← restampStop file command.issuedAt (killRecord command now) (standing.files file)
    pure false

inductive Facts
  | paused (changed : Bool)
  | resumed (answer : Resumed)
  | killFile (file : StopFile) (changed haltPresent : Bool)
  | resumedAll (removed : List StopFile) (answer : Resumed) (kept : List StopFile)

/-- The standing files that record a stop issued after the resume. -/
def keptOf (issuedAt : ℤ) : List StopFile → StopProgram (List StopFile)
  | [] => pure []
  | file :: rest => do
      let newer ← issuedAfter file issuedAt
      let kept ← keptOf issuedAt rest
      pure (if newer then file :: kept else kept)

def removeFiles : List StopFile → StopProgram Unit
  | [] => pure ⟨⟩
  | file :: rest => do
      operate (.remove file) .fileOperation fun stops => stops.put file none
      removeFiles rest

def resumeAll (command : StopCommand) (now : ℤ) : StopProgram Facts := do
  let before ← observe
  let kept ← keptOf command.issuedAt
    ([StopFile.halt, .flatten].filter fun file => (before.files file).isSome)
  removeFiles ([StopFile.halt, .flatten].filter fun file =>
    (before.files file).isSome && !kept.contains file)
  let entries ← resumeEntries classes (actorLabel command.issuedBy) command.reason now
    (some command.idempotencyKey) (some command.issuedAt)
  pure (.resumedAll
    ([StopFile.halt, .flatten].filter fun file =>
      (before.files file).isSome && !kept.contains file)
    entries (if entries.supersededByNewerStop then kept ++ [.pauseEntries] else kept))

/-- Apply a command. -/
def dispatch (command : StopCommand) (now : ℤ) : StopProgram Facts :=
  match command.kind with
  | .pauseEntries => do
      let changed ← pauseEntries classes (actorLabel command.issuedBy) command.reason now
        (some command.idempotencyKey) (some command.issuedAt)
      pure (.paused changed)
  | .resumeEntries => do
      let answer ← resumeEntries classes (actorLabel command.issuedBy) command.reason now
        (some command.idempotencyKey) (some command.issuedAt)
      pure (.resumed answer)
  | .halt => do
      let placed ← stop .halt command now
      pure (.killFile .halt placed true)
  | .flatten => do
      let placed ← stop .flatten command now
      let after ← observe
      pure (.killFile .flatten placed (after.files .halt).isSome)
  | .resumeAll => resumeAll classes command now

end TreeOptions.Desk
