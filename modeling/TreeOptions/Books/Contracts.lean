import Mathlib.Algebra.Order.Ring.Int
import TreeOptions.Foundations.Checked

/-!
# Broker executions and ledger events

What the broker reports and what the ledger writes down. An execution and an event
carry the checks of their schema, so that a row that would be refused cannot be built.
Amounts are whole numbers of micros and instants are numbers in their order.

An execution id without its last segment is the id of its fill (`baseExecIdOf`). Two
executions of one base are versions of one fill.
-/

set_option autoImplicit false

namespace TreeOptions.Books

open Checked

/-! ## Execution ids -/

/-- A text split at the last separator, none where there is no separator. -/
def rpartition (separator : Char) : List Char → Option (List Char × List Char)
  | [] => none
  | c :: rest =>
    match rpartition separator rest with
    | some (head, tail) => some (c :: head, tail)
    | none => if c = separator then some ([], rest) else none

/-- The execution id without its correction suffix. -/
def baseExecIdOf (execId : String) : String :=
  match rpartition '.' execId.toList with
  | some (c :: head, _) => String.ofList (c :: head)
  | _ => execId

example : baseExecIdOf "0000e0d5.6576d6a5.01.02" = "0000e0d5.6576d6a5.01" ∧
    baseExecIdOf "0000e0d5" = "0000e0d5" := by
  decide

/-! ## Executions -/

inductive ExecSecType where
  | opt
  | stk
  | bag
  deriving DecidableEq

inductive PositionSecType where
  | opt
  | stk
  deriving DecidableEq

inductive Side where
  | bot
  | sld
  deriving DecidableEq

/-- One execution as reported. The commission is none until its own report arrives. -/
structure BrokerExecution where
  execId : String
  baseExecId : String
  permId : ℕ
  orderRef : String
  accountId : String
  conId : ℕ
  secType : ExecSecType
  symbol : String
  side : Side
  quantity : ℕ
  priceMicros : ℕ
  multiplier : ℕ
  time : ℤ
  commissionMicros : Option ℤ
  permId_pos : 1 ≤ permId
  conId_pos : 1 ≤ conId
  quantity_pos : 1 ≤ quantity
  multiplier_pos : 1 ≤ multiplier
  base : baseExecId = baseExecIdOf execId
  stock : secType = .stk → multiplier = 1
  deriving DecidableEq

/-! ## Attribution -/

def unassignedSleeve : String :=
  "unassigned"

/-- Whose a ledger row is. Without an intent it is not ours. -/
structure Attribution where
  intentId : Option String
  strategyVersion : Option String
  programId : Option String
  sleeveRef : String := unassignedSleeve
  oursOrOutside : intentId.isSome = strategyVersion.isSome ∧ intentId.isSome = programId.isSome
  deriving DecidableEq

/-! ## Order tags -/

def supervisedRefPrefix : List Char :=
  "trex:sup:".toList

def deskRefPrefix : List Char :=
  "trex:desk:".toList

/-- What an order tag names: a supervised entry or a desk exit. -/
inductive OrderRefOwner where
  | sup (ident : String)
  | desk (ident : String)

/-- The part of a tag after a prefix, when there is one. -/
def tagged (start : List Char) (orderRef : String) : Option String :=
  if start.isPrefixOf orderRef.toList ∧ orderRef.toList ≠ start then
    some (String.ofList (orderRef.toList.drop start.length))
  else none

def parseOrderRef (orderRef : String) : Option OrderRefOwner :=
  match tagged supervisedRefPrefix orderRef with
  | some ident => some (.sup ident)
  | none => (tagged deskRefPrefix orderRef).map .desk

/-! ## Events -/

inductive LedgerKind where
  | fill
  | correction
  | commission
  | cashAdjustment
  | reconciliation
  deriving DecidableEq

namespace LedgerKind

def value : LedgerKind → String
  | fill => "fill"
  | correction => "correction"
  | commission => "commission"
  | cashAdjustment => "cash_adjustment"
  | reconciliation => "reconciliation"

/-- The kinds that book an execution. -/
def OfExecution : LedgerKind → Prop
  | fill | correction | commission => True
  | cashAdjustment | reconciliation => False

instance (kind : LedgerKind) : Decidable kind.OfExecution := by
  cases kind <;> unfold OfExecution <;> infer_instance

/-- The kinds that move a position: a fill and its corrections. -/
def Moves : LedgerKind → Prop
  | fill | correction => True
  | commission | cashAdjustment | reconciliation => False

instance (kind : LedgerKind) : Decidable kind.Moves := by
  cases kind <;> unfold Moves <;> infer_instance

theorem Moves.ofExecution {kind : LedgerKind} (moves : kind.Moves) : kind.OfExecution := by
  cases kind <;> trivial

end LedgerKind

/-- The members of a ledger row, before the checks of its kind. -/
structure EventFields where
  eventId : String
  kind : LedgerKind
  accountId : String
  at' : ℤ
  recordedAt : ℤ
  attribution : Attribution
  quantityDelta : ℤ
  cashDeltaMicros : ℤ
  conId : Option ℕ := none
  secType : Option PositionSecType := none
  execId : Option String := none
  baseExecId : Option String := none
  permId : Option ℕ := none
  orderRef : Option String := none
  supersedesEventId : Option String := none
  refSha256 : Option String := none
  detail : String := ""
  deriving DecidableEq

namespace EventFields

/-- The checks of a row against its kind, with the text of the first that fails. -/
def kindShape (event : EventFields) : Except String Unit := do
  let kind := event.kind
  refuse (kind.OfExecution ∧
      (event.execId = none ∨ event.baseExecId ≠ event.execId.map baseExecIdOf))
    ("a " ++ kind.value ++ " carries exec_id and its base_exec_id")
  refuse (kind.OfExecution ∧
      some event.eventId ≠ event.execId.map fun execId => kind.value ++ ":" ++ execId)
    ("a " ++ kind.value ++ " event_id is '" ++ kind.value ++ ":<exec_id>'")
  refuse (¬ kind.OfExecution ∧ (event.execId ≠ none ∨ event.baseExecId ≠ none))
    ("a " ++ kind.value ++ " carries no exec_id")
  refuse (kind.Moves ∧ (event.conId = none ∨ event.secType = none ∨ event.permId = none))
    ("a " ++ kind.value ++ " names con_id, sec_type and perm_id")
  refuse (kind = .fill ∧ event.quantityDelta = 0)
    "a fill moves quantity"
  refuse (decide (kind = .correction) ≠ event.supersedesEventId.isSome)
    "exactly a correction names supersedes_event_id"
  refuse (¬ kind.Moves ∧ event.quantityDelta ≠ 0)
    ("a " ++ kind.value ++ " moves no quantity")
  refuse (kind = .cashAdjustment ∧ ¬ "cash:".toList.isPrefixOf event.eventId.toList)
    "a cash_adjustment event_id is 'cash:<source id>'"
  refuse (kind = .reconciliation ∧
      some event.eventId ≠ event.refSha256.map fun ref => "reconciliation:" ++ ref)
    "a reconciliation names ref_sha256 and its event_id"
  refuse (kind = .reconciliation ∧ event.cashDeltaMicros ≠ 0)
    "a reconciliation moves no cash"
  refuse (kind ≠ .reconciliation ∧ event.refSha256 ≠ none)
    "only a reconciliation carries ref_sha256"

end EventFields

/-- One row of the ledger. -/
structure LedgerEvent extends EventFields where
  shaped : toEventFields.kindShape = .ok ⟨⟩
  deriving DecidableEq

/-- A row as the schema checks it. -/
def LedgerEvent.validate (fields : EventFields) : Except String LedgerEvent :=
  match shaped : fields.kindShape with
  | .ok ⟨⟩ => .ok ⟨fields, shaped⟩
  | .error text => .error text

namespace LedgerEvent

theorem toEventFields_of_validate {fields : EventFields} {event : LedgerEvent}
    (validated : validate fields = .ok event) : event.toEventFields = fields := by
  rw [validate] at validated
  split at validated
  case h_1 => rw [← Except.ok.inj validated]
  case h_2 => cases validated

theorem names (event : LedgerEvent) (ofExecution : event.kind.OfExecution) :
    ∃ execId, event.execId = some execId ∧ event.baseExecId = some (baseExecIdOf execId) ∧
      event.eventId = event.kind.value ++ ":" ++ execId := by
  have shaped := event.shaped
  simp only [EventFields.kindShape, refuse_bind_eq_ok, refuse_eq_ok] at shaped
  obtain ⟨carries, named, -⟩ := shaped
  cases present : event.execId with
  | none => exact absurd ⟨ofExecution, .inl present⟩ carries
  | some execId =>
    rw [present] at carries named
    refine ⟨execId, rfl, ?_, ?_⟩
    · by_contra other
      exact carries ⟨ofExecution, .inr other⟩
    · by_contra other
      exact named ⟨ofExecution, fun same => other (Option.some.inj same)⟩

/-- Only a fill and its corrections move a position. -/
theorem quantityDelta_eq_zero (event : LedgerEvent) (still : ¬ event.kind.Moves) :
    event.quantityDelta = 0 := by
  have shaped := event.shaped
  simp only [EventFields.kindShape, refuse_bind_eq_ok, refuse_eq_ok] at shaped
  obtain ⟨-, -, -, -, -, -, moves, -⟩ := shaped
  by_contra other
  exact moves ⟨still, other⟩

theorem cashDeltaMicros_eq_zero (event : LedgerEvent)
    (reconciliation : event.kind = .reconciliation) : event.cashDeltaMicros = 0 := by
  have shaped := event.shaped
  simp only [EventFields.kindShape, refuse_bind_eq_ok, refuse_eq_ok] at shaped
  obtain ⟨-, -, -, -, -, -, -, -, -, still, -⟩ := shaped
  by_contra other
  exact still ⟨reconciliation, other⟩

end LedgerEvent

end TreeOptions.Books
