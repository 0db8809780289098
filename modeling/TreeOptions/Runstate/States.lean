import Mathlib.Tactic.Common

/-!
# The lifecycle of a run

Sixteen states, the whitelist of edges and the order that every edge but the
named retries has to follow. An edge is legal when it is on the list and, unless
it is a retry, moves forward (`isLegal`). `UNKNOWN` is what an observer concludes
and is neither the source nor the target of a legal edge.

The sealed lane is entered once: after `SEALED_RUNNING` only `SEALED_RUNNING` and
`SEALED_COMPLETE` are ever the state, and no legal edge leads from these two back
into `SEALED_RUNNING` (`not_isLegal_of_sealed`, `sealed_of_isLegal`).
-/

set_option autoImplicit false

namespace TreeOptions.Runstate

inductive RunState where
  | planned
  | capturing
  | captureComplete
  | inspectionRunning
  | inspectionFailed
  | inspected
  | amendmentPendingOwner
  | amendmentReady
  | barsReady
  | barsCapturing
  | barsComplete
  | sealedPreflightReady
  | sealedRunning
  | sealedComplete
  | failed
  | unknown
  deriving DecidableEq, Repr

namespace RunState

/-- The text of a state in the journal. -/
def value : RunState → String
  | planned => "PLANNED"
  | capturing => "CAPTURING"
  | captureComplete => "CAPTURE_COMPLETE"
  | inspectionRunning => "INSPECTION_RUNNING"
  | inspectionFailed => "INSPECTION_FAILED"
  | inspected => "INSPECTED"
  | amendmentPendingOwner => "AMENDMENT_PENDING_OWNER"
  | amendmentReady => "AMENDMENT_READY"
  | barsReady => "BARS_READY"
  | barsCapturing => "BARS_CAPTURING"
  | barsComplete => "BARS_COMPLETE"
  | sealedPreflightReady => "SEALED_PREFLIGHT_READY"
  | sealedRunning => "SEALED_RUNNING"
  | sealedComplete => "SEALED_COMPLETE"
  | failed => "FAILED"
  | unknown => "UNKNOWN"

def all : List RunState :=
  [planned, capturing, captureComplete, inspectionRunning, inspectionFailed, inspected,
    amendmentPendingOwner, amendmentReady, barsReady, barsCapturing, barsComplete,
    sealedPreflightReady, sealedRunning, sealedComplete, failed, unknown]

/-- The state a text names. -/
def ofValue (text : String) : Option RunState :=
  all.find? fun state => state.value = text

theorem ofValue_value (state : RunState) : ofValue state.value = some state := by
  cases state <;> decide

theorem value_injective : Function.Injective value := by
  intro first second same
  have read := ofValue_value first
  rw [same, ofValue_value] at read
  exact (Option.some.inj read).symm

end RunState

open RunState

/-- The rank of a state. `UNKNOWN` has none. -/
def stateOrder (state : RunState) : Option ℕ :=
  [planned, capturing, captureComplete, inspectionRunning, inspectionFailed, inspected,
    amendmentPendingOwner, amendmentReady, barsReady, barsCapturing, barsComplete,
    sealedPreflightReady, sealedRunning, sealedComplete, failed].findIdx? (· = state)

def retryEdges : RunState → List RunState
  | failed => [capturing, inspectionRunning, barsCapturing]
  | inspectionFailed => [inspectionRunning]
  | _ => []

def forwardEdges : RunState → List RunState
  | planned => [capturing]
  | capturing => [captureComplete, failed]
  | captureComplete => [inspectionRunning]
  | inspectionRunning => [inspected, inspectionFailed]
  | inspectionFailed => [failed]
  | inspected => [amendmentPendingOwner]
  | amendmentPendingOwner => [amendmentReady]
  | amendmentReady => [barsReady]
  | barsReady => [barsCapturing]
  | barsCapturing => [barsComplete, failed]
  | barsComplete => [sealedPreflightReady]
  | sealedPreflightReady => [sealedRunning]
  | sealedRunning => [sealedComplete]
  | sealedComplete | failed | unknown => []

def legalEdges (source : RunState) : List RunState :=
  forwardEdges source ++ retryEdges source

/-- The edge check: listed, and forward in the order unless it is a retry. -/
def isLegal (source target : RunState) : Bool :=
  if target = unknown ∨ source = unknown then false
  else if target ∉ legalEdges source then false
  else if target ∈ retryEdges source then true
  else match stateOrder target, stateOrder source with
    | some later, some earlier => decide (earlier < later)
    | _, _ => false

theorem ne_unknown_of_isLegal {source target : RunState} (legal : isLegal source target = true) :
    target ≠ unknown := by
  rintro rfl
  simp [isLegal] at legal

/-- The states of a run whose sealed lane was entered. -/
def Sealed (state : RunState) : Prop :=
  state = sealedRunning ∨ state = sealedComplete

theorem not_isLegal_of_sealed {source : RunState} (entered : Sealed source) :
    isLegal source sealedRunning = false := by
  rcases entered with rfl | rfl <;> decide

theorem sealed_of_isLegal {source target : RunState} (entered : Sealed source)
    (legal : isLegal source target = true) : Sealed target := by
  revert legal
  rcases entered with rfl | rfl <;> cases target <;> simp [Sealed, isLegal, legalEdges,
    forwardEdges, retryEdges]

end TreeOptions.Runstate
