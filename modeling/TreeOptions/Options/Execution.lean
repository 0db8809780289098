import TreeOptions.Foundations.Ensures
import TreeOptions.Options.Backtest

/-!
# What an execution does

The engine fills an order from one quote, for as much as the quote has left (`fills_of_mint`). A
fill names the contract of its order, is stamped with the instant of its call, and does not come
after the expiration. An order that is executed changes nothing beside the engine and the audit
(`executeFill_eq_ok`).
-/

set_option autoImplicit false

namespace TreeOptions.Options

open Backtest Checked Decimal Ledger

/-! ## The engine -/

def gradedQuote (engine : Guards.FillEngine) (call : Guards.Call) :
    Except Guards.EngineError Guards.Tradable := do
  let effectiveAt ← call.effectiveAt
  let execOrdinal ← Guards.checkInstants engine call effectiveAt
  let selected ← Guards.selectQuote call.quotes effectiveAt
  Guards.grade engine execOrdinal effectiveAt selected

/-- What was filled of an order was filled by an order that is executed. -/
def EngineKept (state : Guards.EngineState) : Prop :=
  ∀ orderId, state.filledQty orderId ≠ 0 → orderId ∈ state.executedOrders

/-- A fill of an order at an instant, for as much as a quote has left. -/
structure FillsFrom (engine : Guards.FillEngine) (state : Guards.EngineState)
    (call : Guards.Call) (fill : Guards.Fill) : Prop where
  contractId_eq : fill.contractId = call.order.contractId
  side_eq : fill.side = call.order.side
  named : call.contract.contractId = call.order.contractId
  notExpired : call.executionSession ≤ call.contract.expiration
  stamped : call.effectiveAt = .ok fill.executionAt
  available : ∃ tradable, gradedQuote engine call = .ok tradable ∧
    fill.quantity = min call.order.quantity
      (Guards.capacity engine state call.order.side tradable)

/-- **A minted fill takes what its quote has left**, up to its order. -/
theorem fills_of_mint {engine : Guards.FillEngine} {state : Guards.EngineState}
    {call : Guards.Call} {minted : Guards.Minted} (kept : EngineKept state)
    (single : call.partialSequence = false)
    (checked : Guards.mint engine state call = .ok minted) :
    FillsFrom engine state call minted.fill := by
  obtain ⟨effectiveAt, execOrdinal, selected, price, ⟨shifted, binding, contract, instants⟩,
    ⟨isSelected, graded, -⟩, sized, -, -, valid⟩ := Guards.mint_eq_ok checked
  obtain ⟨⟨-, -, contractId, side⟩, stamp, -⟩ := Guards.toFill_eq_ok valid
  -- nothing was filled of an order that is executed for the first time
  obtain ⟨first, -⟩ := refuse_bind_eq_ok.mp binding
  have unfilled : state.filledQty call.order.orderId = 0 := by
    by_contra filled
    exact first ⟨kept _ filled, single⟩
  obtain ⟨-, contract⟩ := refuse_bind_eq_ok.mp contract
  obtain ⟨named, contract⟩ := refuse_bind_eq_ok.mp contract
  obtain ⟨-, contract⟩ := refuse_bind_eq_ok.mp contract
  obtain ⟨notExpired, -⟩ := refuse_bind_eq_ok.mp contract
  refine ⟨contractId, side, ?_, not_lt.mp notExpired, ?_, minted.tradable, ?_, ?_⟩
  · exact not_not.mp (not_or.mp named).1
  · rw [shifted, stamp]
  · exact bind_eq_ok.mpr ⟨effectiveAt, shifted, bind_eq_ok.mpr ⟨execOrdinal, instants,
      bind_eq_ok.mpr ⟨selected, isSelected, graded⟩⟩⟩
  · rw [Guards.fillQuantity_eq_ok sized, unfilled, sub_zero]

theorem engineKept_initial : EngineKept .initial := by
  intro orderId filled
  exact absurd rfl filled

/-- A call keeps what was filled among the executed orders. -/
theorem EngineKept.outcome {engine : Guards.FillEngine} {state : Guards.EngineState}
    {call : Guards.Call} (kept : EngineKept state) :
    EngineKept (Guards.outcome engine state call).2 := by
  rw [Guards.outcome_eq]
  cases Guards.mint engine state call with
  | error error => exact kept
  | ok minted =>
    have committed : EngineKept
        { fillSeq := state.fillSeq + 1
          executedOrders := insert call.order.orderId state.executedOrders
          orders := Function.update state.orders call.order.orderId (some call.order)
          filledQty := Function.update state.filledQty call.order.orderId
            (state.filledQty call.order.orderId + minted.fill.quantity)
          vwapConsumed := state.vwapConsumed } := by
      intro orderId filled
      by_cases same : orderId = call.order.orderId
      · exact same ▸ Finset.mem_insert_self _ _
      · dsimp only at filled
        rw [Function.update_of_ne same] at filled
        exact Finset.mem_insert_of_mem (kept orderId filled)
    change EngineKept (Guards.consume minted.fill.quantity minted.tradable _)
    cases minted.tradable with
    | twoSided quote => exact committed
    | vwap quote => exact committed

/-! ## The backtest -/

variable {Snapshot : Type} {input : OptionsInput Snapshot} {session instant : ℤ}
  {state next : OptionsState}

theorem not_filled_of_rejectOrRaise {error : Guards.EngineError} {outcome : Executed}
    (rejected : rejectOrRaise error = .ok outcome) (fill : Guards.Fill) :
    outcome ≠ .filled fill := by
  rintro rfl
  rw [rejectOrRaise] at rejected
  split at rejected
  case h_1 => cases rejected
  case h_2 => cases rejected

/-- **An order that is executed** is rejected or filled, and changes the engine and the audit. -/
theorem executeFill_eq_ok {order : Guards.Order} {outcome : Executed}
    (kept : EngineKept state.engine)
    (executed : executeFill input session instant state order = .ok (next, outcome)) :
    ∃ engine audit, EngineKept engine ∧
      next = { state with engine, fillAudit := audit } ∧
      ∀ fill, outcome = .filled fill → ∃ contract,
        input.surface.contract order.contractId = .ok contract ∧
        FillsFrom (engineOf input) state.engine (sessionCall input session instant order contract)
          fill := by
  rw [executeFill] at executed
  obtain ⟨contract, isContract, executed⟩ := bind_eq_ok.mp executed
  dsimp only at executed
  have keptAfter : EngineKept (Guards.outcome (engineOf input) state.engine
      (sessionCall input session instant order contract)).2 := kept.outcome
  have minted := Guards.outcome_eq (engineOf input) state.engine
    (sessionCall input session instant order contract)
  generalize Guards.outcome (engineOf input) state.engine
    (sessionCall input session instant order contract) = result at executed keptAfter minted
  obtain ⟨result, engine⟩ := result
  cases result with
  | error error =>
    obtain ⟨rejected, isRejected, same⟩ := bind_eq_ok.mp executed
    cases same
    exact ⟨engine, state.fillAudit, keptAfter, rfl,
      fun fill filled => absurd filled (not_filled_of_rejectOrRaise isRejected fill)⟩
  | ok fill =>
    rw [concludeFill] at executed
    split at executed
    case h_1 error failed =>
      obtain ⟨rejected, isRejected, same⟩ := bind_eq_ok.mp executed
      cases same
      exact ⟨engine, state.fillAudit, keptAfter, rfl,
        fun fill filled => absurd filled (not_filled_of_rejectOrRaise isRejected fill)⟩
    case h_2 selected isSelected =>
      cases executed
      refine ⟨engine, _, keptAfter, rfl, ?_⟩
      intro filled same
      cases same
      refine ⟨contract, isContract, ?_⟩
      split at minted
      case h_1 => cases minted
      case h_2 value isMinted =>
        cases minted
        exact fills_of_mint kept rfl isMinted

end TreeOptions.Options
