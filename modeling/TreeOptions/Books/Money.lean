import Mathlib.Tactic.Ring
import TreeOptions.Books.Fold

/-!
# The fold conserves money

What `foldLedger` reads off a ledger adds up to the micro: the cash of an account is
what it realized and what was adjusted, less what its lots hold, its positions are the
sums of the quantities, and a lot without a quantity holds nothing
(`conserves_of_foldLedger`).

The step is one fill applied to one lot. Whatever was rounded off the released part
stays in the lot, so a fill moves the same amount in all (`applyFill_conserves`), and the
part that closes a lot is the whole of it (`applyFill_flat`).
-/

set_option autoImplicit false

namespace TreeOptions.Books

open Checked

/-! ## One fill -/

theorem applyFill_quantity (lot : LotState) (fill : Effective) :
    (applyFill lot fill).1.quantity = lot.quantity + fill.quantity := by
  rw [applyFill]
  split
  case isTrue nothing => rw [nothing, add_zero]
  case isFalse =>
    split
    case isTrue => rfl
    case isFalse => rfl

/-- **What a fill realizes and what it leaves in the lot is what it brought.** -/
theorem applyFill_conserves (lot : LotState) (fill : Effective) :
    (applyFill lot fill).2.getD 0 -
        ((applyFill lot fill).1.cost + (applyFill lot fill).1.fee) =
      fill.cash - fill.fee - (lot.cost + lot.fee) := by
  rw [applyFill]
  split
  case isTrue =>
    by_cases some' : -fill.cash ≠ 0 ∨ fill.fee ≠ 0
    · rw [if_pos some', Option.getD_some]
      ring
    · rw [if_neg some', Option.getD_none]
      change 0 - (lot.cost + lot.fee) = fill.cash - fill.fee - (lot.cost + lot.fee)
      omega
  case isFalse =>
    split
    case isTrue =>
      rw [Option.getD_none]
      ring
    case isFalse =>
      rw [Option.getD_some]
      ring

variable {fill : Effective}

/-- **A lot without a quantity holds nothing.** -/
theorem applyFill_flat {lot : LotState} (before : lot.quantity = 0 → lot.cost = 0 ∧ lot.fee = 0)
    (flat : (applyFill lot fill).1.quantity = 0) :
    (applyFill lot fill).1.cost = 0 ∧ (applyFill lot fill).1.fee = 0 := by
  have opposite : lot.quantity + fill.quantity = 0 := applyFill_quantity lot fill ▸ flat
  rw [applyFill]
  split
  case isTrue nothing =>
    exact before (by omega)
  case isFalse moves =>
    split
    case isTrue opens =>
      exfalso
      omega
    case isFalse =>
      -- the fill closes exactly what the lot holds, so both parts are the whole
      have magnitude : |fill.quantity| = |lot.quantity| := by
        rw [← abs_neg, neg_eq_of_add_eq_zero_left opposite]
      simp only [magnitude, min_self, part_self]
      constructor
      · ring
      · ring

/-! ## A run of fills -/

/-- The realized P&L of an account. -/
def realizedIn (realizations : List Realization) (accountId : String) : ℤ :=
  (realizations.map fun realization =>
    if realization.accountId = accountId then realization.realizedMicros else 0).sum

/-- What the lots of an account hold. -/
def heldIn (lots : DefaultDict LotKey ({} : LotState)) (accountId : String) : ℤ :=
  lots.sumOver fun key lot => if key.1 = accountId then lot.cost + lot.fee else 0

def quantityIn (lots : DefaultDict LotKey ({} : LotState)) (accountId : String) (conId : ℕ) :
    ℤ :=
  lots.sumOver fun key lot => if key.1 = accountId ∧ key.2.1 = conId then lot.quantity else 0

structure Applied (done : List Effective) (book : LotBook) : Prop where
  money : ∀ accountId, realizedIn book.realizations accountId - heldIn book.lots accountId =
    (done.map fun fill => if fill.accountId = accountId then fill.cash - fill.fee else 0).sum
  quantity : ∀ accountId conId, quantityIn book.lots accountId conId =
    (done.map fun fill =>
      if fill.accountId = accountId ∧ fill.conId = conId then fill.quantity else 0).sum
  flat : ∀ key, (book.lots.get key).quantity = 0 →
    (book.lots.get key).cost = 0 ∧ (book.lots.get key).fee = 0
  keys : ∀ key ∈ book.lots.keys, key ∈ done.map Effective.lotKey
  typed : ∀ key ∈ book.lots.keys, ∃ secType,
    book.secTypes.find? (key.1, key.2.1) = some ((key.1, key.2.1), secType)

theorem applied_empty : Applied [] {} := by
  constructor
  · intro accountId
    rfl
  · intro accountId conId
    rfl
  · intro key _
    exact ⟨rfl, rfl⟩
  · intro key member
    cases member
  · intro key member
    cases member

variable {book : LotBook}

theorem applyEffective_ok {next : LotBook} (succeeded : applyEffective book fill = .ok next) :
    next.lots = book.lots.set fill.lotKey (applyFill (book.lots.get fill.lotKey) fill).1 ∧
      next.realizations = book.realizations ++
        ((applyFill (book.lots.get fill.lotKey) fill).2.map (realizationOf fill)).toList ∧
      next.secTypes =
        book.secTypes.insertOrIgnore ((fill.accountId, fill.conId), fill.secType) ∧
      next.secTypes.find? (fill.accountId, fill.conId) =
        some ((fill.accountId, fill.conId), fill.secType) := by
  obtain ⟨typed, done⟩ := refuse_bind_eq_ok.mp succeeded
  cases done
  exact ⟨rfl, rfl, rfl, not_not.mp typed⟩

theorem Applied.applyEffective {done : List Effective} {next : LotBook}
    (applied : Applied done book) (succeeded : Books.applyEffective book fill = .ok next) :
    Applied (done ++ [fill]) next := by
  obtain ⟨lots, realizations, secTypes, typed⟩ := applyEffective_ok succeeded
  constructor
  · intro accountId
    have conserves := applyFill_conserves (book.lots.get fill.lotKey) fill
    have realized : realizedIn next.realizations accountId =
        realizedIn book.realizations accountId + if fill.accountId = accountId then
          (applyFill (book.lots.get fill.lotKey) fill).2.getD 0 else 0 := by
      rw [realizations, realizedIn, List.map_append, List.sum_append, realizedIn]
      cases (applyFill (book.lots.get fill.lotKey) fill).2 with
      | none => simp
      | some realized => simp [realizationOf]
    have held : heldIn next.lots accountId = heldIn book.lots accountId +
        if fill.accountId = accountId then
          ((applyFill (book.lots.get fill.lotKey) fill).1.cost +
            (applyFill (book.lots.get fill.lotKey) fill).1.fee) -
          ((book.lots.get fill.lotKey).cost + (book.lots.get fill.lotKey).fee) else 0 := by
      rw [lots, heldIn, DefaultDict.sumOver_set _ _ _ (by simp), heldIn, Effective.lotKey]
      split <;> ring
    rw [realized, held, List.map_append, List.sum_append, ← applied.money accountId,
      List.map_singleton, List.sum_singleton]
    split <;> omega
  · intro accountId conId
    rw [lots, quantityIn, DefaultDict.sumOver_set _ _ _ (by simp), List.map_append,
      List.sum_append, ← applied.quantity accountId conId, List.map_singleton,
      List.sum_singleton, quantityIn, Effective.lotKey, applyFill_quantity]
    split <;> ring
  · intro key
    rw [lots]
    by_cases same : key = fill.lotKey
    · rw [same, DefaultDict.get_set_self]
      exact applyFill_flat (applied.flat _)
    · rw [DefaultDict.get_set_of_ne _ same]
      exact applied.flat key
  · intro key member
    rw [lots, DefaultDict.mem_keys_set] at member
    rw [List.map_append, List.mem_append]
    rcases member with rfl | old
    · exact .inr List.mem_cons_self
    · exact .inl (applied.keys key old)
  · intro key member
    rw [lots, DefaultDict.mem_keys_set] at member
    rcases member with rfl | old
    · exact ⟨fill.secType, typed⟩
    · obtain ⟨secType, found⟩ := applied.typed key old
      refine ⟨secType, ?_⟩
      rw [secTypes, Table.find?_insertOrIgnore, found]
      rfl

theorem applied_foldlM {fills : List Effective}
    (succeeded : fills.foldlM Books.applyEffective {} = .ok book) : Applied fills book :=
  foldlM_invariant Applied (fun _ _ _ _ => Applied.applyEffective) applied_empty succeeded

/-! ## What a fold says of the rows -/

/-- Every commission carries the account of the fill it belongs to. -/
def CommissionsBelong (events : List LedgerEvent) : Prop :=
  ∀ commission ∈ events, commission.kind = .commission → ∀ fill ∈ events, fill.kind = .fill →
    fill.baseExecId = commission.baseExecId → fill.accountId = commission.accountId

variable {rows : List LedgerEvent}

theorem CommissionsBelong.of_subset {events : List LedgerEvent} (belong : CommissionsBelong events)
    (inside : ∀ row ∈ rows, row ∈ events) : CommissionsBelong rows :=
  fun commission member kind fill member' =>
    belong commission (inside _ member) kind fill (inside _ member')

theorem baseExecId_eq_some {event : LedgerEvent} (ofExecution : event.kind.OfExecution) :
    event.baseExecId = some (event.baseExecId.getD "") := by
  obtain ⟨execId, -, base, -⟩ := event.names ofExecution
  rw [base, Option.getD_some]

variable {effective : List Effective}

theorem sum_fees (effects : effectiveFills rows = .ok effective) (belong : CommissionsBelong rows)
    (accountId : String) :
    (effective.map fun fill => if fill.accountId = accountId then fill.fee else 0).sum =
      (rows.map fun event =>
        if event.kind = .commission ∧ event.baseExecId.getD "" ∈ effective.map Effective.base then
          if event.accountId = accountId then -event.cashDeltaMicros else 0
        else 0).sum := by
  let charged := rows.filter fun event =>
    event.kind = .commission ∧ event.baseExecId.getD "" ∈ effective.map Effective.base
  let amount := fun event : LedgerEvent =>
    if event.accountId = accountId then -event.cashDeltaMicros else 0
  have each : effective.map (fun fill => if fill.accountId = accountId then fill.fee else 0) =
      (effective.map Effective.base).map fun base =>
        ((charged.filter fun event => event.baseExecId.getD "" = base).map amount).sum := by
    rw [List.map_map]
    refine List.map_congr_left ?_
    intro fill member
    obtain ⟨chain, chained, effect⟩ := exists_of_mem_mapM effects member
    have effect := effectiveOf_ok effect
    obtain ⟨root, inChain, isFill⟩ := effect.exists_mem
    obtain ⟨inRows, moves, rootBase⟩ := mem_chains chained inChain
    have account : root.accountId = fill.accountId :=
      congrArg Prod.fst (effect.identity root inChain)
    have members : charged.filter (fun event => event.baseExecId.getD "" = fill.base) =
        rows.filter fun event =>
          event.kind = .commission ∧ event.baseExecId.getD "" = fill.base := by
      rw [List.filter_filter]
      refine List.filter_congr ?_
      intro event _
      by_cases same : event.baseExecId.getD "" = fill.base
      · simp [same, List.mem_map_of_mem member]
      · simp [same]
    rw [Function.comp_apply, members, effect.fee, ← effect.key, feeOf]
    have accounts : ∀ event ∈ rows.filter (fun event =>
        event.kind = .commission ∧ event.baseExecId.getD "" = fill.base),
        event.accountId = fill.accountId := by
      intro event inside
      obtain ⟨inRows', commission⟩ := List.mem_filter.mp inside
      obtain ⟨isCommission, same⟩ := of_decide_eq_true commission
      rw [← account]
      refine (belong event inRows' isCommission root inRows isFill ?_).symm
      rw [baseExecId_eq_some moves.ofExecution, rootBase, ← effect.key, ← same,
        ← baseExecId_eq_some (by rw [isCommission]; trivial)]
    refine ite_sum ?_ _
    intro event inside
    rw [accounts event inside]
  rw [each, sum_filter_keys (nodup_bases effects)]
  · rw [sum_map_filter]
    simp only [decide_eq_true_eq]
    rfl
  · intro event inside
    exact (of_decide_eq_true (List.mem_filter.mp inside).2).2

theorem sum_flowsOf (rows : List LedgerEvent) (accountId : String) :
    ((flowsOf rows).map fun flow =>
      if flow.accountId = accountId then flow.cashMicros else 0).sum =
      (rows.map fun event =>
        if event.accountId = accountId then event.cashDeltaMicros else 0).sum := by
  rw [flowsOf, List.map_map,
    ← sum_groupBy fun event : LedgerEvent => (event.accountId, event.attribution)]
  refine congrArg List.sum (List.map_congr_left ?_)
  intro group member
  rw [Function.comp_apply]
  refine ite_sum ?_ _
  intro event inside
  have account : event.accountId = group.1.1 :=
    congrArg Prod.fst (key_of_mem_groupBy member inside).2
  rw [account]

theorem sum_lotsOf {done : List Effective} (applied : Applied done book) {amount : Lot → ℤ}
    {amount' : LotKey → LotState → ℤ}
    (same : ∀ lot : Lot, amount lot = amount' (lot.accountId, lot.conId, lot.attribution)
      ⟨lot.quantity, lot.costBasisMicros, lot.feeBasisMicros⟩) :
    ((lotsOf book).map amount).sum = book.lots.sumOver amount' := by
  have values : (lotsOf book).map amount =
      book.lots.keys.map fun key => amount' key (book.lots.get key) := by
    rw [lotsOf, List.map_filterMap, ← List.filterMap_eq_map]
    refine List.filterMap_congr ?_
    intro key member
    obtain ⟨secType, found⟩ := applied.typed key member
    rw [found, Option.map_some, Option.map_some, same]
    rfl
  rw [values, DefaultDict.sumOver]

theorem sum_moves (effects : effectiveFills rows = .ok effective)
    (selects : String → Option ℕ → Prop) [∀ accountId conId, Decidable (selects accountId conId)]
    {total : Effective → ℤ} {amount : LedgerEvent → ℤ}
    (totals : ∀ base chain fill, EffectiveOf rows base chain fill →
      total fill = (chain.map amount).sum) :
    (effective.map fun fill =>
      if selects fill.accountId (some fill.conId) then total fill else 0).sum =
      (rows.map fun event => if event.kind.Moves then
        if selects event.accountId event.conId then amount event else 0 else 0).sum := by
  refine sum_effectiveFills effects ?_
  intro chain _ fill effect
  have effect := effectiveOf_ok effect
  rw [totals chain.1 chain.2 fill effect]
  refine ite_sum ?_ _
  intro event inside
  have same := effect.identity event inside
  have account : event.accountId = fill.accountId := congrArg Prod.fst same
  have contract : event.conId = some fill.conId := congrArg (fun shared => shared.2.1) same
  rw [account, contract]

/-! ## The fold -/

def cashAdjustments (events : List LedgerEvent) (accountId : String) : ℤ :=
  ((facts events).map fun fact => if fact.kind = .cashAdjustment ∧ fact.accountId = accountId then
    fact.cashDeltaMicros else 0).sum

/-- The quantity that the facts of an account move in a contract. -/
def quantityOf (events : List LedgerEvent) (accountId : String) (conId : ℕ) : ℤ :=
  ((facts events).map fun fact => if fact.accountId = accountId ∧ fact.conId = some conId then
    fact.quantityDelta else 0).sum

/-- What the lots of an account hold, their fees included. -/
def LedgerFold.basis (fold : LedgerFold) (accountId : String) : ℤ :=
  (fold.lots.map fun lot =>
    if lot.accountId = accountId then lot.costBasisMicros + lot.feeBasisMicros else 0).sum

/-- A fold that adds up. -/
structure Conserves (events : List LedgerEvent) (fold : LedgerFold) : Prop where
  cash : ∀ accountId, fold.cash accountId =
    realizedIn fold.realizations accountId + cashAdjustments events accountId -
      fold.basis accountId
  contracts : ∀ accountId conId, conId ∈ (fold.positions accountId).map Prod.fst ↔
    ∃ fact ∈ facts events, fact.accountId = accountId ∧ fact.conId = some conId
  positions : ∀ accountId, ∀ position ∈ fold.positions accountId,
    position.2 = quantityOf events accountId position.1
  flat : ∀ lot ∈ fold.lots, lot.quantity = 0 → lot.costBasisMicros = 0 ∧ lot.feeBasisMicros = 0

theorem sum_facts {events : List LedgerEvent}
    (perm : (rows.map LedgerEvent.content).Perm (facts events)) (amount : EventFields → ℤ) :
    ((facts events).map amount).sum = (rows.map fun row => amount row.content).sum := by
  rw [← (perm.map amount).sum_eq, List.map_map]
  rfl

theorem realizedIn_sortedBy {Key : Type} [LinearOrder Key] (key : Realization → Key)
    (first second : List Realization) (accountId : String) :
    realizedIn (sortedBy key (first ++ second)) accountId =
      realizedIn first accountId + realizedIn second accountId := by
  rw [realizedIn, ((sortedBy_perm key _).map _).sum_eq, List.map_append, List.sum_append]
  rfl

theorem realizedIn_unbooked (effective : List Effective) (rows : List LedgerEvent)
    (accountId : String) :
    realizedIn (unbookedCommissions effective rows) accountId = (rows.map fun event =>
      if event.kind = .commission ∧ event.baseExecId.getD "" ∉ effective.map Effective.base then
        if event.accountId = accountId then event.cashDeltaMicros else 0
      else 0).sum := by
  rw [realizedIn, unbookedCommissions, List.map_map, sum_map_filter]
  simp only [decide_eq_true_eq]
  rfl

theorem cash_of_row (event : LedgerEvent) (booked : Prop) [Decidable booked]
    (accountId : String) :
    (if event.accountId = accountId then event.cashDeltaMicros else 0) +
      (if event.kind = .commission ∧ booked then
        if event.accountId = accountId then -event.cashDeltaMicros else 0 else 0) =
      (if event.kind = .commission ∧ ¬ booked then
        if event.accountId = accountId then event.cashDeltaMicros else 0 else 0) +
      (if event.kind.Moves then
        if event.accountId = accountId then event.cashDeltaMicros else 0 else 0) +
      (if event.kind = .cashAdjustment ∧ event.accountId = accountId then
        event.cashDeltaMicros else 0) := by
  by_cases account : event.accountId = accountId
  · cases kind : event.kind with
    | fill => simp [account, LedgerKind.Moves]
    | correction => simp [account, LedgerKind.Moves]
    | commission =>
      by_cases isBooked : booked
      · simp [account, LedgerKind.Moves, isBooked]
      · simp [account, LedgerKind.Moves, isBooked]
    | cashAdjustment => simp [account, LedgerKind.Moves]
    | reconciliation => simp [account, LedgerKind.Moves, event.cashDeltaMicros_eq_zero kind]
  · simp [account]

section

variable (effects : effectiveFills rows = .ok effective)

include effects

section

variable (applied : Applied (sortedBy Effective.order effective) book)

include applied

theorem cash_foldOf {events : List LedgerEvent}
    (perm : (rows.map LedgerEvent.content).Perm (facts events)) (belong : CommissionsBelong rows)
    (accountId : String) :
    (foldOf rows effective book).cash accountId =
      realizedIn (foldOf rows effective book).realizations accountId +
        cashAdjustments events accountId - (foldOf rows effective book).basis accountId := by
  have cash : (foldOf rows effective book).cash accountId = (rows.map fun event =>
      if event.accountId = accountId then event.cashDeltaMicros else 0).sum := by
    rw [LedgerFold.cash, sum_map_filter, ← sum_flowsOf]
    simp only [decide_eq_true_eq]
    exact ((sortedBy_perm Flow.order (flowsOf rows)).map _).sum_eq
  have basis : (foldOf rows effective book).basis accountId = heldIn book.lots accountId := by
    rw [LedgerFold.basis, foldOf, ((sortedBy_perm Lot.order (lotsOf book)).map _).sum_eq]
    exact sum_lotsOf applied fun lot => rfl
  have money := applied.money accountId
  rw [((sortedBy_perm Effective.order effective).map _).sum_eq] at money
  have fills : (effective.map fun fill =>
      if fill.accountId = accountId then fill.cash - fill.fee else 0).sum +
        (effective.map fun fill => if fill.accountId = accountId then fill.fee else 0).sum =
      (effective.map fun fill => if fill.accountId = accountId then fill.cash else 0).sum := by
    rw [← List.sum_map_add]
    refine congrArg List.sum (List.map_congr_left ?_)
    intro fill _
    split
    · rw [sub_add_cancel]
    · rw [add_zero]
  have moves := sum_moves effects (fun account _ => account = accountId)
    fun _ _ _ effect => effect.cash
  have fees := sum_fees effects belong accountId
  have adjusted : cashAdjustments events accountId = (rows.map fun event =>
      if event.kind = .cashAdjustment ∧ event.accountId = accountId then
        event.cashDeltaMicros else 0).sum :=
    sum_facts perm _
  have each := congrArg List.sum <| List.map_congr_left fun event (_ : event ∈ rows) =>
    cash_of_row event (event.baseExecId.getD "" ∈ effective.map Effective.base) accountId
  rw [List.sum_map_add, List.sum_map_add, List.sum_map_add, ← fees, ← moves, ← adjusted,
    ← cash, ← realizedIn_unbooked] at each
  have realized : realizedIn (foldOf rows effective book).realizations accountId =
      realizedIn (unbookedCommissions effective rows) accountId +
        realizedIn book.realizations accountId :=
    realizedIn_sortedBy ..
  rw [basis, realized]
  omega

theorem contracts_foldOf {events : List LedgerEvent}
    (perm : (rows.map LedgerEvent.content).Perm (facts events)) (accountId : String) (conId : ℕ) :
    conId ∈ ((foldOf rows effective book).positions accountId).map Prod.fst ↔
      ∃ fact ∈ facts events, fact.accountId = accountId ∧ fact.conId = some conId := by
  have touched : (accountId, conId) ∈ (foldOf rows effective book).touchedContracts ↔
      ∃ fact ∈ facts events, fact.accountId = accountId ∧ fact.conId = some conId := by
    rw [foldOf, mem_sortedBy, touchedContracts, mem_firstSeen]
    simp only [List.mem_filterMap, Option.map_eq_some_iff, Prod.mk.injEq, ← perm.mem_iff,
      List.mem_map]
    constructor
    · rintro ⟨row, member, conId', contract, account, rfl⟩
      exact ⟨row.content, ⟨row, member, rfl⟩, account, contract⟩
    · rintro ⟨-, ⟨row, member, rfl⟩, account, contract⟩
      exact ⟨row, member, conId, contract, account, rfl⟩
  have lots : ∀ lot ∈ lotsOf book, ∃ fact ∈ facts events,
      fact.accountId = lot.accountId ∧ fact.conId = some lot.conId := by
    intro lot member
    rw [lotsOf, List.mem_filterMap] at member
    obtain ⟨key, inKeys, typed⟩ := member
    obtain ⟨-, -, rfl⟩ := Option.map_eq_some_iff.mp typed
    obtain ⟨fill, inFills, rfl⟩ := List.mem_map.mp (applied.keys key inKeys)
    obtain ⟨chain, chained, effect⟩ := exists_of_mem_mapM effects (mem_sortedBy.mp inFills)
    have effect := effectiveOf_ok effect
    obtain ⟨root, inChain, -⟩ := effect.exists_mem
    have same := effect.identity root inChain
    refine ⟨root.content, ?_, congrArg Prod.fst same, congrArg (fun shared => shared.2.1) same⟩
    rw [← perm.mem_iff]
    exact List.mem_map_of_mem (mem_chains chained inChain).1
  rw [LedgerFold.positions, List.map_map, ← touched]
  simp only [List.mem_map, Function.comp_apply, exists_eq_right, mem_sortedBy, mem_firstSeen,
    List.mem_append, List.mem_filter, decide_eq_true_eq, Prod.exists]
  constructor
  · rintro (member | ⟨lot, ⟨member, account⟩, contract⟩)
    · exact member
    · rw [touched, ← account, ← contract]
      exact lots lot (mem_sortedBy.mp member)
  · intro member
    exact .inl member

theorem positions_foldOf {events : List LedgerEvent}
    (perm : (rows.map LedgerEvent.content).Perm (facts events)) (accountId : String)
    {position : ℕ × ℤ} (member : position ∈ (foldOf rows effective book).positions accountId) :
    position.2 = quantityOf events accountId position.1 := by
  obtain ⟨conId, -, rfl⟩ := List.mem_map.mp member
  have lots : ((((foldOf rows effective book).lots.filter fun lot =>
      lot.accountId = accountId).filter fun lot => lot.conId = conId).map Lot.quantity).sum =
      quantityIn book.lots accountId conId := by
    rw [List.filter_filter, sum_map_filter, foldOf,
      ((sortedBy_perm Lot.order (lotsOf book)).map _).sum_eq, quantityIn, ← sum_lotsOf applied]
    intro lot
    simp [and_comm]
  have moves := sum_moves effects
    (fun account contract => account = accountId ∧ contract = some conId)
    fun _ _ _ effect => effect.quantity
  have still : (rows.map fun event => if event.kind.Moves then
      if event.accountId = accountId ∧ event.conId = some conId then event.quantityDelta else 0
      else 0) = rows.map fun event =>
        if event.accountId = accountId ∧ event.conId = some conId then event.quantityDelta
        else 0 := by
    refine List.map_congr_left ?_
    intro event _
    by_cases movesPosition : event.kind.Moves
    · rw [if_pos movesPosition]
    · rw [if_neg movesPosition, event.quantityDelta_eq_zero movesPosition, ite_self]
  rw [still] at moves
  rw [quantityOf, sum_facts perm]
  refine lots.trans ((applied.quantity accountId conId).trans ?_)
  rw [((sortedBy_perm Effective.order effective).map _).sum_eq]
  simp only [Option.some.injEq] at moves
  exact moves

end

end

/-- **The fold conserves money.** -/
theorem conserves_of_foldLedger {events : List LedgerEvent} {fold : LedgerFold}
    (folded : foldLedger events = .ok fold) (belong : CommissionsBelong events) :
    Conserves events fold := by
  obtain ⟨rows, effective, book, valid, effects, applied, rfl⟩ := foldLedger_ok folded
  obtain ⟨inside, perm⟩ := validated_ok valid
  have applied := applied_foldlM applied
  constructor
  · exact cash_foldOf effects applied perm (belong.of_subset inside)
  · exact contracts_foldOf effects applied perm
  · intro accountId position member
    exact positions_foldOf effects applied perm accountId member
  · intro lot member
    rw [foldOf, mem_sortedBy, lotsOf, List.mem_filterMap] at member
    obtain ⟨key, -, typed⟩ := member
    obtain ⟨typed', -, rfl⟩ := Option.map_eq_some_iff.mp typed
    exact applied.flat key

/-! ## A ledger that closes two thirds of a lot -/

/-- The row of an execution in one contract. -/
def sampleFields (kind : LedgerKind) (execId : String) (at' quantityDelta cashDeltaMicros : ℤ) :
    EventFields where
  eventId := kind.value ++ ":" ++ execId
  kind := kind
  accountId := "DU1"
  at' := at'
  recordedAt := 9
  attribution := outside
  quantityDelta := quantityDelta
  cashDeltaMicros := cashDeltaMicros
  conId := some 7
  secType := some .opt
  execId := some execId
  baseExecId := some (baseExecIdOf execId)
  permId := some 1

def sampleAdjustment : EventFields where
  eventId := "cash:interest"
  kind := .cashAdjustment
  accountId := "DU1"
  at' := 3
  recordedAt := 9
  attribution := outside
  quantityDelta := 0
  cashDeltaMicros := 5

def sampleEvents : List LedgerEvent :=
  [⟨sampleFields .fill "a.01" 1 3 (-10), rfl⟩, ⟨sampleFields .commission "a.01" 1 0 (-1), rfl⟩,
    ⟨sampleFields .fill "b.01" 2 (-2) 9, rfl⟩, ⟨sampleFields .commission "b.01" 2 0 (-1), rfl⟩,
    ⟨sampleAdjustment, rfl⟩]

def sampleFold : LedgerFold where
  lots := [⟨"DU1", 7, .opt, outside, 1, 4, 1⟩]
  realizations := [⟨"DU1", some 7, outside, 2, 2, "fill:b.01"⟩]
  flows := [⟨"DU1", outside, 2, 2⟩]
  touchedContracts := [("DU1", 7)]
  unattributed := []
  pendingCommissions := []
  stockCashOut := []
  cashIn := [⟨"DU1", 7, 2, 9⟩]

theorem conserves_sample :
    foldLedger sampleEvents = .ok sampleFold ∧ Conserves sampleEvents sampleFold := by
  have folded : foldLedger sampleEvents = .ok sampleFold := by decide
  have belong : CommissionsBelong sampleEvents := by
    unfold CommissionsBelong
    decide
  exact ⟨folded, conserves_of_foldLedger folded belong⟩

end TreeOptions.Books
