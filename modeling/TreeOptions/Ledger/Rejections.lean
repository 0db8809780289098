import TreeOptions.Foundations.Blind
import TreeOptions.Ledger.Minting
import TreeOptions.Foundations.DecimalContext

/-!
# A rejected call leaves nothing behind

A call checks before it changes the book, so a book that rejects a call is the book there was,
but for one thing: the lots of a contract are kept in a dictionary with a default, and looking
them up leaves the key of the contract behind (`LedgerBook.readLots`). No figure of the book and
no call depends on which keys there are (`blind_perform`). So a rejected call changes nothing that
can be seen, and everything that is asked of the book later is answered as if the call had never
been made (`rejections_are_atomic`).

A sale or a settlement that passes its checks finds the lots it closes whatever their cost bases
are, so this holds of every book.
-/

set_option autoImplicit false

namespace TreeOptions.Ledger

open Decimal

/-! ## What can be seen of a book -/

/-- Everything in a book but for the keys of its dictionaries. -/
structure Observed where
  initialCash : ℚ
  cash : ℚ
  totalFees : ℚ
  events : List Event
  lots : String → List Lot
  realized : String → ℚ
  entries : List LedgerEntry
  entrySeq : ℕ
  lastExecutionAt : Option ℤ
  appliedFillIds : Finset String
  appliedSettlementIds : Finset String

def LedgerBook.observed (book : LedgerBook) : Observed where
  initialCash := book.initialCash
  cash := book.cash
  totalFees := book.totalFees
  events := book.events
  lots := book.lots.get
  realized := book.realized.get
  entries := book.entries
  entrySeq := book.entrySeq
  lastExecutionAt := book.lastExecutionAt
  appliedFillIds := book.appliedFillIds
  appliedSettlementIds := book.appliedSettlementIds

/-- Two books that look the same. -/
def LedgerBook.Same (book other : LedgerBook) : Prop :=
  book.observed = other.observed

/-- The lots of a contract were looked up. -/
def LedgerBook.readLots (book : LedgerBook) (contractId : String) : LedgerBook :=
  { book with lots := book.lots.set contractId (book.lots.get contractId) }

/-- What was realized on a contract was looked up. -/
def LedgerBook.readRealized (book : LedgerBook) (contractId : String) : LedgerBook :=
  { book with realized := book.realized.set contractId (book.realized.get contractId) }

/-! ## Requests -/

/-- An open position, as its schema checks it. -/
structure Position where
  contractId : String
  quantity : ℕ
  averageCost : Price
  openedSession : ℤ

/-- What is read from a book. -/
inductive Access where
  | initialCash
  | cash
  | totalFees
  | quantity (contractId : String)
  | lots (contractId : String)
  | openedSession (contractId : String)
  | position (contractId : String)
  | realizedPnl (contractId : String)
  | entries
  | assertConservation

/-- A call of a book or a look at it. -/
inductive Request where
  | call (call : Call)
  | access (access : Access)

inductive Answer where
  | done
  | amount (amount : ℚ)
  | quantity (quantity : ℕ)
  | lots (lots : List Lot)
  | session (session : ℤ)
  | position (position : Position)
  | entries (entries : List LedgerEntry)

inductive RequestError where
  | ledger (error : LedgerError)
  | keyError (contractId : String)
  | divisionByZero

/-- The lots of a contract. Looking them up leaves the key of the contract behind. -/
def lotsOf (contractId : String) : EStateM RequestError LedgerBook (List Lot) := do
  let lots := (← get).lots.get contractId
  modify fun book => book.readLots contractId
  return lots

def realizedOf (contractId : String) : EStateM RequestError LedgerBook ℚ := do
  let realized := (← get).realized.get contractId
  modify fun book => book.readRealized contractId
  return realized

def quantityOf (contractId : String) : EStateM RequestError LedgerBook ℕ := do
  return ((← lotsOf contractId).map Lot.quantity).sum

def openedSession (contractId : String) : EStateM RequestError LedgerBook ℤ := do
  match ((← lotsOf contractId).map Lot.executionSession).min? with
  | some session => return session
  | none => throw (.keyError contractId)

def averageCost (lots : List Lot) (quantity : ℕ) : Except RequestError Price :=
  let basis := (lots.map Lot.costBasis).foldl add 0
  match div? basis (quantity * (lots.head?.elim 0 Lot.multiplier : ℕ)) with
  | none => .error .divisionByZero
  | some quotient =>
    match Price.ofRat? (quantize quotient) with
    | some price => .ok price
    | none => .error (.ledger (.validation (quantize quotient)))

def position (contractId : String) : EStateM RequestError LedgerBook Position := do
  let quantity ← quantityOf contractId
  if quantity = 0 then
    throw (.keyError contractId)
  else
    let averageCost ← MonadExcept.ofExcept (averageCost (← lotsOf contractId) quantity)
    let openedSession ← openedSession contractId
    return ⟨contractId, quantity, averageCost, openedSession⟩

/-- A check of the book against the replay of its events. -/
def expect {Value : Type} [DecidableEq Value] (value expected : Value)
    (violation : LedgerViolation) : EStateM RequestError LedgerBook PUnit :=
  MonadExcept.ofExcept ((expectEqual value expected violation).mapError .ledger)

def assertConservation : EStateM RequestError LedgerBook PUnit := do
  let result ← MonadExcept.ofExcept ((replay (← get).events).mapError .ledger)
  let expectedCash := quantize ((← get).initialCash + result.cashDelta)
  let cash := (← get).cash
  expect cash expectedCash (.cashMismatch cash expectedCash)
  let totalFees := (← get).totalFees
  expect totalFees result.fees (.feeMismatch totalFees result.fees)
  result.quantities.keys.forM fun contractId => do
    expect ((← quantityOf contractId : ℕ) : ℤ) (result.quantities.get contractId)
      (.positionMismatch contractId)
  result.realized.keys.forM fun contractId => do
    expect (← realizedOf contractId) (result.realized.get contractId)
      (.realizedMismatch contractId)
  let entrySum := quantize (← get).entrySum
  expect entrySum result.cashDelta (.entryMismatch entrySum result.cashDelta)

def Access.perform : Access → EStateM RequestError LedgerBook Answer
  | .initialCash => do return .amount (← get).initialCash
  | .cash => do return .amount (← get).cash
  | .totalFees => do return .amount (← get).totalFees
  | .quantity contractId => do return .quantity (← quantityOf contractId)
  | .lots contractId => do return .lots (← lotsOf contractId)
  | .openedSession contractId => do return .session (← Ledger.openedSession contractId)
  | .position contractId => do return .position (← Ledger.position contractId)
  | .realizedPnl contractId => do return .amount (← realizedOf contractId)
  | .entries => do return .entries (← get).entries
  | .assertConservation => do
      Ledger.assertConservation
      return .done

/-- The contract whose lots a call looks up to see whether they are enough. -/
def LedgerBook.looksUp (book : LedgerBook) : Call → Option String
  | .apply fill =>
    if fill.fillId ∈ book.appliedFillIds ∨ book.Precedes fill.executionAt ∨ fill.side = .buy then
      none
    else some fill.contractId
  | .applySettlement settlement =>
    if settlement.settlementId ∈ book.appliedSettlementIds ∨ book.Precedes settlement.ts then none
    else some settlement.contractId

/-- A call, with what its checks look up. -/
def Call.request (call : Call) : EStateM RequestError LedgerBook Answer := do
  let looked := (← get).looksUp call
  modify fun book => looked.elim book book.readLots
  call.perform.adaptExcept .ledger
  return .done

def Request.perform : Request → EStateM RequestError LedgerBook Answer
  | .call made => made.request
  | .access looked => looked.perform

/-! ## Looking at a book -/

namespace LedgerBook.Same

variable {book other : LedgerBook}

theorem refl (book : LedgerBook) : book.Same book :=
  rfl

section

variable (same : book.Same other)

include same

theorem lots : book.lots.get = other.lots.get :=
  congrArg Observed.lots same

theorem realized : book.realized.get = other.realized.get :=
  congrArg Observed.realized same

theorem quantity (contractId : String) : book.quantity contractId = other.quantity contractId := by
  rw [LedgerBook.quantity, LedgerBook.quantity, same.lots]

theorem precedes (instant : ℤ) : book.Precedes instant ↔ other.Precedes instant := by
  have last : book.lastExecutionAt = other.lastExecutionAt :=
    congrArg Observed.lastExecutionAt same
  rw [Precedes, Precedes, last]

theorem checkFill (fill : Fill) : book.checkFill fill = other.checkFill fill := by
  have ids : book.appliedFillIds = other.appliedFillIds := congrArg Observed.appliedFillIds same
  have last : book.lastExecutionAt = other.lastExecutionAt :=
    congrArg Observed.lastExecutionAt same
  have number : book.entrySeq = other.entrySeq := congrArg Observed.entrySeq same
  simp only [LedgerBook.checkFill, LedgerBook.stageFillEntries, same.quantity, same.precedes, ids,
    last, number]

theorem checkSettlement (settlement : ExerciseSettlement) :
    book.checkSettlement settlement = other.checkSettlement settlement := by
  have ids : book.appliedSettlementIds = other.appliedSettlementIds :=
    congrArg Observed.appliedSettlementIds same
  have last : book.lastExecutionAt = other.lastExecutionAt :=
    congrArg Observed.lastExecutionAt same
  simp only [LedgerBook.checkSettlement, same.quantity, same.precedes, ids, last]

theorem looksUp (call : Call) : book.looksUp call = other.looksUp call := by
  have fillIds : book.appliedFillIds = other.appliedFillIds := congrArg Observed.appliedFillIds same
  have settlementIds : book.appliedSettlementIds = other.appliedSettlementIds :=
    congrArg Observed.appliedSettlementIds same
  cases call with
  | apply fill => simp only [LedgerBook.looksUp, same.precedes, fillIds]
  | applySettlement settlement => simp only [LedgerBook.looksUp, same.precedes, settlementIds]

theorem setLots (contractId : String) (lots : List Lot) :
    LedgerBook.Same { book with lots := book.lots.set contractId lots }
      { other with lots := other.lots.set contractId lots } := by
  have updated : (book.lots.set contractId lots).get = (other.lots.set contractId lots).get := by
    change Function.update book.lots.get contractId lots =
      Function.update other.lots.get contractId lots
    rw [same.lots]
  rw [Same, observed, observed, updated]
  simp only [Same, observed, Observed.mk.injEq] at same ⊢
  simp only [same, and_self]

theorem setRealized (contractId : String) (amount : ℚ) :
    LedgerBook.Same { book with realized := book.realized.set contractId amount }
      { other with realized := other.realized.set contractId amount } := by
  have updated :
      (book.realized.set contractId amount).get = (other.realized.set contractId amount).get := by
    change Function.update book.realized.get contractId amount =
      Function.update other.realized.get contractId amount
    rw [same.realized]
  rw [Same, observed, observed, updated]
  simp only [Same, observed, Observed.mk.injEq] at same ⊢
  simp only [same, and_self]

theorem addRealized (contractId : String) (gain : ℚ) :
    (book.addRealized contractId gain).Same (other.addRealized contractId gain) := by
  rw [LedgerBook.addRealized, LedgerBook.addRealized, same.realized]
  exact same.setRealized contractId _

end

/-- Looking up lots changes nothing that can be seen. -/
theorem readLots (book : LedgerBook) (contractId : String) :
    (book.readLots contractId).Same book := by
  have unchanged : (book.lots.set contractId (book.lots.get contractId)).get = book.lots.get :=
    Function.update_eq_self contractId book.lots.get
  rw [Same, observed, observed, LedgerBook.readLots, unchanged]

theorem trans {last : LedgerBook} (same : book.Same other) (further : other.Same last) :
    book.Same last :=
  Eq.trans same further

theorem symm (same : book.Same other) : other.Same book :=
  Eq.symm same

end LedgerBook.Same

/-! ## No request sees the keys -/

section Blind

open LedgerBook

variable {contractId : String}

theorem blind_lotsOf : Blind Same (lotsOf contractId) := by
  refine .get (fun book other same => by simp only [same.lots]) fun state => ?_
  refine .bind (.modify ?_) fun _ => .pure _
  intro book other same
  exact (Same.readLots book contractId).trans (same.trans (Same.readLots other contractId).symm)

theorem blind_realizedOf : Blind Same (realizedOf contractId) := by
  refine .get (fun book other same => by simp only [same.realized]) fun state => ?_
  refine .bind (.modify ?_) fun _ => .pure _
  intro book other same
  rw [readRealized, readRealized, same.realized]
  exact same.setRealized contractId _

theorem blind_quantityOf : Blind Same (quantityOf contractId) :=
  blind_lotsOf.bind fun _ => .pure _

theorem blind_openedSession : Blind Same (openedSession contractId) := by
  refine blind_lotsOf.bind fun lots => ?_
  split
  case h_1 session found => exact .pure session
  case h_2 => exact .throw _

theorem blind_position : Blind Same (position contractId) := by
  refine blind_quantityOf.bind fun quantity => .ite (fun _ => .throw _) fun _ => ?_
  refine blind_lotsOf.bind fun lots => (Blind.ofExcept _).bind fun cost => ?_
  exact blind_openedSession.bind fun session => .pure _

theorem blind_expect {Value : Type} [DecidableEq Value] (value expected : Value)
    (violation : LedgerViolation) : Blind Same (expect value expected violation) :=
  .ofExcept _

theorem blind_assertConservation : Blind Same assertConservation := by
  refine .get (fun book other same => ?_) fun state => ?_
  · rw [show book.events = other.events from congrArg Observed.events same]
  refine (Blind.ofExcept _).bind fun result => ?_
  refine .get (fun book other same => ?_) fun state => ?_
  · rw [show book.initialCash = other.initialCash from congrArg Observed.initialCash same]
  refine .get (fun book other same => ?_) fun state => ?_
  · rw [show book.cash = other.cash from congrArg Observed.cash same]
  refine (blind_expect _ _ _).bind fun _ => ?_
  refine .get (fun book other same => ?_) fun state => ?_
  · rw [show book.totalFees = other.totalFees from congrArg Observed.totalFees same]
  refine (blind_expect _ _ _).bind fun _ => ?_
  refine (Blind.forM fun contractId => blind_quantityOf.bind fun _ => blind_expect _ _ _).bind
    fun _ => ?_
  refine (Blind.forM fun contractId => blind_realizedOf.bind fun _ => blind_expect _ _ _).bind
    fun _ => ?_
  refine .get (fun book other same => ?_) fun state => blind_expect _ _ _
  rw [entrySum, entrySum, show book.entries = other.entries from congrArg Observed.entries same]

theorem blind_closeLots {quantity : ℕ} : Blind Same (closeLots contractId quantity) := by
  refine .get (fun book other same => by simp only [same.lots]) fun state => ?_
  refine .bind (.modify fun book other same => same.setLots contractId _) fun _ => ?_
  exact .ite (fun _ => .pure _) fun _ => .throw _

theorem blind_applyFillLots (fill : Fill) : Blind Same (applyFillLots fill) := by
  rw [applyFillLots]
  split
  case h_1 =>
    refine .modify fun book other same => ?_
    rw [same.lots]
    exact same.setLots fill.contractId _
  case h_2 =>
    refine blind_closeLots.bind fun costRemoved => ?_
    exact .modify fun book other same => Same.addRealized same _ _

theorem blind_apply (fill : Fill) : Blind Same (Ledger.apply fill) := by
  refine .get (fun book other same => by simp only [same.checkFill]) fun state => ?_
  refine (Blind.ofExcept _).bind fun staged => .bind ?_ fun _ => .modify ?_
  · refine (blind_applyFillLots fill).bind fun _ => .modify fun book other same => ?_
    simp only [Same, observed, Observed.mk.injEq] at same ⊢
    simp only [same, and_self]
  · intro book other same
    simp only [Same, observed, Observed.mk.injEq] at same ⊢
    simp only [same, and_self]

theorem blind_applySettlement (settlement : ExerciseSettlement) :
    Blind Same (Ledger.applySettlement settlement) := by
  refine .get (fun book other same => by simp only [same.checkSettlement]) fun state => ?_
  refine (Blind.ofExcept _).bind fun _ => .bind (.modify ?_) fun _ => ?_
  · intro book other same
    simp only [Same, observed, Observed.mk.injEq] at same ⊢
    simp only [same, and_self]
  refine blind_closeLots.bind fun costRemoved => .bind (.modify ?_) fun _ => .modify ?_
  · intro book other same
    exact Same.addRealized same _ _
  · intro book other same
    simp only [Same, observed, Observed.mk.injEq] at same ⊢
    simp only [same, and_self]

theorem blind_call (call : Call) : Blind Same call.request := by
  refine .get (fun book other same => by simp only [same.looksUp]) fun state => ?_
  refine .bind (.modify fun book other same => ?_) fun _ => .bind (.adaptExcept _ ?_) fun _ => .pure _
  · cases state.looksUp call with
    | none => exact same
    | some contractId =>
      exact (Same.readLots book contractId).trans
        (same.trans (Same.readLots other contractId).symm)
  · cases call with
    | apply fill => exact blind_apply fill
    | applySettlement settlement => exact blind_applySettlement settlement

theorem blind_access (access : Access) : Blind Same access.perform := by
  cases access with
  | initialCash =>
    refine .get (fun book other same => ?_) fun _ => .pure _
    rw [show book.initialCash = other.initialCash from congrArg Observed.initialCash same]
  | cash =>
    refine .get (fun book other same => ?_) fun _ => .pure _
    rw [show book.cash = other.cash from congrArg Observed.cash same]
  | totalFees =>
    refine .get (fun book other same => ?_) fun _ => .pure _
    rw [show book.totalFees = other.totalFees from congrArg Observed.totalFees same]
  | quantity contractId => exact blind_quantityOf.bind fun _ => .pure _
  | lots contractId => exact blind_lotsOf.bind fun _ => .pure _
  | openedSession contractId => exact blind_openedSession.bind fun _ => .pure _
  | position contractId => exact blind_position.bind fun _ => .pure _
  | realizedPnl contractId => exact blind_realizedOf.bind fun _ => .pure _
  | entries =>
    refine .get (fun book other same => ?_) fun _ => .pure _
    rw [show book.entries = other.entries from congrArg Observed.entries same]
  | assertConservation => exact blind_assertConservation.bind fun _ => .pure _

/-- **No request sees which keys there are.** -/
theorem blind_perform (request : Request) : Blind Same request.perform := by
  cases request with
  | call made => exact blind_call made
  | access looked => exact blind_access looked

end Blind

/-! ## Calls that are rejected -/

theorem walkLots_remaining {lots : List Lot} {remaining : ℕ}
    (held : remaining ≤ (lots.map Lot.quantity).sum) (costRemoved : ℚ) :
    (walkLots lots remaining costRemoved).2.2 = 0 := by
  induction lots generalizing remaining costRemoved with
  | nil =>
    obtain rfl := Nat.le_zero.mp held
    rw [walkLots]
  | cons head rest ih =>
    cases remaining with
    | zero => rw [walkLots]
    | succ remaining =>
      rw [List.map_cons, List.sum_cons] at held
      rw [walkLots]
      dsimp only
      split
      case isTrue => exact ih (by omega) _
      case isFalse outlasts =>
        dsimp only
        omega

theorem closeLots_ok {book : LedgerBook} {contractId : String} {quantity : ℕ}
    (held : quantity ≤ book.quantity contractId) :
    ∃ costRemoved closed, (closeLots contractId quantity).run book = .ok costRemoved closed := by
  have nothing := walkLots_remaining held 0
  simp only [closeLots, EStateM.run_bind, EStateM.run_get, EStateM.run_modify, nothing, if_true]
  exact ⟨_, _, rfl⟩

/-- **A call raises an error before it changes anything, or not at all.** -/
theorem of_perform_error {book next : LedgerBook} {call : Call} {error : LedgerError}
    (rejected : call.perform.run book = .error error next) : next = book := by
  cases call with
  | apply fill =>
    change (Ledger.apply fill).run book = .error error next at rejected
    cases checked : book.checkFill fill with
    | error refused =>
      rw [Ledger.apply, EStateM.run_bind, EStateM.run_get] at rejected
      dsimp only at rejected
      rw [EStateM.run_bind, run_ofExcept_error checked] at rejected
      cases rejected
      rfl
    | ok staged =>
      obtain ⟨-, -, held, -⟩ := LedgerBook.checkFill_ok checked
      obtain ⟨lotted, ran⟩ : ∃ lotted, (applyFillLots fill).run book = .ok () lotted := by
        cases side : fill.side with
        | buy =>
          rw [applyFillLots, side]
          exact ⟨_, rfl⟩
        | sell =>
          obtain ⟨costRemoved, closed, ran⟩ := closeLots_ok (held side)
          simp only [applyFillLots, side, EStateM.run_bind, ran, EStateM.run_modify]
          exact ⟨_, rfl⟩
      simp only [Ledger.apply, applyFillArithmetic, EStateM.run_bind, EStateM.run_get,
        run_ofExcept_ok checked, ran, EStateM.run_modify] at rejected
      cases rejected
  | applySettlement settlement =>
    change (Ledger.applySettlement settlement).run book = .error error next at rejected
    cases checked : book.checkSettlement settlement with
    | error refused =>
      rw [Ledger.applySettlement, EStateM.run_bind, EStateM.run_get] at rejected
      dsimp only at rejected
      rw [EStateM.run_bind, run_ofExcept_error checked] at rejected
      cases rejected
      rfl
    | ok =>
      obtain ⟨-, -, held⟩ := LedgerBook.checkSettlement_ok checked
      let noted : LedgerBook := { book with
        lastExecutionAt := some settlement.ts
        events := book.events ++ [.settlement settlement] }
      obtain ⟨costRemoved, closed, ran⟩ := @closeLots_ok noted _ _ held
      simp only [Ledger.applySettlement, EStateM.run_bind, EStateM.run_get,
        run_ofExcept_ok checked, EStateM.run_modify] at rejected
      rw [ran] at rejected
      cases rejected

/-- **A call that is rejected leaves a book that looks the same.** -/
theorem same_of_rejected {book next : LedgerBook} {call : Call} {error : RequestError}
    (rejected : call.request.run book = .error error next) : next.Same book := by
  simp only [Call.request, EStateM.run_bind, EStateM.run_get, EStateM.run_modify] at rejected
  have looked : ((book.looksUp call).elim book book.readLots).Same book := by
    cases book.looksUp call with
    | none => exact .refl book
    | some contractId => exact .readLots book contractId
  cases ran : call.perform.run ((book.looksUp call).elim book book.readLots) with
  | ok value after =>
    simp only [EStateM.run, EStateM.adaptExcept] at ran rejected
    rw [ran] at rejected
    cases rejected
  | error refused after =>
    simp only [EStateM.run, EStateM.adaptExcept] at rejected
    rw [show call.perform _ = _ from ran] at rejected
    cases rejected
    rw [of_perform_error ran]
    exact looked

/-- **A rejected call changes nothing that can be seen,** and whatever is asked of the book later
is answered as if the call had never been made. -/
theorem rejections_are_atomic {book next : LedgerBook} {call : Call} {error : RequestError}
    (rejected : (Request.call call).perform.run book = .error error next) :
    next.observed = book.observed ∧ ∀ later : List Request,
      answers Request.perform next later = answers Request.perform book later ∧
        (afterRequests Request.perform next later).observed =
          (afterRequests Request.perform book later).observed := by
  have same := same_of_rejected rejected
  exact ⟨same, fun later => Blind.answers_eq blind_perform same later⟩

theorem cent_positive : (0 : ℚ) < 1 / 100 := by
  norm_num

theorem cent_whole : (1 / 100 : ℚ) ∈ cents :=
  mem_cents_iff.mpr ⟨1, by norm_num⟩

theorem cent_small : (1 / 100 : ℚ) < 10 ^ 10 := by
  norm_num

theorem single_positive : 1 ≤ 1 :=
  le_rfl

theorem noFees_whole : (0 : ℚ) ∈ cents :=
  zero_mem _

theorem noFees_small : |(0 : ℚ)| < 10 ^ 10 := by
  norm_num

theorem noFees_nonneg : (0 : ℚ) ≤ 0 :=
  le_rfl

/-- A sale of one share at a cent. -/
def sampleSale : Fill where
  fillId := "F"
  orderId := "O"
  contractId := "A"
  side := .sell
  quantity := 1
  quantity_pos := single_positive
  price := ⟨1 / 100, cent_positive, cent_whole, cent_small⟩
  multiplier := 1
  multiplier_pos := single_positive
  fees := ⟨0, noFees_whole, noFees_small⟩
  fees_nonneg := noFees_nonneg
  executionAt := 0
  executionSession := 0

theorem rejections_are_atomic_sample :
    ∃ next, (Request.call (.apply sampleSale)).perform.run (.new 100) =
        .error (.ledger (.violation (.positionUnderflow "A"))) next ∧
      next.observed = (LedgerBook.new 100).observed := by
  have rejected : (Request.call (.apply sampleSale)).perform.run (.new 100) =
      .error (.ledger (.violation (.positionUnderflow "A"))) ((LedgerBook.new 100).readLots "A") :=
    rfl
  exact ⟨_, rejected, (rejections_are_atomic rejected).1⟩

end TreeOptions.Ledger
