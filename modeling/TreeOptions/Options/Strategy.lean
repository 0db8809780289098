import TreeOptions.Options.Records

/-!
# The options strategy

The top fifth of the scored underlyings buys calls and the bottom fifth puts. A name is resolved to
one contract: the live expiry nearest to the target, then the strike whose delta is nearest to its
target, then the candidate filter. What is affordable is planned from the ask of the visible file,
with fees.

Everything is decided on what the surface shows at the close of the decision session, and on the
actions announced by then. Corporate actions keep a name out, cancel an order before it is executed,
or tell an election of the dividend to come.
-/

set_option autoImplicit false

namespace TreeOptions.Options

open Backtest Checked Decimal Ledger

/-! ## Corporate actions -/

inductive ActionClass where
  | ratio
  | terminal
  | cashDividend
  | inert
  deriving DecidableEq

def classifyAction : ActionKind → ActionClass
  | .split | .reverseSplit | .stockDividend => .ratio
  | .delisting | .merger => .terminal
  | .cashDividend => .cashDividend
  | .spinoff | .symbolChange => .inert

/-- An action that is announced by an instant and takes effect after its date, or on it when it
changes the ratio. -/
def IsPendingAt (underlyingId : String) (decisionAt : ℤ) (action : PublishedAction) : Prop :=
  action.securityId = underlyingId ∧ action.availableAt ≤ decisionAt ∧
    (dateOf decisionAt < action.effectiveSession ∨
      classifyAction action.kind = .ratio ∧ action.effectiveSession = dateOf decisionAt)

instance (underlyingId : String) (decisionAt : ℤ) (action : PublishedAction) :
    Decidable (IsPendingAt underlyingId decisionAt action) :=
  inferInstanceAs (Decidable (_ ∧ _ ∧ (_ ∨ _ ∧ _)))

def pendingActionAt (actions : List PublishedAction) (underlyingId : String) (decisionAt : ℤ) :
    Option PublishedAction :=
  actions.find? fun action => IsPendingAt underlyingId decisionAt action

/-- A cash dividend that is announced and takes effect in a span of sessions. -/
def IsDividendIn (underlyingId : String) (visibleBy effectiveAfter effectiveThrough : ℤ)
    (action : PublishedAction) : Prop :=
  action.securityId = underlyingId ∧ action.kind = .cashDividend ∧
    action.availableAt ≤ visibleBy ∧ effectiveAfter < action.effectiveSession ∧
    action.effectiveSession ≤ effectiveThrough

instance (underlyingId : String) (visibleBy effectiveAfter effectiveThrough : ℤ)
    (action : PublishedAction) :
    Decidable (IsDividendIn underlyingId visibleBy effectiveAfter effectiveThrough action) :=
  inferInstanceAs (Decidable (_ ∧ _ ∧ _ ∧ _ ∧ _))

/-- The dividend that takes effect first. -/
def pendingDividendPerShare (actions : List PublishedAction) (underlyingId : String)
    (visibleBy effectiveAfter effectiveThrough : ℤ) : Option ℚ :=
  (leastBy (fun action => action.effectiveSession) (actions.filter fun action =>
    IsDividendIn underlyingId visibleBy effectiveAfter effectiveThrough action)).bind
      fun action => action.cashAmount.map Money.value

/-! ## Elections -/

structure ExerciseElectionInputs where
  exerciseStyle : ExerciseStyle
  callPut : CallPut
  expirationSeen : Bool
  midPremium : ℚ
  bid : ℚ
  intrinsic : ℚ
  pendingDividendPerShare : Option ℚ

def exerciseDiscount : ℚ :=
  98 / 100

def shouldElectExercise (inputs : ExerciseElectionInputs) : Bool :=
  if inputs.exerciseStyle ≠ .american then false
  else if inputs.expirationSeen = false then false
  else
    let timeValue := max (sub inputs.midPremium inputs.intrinsic) 0
    let dividendDominates := inputs.callPut = .call ∧
      inputs.pendingDividendPerShare.any fun dividend => decide (timeValue ≤ dividend)
    let marketUnderpays := 0 < inputs.intrinsic ∧
      inputs.bid < mul inputs.intrinsic exerciseDiscount
    decide (dividendDominates ∨ marketUnderpays)

/-! ## Orders -/

theorem buysToOpen :
    (Guards.Side.buy = .buy ∧ Guards.Intent.openLong = .openLong) ∨
      (Guards.Side.buy = .sell ∧ Guards.Intent.openLong = .closeLong) :=
  .inl ⟨rfl, rfl⟩

theorem sellsToClose :
    (Guards.Side.sell = .buy ∧ Guards.Intent.closeLong = .openLong) ∨
      (Guards.Side.sell = .sell ∧ Guards.Intent.closeLong = .closeLong) :=
  .inr ⟨rfl, rfl⟩

theorem market_unpriced : Guards.OrderType.market = .limit ↔ (none : Option ℚ).isSome := by
  simp

/-- An order to buy to open. -/
def openLong (orderId contractId : String) (quantity : ℤ) (budgetNotional : Option ℚ)
    (decisionAt decisionSession : ℤ) : Except StrategyError Guards.Order :=
  if quantity_pos : 1 ≤ quantity then
    .ok {
      orderId, contractId
      side := .buy
      intent := .openLong
      quantity
      orderType := .market
      limitPrice := none
      budgetNotional, decisionAt, decisionSession, quantity_pos
      permitted := buysToOpen
      limitPriced := market_unpriced }
  else .error (.validation "quantity")

/-- An order to sell to close. -/
def closeLong (orderId contractId : String) (quantity : ℤ) (decisionAt decisionSession : ℤ) :
    Except StrategyError Guards.Order :=
  if quantity_pos : 1 ≤ quantity then
    .ok {
      orderId, contractId
      side := .sell
      intent := .closeLong
      quantity
      orderType := .market
      limitPrice := none
      budgetNotional := none
      decisionAt, decisionSession, quantity_pos
      permitted := sellsToClose
      limitPriced := market_unpriced }
  else .error (.validation "quantity")

/-- The same order for another quantity. -/
def withQuantity (order : Guards.Order) (quantity : ℕ) (quantity_pos : 1 ≤ quantity) :
    Guards.Order :=
  { order with quantity, quantity_pos := by omega }

/-! ## Candidates -/

structure OptionCandidate where
  signal : OptionSignal
  contract : OptionContract
  expiration : ℤ
  strike : ℚ
  absDelta : ℚ
  ask : ℚ

structure CandidateAudit where
  scoredCrossSection : ℕ
  selected : ℕ
  excludedPendingAction : ℕ
  noInBandExpiry : ℕ
  noInBandStrike : ℕ
  nonMonotoneLadder : ℕ
  filterNotEvaluable : ℕ
  filterFail : ℕ
  noVisibleQuote : ℕ
  accepted : ℕ
  ruleHistogram : DefaultDict (String × RuleStatus) 0

def CandidateAudit.empty : CandidateAudit :=
  ⟨0, 0, 0, 0, 0, 0, 0, 0, 0, 0, .empty⟩

def CandidateAudit.tally (audit : CandidateAudit) (result : RuleResult) : CandidateAudit :=
  { audit with
    ruleHistogram := audit.ruleHistogram.set (result.rule, result.status)
      (audit.ruleHistogram.get (result.rule, result.status) + 1) }

/-- Top and bottom fifths of the cross-section. -/
def quintileCut (rows : List OptionSignal) : List OptionSignal × List OptionSignal :=
  if rows.length < 2 then (rows, [])
  else
    let count := max 1 ((rows.length + 4) / 5)
    let ranked := sortedBy (fun row => toLex (-scoreValue row.score, row.securityId.toList)) rows
    (ranked.take count, ranked.drop (ranked.length - count))

section Candidates

variable {Snapshot : Type} (surface : OptionSurface Snapshot) (config : OptionsStrategyConfig)

/-- The live expiry nearest to the target, within the band. -/
def pickExpiry (underlyingId : String) (decisionSession decisionAt : ℤ) : Option ℤ :=
  leastBy
    (fun expiration => toLex (|expiration - decisionSession - config.targetDte|, expiration))
    ((surface.liveExpiriesAsOf underlyingId decisionAt).filter fun expiration =>
      config.dteMin ≤ expiration - decisionSession ∧
        expiration - decisionSession ≤ config.dteMax)

/-- What became of the choice of a strike. -/
inductive Picked where
  | nonMonotoneLadder
  | outOfBand
  | strike (strike absDelta : ℚ)

/-- A delta that the ladder so far does not allow. -/
def Inverts (callPut : CallPut) (previous : Option ℚ) (delta : ℚ) : Prop :=
  ∃ before ∈ previous,
    match callPut with
    | .call => before < delta
    | .put => delta < before

instance (callPut : CallPut) (previous : Option ℚ) (delta : ℚ) :
    Decidable (Inverts callPut previous delta) := by
  unfold Inverts
  cases callPut <;> infer_instance

/-- Read the deltas of the strikes that quoted, up the ladder. Nothing comes of a ladder that is not
monotone. -/
def probeLadder (underlyingId : String) (decisionAt expiration : ℤ) (callPut : CallPut) :
    List ℚ → Option ℚ → Except StrategyError (Option (List (ℚ × ℚ)))
  | [], _ => .ok (some [])
  | strike :: ladder, previous => do
      let entry ← surface.entryAsOf underlyingId decisionAt
        (contractIdOf underlyingId expiration callPut strike)
      match entry with
      | none => probeLadder underlyingId decisionAt expiration callPut ladder previous
      | some entry =>
        if Inverts callPut previous entry.absDelta then return none
        else
          let rest ← probeLadder underlyingId decisionAt expiration callPut ladder
            (some entry.absDelta)
          return rest.map fun probed => (strike, entry.absDelta) :: probed

/-- The strike whose delta is nearest to the target, within the band. -/
def pickStrike (underlyingId : String) (decisionAt expiration : ℤ) (callPut : CallPut) :
    Except StrategyError Picked := do
  let ladder ← surface.strikeLadder underlyingId expiration
  let probed ← probeLadder surface underlyingId decisionAt expiration callPut ladder none
  return match probed with
    | none => .nonMonotoneLadder
    | some probed =>
      match leastBy (fun pair => toLex (|sub pair.2 config.targetAbsDelta|, pair.1))
        (probed.filter fun pair =>
          config.absDeltaMin ≤ pair.2 ∧ pair.2 ≤ config.absDeltaMax) with
      | none => .outOfBand
      | some pair => .strike pair.1 pair.2

variable (candidateFilter : Snapshot → CandidateDecision)

/-- The candidates so far, and what was counted of them. -/
abbrev Progress :=
  CandidateAudit × List OptionCandidate

/-- Put a contract before the filter. -/
def assess (decisionSession decisionAt : ℤ) (signal : OptionSignal) (callPut : CallPut)
    (expiration : ℤ) (strike absDelta : ℚ) (progress : Progress) :
    Except StrategyError Progress := do
  let contract ← surface.contract (contractIdOf signal.securityId expiration callPut strike)
  let snapshot ← surface.candidateSnapshot contract decisionSession
  let decision := candidateFilter snapshot
  let audit := decision.results.foldl CandidateAudit.tally progress.1
  if decision.accepted = false then
    if decision.results.any fun result => result.status = .notEvaluable then
      return ({ audit with filterNotEvaluable := audit.filterNotEvaluable + 1 }, progress.2)
    else return ({ audit with filterFail := audit.filterFail + 1 }, progress.2)
  else
    let entry ← surface.entryAsOf signal.securityId decisionAt contract.contractId
    match entry with
    | none => return ({ audit with noVisibleQuote := audit.noVisibleQuote + 1 }, progress.2)
    | some entry =>
      if entry.ask ≤ 0 then return (audit, progress.2)
      else
        return ({ audit with accepted := audit.accepted + 1 },
          progress.2 ++
            [{ signal, contract, expiration, strike, absDelta, ask := entry.ask }])

/-- Resolve one selected name. -/
def consider (actions : List PublishedAction) (decisionSession decisionAt : ℤ)
    (progress : Progress) (selected : OptionSignal × CallPut) : Except StrategyError Progress :=
  let underlyingId := selected.1.securityId
  let audit := progress.1
  if (pendingActionAt actions underlyingId decisionAt).isSome then
    .ok ({ audit with excludedPendingAction := audit.excludedPendingAction + 1 }, progress.2)
  else
    match pickExpiry surface config underlyingId decisionSession decisionAt with
    | none => .ok ({ audit with noInBandExpiry := audit.noInBandExpiry + 1 }, progress.2)
    | some expiration => do
        let picked ← pickStrike surface config underlyingId decisionAt expiration selected.2
        match picked with
        | .nonMonotoneLadder =>
          return ({ audit with nonMonotoneLadder := audit.nonMonotoneLadder + 1 }, progress.2)
        | .outOfBand =>
          return ({ audit with noInBandStrike := audit.noInBandStrike + 1 }, progress.2)
        | .strike strike absDelta =>
          assess surface candidateFilter decisionSession decisionAt selected.1 selected.2
            expiration strike absDelta progress

def buildCandidates (decisionSession : ℤ) (scores : List OptionSignal)
    (actions : List PublishedAction) (audit : CandidateAudit) : Except StrategyError Progress := do
  let decisionAt ← surface.decisionClose decisionSession
  let eligible := surface.eligibleAsOf decisionSession
  let crossSection := scores.filter fun row =>
    row.decisionSession = decisionSession ∧ row.securityId ∈ eligible ∧ row.score.isFinite
  let cut := quintileCut crossSection
  let selected := (cut.1.map fun row => (row, CallPut.call)) ++
    cut.2.map fun row => (row, CallPut.put)
  selected.foldlM (consider surface config candidateFilter actions decisionSession decisionAt)
    ({ audit with
      scoredCrossSection := audit.scoredCrossSection + crossSection.length
      selected := audit.selected + selected.length }, [])

end Candidates

/-! ## Affordable contracts -/

/-- Fees of an order, as the backtest asks for them. -/
def feesOf (model : PerContractFeeModel) (quantity : ℕ) : Except StrategyError ℚ :=
  (model.orderFees quantity).mapError StrategyError.engine

/-- Lower an estimate until the price and the fees fit the budget. -/
def lowerEstimate (model : PerContractFeeModel) (budget perContract : ℚ) :
    ℕ → Except StrategyError ℕ
  | 0 => .ok 0
  | smaller + 1 => do
      let fees ← feesOf model (smaller + 1)
      if budget < add (mul perContract (smaller + 1 : ℕ)) fees then
        lowerEstimate model budget perContract smaller
      else return smaller + 1

/-- The whole contracts that a budget affords, with fees, up to a cap. -/
def affordableContracts (model : PerContractFeeModel) (budget ask : ℚ) (multiplier : ℤ)
    (cap : ℕ) : Except StrategyError ℕ :=
  if budget ≤ 0 ∨ ask ≤ 0 ∨ cap < 1 then .ok 0
  else do
    let estimate ← orRaise .divisionByZero (div? budget (add (mul ask multiplier) (65 / 100)))
    lowerEstimate model budget (mul ask multiplier) (min cap ⌊estimate⌋.toNat)

/-! ## Planning -/

/-- Rounding to cents in the default direction. -/
def roundCents (amount : ℚ) : Except StrategyError ℚ :=
  orRaise .invalidOperation (quantizeCents roundHalfEven amount)

def planOrder (calendar : MarketCalendar) (config : OptionsStrategyConfig)
    (model : PerContractFeeModel) (perCandidate : ℚ) (orders : List Guards.Order)
    (numbered : OptionCandidate × ℕ) : Except StrategyError (List Guards.Order) := do
  let candidate := numbered.1
  let quantity ← affordableContracts model perCandidate candidate.ask
    candidate.contract.multiplier config.maxContractsPerCandidate
  if quantity < 1 then return orders
  else
    let decision := candidate.signal.decisionSession
    let decisionAt ← calendar.closeOf decision
    let order ← openLong ("OPT-B" ++ longDate decision ++ "-" ++ digits 4 numbered.2)
      candidate.contract.contractId quantity (some perCandidate) decisionAt decision
    return orders ++ [order]

/-- Spread a part of the cash over the candidates. -/
def planOrders (calendar : MarketCalendar) (candidates : List OptionCandidate) (cash : ℚ)
    (config : OptionsStrategyConfig) (model : PerContractFeeModel) :
    Except StrategyError (List Guards.Order) :=
  if candidates = [] then .ok []
  else do
    refuse ((candidates.map fun candidate => candidate.signal.decisionSession).dedup.length ≠ 1)
      .decisionSessionsDiffer
    let sessionBudget ← roundCents (mul config.premiumBudgetFraction cash)
    let share ← orRaise .divisionByZero (div? sessionBudget candidates.length)
    let perCandidate ← roundCents share
    ((sortedBy (fun candidate => candidate.contract.contractId.toList) candidates).zipIdx 1).foldlM
      (planOrder calendar config model perCandidate) []

/-- The session at whose close the exit of an entry is decided. -/
def exitDecisionSession (calendar : MarketCalendar) (entrySession : ℤ)
    (config : OptionsStrategyConfig) : Except StrategyError ℤ :=
  calendar.nthAfter entrySession (config.exitSessionsAfterEntry - 1)

/-- The orders whose underlying had an action announced after the decision. -/
def cancellationsAtExecution (orders : List Guards.Order) (actions : List PublishedAction)
    (executionAt : ℤ) (contractUnderlying : String → Option String)
    (config : OptionsStrategyConfig) : List Guards.Order :=
  if config.allowCancellation = false then []
  else
    orders.filter fun order =>
      (contractUnderlying order.contractId).any fun underlyingId =>
        actions.any fun action => action.securityId = underlyingId ∧
          order.decisionAt < action.availableAt ∧ action.availableAt ≤ executionAt

end TreeOptions.Options
