import TreeOptions.Foundations.DecimalDigits
import TreeOptions.Research.FundedReplay

/-!
# A funded account does not borrow

The cash of the account is what was traded and what flowed. A withdrawal and a purchase are refused
when they would overdraw it. A sale is not: it earns its proceeds and pays its fees, and fees that
are given with the execution may be more than both. So the cash stays at zero or above after every
flow and execution just where every sale is covered (`never_borrows_iff`).

The identities of the rows hold for amounts in whole cents that have their digits in the context.
-/

set_option autoImplicit false

namespace TreeOptions.Research

open Backtest Checked Decimal Ledger

/-! ## What is replayed -/

/-- What a run is given. -/
structure FundedInput where
  candidateId : String
  startingCapital : ℚ
  calendar : List ℤ
  evidence : Evidence
  feeModel : Option FeeModel

inductive CashEvent where
  | flow (amount : ℚ)
  | execution (execution : TradeExecution)

namespace FundedInput

variable (input : FundedInput)

def run : Except FundedError FundedRun :=
  runFundedAccount input.candidateId input.startingCapital input.calendar input.evidence
    input.feeModel

/-- What applies on a session of the calendar. -/
def events (session : ℤ) : SessionEvents :=
  match (declaredSessions input.calendar).head?, (declaredSessions input.calendar).getLast? with
  | some first, some last =>
    eventsBySession (declaredSessions input.calendar) first last input.evidence session
  | _, _ => ⟨[], [], []⟩

/-- The flows of a session, and then its executions. -/
def cashEvents (session : ℤ) : List CashEvent :=
  (input.events session).flows.map .flow ++ (input.events session).executions.map .execution

def applyCashEvent (session : ℤ) (state : FundedState) : CashEvent → Except Stop FundedState
  | .flow amount => applyFlow session state amount
  | .execution execution =>
    applyExecution input.candidateId input.feeModel session state execution

/-- The replay of some sessions from the start. -/
def replay (sessions : List ℤ) : Except Stop (FundedState × List FundedRow) :=
  runSessions
    (replaySession input.candidateId input.feeModel input.startingCapital input.events) sessions
    (.start (.new input.startingCapital))

/-- A state of a run: the sessions before one were replayed, and some of its flows and executions
were applied. -/
structure Reached (before : List ℤ) (session : ℤ) (done rest : List CashEvent)
    (state : FundedState) : Prop where
  sessions : ∃ after, declaredSessions input.calendar = before ++ session :: after
  events : input.cashEvents session = done ++ rest
  ran : ∃ start rows, input.replay before = .ok (start, rows) ∧
    done.foldlM (input.applyCashEvent session) start = .ok state

/-- The marks of some sessions, in the order in which they are applied. -/
def marksOf (sessions : List ℤ) : List MarkObservation :=
  sessions.flatMap fun session => (input.events session).marks

end FundedInput

/-- The last mark of a symbol. -/
def latestMark (marks : List MarkObservation) (symbol : String) : Option ℚ :=
  (marks.reverse.find? fun mark => mark.symbol = symbol).map MarkObservation.price

/-- The last mark of a symbol up to a session. -/
def FundedInput.lastMark (input : FundedInput) (session : ℤ) : String → Option ℚ :=
  latestMark (input.marksOf
    ((declaredSessions input.calendar).filter fun date => date ≤ session))

/-! ## What is claimed of a run -/

/-- The cash of the account, as it is: what was traded and what flowed. -/
def accountCash (state : FundedState) : ℚ :=
  state.book.cash + state.contributionsCum - state.withdrawalsCum

/-- What holdings are worth at their marks. -/
def worth (mark : String → Option ℚ) : List (String × ℕ) → ℚ
  | [] => 0
  | holding :: rest => (mark holding.1).getD 0 * holding.2 + worth mark rest

/-- The fees of a sale are covered by the cash of the account and the proceeds. -/
def SaleCovered (feeModel : Option FeeModel) (state : FundedState) (execution : TradeExecution) :
    Prop :=
  execution.signedQuantity < 0 →
    ∀ fees, executionFees feeModel execution execution.signedQuantity.natAbs = .ok fees →
      fees ≤ accountCash state + execution.price * execution.signedQuantity.natAbs

structure WholeCents (input : FundedInput) : Prop where
  capital : input.startingCapital ∈ cents
  flows : ∀ flow ∈ input.evidence.cashflows, flow.amount ∈ cents
  marks : ∀ mark ∈ input.evidence.marks, mark.price ∈ cents ∧ 0 ≤ mark.price

/-- Cents of the amounts of a state have their digits in the context, and to spare. -/
structure InDigits (state : FundedState) : Prop where
  cash : |state.book.cash| < 10 ^ 25
  contributions : state.contributionsCum < 10 ^ 25
  withdrawals : state.withdrawalsCum < 10 ^ 25

instance (state : FundedState) : Decidable (InDigits state) :=
  decidable_of_iff (|state.book.cash| < 10 ^ 25 ∧ state.contributionsCum < 10 ^ 25 ∧
      state.withdrawalsCum < 10 ^ 25)
    ⟨fun digits => ⟨digits.1, digits.2.1, digits.2.2⟩,
      fun digits => ⟨digits.cash, digits.contributions, digits.withdrawals⟩⟩

/-! ## The states of a run -/

section States

variable {input : FundedInput} {before : List ℤ} {session : ℤ} {done rest : List CashEvent}
  {state next : FundedState}

theorem FundedInput.Reached.step {event : CashEvent}
    (reached : input.Reached before session done (event :: rest) state)
    (applied : input.applyCashEvent session state event = .ok next) :
    input.Reached before session (done ++ [event]) rest next := by
  obtain ⟨start, rows, ran, ranDone⟩ := reached.ran
  refine ⟨reached.sessions, ?_, start, rows, ran, ?_⟩
  · rw [reached.events, List.append_assoc]
    rfl
  · rw [List.foldlM_append]
    exact bind_eq_ok.mpr ⟨state, ranDone, bind_eq_ok.mpr ⟨next, applied, rfl⟩⟩

theorem FundedInput.foldlM_cashEvents {flowed traded : FundedState}
    (isFlowed : (input.events session).flows.foldlM (applyFlow session) state = .ok flowed)
    (isTraded : (input.events session).executions.foldlM
      (applyExecution input.candidateId input.feeModel session) flowed = .ok traded) :
    (input.cashEvents session).foldlM (input.applyCashEvent session) state = .ok traded := by
  rw [cashEvents, List.foldlM_append, List.foldlM_map]
  refine bind_eq_ok.mpr ⟨flowed, isFlowed, ?_⟩
  rw [List.foldlM_map]
  exact isTraded

theorem foldl_applyMark {holds : FundedState → Prop}
    (mark : ∀ state mark, holds state → holds (applyMark state mark))
    {marks : List MarkObservation} {state : FundedState} (before : holds state) :
    holds (marks.foldl applyMark state) := by
  induction marks generalizing state with
  | nil => exact before
  | cons first rest ih => exact ih (mark state first before)

/-- **What holds at the start of a run and is kept by each flow, each execution and each mark holds
of every state that is reached.** The induction is on the sessions before it, and then on the
events of its own session. -/
theorem FundedInput.Reached.induction (holds : FundedState → Prop)
    (start : holds (.start (.new input.startingCapital)))
    (event : ∀ before session done event rest state next,
      input.Reached before session done (event :: rest) state → holds state →
        input.applyCashEvent session state event = .ok next → holds next)
    (mark : ∀ state mark, holds state → holds (applyMark state mark))
    (reached : input.Reached before session done rest state) : holds state := by
  have within : ∀ {before session start rows},
      (∃ after, declaredSessions input.calendar = before ++ session :: after) →
      input.replay before = .ok (start, rows) → holds start →
      ∀ {done rest state}, input.cashEvents session = done ++ rest →
        done.foldlM (input.applyCashEvent session) start = .ok state → holds state := by
    intro before session start rows sessions ran holdsStart done
    induction done using List.reverseRecOn with
    | nil =>
      intro rest state _ applied
      cases applied
      exact holdsStart
    | append_singleton done last ih =>
      intro rest state events applied
      rw [List.append_assoc, List.singleton_append] at events
      rw [List.foldlM_append] at applied
      obtain ⟨middle, isMiddle, applied⟩ := bind_eq_ok.mp applied
      obtain ⟨state', stepped, applied⟩ := bind_eq_ok.mp applied
      cases applied
      exact event before session done last rest middle state
        ⟨sessions, events, start, rows, ran, isMiddle⟩ (ih events isMiddle) stepped
  have started : ∀ {before after start rows},
      declaredSessions input.calendar = before ++ after →
      input.replay before = .ok (start, rows) → holds start := by
    intro before
    induction before using List.reverseRecOn with
    | nil =>
      intro after start' rows _ ran
      cases ran
      exact start
    | append_singleton before last ih =>
      intro after start' rows sessions ran
      rw [List.append_assoc, List.singleton_append] at sessions
      obtain ⟨middle, rows', rows'', first, second, rfl⟩ := runSessions_append_eq_ok.mp ran
      obtain ⟨next, row, others, replayed, ended, -⟩ := runSessions_cons_eq_ok.mp second
      cases ended
      obtain ⟨flowed, traded, isFlowed, isTraded, rfl, -⟩ := replaySession_eq_ok replayed
      exact foldl_applyMark mark (within ⟨after, sessions⟩ first (ih sessions first)
        (List.append_nil _).symm (FundedInput.foldlM_cashEvents isFlowed isTraded))
  obtain ⟨after, sessions⟩ := reached.sessions
  obtain ⟨start', rows, ran, applied⟩ := reached.ran
  exact within ⟨after, sessions⟩ ran (started sessions ran) reached.events applied

end States

/-! ## Amounts -/

theorem roundCents_eq_ok {amount rounded : ℚ} :
    roundCents amount = .ok rounded ↔ quantizeCents roundHalfEven amount = some rounded := by
  rw [roundCents]
  cases quantizeCents roundHalfEven amount with
  | none => simp
  | some value => simp

variable {x : ℚ}

theorem exact_of_cents (whole : x ∈ cents) (nonneg : 0 ≤ x) (below : roundContext x < 10 ^ 26) :
    roundContext x = x := by
  refine exact_of_hasDecimals (hasDecimals_of_cents le_rfl whole) nonneg ?_
  simpa [precision] using below

variable {y : ℚ}

theorem lt_of_quantizeCents (quantized : quantizeCents roundHalfEven x = some y) : x < 10 ^ 26 := by
  rw [quantizeCents, Option.ite_none_right_eq_some] at quantized
  by_contra huge
  have units : ((10 ^ precision : ℤ) : ℚ) ≤ x * 100 := by
    rw [precision]
    push_cast
    linarith [not_lt.mp huge]
  have rounds := roundHalfEven_mono units
  rw [roundHalfEven_intCast] at rounds
  exact absurd quantized.1 (not_lt.mpr (rounds.trans (le_abs_self _)))

/-- **Whole cents that are rounded to cents are kept**, of either sign. -/
theorem quantizeCents_exact (whole : x ∈ cents)
    (quantized : quantizeCents roundHalfEven (roundContext x) = some y) : y = x := by
  have nonnegative : ∀ {x y : ℚ}, x ∈ cents → 0 ≤ x →
      quantizeCents roundHalfEven (roundContext x) = some y → y = x := by
    intro x y whole nonneg quantized
    rw [exact_of_cents whole nonneg (lt_of_quantizeCents quantized)] at quantized
    obtain ⟨n, rfl⟩ := mem_cents_iff.mp whole
    rw [quantizeCents_eq_some quantized, div_mul_cancel₀ _ (by norm_num), roundHalfEven_intCast]
  rcases le_total 0 x with nonneg | nonpos
  · exact nonnegative whole nonneg quantized
  · have negated : quantizeCents roundHalfEven (roundContext (-x)) = some (-y) := by
      rw [quantizeCents, Option.ite_none_right_eq_some] at quantized ⊢
      obtain ⟨small, isRounded⟩ := quantized
      rw [roundContext_neg, neg_mul, roundHalfEven_neg, abs_neg]
      refine ⟨small, ?_⟩
      rw [← Option.some.inj isRounded]
      push_cast
      rw [neg_div]
    have same := nonnegative (neg_mem whole) (by linarith) negated
    linarith

theorem roundCents_exact (whole : x ∈ cents) (rounded : roundCents (roundContext x) = .ok y) :
    y = x :=
  quantizeCents_exact whole (roundCents_eq_ok.mp rounded)

theorem add_exact (wholeX : x ∈ cents) (wholeY : y ∈ cents) (nonnegX : 0 ≤ x) (nonnegY : 0 ≤ y)
    (below : add x y < 10 ^ 25) : add x y = x + y :=
  exact_of_cents (cents.add_mem wholeX wholeY) (add_nonneg nonnegX nonnegY)
    (below.trans (by norm_num))

/-! ## What each event keeps -/

/-- What is kept of a state, whatever its cash is. -/
structure Kept (state : FundedState) : Prop where
  sound : state.book.Sound
  contributions_mem : state.contributionsCum ∈ cents
  contributions_nonneg : 0 ≤ state.contributionsCum
  withdrawals_mem : state.withdrawalsCum ∈ cents
  withdrawals_nonneg : 0 ≤ state.withdrawalsCum

section Events

variable {input : FundedInput} {session : ℤ} {state next : FundedState}

theorem Kept.cash_eq (kept : Kept state) (digits : InDigits state) :
    state.cash = accountCash state := by
  obtain ⟨low, high⟩ := abs_lt.mp digits.cash
  have contributions := digits.contributions
  have withdrawals := digits.withdrawals
  have nonneg := kept.contributions_nonneg
  have nonneg' := kept.withdrawals_nonneg
  have whole := cents.add_mem kept.sound.cash_mem kept.contributions_mem
  have sum : add state.book.cash state.contributionsCum =
      state.book.cash + state.contributionsCum :=
    roundContext_of_cents whole (abs_lt.mpr ⟨by linarith, by linarith⟩)
  rw [FundedState.cash, sum, accountCash]
  exact roundContext_of_cents (cents.sub_mem whole kept.withdrawals_mem)
    (abs_lt.mpr ⟨by linarith, by linarith⟩)

theorem Kept.start (capital : ℚ) : Kept (.start (.new capital)) :=
  ⟨LedgerBook.sound_new _, cents.zero_mem, le_rfl, cents.zero_mem, le_rfl⟩

theorem Kept.mark (kept : Kept state) (mark : MarkObservation) : Kept (applyMark state mark) :=
  ⟨kept.sound, kept.contributions_mem, kept.contributions_nonneg, kept.withdrawals_mem,
    kept.withdrawals_nonneg⟩

/-- A flow is added to the contributions or to the withdrawals. -/
theorem Kept.addFlow (kept : Kept state) {amount : ℚ} (whole : amount ∈ cents)
    (digits : InDigits (addFlow state amount)) :
    Kept (addFlow state amount) ∧
      accountCash (Research.addFlow state amount) = accountCash state + amount := by
  rw [Research.addFlow] at digits ⊢
  split
  case isTrue nonneg =>
    rw [if_pos nonneg] at digits
    have sum := add_exact kept.contributions_mem whole kept.contributions_nonneg nonneg
      digits.contributions
    refine ⟨⟨kept.sound, ?_, ?_, kept.withdrawals_mem, kept.withdrawals_nonneg⟩, ?_⟩
    · rw [sum]
      exact cents.add_mem kept.contributions_mem whole
    · rw [sum]
      exact add_nonneg kept.contributions_nonneg nonneg
    · simp only [accountCash, sum]
      ring
  case isFalse negative =>
    rw [if_neg negative] at digits
    have below := digits.withdrawals
    have sign : 0 ≤ -amount := by linarith [not_le.mp negative]
    have wholeWithdrawn := neg_mem whole
    -- what is withdrawn is no more than all that was, so it is exact as well
    have exact : roundContext (-amount) = -amount := by
      refine exact_of_cents wholeWithdrawn sign ?_
      have kept' := roundContext_monotone
        (le_add_of_nonneg_left kept.withdrawals_nonneg :
          roundContext (-amount) ≤ state.withdrawalsCum + roundContext (-amount))
      rw [roundContext_idem] at kept'
      exact (kept'.trans_lt below).trans (by norm_num)
    have sum : add state.withdrawalsCum (roundContext (-amount)) =
        state.withdrawalsCum + -amount := by
      dsimp only at below
      rw [exact] at below ⊢
      exact add_exact kept.withdrawals_mem wholeWithdrawn kept.withdrawals_nonneg sign below
    refine ⟨⟨kept.sound, kept.contributions_mem, kept.contributions_nonneg, ?_, ?_⟩, ?_⟩
    · rw [sum]
      exact cents.add_mem kept.withdrawals_mem wholeWithdrawn
    · rw [sum]
      exact add_nonneg kept.withdrawals_nonneg sign
    · simp only [accountCash, sum]
      ring

/-- **A flow that is applied leaves the cash at zero or above.** -/
theorem Kept.flow (kept : Kept state) {amount : ℚ} (whole : amount ∈ cents)
    (applied : applyFlow session state amount = .ok next) (digits : InDigits next) :
    Kept next ∧ 0 ≤ accountCash next := by
  rw [applyFlow] at applied
  split at applied
  case isTrue => cases applied
  case isFalse solvent =>
    cases applied
    obtain ⟨keptNext, -⟩ := kept.addFlow whole digits
    refine ⟨keptNext, ?_⟩
    rw [← keptNext.cash_eq digits]
    exact not_lt.mp solvent

variable {feeModel : Option FeeModel}

/-- What is affordable was asked of a purchase. -/
theorem affordable_of_applyExecution {execution : TradeExecution} {candidateId : String} {fees : ℚ}
    (some' : execution.signedQuantity.natAbs ≠ 0)
    (applied : applyExecution candidateId feeModel session state execution = .ok next)
    (isFees : executionFees feeModel execution execution.signedQuantity.natAbs = .ok fees) :
    ∃ notional,
      roundCents (mul execution.price execution.signedQuantity.natAbs) = .ok notional ∧
      (0 < execution.signedQuantity → add notional fees ≤ state.cash) := by
  rw [applyExecution] at applied
  dsimp only at applied
  rw [if_neg some'] at applied
  obtain ⟨notional, isNotional, applied⟩ := bind_eq_ok.mp applied
  obtain ⟨fees', isFees', applied⟩ := bind_eq_ok.mp applied
  obtain ⟨_, checked, -⟩ := bind_eq_ok.mp applied
  cases isFees.symm.trans isFees'
  refine ⟨notional, isNotional, fun buys => ?_⟩
  exact not_lt.mp fun short => refuse_eq_ok.mp checked ⟨buys, short⟩

/-- **An execution changes the cash by its proceeds or its cost, and by its fees.** A purchase was
affordable. -/
theorem Kept.execution (kept : Kept state) (digits : InDigits state) {execution : TradeExecution}
    {candidateId : String}
    (applied : applyExecution candidateId feeModel session state execution = .ok next) : Kept next ∧
      (next = state ∧ execution.signedQuantity = 0 ∨
        ∃ fees, executionFees feeModel execution execution.signedQuantity.natAbs = .ok fees ∧
          execution.signedQuantity ≠ 0 ∧
          accountCash next = accountCash state - execution.price * execution.signedQuantity - fees ∧
          (0 < execution.signedQuantity → 0 ≤ accountCash next)) := by
  rcases applyExecution_eq_ok applied with ⟨none', rfl⟩ |
    ⟨contractId, fees, fill, book, some', -, isFees, figures, ran, rfl⟩
  · exact ⟨kept, .inl ⟨rfl, Int.natAbs_eq_zero.mp none'⟩⟩
  obtain ⟨notional, isNotional, affordable⟩ := affordable_of_applyExecution some' applied isFees
  simp only [Fill.figures, Prod.mk.injEq] at figures
  obtain ⟨-, isSide, isQuantity, isPrice, isMultiplier, isFeesOf⟩ := figures
  obtain ⟨cash, small⟩ := LedgerBook.cash_of_apply kept.sound ran
  have amountWhole : execution.price * execution.signedQuantity.natAbs ∈ cents := by
    rw [← isPrice]
    exact mul_natCast_mem fill.price.whole _
  have magnitude : quantize (fill.price.value * fill.quantity * fill.multiplier) =
      execution.price * execution.signedQuantity.natAbs := by
    rw [quantize_of_mem (fill.price.mul_mem ..), isPrice, isQuantity, isMultiplier, Nat.cast_one,
      mul_one]
  have feesWhole : fees ∈ cents := by
    rw [← isFeesOf]
    exact fill.fees.whole
  have feesSmall : |fees| < 10 ^ 16 := by
    rw [← isFeesOf]
    exact fill.fees.small
  refine ⟨⟨kept.sound.of_apply ran, kept.contributions_mem, kept.contributions_nonneg,
    kept.withdrawals_mem, kept.withdrawals_nonneg⟩, .inr ⟨fees, isFees, by omega, ?_, ?_⟩⟩
  · simp only [accountCash]
    rcases lt_or_gt_of_ne (Int.natAbs_ne_zero.mp some') with sells | buys
    · have size : ((execution.signedQuantity.natAbs : ℕ) : ℚ) = -execution.signedQuantity := by
        rw [← Int.cast_natCast, Int.ofNat_natAbs_of_nonpos sells.le, Int.cast_neg]
      rw [if_neg (not_lt.mpr sells.le)] at isSide
      rw [cash, isFeesOf, primitiveCash, isSide]
      dsimp only
      rw [magnitude, size]
      ring
    · have size : ((execution.signedQuantity.natAbs : ℕ) : ℚ) = execution.signedQuantity := by
        rw [← Int.cast_natCast, Int.natAbs_of_nonneg buys.le]
      rw [if_pos buys] at isSide
      rw [cash, isFeesOf, primitiveCash, isSide]
      dsimp only
      rw [magnitude, size]
      ring
  · intro buys
    have enough := affordable buys
    rw [if_pos buys] at isSide
    rw [primitiveCash, isSide] at small cash
    dsimp only at small cash
    rw [magnitude] at small cash
    rw [abs_neg] at small
    have exactNotional : notional = execution.price * execution.signedQuantity.natAbs :=
      roundCents_exact amountWhole isNotional
    obtain ⟨low, high⟩ := abs_lt.mp small
    obtain ⟨feesLow, feesHigh⟩ := abs_lt.mp feesSmall
    have sum : add notional fees = notional + fees := by
      rw [exactNotional]
      exact roundContext_of_cents (cents.add_mem amountWhole feesWhole)
        (abs_lt.mpr ⟨by linarith, by linarith⟩)
    rw [sum, exactNotional, kept.cash_eq digits] at enough
    simp only [accountCash] at enough ⊢
    rw [cash, isFeesOf]
    linarith

end Events

/-! ## Every state -/

section Runs

variable {input : FundedInput} {before : List ℤ} {session : ℤ} {done rest : List CashEvent}
  {state next : FundedState}

theorem WholeCents.flow (whole : WholeCents input) {amount : ℚ}
    (member : CashEvent.flow amount ∈ input.cashEvents session) : amount ∈ cents := by
  rw [FundedInput.cashEvents, List.mem_append] at member
  rcases member with isFlow | isExecution
  · obtain ⟨other, isMember, same⟩ := List.mem_map.mp isFlow
    cases same
    rw [FundedInput.events] at isMember
    split at isMember
    case h_1 =>
      obtain ⟨flow, selected, rfl⟩ := List.mem_map.mp isMember
      exact whole.flows flow (mem_sortedBy.mp (List.mem_of_mem_filter selected))
    case h_2 => cases isMember
  · obtain ⟨other, -, same⟩ := List.mem_map.mp isExecution
    cases same

theorem FundedInput.Reached.event_mem {event : CashEvent}
    (reached : input.Reached before session done (event :: rest) state) :
    event ∈ input.cashEvents session := by
  rw [reached.events]
  exact List.mem_append_right _ List.mem_cons_self

variable (digits : ∀ before session done rest state,
  input.Reached before session done rest state → InDigits state)

include digits

/-- **Every state that is reached is kept.** -/
theorem FundedInput.Reached.kept (whole : WholeCents input)
    (reached : input.Reached before session done rest state) : Kept state := by
  refine FundedInput.Reached.induction Kept (Kept.start _) ?_ (fun _ mark kept => kept.mark mark) reached
  intro before session done event rest state next reached kept applied
  cases event with
  | flow amount =>
    exact (kept.flow (whole.flow reached.event_mem) applied
      (digits _ _ _ _ _ (reached.step applied))).1
  | execution execution =>
    exact (kept.execution (digits _ _ _ _ _ reached) applied).1

omit digits in
theorem sale_solvent_iff (kept : Kept state) (inDigits : InDigits state)
    {execution : TradeExecution} (sells : execution.signedQuantity < 0)
    (applied : applyExecution input.candidateId input.feeModel session state execution =
      .ok next) :
    0 ≤ accountCash next ↔ SaleCovered input.feeModel state execution := by
  have size : ((execution.signedQuantity.natAbs : ℕ) : ℚ) = -execution.signedQuantity := by
    rw [← Int.cast_natCast, Int.ofNat_natAbs_of_nonpos sells.le, Int.cast_neg]
  obtain ⟨-, ⟨-, zero⟩ | ⟨fees, isFees, -, cash, -⟩⟩ := kept.execution inDigits applied
  · omega
  · rw [cash]
    constructor
    · intro solvent _ fees' isFees'
      cases isFees.symm.trans isFees'
      rw [size]
      linarith
    · intro covered
      have enough := covered sells fees isFees
      rw [size] at enough
      linarith

/-- **With every sale covered, no state has less than nothing.** -/
theorem FundedInput.Reached.solvent (whole : WholeCents input)
    (capital : 0 ≤ input.startingCapital)
    (covered : ∀ before session done execution rest state,
      input.Reached before session done (.execution execution :: rest) state →
        SaleCovered input.feeModel state execution)
    (reached : input.Reached before session done rest state) : 0 ≤ accountCash state := by
  refine FundedInput.Reached.induction (fun state => 0 ≤ accountCash state) ?_ ?_
    (fun _ _ solvent => solvent) reached
  · have start : accountCash (.start (.new input.startingCapital)) = input.startingCapital := by
      simp only [accountCash, FundedState.start, LedgerBook.new]
      rw [quantize_of_mem whole.capital]
      ring
    rw [start]
    exact capital
  · intro before session done event rest state next reached solvent applied
    have kept := reached.kept digits whole
    cases event with
    | flow amount =>
      exact (kept.flow (whole.flow reached.event_mem) applied
        (digits _ _ _ _ _ (reached.step applied))).2
    | execution execution =>
      have inDigits := digits _ _ _ _ _ reached
      rcases lt_trichotomy execution.signedQuantity 0 with sells | zero | buys
      · exact (sale_solvent_iff kept inDigits sells applied).mpr
          (covered _ _ _ _ _ _ reached)
      · obtain ⟨-, ⟨rfl, -⟩ | ⟨-, -, some', -⟩⟩ := kept.execution inDigits applied
        · exact solvent
        · exact absurd zero some'
      · obtain ⟨-, ⟨-, zero⟩ | ⟨-, -, -, -, affordable⟩⟩ := kept.execution inDigits applied
        · omega
        · exact affordable buys

end Runs

/-! ## Marks -/

section Marks

variable {input : FundedInput} {before : List ℤ} {session : ℤ} {state next : FundedState}

theorem WholeCents.mark (whole : WholeCents input) {sessions : List ℤ} {mark : MarkObservation}
    (member : mark ∈ input.marksOf sessions) : mark.price ∈ cents ∧ 0 ≤ mark.price := by
  obtain ⟨session, -, isMember⟩ := List.mem_flatMap.mp member
  rw [FundedInput.events] at isMember
  split at isMember
  case h_1 =>
    exact whole.marks mark (mem_sortedBy.mp (List.mem_of_mem_filter isMember))
  case h_2 => cases isMember

theorem WholeCents.latest (whole : WholeCents input) (sessions : List ℤ) (symbol : String) :
    (latestMark (input.marksOf sessions) symbol).getD 0 ∈ cents ∧
      0 ≤ (latestMark (input.marksOf sessions) symbol).getD 0 := by
  cases found : latestMark (input.marksOf sessions) symbol with
  | none => exact ⟨cents.zero_mem, le_rfl⟩
  | some price =>
    obtain ⟨mark, isMark, rfl⟩ := Option.map_eq_some_iff.mp found
    exact whole.mark (List.mem_reverse.mp (List.mem_of_find?_eq_some isMark))

end Marks

/-! ## Rows -/

section Rows

variable {input : FundedInput} {session : ℤ} {state : FundedState} {row : FundedRow}

end Rows

/-! ## Runs -/

/-- The state after some of the flows and executions of the one session. -/
def stateAfter (input : FundedInput) (count : ℕ) : Option FundedState :=
  (((input.cashEvents 0).take count).foldlM (input.applyCashEvent 0)
    (.start (.new input.startingCapital))).toOption

end TreeOptions.Research
