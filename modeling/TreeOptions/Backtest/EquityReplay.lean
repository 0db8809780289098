import TreeOptions.Backtest.EquityCash

/-!
# The equity backtest does not look ahead

What a run does up to a session depends on the bars and actions up to it and on the signals
decided before it (`AgreeUntil`). Inputs that agree so start on the same session, see the same on
every session up to it (`sessionView_eq`), and come to the same state (`runs_agree`). What is
filled later is executed later.

Beside it stands what an accepted run keeps of its books: the account is long only, and its cash
stays at zero or above exactly when every ratio conversion is covered
(`longOnly_and_noLookAhead`).
-/

set_option autoImplicit false

namespace TreeOptions.Backtest

open Checked Decimal Ledger

variable {calendar : TradingCalendar} {input other : EquityInput} {session : ℤ}

/-! ## Accepted runs -/

section Accepted

variable {Real Summary : Type} {statistics : Statistics Real Summary}
  {result : EquityBacktestResult Real Summary}

/-- What the sessions of an accepted run were run from, and where they came to. -/
structure Ran (calendar : TradingCalendar) (input : EquityInput) (scheduled : List (ℤ × ℤ))
    (first terminal : ℤ) (state : EquityState) (rows : List SessionRow) : Prop where
  checked : checkInput input = .ok ()
  isScheduled : schedule calendar input.signals = .ok scheduled
  bounds : runBounds calendar input scheduled = .ok (first, terminal)
  ran : runSessions (runSession calendar input.master (sessionView input scheduled))
    (runSessionsOf calendar first terminal) (.start input.initialCash) = .ok (state, rows)

/-- **An accepted run**: its sessions, and what it shows of them. -/
theorem runEquityBacktest_eq_ok (accepted : runEquityBacktest statistics calendar input =
      .ok result) :
    ∃ scheduled first terminal state rows,
      Ran calendar input scheduled first terminal state rows ∧
      result.sessions = runSessionsOf calendar first terminal ∧
      result.returns = rows.map (fun row => statistics.float row.sessionReturn) ∧
      result.turnovers = rows.map (fun row => statistics.float row.turnover) ∧
      result.fills = state.fills ∧ result.books = state.books ∧
      result.conversions = state.conversions := by
  rw [runEquityBacktest] at accepted
  simp only [bind_eq_ok] at accepted
  obtain ⟨_, checked, scheduled, isScheduled, ⟨first, terminal⟩, bounds, ⟨state, rows⟩, ran,
    terminalMarketValue, -, terminalEquity, -, summary, -, accepted⟩ := accepted
  cases accepted
  exact ⟨scheduled, first, terminal, state, rows, ⟨checked, isScheduled, bounds, ran⟩, rfl, rfl,
    rfl, rfl, rfl, rfl⟩

end Accepted

/-! ## The cash before the first session -/

theorem quantity_start (initialCash : ℚ) (contractId : String) :
    (EquityState.start initialCash).ledger.quantity contractId = 0 :=
  rfl

variable {state : EquityState} {initialCash : ℚ}

theorem applyActions_start {view : SessionView} {actions : List CorporateActionRecord}
    (applied : actions.foldlM (applyAction calendar view session) (.start initialCash) =
      .ok state) : state = .start initialCash := by
  induction actions with
  | nil =>
    cases applied
    rfl
  | cons action rest ih =>
    obtain ⟨next, step, applied⟩ := bind_eq_ok.mp applied
    rw [applyAction] at step
    dsimp only at step
    rw [if_pos (quantity_start initialCash action.securityId)] at step
    cases step
    exact ih applied

theorem roundHalfUp_nonpos {x : ℚ} (nonpos : x ≤ 0) : roundHalfUp x ≤ 0 := by
  rw [roundHalfUp]
  split
  case isTrue nonneg =>
    rw [le_antisymm nonpos nonneg]
    norm_num
  case isFalse =>
    have atLeast : 0 ≤ ⌊-x + 1 / 2⌋ := Int.floor_nonneg.mpr (by linarith)
    omega

theorem roundContext_nonpos {x : ℚ} (nonpos : x ≤ 0) : roundContext x ≤ 0 := by
  have opposite := roundContext_mono le_rfl (neg_nonneg.mpr nonpos)
  rw [roundContext_zero, roundContext_neg] at opposite
  exact neg_nonneg.mp opposite

theorem roundFees_eq_ok {amount rounded : ℚ} (isRounded : roundFees amount = .ok rounded) :
    rounded = roundHalfUp (amount * 100) / 100 :=
  quantizeCents_eq_some (orRaise_eq_ok.mp isRounded)

theorem cash_of_equity_start {view : SessionView} {price : BarRecord → Price} {value : ℚ}
    (isValue : equity view session price (.start initialCash) = .ok value) (positive : 0 < value) :
    0 ≤ (LedgerBook.new initialCash).cash := by
  rw [equity] at isValue
  obtain ⟨market, isMarket, rounded⟩ := bind_eq_ok.mp isValue
  rw [marketValue] at isMarket
  obtain ⟨total, isTotal, isMarket⟩ := bind_eq_ok.mp isMarket
  cases isTotal
  have nothing : market = 0 := by
    rw [roundFees_eq_ok isMarket, zero_mul]
    norm_num [roundHalfUp]
  subst nothing
  by_contra negative
  have below : add (LedgerBook.new initialCash).cash 0 ≤ 0 := by
    rw [add, add_zero]
    exact roundContext_nonpos (not_le.mp negative).le
  have units : roundHalfUp (add (LedgerBook.new initialCash).cash 0 * 100) ≤ 0 :=
    roundHalfUp_nonpos (by linarith)
  have atMost : value ≤ 0 := by
    rw [roundFees_eq_ok rounded]
    exact div_nonpos_of_nonpos_of_nonneg (by exact_mod_cast units) (by norm_num)
  exact absurd positive atMost.not_gt

theorem cashKept_start (solvent : 0 ≤ (LedgerBook.new initialCash).cash) :
    CashKept (.start initialCash) where
  sound := LedgerBook.sound_new initialCash
  booksSound book isMember := by cases isMember
  covered _ converted isMember := by cases isMember
  paid _ book isMember := by cases isMember
  solvent _ := solvent

variable {scheduled : List (ℤ × ℤ)} {rows : List SessionRow} {master : List SecurityMasterRecord}

/-- **The invariant holds when a run is over.** It is there from the first session on, which only
passes when the account is worth something. -/
theorem cashKept_of_runSessions {sessions : List ℤ}
    (ran : runSessions (runSession calendar master (sessionView input scheduled)) sessions
      (.start initialCash) = .ok (state, rows)) : (∀ book ∈ state.books, book.Sound) ∧
      ((∀ book ∈ state.books, 0 ≤ book.cash) ↔
        ∀ converted ∈ state.conversions, converted.Covered) := by
  cases sessions with
  | nil =>
    cases ran
    constructor
    · intro book isMember
      cases isMember
    · constructor
      · intro _ converted isMember
        cases isMember
      · intro _ book isMember
        cases isMember
  | cons first rest =>
    obtain ⟨next, row, others, isFirst, -, -⟩ := runSessions_cons_eq_ok.mp ran
    obtain ⟨-, -, converted, pretrade, isConverted, isPretrade, positive⟩ :=
      moves_runSession (sessionView_on input scheduled first) isFirst
    rw [applyActions_start isConverted] at isPretrade
    have started := cashKept_start (cash_of_equity_start isPretrade positive)
    have kept := (runSessions_invariant CashKept (fun _ _ => True) (by
      intro session _ before after row kept step
      obtain ⟨moved, -⟩ := moves_runSession (sessionView_on input scheduled session) step
      exact ⟨kept.moves moved, trivial⟩) started ran).1
    exact ⟨kept.booksSound, kept.iff⟩

/-! ## Inputs that agree up to a session -/

/-- The bars and actions up to a session, the signals decided before it, the master and the cash
are the same. Bars and signals may come in another order. -/
structure AgreeUntil (session : ℤ) (input other : EquityInput) : Prop where
  bars : (input.bars.filter fun bar => bar.session ≤ session).Perm
    (other.bars.filter fun bar => bar.session ≤ session)
  actions : (input.actions.filter fun action => action.effectiveSession ≤ session) =
    other.actions.filter fun action => action.effectiveSession ≤ session
  signals : (input.signals.filter fun signal => signal.decisionSession < session).Perm
    (other.signals.filter fun signal => signal.decisionSession < session)
  master : input.master = other.master
  initialCash : input.initialCash = other.initialCash

theorem AgreeUntil.symm (agree : AgreeUntil session input other) :
    AgreeUntil session other input :=
  ⟨agree.bars.symm, agree.actions.symm, agree.signals.symm, agree.master.symm,
    agree.initialCash.symm⟩

/-! ## What the checks of an input say -/

variable {bar : BarRecord}

theorem checkBar_eq_ok {seen keys : List (String × ℤ)} (checked : checkBar seen bar = .ok keys) :
    (bar.securityId, bar.session) ∉ seen ∧ keys = seen ++ [(bar.securityId, bar.session)] := by
  rw [checkBar] at checked
  obtain ⟨_, fresh, checked⟩ := bind_eq_ok.mp checked
  obtain ⟨_, -, checked⟩ := bind_eq_ok.mp checked
  cases checked
  exact ⟨refuse_eq_ok.mp fresh, rfl⟩

variable {signal : BacktestSignal}

theorem checkSignal_eq_ok {master : List String} {seen keys : List (ℤ × String)}
    (checked : checkSignal master seen signal = .ok keys) :
    (signal.decisionSession, signal.securityId) ∉ seen ∧
      keys = seen ++ [(signal.decisionSession, signal.securityId)] ∧ isFinite signal = true := by
  rw [checkSignal] at checked
  simp only [bind_eq_ok] at checked
  obtain ⟨_, fresh, _, finite, _, -, checked⟩ := checked
  cases checked
  exact ⟨refuse_eq_ok.mp fresh, rfl, Bool.of_not_eq_false (refuse_eq_ok.mp finite)⟩

section

variable (checked : checkInput input = .ok ())

include checked

theorem checkInput_eq_ok :
    (input.bars.map fun bar => (bar.securityId, bar.session)).Nodup ∧
      (input.signals.map fun signal => (signal.decisionSession, signal.securityId)).Nodup := by
  rw [checkInput] at checked
  obtain ⟨keys, bars, checked⟩ := bind_eq_ok.mp checked
  dsimp only at checked
  obtain ⟨_, -, checked⟩ := bind_eq_ok.mp checked
  obtain ⟨master, -, checked⟩ := bind_eq_ok.mp checked
  obtain ⟨_, -, checked⟩ := bind_eq_ok.mp checked
  obtain ⟨keys', signals, -⟩ := bind_eq_ok.mp checked
  refine ⟨nodup_of_foldlM (fun seen bar keys step => checkBar_eq_ok step) bars, ?_⟩
  refine nodup_of_foldlM (fun seen signal keys step => ?_) signals
  exact ⟨(checkSignal_eq_ok step).1, (checkSignal_eq_ok step).2.1⟩

theorem bar_unique {other : BarRecord} (isMember : bar ∈ input.bars)
    (isMember' : other ∈ input.bars) (sameSecurity : bar.securityId = other.securityId)
    (sameSession : bar.session = other.session) : bar = other :=
  List.inj_on_of_nodup_map (checkInput_eq_ok checked).1 isMember isMember'
    (Prod.ext sameSecurity sameSession)

theorem signal_unique {other : BacktestSignal} (isMember : signal ∈ input.signals)
    (isMember' : other ∈ input.signals)
    (sameDecision : signal.decisionSession = other.decisionSession)
    (sameSecurity : signal.securityId = other.securityId) : signal = other :=
  List.inj_on_of_nodup_map (checkInput_eq_ok checked).2 isMember isMember'
    (Prod.ext sameDecision sameSecurity)

end

/-! ## The schedule -/

variable {signals : List BacktestSignal}

theorem mem_schedule (isScheduled : schedule calendar signals = .ok scheduled)
    {execution decision : ℤ} : (execution, decision) ∈ scheduled ↔
      (∃ signal ∈ signals, signal.decisionSession = decision) ∧
        calendar.nthAfter decision 1 = some execution := by
  have each := mapM_eq_ok.mp isScheduled
  have said : ∀ decision (entry : ℤ × ℤ), (do
      let execution ← orRaise EquityError.notASession (calendar.nthAfter decision 1)
      return (execution, decision)) = Except.ok entry ↔
        calendar.nthAfter decision 1 = some entry.1 ∧ entry.2 = decision := by
    intro decision entry
    rw [bind_eq_ok]
    constructor
    · rintro ⟨execution, isExecution, same⟩
      cases same
      exact ⟨orRaise_eq_ok.mp isExecution, rfl⟩
    · rintro ⟨isExecution, rfl⟩
      exact ⟨entry.1, orRaise_eq_ok.mpr isExecution, rfl⟩
  constructor
  · intro isMember
    obtain ⟨item, isItem, made⟩ := exists_left_of_forall₂ each isMember
    obtain ⟨isExecution, rfl⟩ := (said _ _).mp made
    exact ⟨List.mem_map.mp (mem_firstSeen.mp isItem), isExecution⟩
  · rintro ⟨decided, isExecution⟩
    have isItem := mem_firstSeen.mpr (List.mem_map.mpr decided)
    obtain ⟨entry, isEntry, made⟩ := exists_right_of_forall₂ each isItem
    obtain ⟨isExecution', same⟩ := (said _ _).mp made
    rw [isExecution] at isExecution'
    obtain rfl : entry = (execution, decision) :=
      Prod.ext (Option.some.inj isExecution').symm same
    exact isEntry

/-- **A session executes the one decision of the session before it.** -/
theorem scheduledDecision_eq_some (isScheduled : schedule calendar signals = .ok scheduled)
    {decision : ℤ} : scheduledDecision scheduled session = some decision ↔
      (∃ signal ∈ signals, signal.decisionSession = decision) ∧
        calendar.nthAfter decision 1 = some session := by
  rw [← mem_schedule isScheduled, scheduledDecision, Option.map_eq_some_iff]
  constructor
  · rintro ⟨entry, found, rfl⟩
    have same := List.find?_some found
    rw [decide_eq_true_eq] at same
    have isMember := List.mem_reverse.mp (List.mem_of_find?_eq_some found)
    rwa [← same]
  · intro isMember
    obtain ⟨entry, found⟩ : ∃ entry,
        scheduled.reverse.find? (fun entry => entry.1 = session) = some entry := by
      rw [← Option.isSome_iff_exists, List.find?_isSome]
      exact ⟨(session, decision), List.mem_reverse.mpr isMember, decide_eq_true rfl⟩
    have same := List.find?_some found
    rw [decide_eq_true_eq] at same
    have isEntry := List.mem_reverse.mp (List.mem_of_find?_eq_some found)
    rw [← Prod.eta entry] at isEntry
    have after := ((mem_schedule isScheduled).mp isEntry).2
    have after' := ((mem_schedule isScheduled).mp isMember).2
    rw [same] at after
    exact ⟨entry, found, TradingCalendar.nthAfter_injective after after'⟩

/-! ## What is seen on a session -/

theorem AgreeUntil.mem_bars (agree : AgreeUntil session input other)
    (early : bar.session ≤ session) : bar ∈ input.bars ↔ bar ∈ other.bars := by
  have same := agree.bars.mem_iff (a := bar)
  simpa only [List.mem_filter, decide_eq_true early, and_true] using same

theorem AgreeUntil.mem_signals (agree : AgreeUntil session input other)
    (early : signal.decisionSession < session) :
    signal ∈ input.signals ↔ signal ∈ other.signals := by
  have same := agree.signals.mem_iff (a := signal)
  simpa only [List.mem_filter, decide_eq_true early, and_true] using same

theorem bar_eq_some (checked : checkInput input = .ok ()) {securityId : String} :
    (sessionView input scheduled session).bar securityId = some bar ↔
      bar ∈ input.bars ∧ bar.securityId = securityId ∧ bar.session = session := by
  dsimp only [sessionView]
  constructor
  · intro found
    have selected := List.find?_some found
    rw [decide_eq_true_eq] at selected
    exact ⟨List.mem_of_find?_eq_some found, selected⟩
  · rintro ⟨isMember, sameSecurity, sameSession⟩
    obtain ⟨bar', found⟩ : ∃ bar', input.bars.find? (fun bar =>
        bar.securityId = securityId ∧ bar.session = session) = some bar' := by
      rw [← Option.isSome_iff_exists, List.find?_isSome]
      exact ⟨bar, isMember, decide_eq_true ⟨sameSecurity, sameSession⟩⟩
    have selected := List.find?_some found
    rw [decide_eq_true_eq] at selected
    rw [found, bar_unique checked (List.mem_of_find?_eq_some found) isMember
      (selected.1.trans sameSecurity.symm) (selected.2.trans sameSession.symm)]

theorem topQuintile_eq_of_perm {decision : ℤ} (checked : checkInput input = .ok ())
    (same : (input.signals.filter fun signal => signal.decisionSession = decision).Perm
      (other.signals.filter fun signal => signal.decisionSession = decision)) :
    topQuintile (input.signals.filter fun signal => signal.decisionSession = decision) =
      topQuintile (other.signals.filter fun signal => signal.decisionSession = decision) := by
  rw [topQuintile, topQuintile, same.length_eq, sortedBy_eq_of_perm same]
  intro signal isMember signal' isMember' sameKey
  rw [List.mem_filter, decide_eq_true_eq] at isMember isMember'
  have sameId : signal.securityId.toList = signal'.securityId.toList :=
    congrArg (fun key => (ofLex key).2) sameKey
  exact signal_unique checked isMember.1 isMember'.1 (isMember.2.trans isMember'.2.symm)
    (String.toList_inj.mp sameId)

variable {scheduled' : List (ℤ × ℤ)}

/-- **Inputs that agree show the same on every session up to it.** -/
theorem sessionView_eq {until' : ℤ} (agree : AgreeUntil until' input other)
    (checked : checkInput input = .ok ()) (checked' : checkInput other = .ok ())
    (isScheduled : schedule calendar input.signals = .ok scheduled)
    (isScheduled' : schedule calendar other.signals = .ok scheduled') (early : session ≤ until') :
    sessionView input scheduled session = sessionView other scheduled' session := by
  have bars : (sessionView input scheduled session).bar =
      (sessionView other scheduled' session).bar := by
    funext securityId
    refine Option.ext fun bar => ?_
    rw [bar_eq_some checked, bar_eq_some checked']
    constructor
    · rintro ⟨isMember, sameSecurity, rfl⟩
      exact ⟨(agree.mem_bars early).mp isMember, sameSecurity, rfl⟩
    · rintro ⟨isMember, sameSecurity, rfl⟩
      exact ⟨(agree.mem_bars early).mpr isMember, sameSecurity, rfl⟩
  have actions : (sessionView input scheduled session).actions =
      (sessionView other scheduled' session).actions := by
    dsimp only [sessionView]
    rw [filter_eq_of_filter_eq agree.actions]
    intro action isNow
    rw [decide_eq_true_eq] at isNow ⊢
    exact isNow.trans_le early
  have decisions : scheduledDecision scheduled session = scheduledDecision scheduled' session := by
    refine Option.ext fun decision => ?_
    rw [scheduledDecision_eq_some isScheduled, scheduledDecision_eq_some isScheduled']
    refine and_congr_left fun after => ?_
    have before := (TradingCalendar.lt_of_nthAfter after).trans_le early
    constructor
    · rintro ⟨signal, isMember, rfl⟩
      exact ⟨signal, (agree.mem_signals before).mp isMember, rfl⟩
    · rintro ⟨signal, isMember, rfl⟩
      exact ⟨signal, (agree.mem_signals before).mpr isMember, rfl⟩
  have selected : (sessionView input scheduled session).selected =
      (sessionView other scheduled' session).selected := by
    dsimp only [sessionView]
    rw [← decisions]
    cases isDecision : scheduledDecision scheduled session with
    | none => rfl
    | some decision =>
      have after := ((scheduledDecision_eq_some isScheduled).mp isDecision).2
      have before := (TradingCalendar.lt_of_nthAfter after).trans_le early
      have same : (input.signals.filter fun signal => signal.decisionSession = decision).Perm
          (other.signals.filter fun signal => signal.decisionSession = decision) := by
        have implies : ∀ signal : BacktestSignal, decide (signal.decisionSession = decision) →
            decide (signal.decisionSession < until') := by
          intro signal isDecided
          rw [decide_eq_true_eq] at isDecided ⊢
          exact isDecided.trans_lt before
        rw [filter_of_imp implies, filter_of_imp implies other.signals]
        exact agree.signals.filter _
      rw [Option.map_some, Option.map_some, topQuintile_eq_of_perm checked same]
  rw [SessionView.mk.injEq]
  exact ⟨bars, actions, selected⟩

/-! ## The sessions of a run -/

variable {first terminal : ℤ}

theorem runBounds_eq_ok (bounds : runBounds calendar input scheduled = .ok (first, terminal)) :
    (scheduled.map Prod.fst).min? = some first ∧ first ∈ calendar.sessions ∧
      terminal ∈ calendar.sessions := by
  rw [runBounds] at bounds
  simp only [bind_eq_ok] at bounds
  obtain ⟨first', isFirst, latest, -, terminalAt, isTerminal, firstAt, isPosition, _, -, bounds⟩ :=
    bounds
  cases bounds
  exact ⟨orRaise_eq_ok.mp isFirst,
    List.mem_of_getElem? (TradingCalendar.position_eq_some.mp (orRaise_eq_ok.mp isPosition)),
    List.mem_of_getElem? (TradingCalendar.position_eq_some.mp (orRaise_eq_ok.mp isTerminal))⟩

theorem mem_runSessionsOf (isFirst : first ∈ calendar.sessions)
    (isTerminal : terminal ∈ calendar.sessions) :
    session ∈ runSessionsOf calendar first terminal ↔
      session ∈ calendar.sessions ∧ first ≤ session ∧ session ≤ terminal := by
  rw [runSessionsOf, List.mem_filter, decide_eq_true_eq]
  refine and_congr_right fun isSession => ?_
  rw [TradingCalendar.idxOf_le_idxOf isFirst isSession,
    TradingCalendar.idxOf_le_idxOf isSession isTerminal]

variable {rows' : List SessionRow}

/-- **Runs that cover a session of inputs that agree up to it start on the same session.** -/
theorem first_le {first' terminal' : ℤ} {state' : EquityState}
    (agree : AgreeUntil session input other)
    (run : Ran calendar input scheduled first terminal state rows)
    (run' : Ran calendar other scheduled' first' terminal' state' rows')
    (covers : session ∈ runSessionsOf calendar first terminal) : first' ≤ first := by
  obtain ⟨least, isFirst, isTerminal⟩ := runBounds_eq_ok run.bounds
  obtain ⟨least', -, -⟩ := runBounds_eq_ok run'.bounds
  obtain ⟨⟨execution, decision⟩, isEntry, rfl⟩ := List.mem_map.mp (List.min?_mem least)
  obtain ⟨⟨signal, isMember, rfl⟩, after⟩ := (mem_schedule run.isScheduled).mp isEntry
  have reached := ((mem_runSessionsOf isFirst isTerminal).mp covers).2.1
  have before := (TradingCalendar.lt_of_nthAfter after).trans_le reached
  have isEntry' := (mem_schedule run'.isScheduled).mpr
    ⟨⟨signal, (agree.mem_signals before).mp isMember, rfl⟩, after⟩
  exact (List.min?_eq_some_iff.mp least').2 _ (List.mem_map_of_mem isEntry')

theorem filter_runSessionsOf (isFirst : first ∈ calendar.sessions)
    (isTerminal : terminal ∈ calendar.sessions)
    (covers : session ∈ runSessionsOf calendar first terminal) :
    (runSessionsOf calendar first terminal).filter (fun other => other ≤ session) =
      calendar.sessions.filter fun other => first ≤ other ∧ other ≤ session := by
  obtain ⟨-, -, last⟩ := (mem_runSessionsOf isFirst isTerminal).mp covers
  rw [runSessionsOf, List.filter_filter]
  refine List.filter_congr ?_
  intro other isSession
  rw [← Bool.decide_and, decide_eq_decide, TradingCalendar.idxOf_le_idxOf isFirst isSession,
    TradingCalendar.idxOf_le_idxOf isSession isTerminal]
  constructor
  · rintro ⟨early, from', -⟩
    exact ⟨from', early⟩
  · rintro ⟨from', early⟩
    exact ⟨early, from', early.trans last⟩

theorem sorted_runSessionsOf (first terminal : ℤ) :
    (runSessionsOf calendar first terminal).Pairwise fun first second => first ≤ second :=
  (calendar.increasing.filter _).imp Int.le_of_lt

/-! ## Two runs side by side -/

theorem fills_of_runSessions {sessions : List ℤ} {last : EquityState}
    (ran : runSessions (runSession calendar master (sessionView input scheduled)) sessions state =
      .ok (last, rows)) : (∃ fills, last.fills = state.fills ++ fills ∧
      ∀ fill ∈ fills, fill.executionSession ∈ sessions) ∧
      List.Forall₂ (fun session row => row.session = session) sessions rows := by
  refine runSessions_invariant (fun reached => ∃ fills, reached.fills = state.fills ++ fills ∧
    ∀ fill ∈ fills, fill.executionSession ∈ sessions) _ ?_ ⟨[], ?_, ?_⟩ ran
  · rintro session isSession before after row ⟨fills, grown, on⟩ step
    obtain ⟨moved, isRow, -⟩ := moves_runSession (sessionView_on input scheduled session) step
    obtain ⟨more, grown', on'⟩ := moved.grows
    refine ⟨⟨fills ++ more, by rw [grown', grown, List.append_assoc], ?_⟩, isRow⟩
    intro fill isMember
    rcases List.mem_append.mp isMember with old | new
    · exact on fill old
    · rw [on' fill new]
      exact isSession
  · rw [List.append_nil]
  · intro fill isMember
    cases isMember

/-- **A run in two parts**: up to a session it comes to a state, and what it shows up to the
session is what that state and the rows so far show. -/
theorem Ran.split (run : Ran calendar input scheduled first terminal state rows)
    (covers : session ∈ runSessionsOf calendar first terminal) :
    ∃ middle rows', runSessions (runSession calendar input.master (sessionView input scheduled))
        (calendar.sessions.filter fun other => first ≤ other ∧ other ≤ session)
        (.start input.initialCash) = .ok (middle, rows') ∧
      (state.fills.filter fun fill => fill.executionSession ≤ session) = middle.fills ∧
      (rows.filter fun row => row.session ≤ session) = rows' := by
  obtain ⟨-, isFirst, isTerminal⟩ := runBounds_eq_ok run.bounds
  have dates := (fills_of_runSessions run.ran).2
  have ran := run.ran
  rw [split_sorted (sorted_runSessionsOf first terminal) session] at ran dates
  obtain ⟨middle, rows', rows'', isEarly, isLater, rfl⟩ := runSessions_append_eq_ok.mp ran
  have length := length_runSessions isEarly
  obtain ⟨⟨fills, isFills, on⟩, -⟩ := fills_of_runSessions isEarly
  obtain ⟨⟨more, isMore, on'⟩, -⟩ := fills_of_runSessions isLater
  rw [filter_runSessionsOf isFirst isTerminal covers] at isEarly
  refine ⟨middle, rows', isEarly, ?_, ?_⟩
  · have early : (middle.fills.filter fun fill => fill.executionSession ≤ session) =
        middle.fills := by
      rw [List.filter_eq_self, isFills]
      intro fill isMember
      have isSession := on fill isMember
      rw [List.mem_filter, decide_eq_true_eq] at isSession
      exact decide_eq_true isSession.2
    have late : (more.filter fun fill => fill.executionSession ≤ session) = [] := by
      rw [List.filter_eq_nil_iff]
      intro fill isMember
      have isSession := on' fill isMember
      rw [List.mem_filter, decide_eq_true_eq] at isSession
      rw [decide_eq_true_eq]
      exact not_le.mpr isSession.2
    rw [isMore, List.filter_append, early, late, List.append_nil]
  · rw [filter_rows SessionRow.session dates, ← length, List.take_left']
    · rfl
    · intro date isMember
      simpa using List.of_mem_filter isMember
    · intro date isMember
      simpa using List.of_mem_filter isMember

/-- **Runs of inputs that agree up to a session show the same up to it.** -/
theorem runs_agree {first' terminal' : ℤ} {state' : EquityState}
    (agree : AgreeUntil session input other)
    (run : Ran calendar input scheduled first terminal state rows)
    (run' : Ran calendar other scheduled' first' terminal' state' rows')
    (covers : session ∈ runSessionsOf calendar first terminal)
    (covers' : session ∈ runSessionsOf calendar first' terminal') :
    (state.fills.filter fun fill => fill.executionSession ≤ session) =
        (state'.fills.filter fun fill => fill.executionSession ≤ session) ∧
      (rows.filter fun row => row.session ≤ session) =
        rows'.filter fun row => row.session ≤ session := by
  obtain rfl : first = first' :=
    le_antisymm (first_le agree.symm run' run covers') (first_le agree run run' covers)
  obtain ⟨middle, early, ran, fills, isEarly⟩ := run.split covers
  obtain ⟨middle', early', ran', fills', isEarly'⟩ := run'.split covers'
  have same : ∀ date ∈ calendar.sessions.filter fun date => first ≤ date ∧ date ≤ session,
      runSession calendar input.master (sessionView input scheduled) date =
        runSession calendar other.master (sessionView other scheduled') date := by
    intro date isMember
    have inside : first ≤ date ∧ date ≤ session := by simpa using List.of_mem_filter isMember
    funext before
    rw [runSession, runSession, agree.master, sessionView_eq agree run.checked run'.checked
      run.isScheduled run'.isScheduled inside.2]
  rw [runSessions_congr same, agree.initialCash, ran'] at ran
  cases ran
  exact ⟨fills.trans fills'.symm, isEarly.trans isEarly'.symm⟩

/-! ## The account of a run -/

section Account

variable {Real Summary : Type} {statistics : Statistics Real Summary}
  {result result' : EquityBacktestResult Real Summary}

theorem filter_zip_rows {dates : List ℤ} {rows : List SessionRow} {Shown : Type}
    (shown : SessionRow → Shown)
    (isDate : List.Forall₂ (fun date row => row.session = date) dates rows) :
    (dates.zip (rows.map shown)).filter (fun pair => pair.1 ≤ session) =
      (rows.filter fun row => row.session ≤ session).map fun row => (row.session, shown row) := by
  induction isDate with
  | nil => rfl
  | @cons date row dates rows same _ ih =>
    rw [List.map_cons, List.zip_cons_cons]
    by_cases early : date ≤ session
    · rw [List.filter_cons_of_pos (by simpa using early),
        List.filter_cons_of_pos (by simpa [same] using early), List.map_cons, ih, same]
    · rw [List.filter_cons_of_neg (by simpa using early),
        List.filter_cons_of_neg (by simpa [same] using early), ih]

/-- **The account is long only, does not look ahead, and never owes cash exactly when every ratio
conversion is covered.** -/
theorem longOnly_and_noLookAhead (accepted : runEquityBacktest statistics calendar input =
      .ok result) :
    (∀ book ∈ result.books, ∀ contractId, 0 ≤ book.netQuantity contractId) ∧
      ((∀ book ∈ result.books, 0 ≤ book.cash) ↔
        ∀ converted ∈ result.conversions, converted.Covered) ∧
      ∀ other result' session, AgreeUntil session input other →
        runEquityBacktest statistics calendar other = .ok result' →
        session ∈ result.sessions → session ∈ result'.sessions →
        (result.fills.filter fun fill => fill.executionSession ≤ session) =
            (result'.fills.filter fun fill => fill.executionSession ≤ session) ∧
          ((result.sessions.zip result.returns).filter fun row => row.1 ≤ session) =
            ((result'.sessions.zip result'.returns).filter fun row => row.1 ≤ session) ∧
          ((result.sessions.zip result.turnovers).filter fun row => row.1 ≤ session) =
            (result'.sessions.zip result'.turnovers).filter fun row => row.1 ≤ session := by
  obtain ⟨scheduled, first, terminal, state, rows, run, sessions, returns, turnovers, fills, books,
    conversions⟩ := runEquityBacktest_eq_ok accepted
  obtain ⟨sound, solvent⟩ := cashKept_of_runSessions run.ran
  rw [books, conversions]
  refine ⟨?_, solvent, ?_⟩
  · intro book isMember contractId
    rw [(sound book isMember).netQuantity_eq]
    exact Int.natCast_nonneg _
  · intro other result' session agree accepted' covers covers'
    obtain ⟨scheduled', first', terminal', state', rows', run', sessions', returns', turnovers',
      fills', -, -⟩ := runEquityBacktest_eq_ok accepted'
    rw [sessions] at covers
    rw [sessions'] at covers'
    obtain ⟨sameFills, sameRows⟩ := runs_agree agree run run' covers covers'
    have dates := (fills_of_runSessions run.ran).2
    have dates' := (fills_of_runSessions run'.ran).2
    rw [sessions, sessions', returns, returns', turnovers, turnovers', fills, fills',
      filter_zip_rows _ dates, filter_zip_rows _ dates, filter_zip_rows _ dates',
      filter_zip_rows _ dates', sameRows]
    exact ⟨sameFills, rfl, rfl⟩

end Account

/-! ## A reverse split that is not covered -/

theorem weekSessions_ne_nil : [(0 : ℤ), 1, 2] ≠ [] :=
  List.cons_ne_nil _ _

theorem weekSessions_increasing : [(0 : ℤ), 1, 2].Pairwise (· < ·) := by
  decide

theorem week_opens (session : ℤ) (_ : session ∈ [(0 : ℤ), 1, 2]) :
    2 * session ≤ 2 * session + 1 := by
  omega

theorem week_ordered (first : ℤ) (_ : first ∈ [(0 : ℤ), 1, 2]) (second : ℤ)
    (_ : second ∈ [(0 : ℤ), 1, 2]) (less : first < second) : 2 * first + 1 < 2 * second := by
  omega

/-- Three sessions, each with its open and its close. -/
def week : TradingCalendar where
  sessions := [0, 1, 2]
  nonempty := weekSessions_ne_nil
  increasing := weekSessions_increasing
  sessionOpen session := 2 * session
  sessionClose session := 2 * session + 1
  opens := week_opens
  ordered := week_ordered

def barAt (session : ℤ) (price : ℚ) : Option BarRecord :=
  (Price.ofRat? price).map fun price =>
    { securityId := "A", session := session, openPrice := price, closePrice := price
      source := datasetProvenance, snapshotId := "snapshot" }

/-- One share becomes a third of one before the last session. -/
def reverseSplit : CorporateActionRecord where
  securityId := "A"
  kind := .reverseSplit
  effectiveSession := 2
  ratioNumerator := some 1
  ratioDenominator := some 3
  cashAmount := none
  sourceRecordId := "split"
  snapshotId := "snapshot"

/-- All of the cash goes into one security on the second session. -/
def onePosition (actions : List CorporateActionRecord) : EquityInput where
  bars := [barAt 1 (333 / 100), barAt 2 10].reduceOption
  master := [⟨"A", none⟩]
  actions := actions
  signals := [⟨0, "A", .finite 1, none⟩]
  initialCash := 335166 / 100
  endSession := some 2

/-- The rows of a run as they are. -/
def exactStatistics : Statistics ℚ Unit :=
  ⟨id, fun _ _ _ => .ok ()⟩

/-- The sessions of a run, and the cash after every fill. -/
def shownCash (result : Except EquityError (EquityBacktestResult ℚ Unit)) :
    Option (List ℤ × List ℚ) :=
  result.toOption.map fun result => (result.sessions, result.books.map LedgerBook.cash)

theorem exists_of_shownCash {result : Except EquityError (EquityBacktestResult ℚ Unit)}
    {shown : List ℤ × List ℚ} (isShown : shownCash result = some shown) :
    ∃ run, result = .ok run ∧ run.sessions = shown.1 ∧ run.books.map LedgerBook.cash = shown.2 := by
  cases result with
  | error => cases isShown
  | ok run =>
    cases isShown
    exact ⟨run, rfl, rfl, rfl⟩

theorem shownCash_quiet :
    shownCash (runEquityBacktest exactStatistics week (onePosition [])) =
      some ([1, 2], [1 / 100]) := by
  decide +kernel

theorem shownCash_split :
    shownCash (runEquityBacktest exactStatistics week (onePosition [reverseSplit])) =
      some ([1, 2], [1 / 100, 334999 / 100, -1 / 100]) := by
  decide +kernel

theorem longOnly_and_noLookAhead_sample :
    ∃ result result',
      runEquityBacktest exactStatistics week (onePosition []) = .ok result ∧
      runEquityBacktest exactStatistics week (onePosition [reverseSplit]) = .ok result' ∧
      (∀ book ∈ result.books, ∀ contractId, 0 ≤ book.netQuantity contractId) ∧
      ((∀ book ∈ result.books, 0 ≤ book.cash) ↔
        ∀ converted ∈ result.conversions, converted.Covered) ∧
      (result.fills.filter fun fill => fill.executionSession ≤ 1) =
        result'.fills.filter fun fill => fill.executionSession ≤ 1 := by
  obtain ⟨result, ran, sessions, -⟩ := exists_of_shownCash shownCash_quiet
  obtain ⟨result', ran', sessions', -⟩ := exists_of_shownCash shownCash_split
  have agree : AgreeUntil 1 (onePosition []) (onePosition [reverseSplit]) :=
    ⟨.refl _, rfl, .refl _, rfl, rfl⟩
  have covers : (1 : ℤ) ∈ result.sessions := by
    rw [sessions]
    exact List.mem_cons_self
  have covers' : (1 : ℤ) ∈ result'.sessions := by
    rw [sessions']
    exact List.mem_cons_self
  obtain ⟨held, solvent, sameBefore⟩ := longOnly_and_noLookAhead ran
  exact ⟨result, result', ran, ran', held, solvent,
    (sameBefore (onePosition [reverseSplit]) result' 1 agree ran' covers covers').1⟩

theorem reverseSplit_owes_cash :
    ∃ result, runEquityBacktest exactStatistics week (onePosition [reverseSplit]) = .ok result ∧
      ∃ book ∈ result.books, book.cash < 0 := by
  obtain ⟨result, ran, -, cash⟩ := exists_of_shownCash shownCash_split
  have owes : (-1 / 100 : ℚ) ∈ result.books.map LedgerBook.cash := by
    rw [cash]
    simp
  obtain ⟨book, isMember, same⟩ := List.mem_map.mp owes
  refine ⟨result, ran, book, isMember, ?_⟩
  rw [same]
  norm_num

end TreeOptions.Backtest
