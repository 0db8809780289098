import TreeOptions.Research.Funded

/-!
# A funded account does not look ahead

The rows up to a session depend on the evidence that applies up to it (`noLookAhead`). That is
the evidence dated up to it. On the last session there is more: flows and marks dated after the
calendar are moved back to it.

Two runs are followed side by side. Their books may differ in names and instants, since these
come from the name of the candidate; what the rows show is the same (`Alike`).
-/

set_option autoImplicit false

namespace TreeOptions.Research

open Backtest Decimal Ledger

variable {candidateId candidateId' : String} {feeModel : Option FeeModel} {startingCapital : ℚ}

/-! ## Evidence up to a session -/

/-- A flow or a mark of this date applies up to the session. -/
def Counts (calendar : List ℤ) (session date : ℤ) : Prop :=
  date ≤ session ∨ ∀ other ∈ calendar, other ≤ session

instance (calendar : List ℤ) (session date : ℤ) : Decidable (Counts calendar session date) :=
  inferInstanceAs (Decidable (_ ∨ _))

/-- The evidence that applies up to a session is the same. -/
structure Evidence.AgreeUntil (calendar : List ℤ) (session : ℤ) (evidence other : Evidence) :
    Prop where
  executions : (evidence.executions.filter fun execution => execution.date ≤ session) =
    other.executions.filter fun execution => execution.date ≤ session
  marks : (evidence.marks.filter fun mark => Counts calendar session mark.date) =
    other.marks.filter fun mark => Counts calendar session mark.date
  cashflows : (evidence.cashflows.filter fun flow => Counts calendar session flow.date) =
    other.cashflows.filter fun flow => Counts calendar session flow.date

variable {calendar : List ℤ} {session : ℤ}

theorem mem_declaredSessions : session ∈ declaredSessions calendar ↔ session ∈ calendar := by
  rw [declaredSessions, mem_sortedBy, List.mem_dedup]

theorem sorted_declaredSessions (calendar : List ℤ) :
    (declaredSessions calendar).Pairwise fun first second => first ≤ second :=
  pairwise_sortedBy id calendar.dedup

/-- What is moved to a session up to a later one counts up to that. -/
theorem counts_of_clamp {first last date : ℤ}
    (isLast : (declaredSessions calendar).getLast? = some last)
    (early : clampToSession (declaredSessions calendar) first last date ≤ session) :
    Counts calendar session date := by
  have latest : last ≤ session → Counts calendar session date := by
    intro le
    refine .inr ?_
    intro other isMember
    exact (le_of_getLast? (sorted_declaredSessions calendar) isLast
      (mem_declaredSessions.mpr isMember)).trans le
  rw [clampToSession] at early
  split at early
  case isTrue before => exact .inl (before.trans early)
  case isFalse =>
    split at early
    case isTrue => exact latest early
    case isFalse =>
      cases found : (declaredSessions calendar).find? fun session => date ≤ session with
      | none =>
        rw [found] at early
        exact latest early
      | some next =>
        rw [found] at early
        have reached : date ≤ next := by simpa using List.find?_some found
        exact .inl (reached.trans early)

/-- **Evidence that agrees up to a session gives each session up to it the same events.** -/
theorem eventsBySession_eq {first last until' : ℤ} {evidence other : Evidence}
    (isLast : (declaredSessions calendar).getLast? = some last)
    (agree : evidence.AgreeUntil calendar until' other) (early : session ≤ until') :
    eventsBySession (declaredSessions calendar) first last evidence session =
      eventsBySession (declaredSessions calendar) first last other session := by
  rw [eventsBySession, eventsBySession, filter_sortedBy, filter_sortedBy, filter_sortedBy,
    filter_sortedBy]
  congr 1
  · rw [filter_eq_of_filter_eq agree.cashflows]
    intro flow applies
    rw [decide_eq_true_eq] at applies ⊢
    exact counts_of_clamp isLast (applies.trans_le early)
  · refine filter_eq_of_filter_eq agree.executions ?_
    intro execution applies
    rw [decide_eq_true_eq] at applies ⊢
    exact applies.trans_le early
  · rw [filter_eq_of_filter_eq agree.marks]
    intro mark applies
    rw [decide_eq_true_eq] at applies ⊢
    exact counts_of_clamp isLast (applies.trans_le early)

/-! ## Two replays side by side -/

/-- The states show the same. -/
structure Alike (state other : FundedState) : Prop where
  sound : state.book.Sound
  sound' : other.book.Sound
  figures : state.book.SameFigures other.book
  contributions : state.contributionsCum = other.contributionsCum
  withdrawals : state.withdrawalsCum = other.withdrawalsCum
  realizedSymbols : state.realizedSymbols = other.realizedSymbols
  touchedSymbols : state.touchedSymbols = other.touchedSymbols
  lastMark : state.lastMark = other.lastMark

namespace Alike

variable {state other next next' : FundedState}

theorem start (startingCapital : ℚ) :
    Alike (.start (.new startingCapital)) (.start (.new startingCapital)) :=
  ⟨LedgerBook.sound_new _, LedgerBook.sound_new _, .refl _, rfl, rfl, rfl, rfl, rfl⟩

section

variable (alike : Alike state other)

include alike

theorem cash : state.cash = other.cash := by
  rw [FundedState.cash, FundedState.cash, alike.figures.cash, alike.contributions,
    alike.withdrawals]

theorem held : state.held = other.held := by
  rw [FundedState.held, FundedState.held, alike.touchedSymbols]
  simp only [alike.figures.quantity]

/-- **States that show the same give the same row.** -/
theorem fundedRow (session : ℤ) :
    fundedRow startingCapital session state = fundedRow startingCapital session other := by
  have realized : state.book.realized.get = other.book.realized.get :=
    funext alike.figures.realized
  simp only [Research.fundedRow, valueAccount, alike.cash, alike.held, alike.lastMark,
    alike.contributions, alike.withdrawals, alike.realizedSymbols, realized,
    alike.figures.totalFees]

theorem addFlow (amount : ℚ) : Alike (addFlow state amount) (addFlow other amount) := by
  rw [Research.addFlow, Research.addFlow]
  split
  case isTrue => exact { alike with contributions := congrArg (add · amount) alike.contributions }
  case isFalse =>
    exact { alike with
      withdrawals := congrArg (add · (roundContext (-amount))) alike.withdrawals }

theorem flow {session : ℤ} {amount : ℚ} (applied : applyFlow session state amount = .ok next)
    (applied' : applyFlow session other amount = .ok next') : Alike next next' := by
  rw [applyFlow] at applied applied'
  split at applied
  case isTrue => cases applied
  case isFalse =>
    split at applied'
    case isTrue => cases applied'
    case isFalse =>
      cases applied
      cases applied'
      exact alike.addFlow amount

theorem mark (mark : MarkObservation) : Alike (applyMark state mark) (applyMark other mark) :=
  { alike with
    lastMark := congrArg
      (fun marks : String → Option ℚ => Function.update marks mark.symbol (some mark.price))
      alike.lastMark }

theorem marks (marks : List MarkObservation) :
    Alike (marks.foldl applyMark state) (marks.foldl applyMark other) := by
  induction marks generalizing state other with
  | nil => exact alike
  | cons first rest ih => exact ih (alike.mark first)

end

end Alike

/-! ## Executions -/

theorem fill?_figures {symbol : String} {number : ℕ} {side : Side} {quantity : ℕ} {price fees : ℚ}
    {executionAt : ℤ} {fill : Fill}
    (minted : fill? candidateId symbol number side quantity price fees executionAt session =
      some fill) :
    ∃ contractId, idStr? symbol = some contractId ∧
      fill.figures = (contractId, side, quantity, price, 1, fees) := by
  rw [fill?] at minted
  simp only [Option.bind_eq_bind, Option.bind_eq_some_iff] at minted
  obtain ⟨fillId, -, orderId, -, contractId, stripped, minted⟩ := minted
  have said := Fill.mintedFrom minted
  refine ⟨contractId, stripped, ?_⟩
  rw [Fill.figures, said.contractId_eq, said.side_eq, said.quantity_eq, said.price_eq,
    said.multiplier_eq, said.fees_eq]

theorem applyToBook_eq_ok {book next : LedgerBook} {fill : Fill}
    (applied : applyToBook book fill = .ok next) : (Ledger.apply fill).run book = .ok () next := by
  rw [applyToBook] at applied
  split at applied
  case h_1 ran =>
    cases applied
    exact ran
  case h_2 => cases applied
  case h_3 => cases applied
  case h_4 => cases applied

variable {state next : FundedState}

/-- **What an execution does**: nothing, or one fill. -/
theorem applyExecution_eq_ok {execution : TradeExecution}
    (applied : applyExecution candidateId feeModel session state execution = .ok next) :
    execution.signedQuantity.natAbs = 0 ∧ next = state ∨
    ∃ contractId fees fill book,
      execution.signedQuantity.natAbs ≠ 0 ∧ idStr? execution.symbol = some contractId ∧
      executionFees feeModel execution execution.signedQuantity.natAbs = .ok fees ∧
      fill.figures = (contractId, if 0 < execution.signedQuantity then Side.buy else Side.sell,
        execution.signedQuantity.natAbs, execution.price, 1, fees) ∧
      (Ledger.apply fill).run state.book = .ok () book ∧
      next = { state with
        book := book
        touchedSymbols := FundedState.note state.touchedSymbols execution.symbol
        realizedSymbols :=
          if (if 0 < execution.signedQuantity then Side.buy else Side.sell) = .sell then
            FundedState.note state.realizedSymbols execution.symbol
          else state.realizedSymbols
        fillSeq := state.fillSeq + 1 } := by
  rw [applyExecution] at applied
  dsimp only at applied
  split at applied
  case isTrue none' =>
    cases applied
    exact .inl ⟨none', rfl⟩
  case isFalse some' =>
    simp only [Checked.bind_eq_ok] at applied
    obtain ⟨notional, -, fees, isFees, _, -, executionAt, -, applied⟩ := applied
    split at applied
    case h_1 => cases applied
    case h_2 fill minted =>
      obtain ⟨book, ran, same⟩ := Checked.bind_eq_ok.mp applied
      obtain ⟨contractId, stripped, figures⟩ := fill?_figures minted
      cases same
      exact .inr ⟨contractId, fees, fill, book, some', stripped, isFees, figures,
        applyToBook_eq_ok ran, rfl⟩

/-- **The same execution leaves states that show the same.** -/
theorem Alike.execution {other next' : FundedState} (alike : Alike state other)
    {execution : TradeExecution}
    (applied : applyExecution candidateId feeModel session state execution = .ok next)
    (applied' : applyExecution candidateId' feeModel session other execution = .ok next') :
    Alike next next' := by
  rcases applyExecution_eq_ok applied with ⟨none', rfl⟩ |
    ⟨contractId, fees, fill, book, some', stripped, isFees, figures, ran, rfl⟩
  · rcases applyExecution_eq_ok applied' with ⟨-, rfl⟩ | ⟨_, _, _, _, some', -⟩
    · exact alike
    · exact absurd none' some'
  rcases applyExecution_eq_ok applied' with ⟨none', -⟩ |
    ⟨contractId', fees', fill', book', -, stripped', isFees', figures', ran', rfl⟩
  · exact absurd none' some'
  have sameFill : fill.figures = fill'.figures := by
    rw [stripped] at stripped'
    rw [isFees] at isFees'
    cases stripped'
    cases isFees'
    rw [figures, figures']
  exact {
    sound := alike.sound.of_apply ran
    sound' := alike.sound'.of_apply ran'
    figures := alike.figures.apply alike.sound.exact alike.sound'.exact sameFill ran ran'
    contributions := alike.contributions
    withdrawals := alike.withdrawals
    realizedSymbols := by simp only [alike.realizedSymbols]
    touchedSymbols := congrArg (FundedState.note · execution.symbol) alike.touchedSymbols
    lastMark := alike.lastMark }

/-! ## Sessions -/

theorem replaySession_eq_ok {events : ℤ → SessionEvents} {row : FundedRow}
    (replayed : replaySession candidateId feeModel startingCapital events session state =
      .ok (next, row)) :
    ∃ flowed traded, (events session).flows.foldlM (applyFlow session) state = .ok flowed ∧
      (events session).executions.foldlM (applyExecution candidateId feeModel session) flowed =
        .ok traded ∧
      next = (events session).marks.foldl applyMark traded ∧
      fundedRow startingCapital session next = .ok row := by
  rw [replaySession] at replayed
  obtain ⟨flowed, isFlowed, replayed⟩ := Checked.bind_eq_ok.mp replayed
  obtain ⟨traded, isTraded, replayed⟩ := Checked.bind_eq_ok.mp replayed
  obtain ⟨row', isRow, same⟩ := Checked.bind_eq_ok.mp replayed
  cases same
  exact ⟨flowed, traded, isFlowed, isTraded, rfl, isRow⟩

/-- **A session with the same events gives the same row.** -/
theorem Alike.replaySession {events events' : ℤ → SessionEvents}
    (sameEvents : events session = events' session) {other next' : FundedState}
    {row row' : FundedRow} (alike : Alike state other)
    (replayed : replaySession candidateId feeModel startingCapital events session state =
      .ok (next, row))
    (replayed' : Research.replaySession candidateId' feeModel startingCapital events' session
      other = .ok (next', row')) : Alike next next' ∧ row = row' := by
  obtain ⟨flowed, traded, isFlowed, isTraded, rfl, isRow⟩ := replaySession_eq_ok replayed
  obtain ⟨flowed', traded', isFlowed', isTraded', rfl, isRow'⟩ := replaySession_eq_ok replayed'
  rw [← sameEvents] at isFlowed' isTraded' isRow' ⊢
  have afterFlows : Alike flowed flowed' := by
    refine Checked.foldlM_alike Alike ?_ alike isFlowed isFlowed'
    intro amount _ state state' next next' related applied applied'
    exact related.flow applied applied'
  have afterTrades : Alike traded traded' := by
    refine Checked.foldlM_alike Alike ?_ afterFlows isTraded isTraded'
    intro execution _ state state' next next' related applied applied'
    exact related.execution applied applied'
  have afterMarks := afterTrades.marks (events session).marks
  refine ⟨afterMarks, ?_⟩
  rw [afterMarks.fundedRow, isRow'] at isRow
  exact (Except.ok.inj isRow).symm

theorem date_of_fundedRow {row : FundedRow}
    (isRow : fundedRow startingCapital session state = .ok row) : row.date = session := by
  simp only [fundedRow, Checked.bind_eq_ok] at isRow
  obtain ⟨_, -, _, -, _, -, _, -, _, -, _, -, same⟩ := isRow
  cases same
  rfl

/-! ## Runs -/

theorem runFundedAccount_eq_ok {evidence : Evidence} {run : FundedRun}
    (ran : runFundedAccount candidateId startingCapital calendar evidence feeModel = .ok run)
    (rows : run.rows ≠ []) :
    ∃ first last state, (declaredSessions calendar).head? = some first ∧
      (declaredSessions calendar).getLast? = some last ∧
      runSessions (replaySession candidateId feeModel startingCapital
        (eventsBySession (declaredSessions calendar) first last evidence))
        (declaredSessions calendar) (.start (.new startingCapital)) = .ok (state, run.rows) := by
  revert ran
  fun_cases runFundedAccount candidateId startingCapital calendar evidence feeModel with
  | case3 _ sessions first last isLast isFirst _ _ =>
    generalize replayed : runSessions _ sessions _ = replay
    fun_cases finish candidateId replay with
    | case4 state rows' =>
      rintro ⟨⟩
      exact ⟨first, last, state, isFirst, isLast, replayed⟩
    | case2 =>
      rintro ⟨⟩
      exact absurd rfl rows
    | _ => exact nofun
  | _ =>
    rintro ⟨⟩
    exact absurd rfl rows

/-- **The rows up to a session depend on the evidence that applies up to it**, whatever the
candidates are called. -/
theorem noLookAhead {calendar : List ℤ} {session : ℤ} {evidence other : Evidence}
    {run run' : FundedRun} (agree : evidence.AgreeUntil calendar session other)
    (ran : runFundedAccount candidateId startingCapital calendar evidence feeModel = .ok run)
    (ran' : runFundedAccount candidateId' startingCapital calendar other feeModel = .ok run')
    (rows : run.rows ≠ []) (rows' : run'.rows ≠ []) :
    (run.rows.filter fun row => row.date ≤ session) =
      run'.rows.filter fun row => row.date ≤ session := by
  obtain ⟨first, last, state, isFirst, isLast, replayed⟩ := runFundedAccount_eq_ok ran rows
  obtain ⟨first', last', state', isFirst', isLast', replayed'⟩ := runFundedAccount_eq_ok ran' rows'
  rw [isFirst] at isFirst'
  rw [isLast] at isLast'
  cases isFirst'
  cases isLast'
  have split := split_sorted (sorted_declaredSessions calendar) session
  have dated : ∀ {candidateId : String} {evidence : Evidence} {state : FundedState}
      {rows : List FundedRow},
      runSessions (replaySession candidateId feeModel startingCapital
        (eventsBySession (declaredSessions calendar) first last evidence))
        (declaredSessions calendar) (.start (.new startingCapital)) = .ok (state, rows) →
      (rows.filter fun row => row.date ≤ session) =
        rows.take ((declaredSessions calendar).filter fun date => date ≤ session).length := by
    intro candidateId evidence state rows replayed
    have dates := (runSessions_invariant (fun _ => True) (fun date row => row.date = date) (by
      intro session _ state next row _ replayed
      obtain ⟨_, _, -, -, -, isRow⟩ := replaySession_eq_ok replayed
      exact ⟨trivial, date_of_fundedRow isRow⟩) trivial replayed).2
    rw [split] at dates
    refine filter_rows FundedRow.date dates ?_ ?_
    · intro date isMember
      simpa using List.of_mem_filter isMember
    · intro date isMember
      simpa using List.of_mem_filter isMember
  rw [dated replayed, dated replayed']
  rw [split] at replayed replayed'
  refine rows_agree Alike (.start startingCapital) ?_ replayed replayed'
  intro date isMember state state' next next' row row' alike step step'
  have early : date ≤ session := by simpa using List.of_mem_filter isMember
  refine alike.replaySession ?_ step step'
  rw [← split]
  exact eventsBySession_eq isLast agree early

/-! ## The last session -/

def shownContributions (result : Except FundedError FundedRun) : Option (List (ℤ × ℚ)) :=
  match result with
  | .ok run => some (run.rows.map fun row => (row.date, row.contributionsCum))
  | .error _ => none

theorem exists_of_shown {result : Except FundedError FundedRun} {shown : List (ℤ × ℚ)}
    (isShown : shownContributions result = some shown) :
    ∃ run, result = .ok run ∧
      (run.rows.map fun row => (row.date, row.contributionsCum)) = shown := by
  cases result with
  | error error => cases isShown
  | ok run => exact ⟨run, rfl, Option.some.inj isShown⟩

def contributed (date : ℤ) (amount : ℚ) : Evidence :=
  ⟨[], [], [⟨date, amount⟩]⟩

theorem noLookAhead_sample :
    ∃ run run', runFundedAccount "first" 100 [0, 1] (contributed 1 5) none = .ok run ∧
      runFundedAccount "second" 100 [0, 1] (contributed 1 7) none = .ok run' ∧
      (run.rows.filter fun row => row.date ≤ 0) = run'.rows.filter fun row => row.date ≤ 0 := by
  have shown : shownContributions
      (runFundedAccount "first" 100 [0, 1] (contributed 1 5) none) = some [(0, 0), (1, 5)] := by
    decide +kernel
  have shown' : shownContributions
      (runFundedAccount "second" 100 [0, 1] (contributed 1 7) none) = some [(0, 0), (1, 7)] := by
    decide +kernel
  obtain ⟨run, ran, rows⟩ := exists_of_shown shown
  obtain ⟨run', ran', rows'⟩ := exists_of_shown shown'
  have agree : (contributed 1 5).AgreeUntil [0, 1] 0 (contributed 1 7) := by
    refine ⟨rfl, rfl, ?_⟩
    simp [contributed, Counts]
  have some' : run.rows ≠ [] := by
    intro empty
    simp [empty] at rows
  have some'' : run'.rows ≠ [] := by
    intro empty
    simp [empty] at rows'
  exact ⟨run, run', ran, ran', noLookAhead agree ran ran' some' some''⟩

theorem later_flow_moves_back :
    ∃ run run', runFundedAccount "first" 100 [0] (contributed 1 5) none = .ok run ∧
      runFundedAccount "first" 100 [0] (contributed 1 7) none = .ok run' ∧
      run.rows ≠ [] ∧ run'.rows ≠ [] ∧
      ((contributed 1 5).executions.filter fun execution => execution.date ≤ 0) =
        ((contributed 1 7).executions.filter fun execution => execution.date ≤ 0) ∧
      ((contributed 1 5).marks.filter fun mark => mark.date ≤ 0) =
        ((contributed 1 7).marks.filter fun mark => mark.date ≤ 0) ∧
      ((contributed 1 5).cashflows.filter fun flow => flow.date ≤ 0) =
        ((contributed 1 7).cashflows.filter fun flow => flow.date ≤ 0) ∧
      (run.rows.filter fun row => row.date ≤ 0) ≠ run'.rows.filter fun row => row.date ≤ 0 := by
  have shown : shownContributions
      (runFundedAccount "first" 100 [0] (contributed 1 5) none) = some [(0, 5)] := by
    decide +kernel
  have shown' : shownContributions
      (runFundedAccount "first" 100 [0] (contributed 1 7) none) = some [(0, 7)] := by
    decide +kernel
  obtain ⟨run, ran, rows⟩ := exists_of_shown shown
  obtain ⟨run', ran', rows'⟩ := exists_of_shown shown'
  obtain ⟨row, isRow⟩ : ∃ row, run.rows = [row] := List.length_eq_one_iff.mp (by
    simpa using congrArg List.length rows)
  obtain ⟨row', isRow'⟩ : ∃ row, run'.rows = [row] := List.length_eq_one_iff.mp (by
    simpa using congrArg List.length rows')
  rw [isRow] at rows
  rw [isRow'] at rows'
  simp only [List.map_cons, List.map_nil, List.cons.injEq, Prod.mk.injEq, and_true] at rows rows'
  refine ⟨run, run', ran, ran', ?_, ?_, rfl, rfl, ?_, ?_⟩
  · simp [isRow]
  · simp [isRow']
  · simp [contributed]
  · rw [isRow, isRow', List.filter_cons_of_pos (by simp [rows.1]),
      List.filter_cons_of_pos (by simp [rows'.1])]
    intro same
    have shows' := congrArg FundedRow.contributionsCum (List.cons.inj same).1
    rw [rows.2, rows'.2] at shows'
    norm_num at shows'

end TreeOptions.Research
