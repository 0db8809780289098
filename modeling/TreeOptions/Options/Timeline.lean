import TreeOptions.Options.Positions

/-!
# The timeline of the ledger

Fills are stamped with 10:00 of their session. A settlement is stamped with what it waits for: the
publication of a bar, an announcement, or 23:00 UTC of a session without a bar. All of it falls
between 10:00 of the session and the open of the next one (`stamp_bounds`), so nothing runs backwards
from one session to the next.

Within one session the settlements are applied by kind and by contract, whatever their stamps are.
A run is refused for the order of its events where these disagree.
-/

set_option autoImplicit false

namespace TreeOptions.Options

open Backtest Checked Decimal Ledger

variable {Snapshot : Type} {input : OptionsInput Snapshot} {session instant ending : ℤ}
  {state next : OptionsState}

/-! ## Bars -/

structure PublishedInTime (input : OptionsInput Snapshot) (bar : PublishedBar) : Prop where
  afterClose : bar.session ∈ input.calendar.sessions →
    input.calendar.sessionClose bar.session ≤ bar.availableAt
  beforeOpen : ∀ later ∈ input.calendar.sessions, bar.session < later →
    bar.availableAt ≤ input.calendar.sessionOpen later

variable {underlyingId : String}

theorem barAt_eq_some {bar : PublishedBar} (found : barAt input underlyingId session = some bar) :
    bar ∈ input.bars ∧ bar.session = session := by
  rw [barAt] at found
  have named := List.find?_some found
  simp only [decide_eq_true_eq] at named
  exact ⟨List.mem_reverse.mp (List.mem_of_find?_eq_some found), named.2⟩

theorem lastBarAtOrBefore_eq_some {bar : PublishedBar}
    (found : lastBarAtOrBefore input underlyingId session = some bar) :
    bar ∈ input.bars ∧ bar.session ≤ session := by
  obtain ⟨isMember, named⟩ := List.mem_filter.mp (mem_of_greatestBy found)
  simp only [decide_eq_true_eq] at named
  exact ⟨List.mem_reverse.mp isMember, named.2⟩

/-! ## Stamps -/

/-- What is due by an action has taken effect, and was announced by the horizon. What is due without
one is no delisting and no merger. -/
def DueBy (session ending : ℤ) (due : Due) : Prop :=
  match due.action with
  | some action => action.effectiveSession ≤ session ∧ action.availableAt ≤ ending
  | none => due.kind ≠ .terminal

variable {due : Due}

theorem dueBy_of_terminal (isDue : due ∈ terminalDues input session ending state) :
    DueBy session ending due := by
  obtain ⟨contractId, -, selected⟩ := List.mem_filterMap.mp isDue
  obtain ⟨position, -, selected⟩ := Option.bind_eq_some_iff.mp selected
  obtain ⟨action, isAction, rfl⟩ := Option.map_eq_some_iff.mp selected
  have announced := List.find?_some isAction
  simp only [decide_eq_true_eq] at announced
  exact announced.2

variable {claimed : List String}

theorem dueBy_of_silent (isDue : due ∈ silentDues input session state claimed) :
    DueBy session ending due := by
  obtain ⟨contractId, -, selected⟩ := List.mem_filterMap.mp isDue
  obtain ⟨position, -, selected⟩ := Option.bind_eq_some_iff.mp selected
  split at selected
  case isTrue =>
    cases selected
    exact DueKind.noConfusion
  case isFalse => cases selected

variable {elected : List (String × ℕ)}

theorem dueBy_of_elected (isDue : due ∈ electedDues state claimed elected) :
    DueBy session ending due := by
  obtain ⟨election, -, selected⟩ := List.mem_filterMap.mp isDue
  split at selected
  case isTrue => cases selected
  case isFalse =>
    cases selected
    exact DueKind.noConfusion

variable {dues : List Due}

theorem dueBy_of_expiryDue {after : List Due} {contractId : String}
    (before : ∀ due ∈ dues, DueBy session ending due)
    (stepped : expiryDue input session state claimed dues contractId = .ok after) :
    ∀ due ∈ after, DueBy session ending due := by
  rw [expiryDue] at stepped
  obtain ⟨contract, -, stepped⟩ := bind_eq_ok.mp stepped
  cases stepped
  split
  case isFalse => exact before
  case isTrue =>
    exact List.forall_mem_append.mpr ⟨before, List.forall_mem_singleton.mpr DueKind.noConfusion⟩

/-- **Everything that is due was announced by the horizon.** -/
theorem dueBy_of_settlementsDue (isDue : settlementsDue input session state elected = .ok dues) :
    ∃ ending, horizon input session = .ok ending ∧ ∀ due ∈ dues, DueBy session ending due := by
  rw [settlementsDue] at isDue
  obtain ⟨ending, isHorizon, isDue⟩ := bind_eq_ok.mp isDue
  dsimp only at isDue
  obtain ⟨all, folded, same⟩ := bind_eq_ok.mp isDue
  cases same
  refine ⟨ending, isHorizon, fun due isMember => ?_⟩
  refine foldlM_keeps (fun dues => ∀ due ∈ dues, DueBy session ending due)
    (fun contractId _ dues after before stepped => dueBy_of_expiryDue before stepped)
    ?_ folded due (mem_sortedBy.mp isMember)
  intro due isMember
  rcases List.mem_append.mp isMember with isEarlier | isElected
  · rcases List.mem_append.mp isEarlier with isTerminal | isSilent
    · exact dueBy_of_terminal isTerminal
    · exact dueBy_of_silent isSilent
  · exact dueBy_of_elected isElected

/-! ## Instants of a session -/

theorem executionInstant_eq_ok (isInstant : executionInstant input session = .ok instant) :
    session ∈ input.calendar.sessions ∧
      instant = input.calendar.sessionOpen session + 1800 * microseconds := by
  rw [executionInstant] at isInstant
  obtain ⟨openAt, isOpen, shifted⟩ := bind_eq_ok.mp isInstant
  obtain ⟨position, isPosition, same⟩ := bind_eq_ok.mp isOpen
  cases same
  have isSession := TradingCalendar.position_eq_some.mp (orRaise_eq_ok.mp isPosition)
  exact ⟨List.mem_of_getElem? isSession, (shiftInstant_eq_some.mp (orRaise_eq_ok.mp shifted)).2⟩

theorem instant_le_open (isInstant : executionInstant input session = .ok instant) {later : ℤ}
    (isLater : later ∈ input.calendar.sessions) (less : session < later) :
    instant ≤ input.calendar.sessionOpen later := by
  obtain ⟨isSession, rfl⟩ := executionInstant_eq_ok isInstant
  exact (input.calendar.window_le_close _ isSession).trans
    (input.calendar.ordered _ isSession _ isLater less).le

theorem horizon_le_open (isHorizon : horizon input session = .ok ending) {later : ℤ}
    (isLater : later ∈ input.calendar.sessions) (less : session < later) :
    ending ≤ input.calendar.sessionOpen later := by
  rw [horizon] at isHorizon
  split at isHorizon
  case h_1 following isNext =>
    obtain ⟨position, -, same⟩ := bind_eq_ok.mp isHorizon
    cases same
    rcases (TradingCalendar.nthAfter_le isNext isLater less).eq_or_lt with same | before
    · exact same ▸ le_rfl
    · have isFollowing := TradingCalendar.mem_of_nthAfter isNext
      exact (input.calendar.opens _ isFollowing).trans
        (input.calendar.ordered _ isFollowing _ isLater before).le
  case h_2 =>
    obtain ⟨position, isPosition, same⟩ := bind_eq_ok.mp isHorizon
    cases same
    have isSession := List.mem_of_getElem?
      (TradingCalendar.position_eq_some.mp (orRaise_eq_ok.mp isPosition))
    exact (input.calendar.ordered _ isSession _ isLater less).le

variable {bound : ℤ}

theorem bar_of_or {fallback : Option PublishedBar} {error : StrategyError} {bar : PublishedBar}
    (latest : ∀ bar, fallback = some bar → bar ∈ input.bars ∧ bar.session ≤ bound)
    (found : orRaise error ((barAt input underlyingId bound).or fallback) = .ok bar) :
    bar ∈ input.bars ∧ bar.session ≤ bound := by
  rcases Option.or_eq_some_iff.mp (orRaise_eq_ok.mp found) with isBar | ⟨-, isLatest⟩
  · obtain ⟨isMember, same⟩ := barAt_eq_some isBar
    exact ⟨isMember, same.le⟩
  · exact latest bar isLatest

/-- **A settlement is stamped between 10:00 of its session and the open of the next one.** -/
theorem stamp_bounds (published : ∀ bar ∈ input.bars, PublishedInTime input bar)
    (isInstant : executionInstant input session = .ok instant)
    (isHorizon : horizon input session = .ok ending) (dueBy : DueBy session ending due) {stamp : ℤ}
    (stamped : settlementStamp input session instant due = .ok stamp) :
    instant ≤ stamp ∧ ∀ later ∈ input.calendar.sessions, session < later →
      stamp ≤ input.calendar.sessionOpen later := by
  obtain ⟨isSession, isWindow⟩ := executionInstant_eq_ok isInstant
  have window : instant ≤ input.calendar.sessionClose session :=
    isWindow ▸ input.calendar.window_le_close _ isSession
  rw [settlementStamp] at stamped
  obtain ⟨contract, -, stamped⟩ := bind_eq_ok.mp stamped
  obtain ⟨reference, referred, same⟩ := bind_eq_ok.mp stamped
  cases same
  rw [referenceOf] at referred
  rw [DueBy] at dueBy
  cases isAction : due.action with
  | some action =>
    simp only [isAction] at referred dueBy
    obtain ⟨bar, isBar, same⟩ := bind_eq_ok.mp referred
    cases same
    obtain ⟨isMember, early⟩ := bar_of_or (fun _ => lastBarAtOrBefore_eq_some) isBar
    refine ⟨le_max_right _ _, fun later isLater less => max_le (max_le ?_ ?_) ?_⟩
    · exact dueBy.2.trans (horizon_le_open isHorizon isLater less)
    · exact (published bar isMember).beforeOpen later isLater
        ((early.trans dueBy.1).trans_lt less)
    · exact instant_le_open isInstant isLater less
  | none =>
    simp only [isAction] at referred dueBy
    obtain ⟨bar, isBar, same⟩ := bind_eq_ok.mp referred
    cases same
    dsimp only
    split
    case isTrue =>
      refine ⟨window.trans (input.calendar.close_le_wall _ isSession), ?_⟩
      exact fun later isLater less => (input.calendar.wall_lt_open _ _ isLater less).le
    case isFalse alive =>
      -- neither a delisting nor a death: the bar is that of the session
      have living : due.kind.settles ≠ .terminal := by
        cases kind : due.kind with
        | earlyExercise => exact SettlementKind.noConfusion
        | expiry => exact SettlementKind.noConfusion
        | terminal => exact absurd kind dueBy
        | terminalSilent => exact absurd kind alive
      rw [if_neg living, Option.or_none] at isBar
      obtain ⟨isMember, rfl⟩ := barAt_eq_some (orRaise_eq_ok.mp isBar)
      exact ⟨window.trans ((published bar isMember).afterClose isSession),
        fun later isLater less => (published bar isMember).beforeOpen later isLater less⟩

/-! ## The order within a session -/

/-- The stamps of what is due do not run backwards. -/
def StampsInOrder (input : OptionsInput Snapshot) (session instant : ℤ) (dues : List Due) : Prop :=
  dues.Pairwise fun first second =>
    ∀ stamp, settlementStamp input session instant first = .ok stamp →
      ∀ later, settlementStamp input session instant second = .ok later → stamp ≤ later

instance (input : OptionsInput Snapshot) (session instant : ℤ) (dues : List Due) :
    Decidable (StampsInOrder input session instant dues) :=
  List.instDecidablePairwise dues

def SettlesInOrder (input : OptionsInput Snapshot) (session : ℤ) (state : OptionsState) : Prop :=
  ∀ instant, executionInstant input session = .ok instant →
    ∀ traded, tradeSession input session instant state = .ok traded →
      ∀ dues, settlementsDue input session traded.1 traded.2 = .ok dues →
        StampsInOrder input session instant dues

instance (input : OptionsInput Snapshot) (session : ℤ) (state : OptionsState) :
    Decidable (SettlesInOrder input session state) :=
  inferInstanceAs (Decidable (∀ instant, executionInstant input session = .ok instant →
    ∀ traded, tradeSession input session instant state = .ok traded →
      ∀ dues, settlementsDue input session traded.1 traded.2 = .ok dues →
        StampsInOrder input session instant dues))

theorem precedes_mono {book : LedgerBook} {later : ℤ} (le : bound ≤ later)
    (before : book.Precedes later) : book.Precedes bound := by
  obtain ⟨last, isLast, less⟩ := before
  exact ⟨last, isLast, le.trans_lt less⟩

theorem Settled.precedes (settled : Settled input session instant dues state next)
    (stamps : ∀ due ∈ dues, ∀ stamp, settlementStamp input session instant due = .ok stamp →
      stamp ≤ bound) (before : next.ledger.Precedes bound) : state.ledger.Precedes bound := by
  induction settled with
  | nil => exact before
  | @cons due dues state middle next settles rest ih =>
    have passed := ih (List.forall_mem_cons.mp stamps).2 before
    obtain ⟨settlement, -, -, stamped, closes⟩ := settles.settled
    exact absurd (closes.accepts.precedes.mp passed)
      (not_lt.mpr (stamps due List.mem_cons_self _ stamped))

/-- **Settlements in the order of their stamps are not refused for their order.** -/
theorem not_outOfOrder_of_raisesAt {error : OptionsError}
    (raised : RaisesAt input session instant dues state error)
    (started : ¬ state.ledger.Precedes instant)
    (bounded : ∀ due ∈ dues, ∀ stamp, settlementStamp input session instant due = .ok stamp →
      instant ≤ stamp) (inOrder : StampsInOrder input session instant dues) :
    ¬ error.OutOfOrder := by
  intro outOfOrder
  obtain ⟨before, due, after, middle, stamp, rfl, settled, stamped, passed⟩ := raised outOfOrder
  obtain ⟨-, -, ordered⟩ := List.pairwise_append.mp inOrder
  refine started (precedes_mono (bounded due (by simp) stamp stamped) ?_)
  refine settled.precedes ?_ passed
  intro other isMember earlier isEarlier
  exact ordered other isMember due List.mem_cons_self earlier isEarlier stamp stamped

/-! ## The order from one session to the next -/

/-- **A session whose settlements are in order is not refused for the order of its events.** -/
theorem not_outOfOrder_of_raisesIn (published : ∀ bar ∈ input.bars, PublishedInTime input bar)
    {error : OptionsError} (raised : RaisesIn input session state error)
    (started : ¬ state.ledger.Precedes (input.calendar.sessionOpen session))
    (inOrder : SettlesInOrder input session state) : ¬ error.OutOfOrder := by
  intro outOfOrder
  obtain ⟨instant, isInstant, raised⟩ := raised outOfOrder
  have open_le : input.calendar.sessionOpen session ≤ instant := by
    rw [(executionInstant_eq_ok isInstant).2, microseconds]
    omega
  rcases raised with before | ⟨traded, elected, dues, ran, trades, isDue, raised⟩
  · exact started (precedes_mono open_le before)
  · have traded_le : ¬ traded.ledger.Precedes instant :=
      fun before => started (precedes_mono open_le (trades.precedes before))
    obtain ⟨ending, isHorizon, dueBy⟩ := dueBy_of_settlementsDue isDue
    refine not_outOfOrder_of_raisesAt raised traded_le ?_
      (inOrder instant isInstant (traded, elected) ran dues isDue) outOfOrder
    intro due isMember stamp stamped
    exact (stamp_bounds published isInstant isHorizon (dueBy due isMember) stamped).1

/-- **A session leaves the book by the open of the next one.** -/
theorem Played.precedes_open (published : ∀ bar ∈ input.bars, PublishedInTime input bar)
    (played : Played input session state next) {later : ℤ}
    (isLater : later ∈ input.calendar.sessions) (less : session < later)
    (before : next.ledger.Precedes (input.calendar.sessionOpen later)) :
    state.ledger.Precedes (input.calendar.sessionOpen session) := by
  obtain ⟨isInstant, trades, -, isDue, -, settles, decides⟩ := played
  obtain ⟨ending, isHorizon, dueBy⟩ := dueBy_of_settlementsDue isDue
  rw [decides.ledger] at before
  have passed := settles.precedes (fun due isMember stamp stamped =>
    (stamp_bounds published isInstant isHorizon (dueBy due isMember) stamped).2 later isLater less)
    before
  have traded := trades.precedes (precedes_mono (instant_le_open isInstant isLater less) passed)
  refine precedes_mono ?_ traded
  rw [(executionInstant_eq_ok isInstant).2, microseconds]
  omega

theorem Quiet.chronological (same : Quiet state next) (before : state.ledger.Chronological) :
    next.ledger.Chronological :=
  same.ledger ▸ before

theorem Trade.chronological (trade : Trade input session instant state next)
    (before : state.ledger.Chronological) : next.ledger.Chronological := by
  cases trade with
  | quiet same => exact same.chronological before
  | entry fill stamped opens => exact opens.accepts.chronological before
  | sale fill note stamped closes whole => exact closes.accepts.chronological before

theorem Trades.chronological (trades : Trades input session instant state next)
    (before : state.ledger.Chronological) : next.ledger.Chronological := by
  induction trades with
  | refl => exact before
  | tail _ trade ih => exact trade.chronological ih

theorem Settled.chronological (settled : Settled input session instant dues state next)
    (before : state.ledger.Chronological) : next.ledger.Chronological := by
  induction settled with
  | nil => exact before
  | cons settles rest ih =>
    obtain ⟨settlement, -, -, -, closes⟩ := settles.settled
    exact ih (closes.accepts.chronological before)

/-- **The events of the book are in the order of their stamps.** -/
theorem Played.chronological (played : Played input session state next)
    (before : state.ledger.Chronological) : next.ledger.Chronological := by
  obtain ⟨-, trades, -, -, -, settles, decides⟩ := played
  have traded := Trades.chronological trades (by exact before)
  exact decides.chronological (settles.chronological traded)

/-! ## Runs -/

/-- In every session that a run comes to, the settlements are in order. -/
def SettlementsInOrder (input : OptionsInput Snapshot) : Prop :=
  ∀ earliest early session later before state rows,
    runBounds input = .ok (earliest, early ++ session :: later) →
      beforeFirst input earliest = .ok before →
        runSessions (runSession input) early before = .ok (state, rows) →
          SettlesInOrder input session state

theorem runBounds_sessions {earliest : ℤ} {sessions : List ℤ}
    (bounds : runBounds input = .ok (earliest, sessions)) :
    sessions.Pairwise (· < ·) ∧ ∀ session ∈ sessions, session ∈ input.calendar.sessions := by
  suffices selected : ∃ first terminal,
      sessions = runSessionsOf input.calendar.toTradingCalendar first terminal by
    obtain ⟨first, terminal, rfl⟩ := selected
    exact ⟨input.calendar.increasing.filter _,
      fun session isMember => List.mem_of_mem_filter isMember⟩
  rw [runBounds] at bounds
  obtain ⟨_, -, bounds⟩ := bind_eq_ok.mp bounds
  obtain ⟨_, -, bounds⟩ := bind_eq_ok.mp bounds
  obtain ⟨first, -, bounds⟩ := bind_eq_ok.mp bounds
  dsimp only at bounds
  -- the last session is given, or follows the last decision
  split at bounds
  all_goals
    obtain ⟨terminal, -, bounds⟩ := bind_eq_ok.mp bounds
    obtain ⟨_, -, bounds⟩ := bind_eq_ok.mp bounds
    obtain ⟨_, -, bounds⟩ := bind_eq_ok.mp bounds
    obtain ⟨_, -, same⟩ := bind_eq_ok.mp bounds
    cases same
    exact ⟨first, terminal, rfl⟩

/-- **Sessions whose settlements are in order are not refused for the order of their events.** -/
theorem ensures_runSessions (published : ∀ bar ∈ input.bars, PublishedInTime input bar)
    {sessions : List ℤ} (increasing : sessions.Pairwise (· < ·))
    (onGrid : ∀ session ∈ sessions, session ∈ input.calendar.sessions)
    (ready : Ready input state)
    (started : ∀ session ∈ sessions,
      ¬ state.ledger.Precedes (input.calendar.sessionOpen session))
    (inOrder : ∀ early session later middle rows, sessions = early ++ session :: later →
      runSessions (runSession input) early state = .ok (middle, rows) →
        SettlesInOrder input session middle) :
    Ensures (fun error => ¬ error.OutOfOrder) (fun _ => True)
      (runSessions (runSession input) sessions state) := by
  induction sessions generalizing state with
  | nil => exact trivial
  | cons session sessions ih =>
    obtain ⟨first, others⟩ := List.pairwise_cons.mp increasing
    have stepped : Ensures (RaisesIn input session state)
        (fun ran => Played input session state ran.1) (runSession input session state) :=
      ensures_runSession ready
    rw [runSessions]
    refine Ensures.bind (stepped.mono ?_ fun _ => id) ?_
    · intro error raised
      exact not_outOfOrder_of_raisesIn published raised (started session List.mem_cons_self)
        (inOrder [] session sessions state [] rfl rfl)
    rintro ⟨next, row⟩ ran played
    refine Ensures.bind (ih others (fun later isMember =>
      onGrid later (List.mem_cons_of_mem _ isMember)) (played.ready ready) ?_ ?_) fun _ _ _ => trivial
    · intro later isMember before
      exact started session List.mem_cons_self (played.precedes_open published
        (onGrid later (List.mem_cons_of_mem _ isMember)) (first later isMember) before)
    · rintro early session' later middle rows rfl ranEarly
      exact inOrder (session :: early) session' later middle (row :: rows) rfl
        (runSessions_cons_eq_ok.mpr ⟨next, row, rows, ran, ranEarly, rfl⟩)

theorem ensures_runOptionsBacktest {Real Summary : Type}
    (statistics : OptionsStatistics Real Summary)
    (published : ∀ bar ∈ input.bars, PublishedInTime input bar)
    (inOrder : SettlementsInOrder input) :
    Ensures (fun error => ¬ error.OutOfOrder) (fun _ => True)
      (runOptionsBacktest statistics input) := by
  have others : ∀ error : OptionsError, ¬ error.OutOfOrder → ¬ error.OutOfOrder := fun _ => id
  rw [runOptionsBacktest]
  refine Ensures.bind (ensures_lift others fun checked isChecked => isChecked) ?_
  intro _ _ _
  refine Ensures.bind (ensures_lift others fun bounds isBounds => isBounds) ?_
  rintro ⟨earliest, sessions⟩ - bounds
  refine Ensures.bind (ensures_lift others fun before isBefore => isBefore) ?_
  intro before _ isBefore
  obtain ⟨increasing, onGrid⟩ := runBounds_sessions bounds
  have fresh : ∀ instant, ¬ before.ledger.Precedes instant := by
    rintro instant ⟨last, isLast, -⟩
    rw [(beforeFirst_eq_ok isBefore).ledger] at isLast
    cases isLast
  refine Ensures.bind (ensures_runSessions published increasing onGrid
    (ready_beforeFirst isBefore) (fun session _ => fresh _) ?_) ?_
  · rintro early session later middle rows rfl ran
    exact inOrder earliest early session later before middle rows bounds isBefore ran
  · intro _ _ _
    exact Ensures.bind (ensures_lift others fun _ _ => trivial) fun _ _ _ => trivial

/-- **The ledger never runs backwards**, where the settlements of each session are in the order of
their stamps: no run is refused for the order of its events, and in every state that a run reaches
the events are in the order of their stamps. -/
theorem timeline_never_backwards {Real Summary : Type}
    (statistics : OptionsStatistics Real Summary)
    (published : ∀ bar ∈ input.bars, PublishedInTime input bar)
    (inOrder : SettlementsInOrder input) :
    (∀ error, runOptionsBacktest statistics input = .error error → ¬ error.OutOfOrder) ∧
      ∀ session state, ReachedAfter input session state →
        (state.ledger.events.map Event.stamp).Pairwise (· ≤ ·) := by
  constructor
  · intro error failed
    exact (ensures_runOptionsBacktest statistics published inOrder).of_error failed
  · intro session state reached
    obtain ⟨-, -, isBefore, ran⟩ := reached
    have initially : (OptionsState.start input.initialCash).ledger.Chronological :=
      LedgerBook.chronological_new _
    exact (holds_of_sessions (fun state => state.ledger.Chronological)
      (ready_beforeFirst isBefore) (fun _ _ _ _ _ before played => played.chronological before)
      ((beforeFirst_eq_ok isBefore).chronological initially) ran).2.sorted

/-! ## Two mergers on one day -/

/-- The settlements of the sessions of a run, one after another, are in order. -/
def settlesAll (input : OptionsInput Snapshot) : List ℤ → OptionsState → Bool
  | [], _ => true
  | session :: rest, state =>
    decide (SettlesInOrder input session state) &&
      match runSession input session state with
      | .ok (next, _) => settlesAll input rest next
      | .error _ => true

theorem settlesInOrder_of_settlesAll {early later : List ℤ} {rows : List SessionEquity}
    (all : settlesAll input (early ++ session :: later) state = true)
    (ran : runSessions (runSession input) early state = .ok (next, rows)) :
    SettlesInOrder input session next := by
  induction early generalizing state rows with
  | nil =>
    cases ran
    rw [List.nil_append, settlesAll, Bool.and_eq_true] at all
    exact of_decide_eq_true all.1
  | cons first early ih =>
    obtain ⟨middle, row, rows', stepped, ran, -⟩ := runSessions_cons_eq_ok.mp ran
    rw [List.cons_append, settlesAll, stepped, Bool.and_eq_true] at all
    exact ih all.2 ran

/-- The run of an input as far as its settlements are in order. -/
def settlesInput (input : OptionsInput Snapshot) : Bool :=
  decide (∀ bounds, runBounds input = .ok bounds → ∀ before,
    beforeFirst input bounds.1 = .ok before → settlesAll input bounds.2 before = true)

theorem settlementsInOrder_of_settlesInput (all : settlesInput input = true) :
    SettlementsInOrder input := by
  intro earliest early session later before state rows bounds started ran
  have each := of_decide_eq_true all (earliest, early ++ session :: later) bounds before started
  exact settlesInOrder_of_settlesAll each ran

/-- The merger of an underlying on the second session, announced at an hour of it. -/
def merger (securityId : String) (hour : ℤ) : PublishedAction where
  securityId := securityId
  kind := .merger
  effectiveSession := 2
  ratioNumerator := none
  ratioDenominator := none
  cashAmount := none
  sourceRecordId := "merger"
  snapshotId := "snapshot"
  availableAt := hourOf 2 hour

def sampleStatistics : OptionsStatistics ℚ Unit where
  float amount := amount
  backtestSummary _ _ _ := .ok ⟨⟩

/-- Both options are held when their underlyings merge. -/
def twoMergers (first second : ℤ) : OptionsInput Unit :=
  sampleInput .b 10 [merger "A" first, merger "B" second]

theorem twoMergers_published (first second : ℤ) :
    ∀ bar ∈ (twoMergers first second).bars, PublishedInTime (twoMergers first second) bar := by
  have inTime : ∀ securityId session, PublishedInTime (twoMergers first second)
      (sampleBar securityId session) := by
    intro securityId session
    constructor
    · intro _
      change hourOf session 20 ≤ hourOf session 21
      simp only [hourOf, hours, microseconds]
      omega
    · intro later _ less
      have before : session < later := less
      change hourOf session 21 ≤ hourOf later 14
      simp only [hourOf, hours, microseconds]
      omega
  intro bar isMember
  simp only [twoMergers, sampleInput, List.mem_cons, List.not_mem_nil, or_false] at isMember
  rcases isMember with rfl | rfl | rfl | rfl
  all_goals exact inTime _ _

/-- How a run ends: how many settlements it made, or whether it is refused for their order. -/
def shownEnd (result : Except OptionsError (OptionsBacktestResult ℚ Unit)) : Option ℕ :=
  result.toOption.map fun result => result.counters.terminals

theorem shownEnd_forwards :
    shownEnd (runOptionsBacktest sampleStatistics (twoMergers 22 23)) = some 2 := by
  decide +kernel

theorem settlesInput_forwards : settlesInput (twoMergers 22 23) = true := by
  decide +kernel

/-- Whether a run is refused for the order of its events. -/
def isRefused (result : Except OptionsError (OptionsBacktestResult ℚ Unit)) : Bool :=
  match result with
  | .ok _ => false
  | .error (.ledger (.violation (.outOfOrderSettlement ..))) => true
  | .error _ => false

theorem isRefused_backwards :
    isRefused (runOptionsBacktest sampleStatistics (twoMergers 23 22)) = true := by
  decide +kernel

theorem exists_of_isRefused {result : Except OptionsError (OptionsBacktestResult ℚ Unit)}
    (refused : isRefused result = true) : ∃ error, result = .error error ∧ error.OutOfOrder := by
  unfold isRefused at refused
  split at refused
  case h_1 => cases refused
  case h_2 => exact ⟨_, rfl, trivial⟩
  case h_3 => cases refused

theorem timeline_never_backwards_sample :
    shownEnd (runOptionsBacktest sampleStatistics (twoMergers 22 23)) = some 2 ∧
      (∀ error, runOptionsBacktest sampleStatistics (twoMergers 22 23) = .error error →
        ¬ error.OutOfOrder) ∧
        ∀ session state, ReachedAfter (twoMergers 22 23) session state →
          (state.ledger.events.map Event.stamp).Pairwise (· ≤ ·) :=
  ⟨shownEnd_forwards, timeline_never_backwards sampleStatistics (twoMergers_published 22 23)
    (settlementsInOrder_of_settlesInput settlesInput_forwards)⟩

/-- The merger of the second contract was announced before that of the first: the second settlement
would be stamped before the first one, and the run is refused. -/
theorem twoMergers_run_backwards :
    ¬ ∀ input : OptionsInput Unit, (∀ bar ∈ input.bars, PublishedInTime input bar) →
      ∀ error, runOptionsBacktest sampleStatistics input = .error error → ¬ error.OutOfOrder := by
  intro forwards
  obtain ⟨error, failed, outOfOrder⟩ := exists_of_isRefused isRefused_backwards
  exact forwards _ (twoMergers_published 23 22) error failed outOfOrder

end TreeOptions.Options
