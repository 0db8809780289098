import TreeOptions.Options.Dues

/-!
# Runs of the options backtest

A session trades, settles what is due, marks and decides (`Played`). It is refused for the order of
events by a trade at its instant, or by one of its settlements (`ensures_runSession`).
-/

set_option autoImplicit false

namespace TreeOptions.Options

open Backtest Checked Decimal Ledger

variable {Snapshot : Type} {input : OptionsInput Snapshot} {session : ℤ} {state next : OptionsState}

/-! ## One session -/

inductive Played (input : OptionsInput Snapshot) (session : ℤ) (state next : OptionsState) :
    Prop where
  | intro {instant : ℤ} {traded settled : OptionsState} {elected : List (String × ℕ)}
      {dues : List Due} (isInstant : executionInstant input session = .ok instant)
      (trades : Trades input session instant (beginSession session state) traded)
      (ran : tradeSession input session instant state = .ok (traded, elected))
      (isDue : settlementsDue input session traded elected = .ok dues)
      (due : DuesOf input session traded dues)
      (settles : Settled input session instant dues traded settled)
      (decides : Quiet settled next)

/-- A session is refused for the order of events by a trade or by a settlement. -/
def RaisesIn (input : OptionsInput Snapshot) (session : ℤ) (state : OptionsState)
    (error : OptionsError) : Prop :=
  error.OutOfOrder → ∃ instant, executionInstant input session = .ok instant ∧
    (state.ledger.Precedes instant ∨
      ∃ traded elected dues, tradeSession input session instant state = .ok (traded, elected) ∧
        Trades input session instant (beginSession session state) traded ∧
        settlementsDue input session traded elected = .ok dues ∧
        RaisesAt input session instant dues traded error)

/-- **What a session does**, and for which events it is refused. -/
theorem ensures_runSession (ready : Ready input state) :
    Ensures (RaisesIn input session state) (fun ran => Played input session state ran.1)
      (runSession input session state) := by
  have others : ∀ error : OptionsError, ¬ error.OutOfOrder → RaisesIn input session state error :=
    fun error inOrder outOfOrder => absurd outOfOrder inOrder
  have plays : Ensures (RaisesIn input session state)
      (fun played => Played input session state played.1) (playSession input session state) := by
    rw [playSession]
    refine Ensures.bind (ensures_lift others fun instant isInstant => isInstant) ?_
    intro instant _ isInstant
    refine Ensures.bind ((ensures_tradeSession ready).mono ?_ fun _ => id) ?_
    · exact fun error raised outOfOrder => ⟨instant, isInstant, .inl (raised outOfOrder)⟩
    rintro ⟨traded, elected⟩ ran ⟨trades, once, known⟩
    have ready' := trades.ready (ready_beginSession ready)
    refine Ensures.bind (ensures_lift others fun dues isDue => isDue) ?_
    intro dues _ isDue
    have due := settlementsDue_eq_ok ready' once known isDue
    refine Ensures.bind ((ensures_settled ready' fun due' isMember =>
      (due.each due' isMember).known).mono ?_ fun _ => id) ?_
    · exact fun error raised outOfOrder =>
        ⟨instant, isInstant, .inr ⟨traded, elected, dues, ran, trades, isDue, raised⟩⟩
    intro settled _ settles
    refine (ensures_markSession (settles.ready ready')).mono others ?_
    exact fun marked same => .intro isInstant trades ran isDue due settles same
  rw [runSession]
  refine Ensures.bind plays ?_
  rintro ⟨played, row⟩ - ⟨isInstant, trades, ran, isDue, due, settles, decides⟩
  refine Ensures.bind (ensures_lift others fun scheduled isScheduled => isScheduled) ?_
  intro scheduled _ isScheduled
  exact .intro isInstant trades ran isDue due settles
    (decides.trans (scheduleEntries_eq_ok decides.orders isScheduled))

theorem played_of_runSession (ready : Ready input state) {row : SessionEquity}
    (ran : runSession input session state = .ok (next, row)) : Played input session state next :=
  (ensures_runSession ready).of_ok ran

theorem Played.ready (played : Played input session state next) (ready : Ready input state) :
    Ready input next := by
  obtain ⟨-, trades, -, -, -, settles, decides⟩ := played
  exact decides.ready (settles.ready (trades.ready (ready_beginSession ready)))

/-! ## Before the first session -/

/-- Nothing is ordered, held or open. -/
theorem ready_start (cash : ℚ) : Ready input (.start cash) where
  orders := ⟨engineKept_initial, by simp [OptionsState.start], by simp [OptionsState.start]⟩
  sound := LedgerBook.sound_new cash
  distinct := List.nodup_nil
  known := by simp [OptionsState.start]

theorem beforeFirst_eq_ok {earliest : ℤ} (ran : beforeFirst input earliest = .ok state) :
    Quiet (.start input.initialCash) state := by
  have started : Ready input (.start input.initialCash) := ready_start _
  exact scheduleEntries_eq_ok started.orders ran

theorem ready_beforeFirst {earliest : ℤ} (ran : beforeFirst input earliest = .ok state) :
    Ready input state :=
  (beforeFirst_eq_ok ran).ready (ready_start _)

theorem holds_of_sessions (holds : OptionsState → Prop) {sessions : List ℤ}
    {before last : OptionsState} {rows : List SessionEquity} (ready : Ready input before)
    (kept : ∀ session ∈ sessions, ∀ state next, Ready input state → holds state →
      Played input session state next → holds next)
    (initially : holds before) (ran : runSessions (runSession input) sessions before =
      .ok (last, rows)) : Ready input last ∧ holds last :=
  (runSessions_invariant (fun state => Ready input state ∧ holds state) (fun _ _ => True)
    (fun session isMember state next _ before stepped =>
      have played := played_of_runSession before.1 stepped
      ⟨⟨played.ready before.1, kept session isMember state next before.1 before.2 played⟩, trivial⟩)
    ⟨ready, initially⟩ ran).1

end TreeOptions.Options
