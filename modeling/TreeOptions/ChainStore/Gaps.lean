import TreeOptions.ChainStore.Closing

/-!
# No gap of the chain store is lost

Runs of the settled tier follow one another, over increasing sessions. Any of them may die between
two writes, and the next one is of the same session or of a later one. No gap is lost when, once a
run of a session is complete, every symbol attempted for an earlier session that has no recorded
chain is missing there and has a line, and every session between that no run attempted has a line
(`NoGapLost`).

A run closes the books on earlier sessions by manifests first and lines last, and the next run
begins at the latest manifest it finds. So a death between the two loses the lines, and what a
dead run never entered in the manifest is lost unless the session is run again. No gap is lost in
runs that neither die inside the closing nor leave a session that is not settled
(`no_gap_lost`), and a death inside it does lose one (`placeholder_hides_last_session`).
-/

set_option autoImplicit false

namespace TreeOptions.ChainStore

variable (feed : Feed) (times : SessionTimes) (calendar : Splitting.SessionCalendar ℤ)

/-! ## Runs of the settled tier, one after another -/

/-- What the runs so far have tried: their sessions, the symbols they attempted, those of which the
outcome is not entered yet, and the sessions completed. -/
structure Attempts where
  tried : List ℤ
  attempted : List (ℤ × String)
  unsettled : List (ℤ × String)
  completed : List ℤ

/-- The store, the run on its way, and the attempts so far. -/
structure Sequence extends Attempts where
  store : Store
  active : Option Recorder

inductive SequenceAction
  | start (run : Run)
  | advance (input : Input)
  | die

/-- The symbol that a step takes up. A dry run attempts nothing. -/
def Recorder.takes (recorder : Recorder) : List (ℤ × String) :=
  match recorder.phase, recorder.left with
  | .sweeping, sym :: _ =>
    if recorder.run.dryRun then [] else [(recorder.run.session, sym)]
  | _, _ => []

/-- The symbols of a run are settled once its own lines are appended. -/
def Recorder.settles (recorder : Recorder) (item : ℤ × String) : Bool :=
  match recorder.phase with
  | .appending _ =>
    item.1 = recorder.run.session && (recorder.results.get item.2).isSome
  | _ => false

def Phase.isFinished : Phase → Bool
  | .finished => true
  | _ => false

/-- The sessions completed after a step. -/
def Sequence.complete (sequence : Sequence) (recorder : Recorder) : List ℤ :=
  if recorder.phase.isFinished ∧ ¬ recorder.run.dryRun then
    recorder.run.session :: sequence.completed
  else sequence.completed

/-- The sequence after a step of its run. -/
def Sequence.follow (sequence : Sequence) (recorder : Recorder)
    (advanced : Recorder × Option Write) : Sequence where
  store := sequence.store.applyOptional advanced.2
  active := if advanced.1.phase.isFinished then none else some advanced.1
  tried := sequence.tried
  attempted := recorder.takes ++ sequence.attempted
  unsettled := (recorder.takes ++ sequence.unsettled).filter fun item => ¬ recorder.settles item
  completed := sequence.complete advanced.1

def Sequence.step (sequence : Sequence) : SequenceAction → Option Sequence
  | .start run =>
    if sequence.active.isNone ∧ run.tier = .eod ∧ ∀ tried ∈ sequence.tried, tried ≤ run.session
    then some { sequence with
      active := some run.begin
      tried := if run.dryRun then sequence.tried else run.session :: sequence.tried }
    else none
  | .advance input =>
    sequence.active.map fun recorder =>
      sequence.follow recorder (recorder.advance feed times calendar sequence.store input)
  | .die => sequence.active.map fun _ => { sequence with active := none }

def eodRuns : System Sequence SequenceAction where
  Initial sequence := sequence = ⟨⟨[], [], [], []⟩, Store.empty, none⟩
  step := Sequence.step feed times calendar

/-! ## When no gap is lost -/

/-- Below a completed session nothing is open. -/
def Sequence.NoGapLost (sequence : Sequence) : Prop :=
  ∀ completed ∈ sequence.completed,
    (∀ item ∈ sequence.attempted, item.1 < completed → sequence.store.Closed item) ∧
      ∀ session ∈ calendar.sessions, ∀ first ∈ sequence.tried, first < session →
        session < completed → session ∉ sequence.tried → sequence.store.HasLine session none

/-- Nothing is lost by a death here: no write that closes the books was made, or those that are
left are lines that are there already. -/
def Recorder.MayDie (recorder : Recorder) (store : Store) : Prop :=
  match recorder.phase with
  | .finalizing made pending _ =>
    made = [] ∨ ∀ write ∈ pending, ∃ lines, write = .gaps lines ∧
      ∀ line ∈ lines, store.HasLine line.session line.sym
  | _ => True

/-- No run dies inside the closing, and none begins before the earlier sessions have a manifest and
are settled for every symbol without a recorded chain. -/
def Sequence.Careful (sequence : Sequence) : SequenceAction → Prop
  | .start run => run.dryRun = true ∨
      (∀ earlier ∈ sequence.tried, earlier < run.session →
        earlier ∈ sequence.store.manifestSessions) ∧
        ∀ item ∈ sequence.unsettled, item.1 < run.session →
          (sequence.store.chainAt .eod item.1 item.2).isSome
  | .advance _ => True
  | .die => ∀ recorder, sequence.active = some recorder → recorder.MayDie sequence.store

variable {feed times calendar}
variable {tried : List ℤ} {attempted unsettled : List (ℤ × String)} {store : Store}
  {recorder : Recorder} {input : Input} {attempts : Attempts} {sequence next : Sequence}

/-! ## Writes that leave the books in order -/

variable {sym : String} {session : ℤ}

theorem chainAt_of_apply_eq_none {write : Write}
    (unrecorded : (store.apply write).chainAt .eod session sym = none) :
    store.chainAt .eod session sym = none := by
  by_cases touched : write.Touches (.chain .eod session sym)
  · cases write with
    | chain tier session' sym' doc =>
      cases touched
      rw [Store.chainAt, Store.apply, Directory.get_write_self] at unrecorded
      cases unrecorded
    | conflict => cases touched
    | raw => cases touched
    | manifest => cases touched
    | gaps => exact touched.elim
    | pruneRaw =>
      obtain ⟨_, _, _, isRaw⟩ := touched
      cases isRaw
  · rw [← unrecorded, chainAt_apply touched]

section

variable {write : Write} (untouched : ∀ session, ¬ write.Touches (.manifest .eod session))

include untouched

theorem closed_apply {item : ℤ × String} (closed : store.Closed item) :
    (store.apply write).Closed item := by
  intro unrecorded
  obtain ⟨entry, line⟩ := closed (chainAt_of_apply_eq_none unrecorded)
  rw [entry_apply (untouched item.1)]
  exact ⟨entry, line.apply⟩

theorem noted_apply {item : ℤ × String} (noted : store.Noted item) :
    (store.apply write).Noted item := by
  intro unrecorded
  obtain ⟨entry, found, lined⟩ := noted (chainAt_of_apply_eq_none unrecorded)
  refine ⟨entry, ?_, fun isMissing => (lined isMissing).apply⟩
  rw [entry_apply (untouched item.1), found]

theorem mem_manifestSessions_apply_iff {session : ℤ} :
    session ∈ (store.apply write).manifestSessions ↔ session ∈ store.manifestSessions :=
  mem_manifestSessions_apply.trans (or_iff_left (untouched session))

/-- **A write of no manifest leaves the books in order.** -/
theorem Books.apply (books : Books calendar tried attempted unsettled store) :
    Books calendar tried attempted unsettled (store.apply write) where
  closed bound member item isItem below :=
    closed_apply untouched
      (books.closed bound ((mem_manifestSessions_apply_iff untouched).mp member) item isItem below)
  gapless bound member session isSession first isFirst after below :=
    (books.gapless bound ((mem_manifestSessions_apply_iff untouched).mp member) session isSession
      first ((mem_manifestSessions_apply_iff untouched).mp isFirst) after below).imp_right
        Store.HasLine.apply
  covered bound member session isTried below :=
    (mem_manifestSessions_apply_iff untouched).mpr
      (books.covered bound ((mem_manifestSessions_apply_iff untouched).mp member) session isTried
        below)
  explained session member :=
    (books.explained session ((mem_manifestSessions_apply_iff untouched).mp member)).imp_right
      Store.HasLine.apply
  bounded session member :=
    books.bounded session ((mem_manifestSessions_apply_iff untouched).mp member)
  settled item isItem isSettled := noted_apply untouched (books.settled item isItem isSettled)

end

theorem Ready.apply {write : Write} (ready : Ready tried attempted unsettled store session) :
    Ready tried attempted unsettled (store.apply write) session where
  started := ready.started
  latest := ready.latest
  triedOf := ready.triedOf
  covered earlier isTried below :=
    mem_manifestSessions_apply.mpr (.inl (ready.covered earlier isTried below))
  recorded item member below := by
    by_contra unrecorded
    rw [Option.not_isSome_iff_eq_none] at unrecorded
    have recorded := ready.recorded item member below
    rw [chainAt_of_apply_eq_none unrecorded] at recorded
    cases recorded

theorem Ready.applyAll {writes : List Write} (ready : Ready tried attempted unsettled store session)
    : Ready tried attempted unsettled (store.applyAll writes) session := by
  induction writes generalizing store with
  | nil => exact ready
  | cons write writes ih => exact ih ready.apply

/-! ## What a run on its way keeps -/

structure Attempts.InOrder (calendar : Splitting.SessionCalendar ℤ) (attempts : Attempts)
    (store : Store) : Prop where
  books : Books calendar attempts.tried attempts.attempted attempts.unsettled store
  completed : ∀ session ∈ attempts.completed, session ∈ store.manifestSessions

def Attempts.ReadyFor (attempts : Attempts) (store : Store) (session : ℤ) : Prop :=
  Ready attempts.tried attempts.attempted attempts.unsettled store session

/-- The symbol a phase is about. -/
def Phase.symbol : Phase → Option String
  | .fetching sym _ _ => some sym
  | .publishing sym _ _ => some sym
  | .writing sym _ _ => some sym
  | _ => none

/-- What a run has taken up is not settled before it appends its lines. -/
def Attempts.Owes (attempts : Attempts) (recorder : Recorder) : Prop :=
  ∀ sym, recorder.phase.symbol = some sym ∨ (recorder.results.get sym).isSome →
    (recorder.run.session, sym) ∈ attempts.unsettled

/-- Every result has an entry, which says missing only where the result does. -/
def Entered (store : Store) (recorder : Recorder) : Prop :=
  ∀ sym result, recorder.results.get sym = some result →
    ∃ entry, store.entry .eod recorder.run.session sym = some entry ∧
      (entry.result.status = .missing → result.status = .missing)

/-- A phase of a dry run. -/
def Phase.Idle : Phase → Prop
  | .sweeping => True
  | .fetching _ _ _ => True
  | .writing _ pending _ => pending = []
  | .finished => True
  | _ => False

/-- What holds while a run is at a phase. -/
def Attempts.Underway (calendar : Splitting.SessionCalendar ℤ) (attempts : Attempts)
    (store : Store) (recorder : Recorder) : Prop :=
  let session := recorder.run.session
  match recorder.phase with
  | .finalizing made pending now =>
    attempts.Owes recorder ∧ ∃ before, attempts.InOrder calendar before ∧
      attempts.ReadyFor before session ∧ store = before.applyAll made ∧
      made ++ pending = finalizePrior before calendar session now
  | .merging seed _ =>
    attempts.Owes recorder ∧ attempts.InOrder calendar store ∧
      attempts.ReadyFor store session ∧ ClosedBelow store attempts.attempted session ∧
      GaplessBelow calendar store attempts.tried session ∧ seed = store.readManifest session
  | .appending _ =>
    attempts.InOrder calendar store ∧ session ∈ store.manifestSessions ∧ Entered store recorder
  | .pruning => attempts.InOrder calendar store ∧ session ∈ store.manifestSessions
  | .finished => attempts.InOrder calendar store ∧ session ∈ store.manifestSessions
  | phase =>
    attempts.Owes recorder ∧ attempts.InOrder calendar store ∧
      attempts.ReadyFor store session ∧ ∀ write ∈ phase.pending, write.Beside

structure Sequence.Active (calendar : Splitting.SessionCalendar ℤ) (sequence : Sequence)
    (recorder : Recorder) : Prop where
  going : recorder.phase.isFinished = false
  tier : recorder.run.tier = .eod
  latest : ∀ tried ∈ sequence.tried, tried ≤ recorder.run.session
  dry : recorder.run.dryRun = true →
    recorder.phase.Idle ∧ sequence.InOrder calendar sequence.store
  live : recorder.run.dryRun = false → sequence.Underway calendar sequence.store recorder

structure Sequence.Kept (calendar : Splitting.SessionCalendar ℤ) (sequence : Sequence) : Prop where
  triedOf : ∀ item ∈ sequence.attempted, item.1 ∈ sequence.tried
  idle : sequence.active = none → sequence.InOrder calendar sequence.store
  active : ∀ recorder, sequence.active = some recorder → sequence.Active calendar recorder

/-- **Nothing is lost at any step of a run on its way.** -/
theorem noGapLost_of_inOrder {before : Store} (inOrder : sequence.InOrder calendar before)
    (closes : ∀ item, before.Closed item → sequence.store.Closed item)
    (lines : ∀ session, before.HasLine session none → sequence.store.HasLine session none) :
    sequence.NoGapLost calendar := by
  intro completed isCompleted
  have isManifest := inOrder.completed completed isCompleted
  refine ⟨?_, ?_⟩
  · intro item member below
    exact closes item (inOrder.books.closed completed isManifest item member below)
  · intro session isSession first isFirst after below untried
    have firstManifest := inOrder.books.covered completed isManifest first isFirst
      (after.trans below)
    rcases inOrder.books.gapless completed isManifest session isSession first firstManifest after
      below with isTried | line
    · exact absurd isTried untried
    · exact lines session line

theorem noGapLost_of_underway (underway : sequence.Underway calendar sequence.store recorder) :
    sequence.NoGapLost calendar := by
  have here : sequence.InOrder calendar sequence.store → sequence.NoGapLost calendar :=
    fun inOrder => noGapLost_of_inOrder inOrder (fun _ => id) (fun _ => id)
  rcases recorder with ⟨run, left, passes, results, phase⟩
  cases phase with
  | finalizing made pending now =>
    obtain ⟨-, before, inOrder, -, isStore, planned⟩ := underway
    refine noGapLost_of_inOrder inOrder ?_ ?_
    · intro item closed
      rw [isStore]
      exact closed_applyAll_made planned closed
    · intro session line
      rw [isStore]
      exact line.applyAll
  | appending now => exact here underway.1
  | pruning => exact here underway.1
  | finished => exact here underway.1
  | _ => exact here underway.2.1

theorem Sequence.Kept.noGapLost (kept : sequence.Kept calendar) :
    sequence.NoGapLost calendar := by
  have here : sequence.InOrder calendar sequence.store → sequence.NoGapLost calendar :=
    fun inOrder => noGapLost_of_inOrder inOrder (fun _ => id) (fun _ => id)
  cases active : sequence.active with
  | none => exact here (kept.idle active)
  | some recorder =>
    have isActive := kept.active recorder active
    cases dry : recorder.run.dryRun with
    | true => exact here (isActive.dry dry).2
    | false => exact noGapLost_of_underway (isActive.live dry)

/-! ## The symbols, one after another -/

variable {payload : Payload} {repair : Bool}

theorem unfinished_of_about {phase : Phase} (about : phase.About sym) :
    phase.isFinished = false := by
  cases phase with
  | finished => exact about.elim
  | _ => rfl

theorem underway_of_about (about : recorder.phase.About sym)
    (owes : ∀ other, some sym = some other ∨ (recorder.results.get other).isSome →
      (recorder.run.session, other) ∈ attempts.unsettled)
    (inOrder : attempts.InOrder calendar store)
    (ready : attempts.ReadyFor store recorder.run.session) :
    attempts.Underway calendar store recorder := by
  rcases recorder with ⟨run, left, passes, results, phase⟩
  cases phase with
  | fetching other existing repair =>
    obtain rfl : other = sym := about
    exact ⟨owes, inOrder, ready, List.forall_mem_nil _⟩
  | publishing other evidence payload =>
    obtain ⟨rfl, beside⟩ := about
    exact ⟨owes, inOrder, ready, beside⟩
  | writing other pending result =>
    obtain ⟨rfl, beside⟩ := about
    exact ⟨owes, inOrder, ready, beside⟩
  | _ => exact about.elim

/-! ## The steps of a run on its way -/

variable {advanced : Recorder × Option Write}

/-- Most steps neither take up a symbol nor settle one, nor end the run. -/
theorem follow_attempts (takes : recorder.takes = [])
    (settles : ∀ item, recorder.settles item = false)
    (unfinished : advanced.1.phase.isFinished = false) :
    (sequence.follow recorder advanced).toAttempts = sequence.toAttempts := by
  simp [Sequence.follow, Sequence.complete, takes, settles, unfinished]

theorem inOrder_apply {write : Write}
    (untouched : ∀ session, ¬ write.Touches (.manifest .eod session))
    (inOrder : attempts.InOrder calendar store) :
    attempts.InOrder calendar (store.apply write) where
  books := inOrder.books.apply untouched
  completed session member :=
    (mem_manifestSessions_apply_iff untouched).mpr (inOrder.completed session member)

variable {write : Option Write}

section

variable (untouched : ∀ written, write = some written → ∀ session,
  ¬ written.Touches (.manifest .eod session))

include untouched

theorem inOrder_applyOptional (inOrder : attempts.InOrder calendar store) :
    attempts.InOrder calendar (store.applyOptional write) := by
  cases write with
  | none => exact inOrder
  | some written => exact inOrder_apply (untouched written rfl) inOrder

theorem entry_applyOptional :
    (store.applyOptional write).entry .eod session sym = store.entry .eod session sym := by
  cases write with
  | none => rfl
  | some written => exact entry_apply (untouched written rfl session)

theorem mem_manifestSessions_applyOptional :
    session ∈ (store.applyOptional write).manifestSessions ↔ session ∈ store.manifestSessions := by
  cases write with
  | none => rfl
  | some written => exact mem_manifestSessions_apply_iff (untouched written rfl)

end

theorem ready_applyOptional (ready : attempts.ReadyFor store session) :
    attempts.ReadyFor (store.applyOptional write) session := by
  cases write with
  | none => exact ready
  | some written => exact Ready.apply ready

theorem untouched_of_link {run : Run} (written : Write)
    (isLink : (run.link store sym payload).2 = some written) (session : ℤ) :
    ¬ written.Touches (.manifest .eod session) := by
  rw [Run.link] at isLink
  split at isLink
  case h_1 =>
    cases isLink
    rintro ⟨⟩
  case h_2 =>
    split at isLink
    case h_1 => cases isLink
    case h_2 => cases isLink

theorem untouched_of_beside {write : Write} (beside : write.Beside) (session : ℤ) :
    ¬ write.Touches (.manifest .eod session) := by
  intro touches
  cases write with
  | raw => cases touches
  | conflict => cases touches
  | _ => exact beside.elim

theorem kept_follow (active : sequence.Active calendar recorder)
    (triedOf : ∀ item ∈ (sequence.follow recorder advanced).attempted, item.1 ∈ sequence.tried)
    (sameRun : advanced.1.run = recorder.run) (live : recorder.run.dryRun = false)
    (unfinished : advanced.1.phase.isFinished = false)
    (underway : (sequence.follow recorder advanced).Underway calendar
      (sequence.store.applyOptional advanced.2) advanced.1) :
    (sequence.follow recorder advanced).Kept calendar := by
  have stays : (sequence.follow recorder advanced).active = some advanced.1 :=
    if_neg (by rw [unfinished]; exact Bool.false_ne_true)
  refine ⟨triedOf, ?_, ?_⟩
  · intro gone
    rw [stays] at gone
    cases gone
  · intro later isLater
    cases isLater.symm.trans stays
    refine ⟨unfinished, ?_, ?_, ?_, fun _ => underway⟩
    · rw [sameRun]
      exact active.tier
    · rw [sameRun]
      exact active.latest
    · rw [sameRun, live]
      intro dry
      cases dry

theorem kept_of_underway (active : sequence.Active calendar recorder)
    (triedOf : ∀ item ∈ sequence.attempted, item.1 ∈ sequence.tried)
    (sameRun : advanced.1.run = recorder.run) (live : recorder.run.dryRun = false)
    (takes : recorder.takes = []) (settles : ∀ item, recorder.settles item = false)
    (unfinished : advanced.1.phase.isFinished = false)
    (underway : sequence.Underway calendar (sequence.store.applyOptional advanced.2) advanced.1) :
    (sequence.follow recorder advanced).Kept calendar := by
  have same : (sequence.follow recorder advanced).toAttempts = sequence.toAttempts :=
    follow_attempts takes settles unfinished
  refine kept_follow active ?_ sameRun live unfinished ?_
  · rw [same]
    exact triedOf
  · rw [same]
    exact underway

section Steps

/-- The next step of a run that records keeps everything. -/
def KeepsStep (feed : Feed) (times : SessionTimes) (calendar : Splitting.SessionCalendar ℤ)
    (sequence : Sequence) (input : Input) (recorder : Recorder) : Prop :=
  sequence.Active calendar recorder →
    (∀ item ∈ sequence.attempted, item.1 ∈ sequence.tried) → recorder.run.dryRun = false →
      (sequence.follow recorder (recorder.advance feed times calendar sequence.store input)).Kept
        calendar

variable {run : Run} {left : List String} {passes : ℕ}
  {results : Directory String SymbolResult}

variable {sym : String}

theorem kept_fetching {existing : Option ChainDoc} {repair : Bool} :
    KeepsStep feed times calendar sequence input
      ⟨run, left, passes, results, .fetching sym existing repair⟩ := by
  intro active triedOf live
  obtain ⟨owes, inOrder, ready, -⟩ := active.live live
  have about : (run.receive feed times sym existing repair input.fetched).About sym := about_receive
  refine kept_of_underway active triedOf rfl live rfl (fun _ => rfl) (unfinished_of_about about) ?_
  exact underway_of_about about owes inOrder ready

theorem kept_publishing {evidence : List Write} {payload : Payload} :
    KeepsStep feed times calendar sequence input
      ⟨run, left, passes, results, .publishing sym evidence payload⟩ := by
  intro active triedOf live
  obtain ⟨owes, inOrder, ready, beside⟩ := active.live live
  simp only [Recorder.advance]
  split
  case isTrue =>
    refine kept_of_underway active triedOf rfl live rfl (fun _ => rfl) rfl ?_
    exact underway_of_about (about_writing sym _) owes inOrder ready
  case isFalse =>
    cases evidence with
    | cons write evidence =>
      have about : (Phase.publishing sym evidence payload).About sym :=
        ⟨rfl, (List.forall_mem_cons.mp beside).2⟩
      refine kept_of_underway active triedOf rfl live rfl (fun _ => rfl) rfl ?_
      exact underway_of_about about owes
        (inOrder_apply (untouched_of_beside (beside write List.mem_cons_self)) inOrder)
        (Ready.apply ready)
    | nil =>
      have about : (run.link sequence.store sym payload).1.About sym := about_link
      refine kept_of_underway active triedOf rfl live rfl (fun _ => rfl)
        (unfinished_of_about about) ?_
      exact underway_of_about about owes
        (inOrder_applyOptional untouched_of_link inOrder) (ready_applyOptional ready)

variable {result : SymbolResult}

theorem kept_writing {pending : List Write} :
    KeepsStep feed times calendar sequence input
      ⟨run, left, passes, results, .writing sym pending result⟩ := by
  intro active triedOf live
  obtain ⟨owes, inOrder, ready, beside⟩ := active.live live
  cases pending with
  | nil =>
    refine kept_of_underway active triedOf rfl live rfl (fun _ => rfl) rfl ?_
    refine ⟨?_, inOrder, ready, List.forall_mem_nil _⟩
    intro other named
    rcases named with isSymbol | hasResult
    · cases isSymbol
    · change ((results.write sym result).get other).isSome at hasResult
      rw [Directory.get_write] at hasResult
      split at hasResult
      case isTrue same =>
        rw [same]
        exact owes sym (.inl rfl)
      case isFalse => exact owes other (.inr hasResult)
  | cons write pending =>
    simp only [Recorder.advance]
    split
    case isTrue =>
      refine kept_of_underway active triedOf rfl live rfl (fun _ => rfl) rfl ?_
      exact underway_of_about (about_writing sym _) owes inOrder ready
    case isFalse =>
      have about : (Phase.writing sym pending result).About sym :=
        ⟨rfl, (List.forall_mem_cons.mp beside).2⟩
      refine kept_of_underway active triedOf rfl live rfl (fun _ => rfl) rfl ?_
      exact underway_of_about about owes
        (inOrder_apply (untouched_of_beside (beside write List.mem_cons_self)) inOrder)
        (Ready.apply ready)

variable {now : ℤ}

theorem kept_finalizing {made pending : List Write} :
    KeepsStep feed times calendar sequence input
      ⟨run, left, passes, results, .finalizing made pending now⟩ := by
  intro active triedOf live
  obtain ⟨owes, before, inOrder, ready, isStore, planned⟩ := active.live live
  cases pending with
  | nil =>
    refine kept_of_underway active triedOf rfl live rfl (fun _ => rfl) rfl ?_
    rw [List.append_nil] at planned
    rw [planned] at isStore
    refine ⟨owes, ⟨?_, ?_⟩, ?_, ?_, ?_, rfl⟩
    · rw [isStore]
      exact books_finalizePrior inOrder.books ready
    · intro session completed
      rw [isStore]
      exact mem_manifestSessions_applyAll.mpr (.inl (inOrder.completed session completed))
    · rw [isStore]
      exact Ready.applyAll ready
    · rw [isStore]
      exact closed_finalizePrior inOrder.books ready
    · rw [isStore]
      exact gapless_finalizePrior inOrder.books
  | cons write pending =>
    refine kept_of_underway active triedOf rfl live rfl (fun _ => rfl) rfl ?_
    refine ⟨owes, before, inOrder, ready, ?_, ?_⟩
    · rw [applyAll_append, ← isStore]
      rfl
    · rw [List.append_assoc, List.singleton_append]
      exact planned

variable {session : ℤ}

theorem entry_updateManifest (sym : String) :
    (store.apply (.manifest .eod session
        (updateManifest (store.readManifest session) session results now .eod))).entry .eod session
          sym =
      (results.get sym).elim (store.entry .eod session sym) fun result =>
        mergeEntry result now (store.entry .eod session sym) := by
  rw [entry_apply_manifest, updateManifest, get_mergeSymbols, get_seed]
  rfl

theorem books_updateManifest (inOrder : attempts.InOrder calendar store)
    (ready : attempts.ReadyFor store session)
    (closed : ClosedBelow store attempts.attempted session)
    (gapless : GaplessBelow calendar store attempts.tried session)
    (owes : ∀ sym, (results.get sym).isSome → (session, sym) ∈ attempts.unsettled) :
    attempts.InOrder calendar (store.apply (.manifest .eod session
      (updateManifest (store.readManifest session) session results now .eod))) := by
  generalize isDoc : updateManifest (store.readManifest session) session results now .eod = doc
  have entries : ∀ other sym, other ≠ session →
      (store.apply (.manifest .eod session doc)).entry .eod other sym =
        store.entry .eod other sym := by
    intro other sym differs
    refine entry_apply ?_
    intro touches
    cases touches
    exact differs rfl
  have chains : ∀ other sym, (store.apply (.manifest .eod session doc)).chainAt .eod other sym =
      store.chainAt .eod other sym := by
    intro other sym
    exact chainAt_apply (by rintro ⟨⟩)
  have members : ∀ other, other ∈ (store.apply (.manifest .eod session doc)).manifestSessions →
      other ∈ store.manifestSessions ∨ other = session := by
    intro other member
    refine (mem_manifestSessions_apply.mp member).imp_right ?_
    intro touches
    cases touches
    rfl
  have below : ∀ other, other ∈ (store.apply (.manifest .eod session doc)).manifestSessions →
      other ≤ session := by
    intro other member
    rcases members other member with was | rfl
    · obtain ⟨later, isTried, le⟩ := inOrder.books.bounded other was
      exact le.trans (ready.latest later isTried)
    · exact le_rfl
  refine ⟨⟨?_, ?_, ?_, ?_, ?_, ?_⟩, ?_⟩
  · intro bound isManifest item isItem before unrecorded
    have earlier : item.1 < session := before.trans_le (below bound isManifest)
    rw [chains] at unrecorded
    rw [entries _ _ earlier.ne]
    exact (closed item isItem earlier unrecorded).imp_right Store.HasLine.apply
  · intro bound isManifest day isSession first isFirst after before
    have earlier : day < session := before.trans_le (below bound isManifest)
    rcases members first isFirst with was | rfl
    · exact (gapless day isSession first was after earlier).imp_right Store.HasLine.apply
    · exact absurd (after.trans earlier) (lt_irrefl _)
  · intro bound isManifest day isTried before
    exact mem_manifestSessions_apply.mpr
      (.inl (ready.covered day isTried (before.trans_le (below bound isManifest))))
  · intro day isManifest
    rcases members day isManifest with was | rfl
    · exact (inOrder.books.explained day was).imp_right Store.HasLine.apply
    · exact .inl ready.started
  · intro day isManifest
    exact ⟨session, ready.started, below day isManifest⟩
  · intro item isItem isSettled unrecorded
    rw [chains] at unrecorded
    obtain ⟨entry, found, lined⟩ := inOrder.books.settled item isItem isSettled unrecorded
    refine ⟨entry, ?_, fun isMissing => (lined isMissing).apply⟩
    by_cases own : item.1 = session
    · have noResult : results.get item.2 = none := by
        rw [← Option.not_isSome_iff_eq_none]
        intro hasResult
        have owed := owes item.2 hasResult
        rw [← own] at owed
        exact isSettled owed
      rw [← isDoc, own, entry_updateManifest, noResult, ← own]
      exact found
    · rw [entries _ _ own, found]
  · intro day isCompleted
    exact mem_manifestSessions_apply.mpr (.inl (inOrder.completed day isCompleted))

theorem entered_updateManifest (isResult : results.get sym = some result) :
    ∃ entry, (store.apply (.manifest .eod session
        (updateManifest (store.readManifest session) session results now .eod))).entry .eod session
          sym = some entry ∧ (entry.result.status = .missing → result.status = .missing) := by
  rw [entry_updateManifest, isResult, Option.elim_some, mergeEntry]
  split
  case isTrue kept =>
    obtain ⟨entry, isEntry, recorded⟩ := (Option.any_eq_true _ _).mp kept.2
    refine ⟨entry, isEntry, ?_⟩
    intro isMissing
    rw [isMissing] at recorded
    cases recorded
  case isFalse => exact ⟨_, rfl, id⟩

theorem kept_merging {seed : Option Manifest} :
    KeepsStep feed times calendar sequence input
      ⟨run, left, passes, results, .merging seed now⟩ := by
  intro active triedOf live
  obtain ⟨owes, inOrder, ready, closed, gapless, isRead⟩ := active.live live
  have isSeed : seed = sequence.store.readManifest run.session := isRead
  subst isSeed
  have tier : run.tier = .eod := active.tier
  simp only [Recorder.advance, tier, if_true]
  refine kept_of_underway active triedOf rfl live rfl (fun _ => rfl) rfl ?_
  refine ⟨?_, ?_, ?_⟩
  · exact books_updateManifest inOrder ready closed gapless (fun sym has => owes sym (.inr has))
  · exact mem_manifestSessions_apply.mpr (.inr rfl)
  · intro sym result isResult
    exact entered_updateManifest isResult

theorem hasLine_appendGaps {lines : List GapLine} {line : GapLine} (member : line ∈ lines) :
    (store.applyOptional (appendGaps lines).head?).HasLine line.session line.sym := by
  rw [appendGaps, if_neg (List.ne_nil_of_mem member)]
  exact ⟨line, List.mem_append_right _ member, rfl, rfl⟩

theorem mem_gapLines (isResult : results.get sym = some result)
    (isMissing : result.status = .missing) :
    ⟨now, session, some sym, result.status, result.detail⟩ ∈ gapLines session results now := by
  refine List.mem_filterMap.mpr ⟨sym, ?_, ?_⟩
  · rw [Directory.mem_names, isResult]
    rfl
  · rw [isResult, Option.bind_some, isMissing]
    rfl

theorem kept_appending :
    KeepsStep feed times calendar sequence input ⟨run, left, passes, results, .appending now⟩ := by
  intro active triedOf live
  obtain ⟨inOrder, isManifest, entered⟩ := active.live live
  have untouched : ∀ written, (appendGaps (gapLines run.session results now)).head? = some written →
      ∀ session, ¬ written.Touches (.manifest .eod session) := by
    intro written isHead session
    have isLines := eq_of_mem_appendGaps (List.mem_of_mem_head? isHead)
    rw [isLines]
    exact id
  have later := inOrder_applyOptional untouched inOrder
  refine kept_follow active triedOf rfl live rfl ⟨⟨?_, later.completed⟩, ?_⟩
  · refine { later.books with settled := ?_ }
    intro item isItem isSettled
    by_cases wasSettled : item ∈ sequence.unsettled
    · have settles : Recorder.settles ⟨run, left, passes, results, .appending now⟩ item = true := by
        by_contra unsettled
        exact isSettled (List.mem_filter.mpr ⟨wasSettled, by simpa using unsettled⟩)
      simp only [Recorder.settles, Bool.and_eq_true, decide_eq_true_eq] at settles
      obtain ⟨own, hasResult⟩ := settles
      obtain ⟨result, isResult⟩ := Option.isSome_iff_exists.mp hasResult
      obtain ⟨entry, found, saysMissing⟩ := entered item.2 result isResult
      intro _
      refine ⟨entry, ?_, ?_⟩
      · rw [own]
        exact (entry_applyOptional untouched).trans found
      · intro isMissing
        rw [own]
        exact hasLine_appendGaps (mem_gapLines isResult (saysMissing isMissing))
    · exact later.books.settled item isItem wasSettled
  · exact (mem_manifestSessions_applyOptional untouched).mpr isManifest

theorem kept_pruning :
    KeepsStep feed times calendar sequence input ⟨run, left, passes, results, .pruning⟩ := by
  intro active triedOf live
  obtain ⟨inOrder, isManifest⟩ := active.live live
  have untouched : ∀ session, ¬ Write.pruneRaw.Touches (.manifest .eod session) := by
    rintro session ⟨_, _, _, isRaw⟩
    cases isRaw
  have later := inOrder_apply untouched inOrder
  refine ⟨triedOf, fun _ => ⟨?_, ?_⟩, ?_⟩
  · have same : (sequence.follow ⟨run, left, passes, results, .pruning⟩
        (Recorder.advance feed times calendar ⟨run, left, passes, results, .pruning⟩ sequence.store
          input)).unsettled = sequence.unsettled := by
      simp [Sequence.follow, Recorder.takes, Recorder.settles]
    rw [same]
    exact later.books
  · intro session isCompleted
    have completed : sequence.complete
        (Recorder.advance feed times calendar ⟨run, left, passes, results, .pruning⟩ sequence.store
          input).1 = run.session :: sequence.completed :=
      if_pos ⟨rfl, by simpa [Recorder.advance] using live⟩
    rw [Sequence.follow, completed] at isCompleted
    rcases List.mem_cons.mp isCompleted with rfl | was
    · exact (mem_manifestSessions_apply_iff untouched).mpr isManifest
    · exact later.completed session was
  · intro recorder isActive
    cases isActive

theorem inOrder_take (latest : ∀ tried ∈ attempts.tried, tried ≤ session)
    (inOrder : attempts.InOrder calendar store) :
    Attempts.InOrder calendar
      { attempts with
        attempted := (session, sym) :: attempts.attempted
        unsettled := (session, sym) :: attempts.unsettled } store := by
  refine ⟨{ inOrder.books with closed := ?_, settled := ?_ }, inOrder.completed⟩
  · intro bound isManifest item member below
    rcases List.mem_cons.mp member with rfl | was
    · obtain ⟨later, isTried, le⟩ := inOrder.books.bounded bound isManifest
      exact absurd (below.trans_le (le.trans (latest later isTried))) (lt_irrefl _)
    · exact inOrder.books.closed bound isManifest item was below
  · intro item member isSettled
    rw [List.mem_cons, not_or] at isSettled
    rcases List.mem_cons.mp member with rfl | was
    · exact absurd rfl isSettled.1
    · exact inOrder.books.settled item was isSettled.2

theorem ready_take (ready : attempts.ReadyFor store session) :
    Attempts.ReadyFor
      { attempts with
        attempted := (session, sym) :: attempts.attempted
        unsettled := (session, sym) :: attempts.unsettled } store session := by
  refine { ready with triedOf := ?_, recorded := ?_ }
  · exact List.forall_mem_cons.mpr ⟨ready.started, ready.triedOf⟩
  · exact List.forall_mem_cons.mpr ⟨fun below => absurd below (lt_irrefl _), ready.recorded⟩

theorem kept_taking :
    KeepsStep feed times calendar sequence input
      ⟨run, sym :: left, passes, results, .sweeping⟩ := by
  intro active triedOf live
  obtain ⟨owes, inOrder, ready, -⟩ := active.live live
  have about : (run.look sequence.store sym).About sym := about_look
  have takes : Recorder.takes ⟨run, sym :: left, passes, results, .sweeping⟩ =
      [(run.session, sym)] := by
    simpa [Recorder.takes] using live
  have attempts : (sequence.follow ⟨run, sym :: left, passes, results, .sweeping⟩
      (Recorder.advance feed times calendar ⟨run, sym :: left, passes, results, .sweeping⟩
        sequence.store input)).toAttempts =
      { sequence.toAttempts with
        attempted := (run.session, sym) :: sequence.attempted
        unsettled := (run.session, sym) :: sequence.unsettled } := by
    have unfinished : (run.look sequence.store sym).isFinished = false := unfinished_of_about about
    simp [Sequence.follow, Sequence.complete, takes, Recorder.settles, Recorder.advance, unfinished]
  refine kept_follow active ?_ rfl live (unfinished_of_about about) ?_
  · rw [attempts]
    exact (ready_take ready).triedOf
  · rw [attempts]
    refine underway_of_about about ?_ (inOrder_take active.latest inOrder) (ready_take ready)
    rintro other (isSymbol | hasResult)
    · rw [← Option.some.inj isSymbol]
      exact List.mem_cons_self
    · exact List.mem_cons_of_mem _ (owes other (.inr hasResult))

theorem kept_afterSweep :
    KeepsStep feed times calendar sequence input ⟨run, [], passes, results, .sweeping⟩ := by
  intro active triedOf live
  obtain ⟨owes, inOrder, ready, -⟩ := active.live live
  have tier : run.tier = .eod := active.tier
  replace live : run.dryRun = false := live
  simp only [Recorder.advance, Recorder.afterSweep, live, tier, Bool.false_eq_true, if_false,
    if_true]
  split
  case isTrue =>
    refine kept_of_underway active triedOf rfl live rfl (fun _ => rfl) rfl ?_
    exact ⟨owes, inOrder, ready, List.forall_mem_nil _⟩
  case isFalse =>
    refine kept_of_underway active triedOf rfl live rfl (fun _ => rfl) rfl ?_
    exact ⟨owes, sequence.store, inOrder, ready, rfl, rfl⟩

/-- **A step of a run that records keeps everything.** -/
theorem kept_live (recorder : Recorder) :
    KeepsStep feed times calendar sequence input recorder := by
  rcases recorder with ⟨run, left, passes, results, phase⟩
  cases phase with
  | sweeping =>
    cases left with
    | nil => exact kept_afterSweep
    | cons sym left => exact kept_taking
  | fetching => exact kept_fetching
  | publishing => exact kept_publishing
  | writing => exact kept_writing
  | finalizing => exact kept_finalizing
  | merging => exact kept_merging
  | appending => exact kept_appending
  | pruning => exact kept_pruning
  | finished => exact fun active => nomatch active.going

end Steps

/-! ## Dry runs -/

theorem idle_compare {run : Run} (dry : run.dryRun = true) {known : ChainDoc} :
    (run.compare sym known repair payload).Idle := by
  fun_cases Run.compare run sym known repair payload with
  | case1 _ _ _ repairs => exact absurd dry repairs.2
  | case4 => exact if_pos dry
  | _ => rfl

/-- **A dry run writes nothing.** -/
theorem idle_advance (dry : recorder.run.dryRun = true) (idle : recorder.phase.Idle) :
    (recorder.advance feed times calendar store input).1.phase.Idle ∧
      (recorder.advance feed times calendar store input).2 = none := by
  fun_cases Recorder.advance feed times calendar recorder store input with
  | case1 =>
    fun_cases Recorder.afterSweep calendar recorder store input.now with
    | case1 => exact ⟨idle, rfl⟩
    | case2 => exact ⟨trivial, rfl⟩
    | _ => contradiction
  | case2 run _ sym =>
    refine ⟨?_, rfl⟩
    rcases look_cases run store sym with ⟨existing, repair, isLook⟩ | ⟨result, isLook⟩
    · rw [isLook]
      trivial
    · rw [isLook]
      rfl
  | case3 run sym existing repair =>
    refine ⟨?_, rfl⟩
    fun_cases Run.receive feed times run sym existing repair input.fetched with
    | case4 => exact idle_compare dry
    | case5 =>
      rw [Run.publish, if_neg fun publishes => publishes.2 dry]
      rfl
    | _ => rfl
  | case7 => exact ⟨trivial, rfl⟩
  | case15 => exact ⟨idle, rfl⟩
  | _ => simp_all [Phase.Idle]

theorem attempts_of_dry (dry : recorder.run.dryRun = true) (idle : recorder.phase.Idle)
    (sameRun : advanced.1.run = recorder.run) :
    (sequence.follow recorder advanced).toAttempts = sequence.toAttempts := by
  have completed : sequence.complete advanced.1 = sequence.completed :=
    if_neg fun finished => finished.2 (sameRun ▸ dry)
  rcases recorder with ⟨run, left, passes, results, phase⟩
  have isDry : run.dryRun = true := dry
  have takes : Recorder.takes ⟨run, left, passes, results, phase⟩ = [] := by
    rw [Recorder.takes]
    split
    case h_1 => exact if_pos isDry
    case h_2 => rfl
  have settles : ∀ item, Recorder.settles ⟨run, left, passes, results, phase⟩ item = false := by
    intro item
    cases phase with
    | appending now => exact idle.elim
    | _ => rfl
  simp [Sequence.follow, takes, settles, completed]

theorem kept_dry (active : sequence.Active calendar recorder)
    (triedOf : ∀ item ∈ sequence.attempted, item.1 ∈ sequence.tried)
    (dry : recorder.run.dryRun = true) :
    (sequence.follow recorder (recorder.advance feed times calendar sequence.store input)).Kept
      calendar := by
  obtain ⟨idle, inOrder⟩ := active.dry dry
  generalize advances : recorder.advance feed times calendar sequence.store input = advanced
  have sameRun : advanced.1.run = recorder.run := by
    rw [← advances]
    exact run_advance
  obtain ⟨stillIdle, nothing⟩ : advanced.1.phase.Idle ∧ advanced.2 = none := by
    rw [← advances]
    exact idle_advance dry idle
  have same : (sequence.follow recorder advanced).toAttempts = sequence.toAttempts :=
    attempts_of_dry dry idle sameRun
  have sameStore : (sequence.follow recorder advanced).store = sequence.store := by
    rw [Sequence.follow, nothing]
    rfl
  refine ⟨?_, ?_, ?_⟩
  · rw [same]
    exact triedOf
  · intro _
    rw [same, sameStore]
    exact inOrder
  · intro later isLater
    simp only [Sequence.follow] at isLater
    split at isLater
    case isTrue => cases isLater
    case isFalse going =>
      cases isLater
      refine ⟨by simpa using going, ?_, ?_, ?_, ?_⟩
      · rw [sameRun]
        exact active.tier
      · rw [sameRun]
        exact active.latest
      · intro _
        rw [same, sameStore]
        exact ⟨stillIdle, inOrder⟩
      · intro live
        rw [sameRun, dry] at live
        cases live

/-! ## Runs -/

theorem inOrder_start (latest : ∀ tried ∈ attempts.tried, tried ≤ session)
    (inOrder : attempts.InOrder calendar store) :
    Attempts.InOrder calendar { attempts with tried := session :: attempts.tried } store where
  books :=
    { closed := inOrder.books.closed
      gapless := fun bound isManifest day isSession first isFirst after below =>
        (inOrder.books.gapless bound isManifest day isSession first isFirst after below).imp_left
          (List.mem_cons_of_mem session)
      covered := by
        intro bound isManifest day isTried below
        rcases List.mem_cons.mp isTried with rfl | was
        · obtain ⟨later, laterTried, le⟩ := inOrder.books.bounded bound isManifest
          exact absurd (below.trans_le (le.trans (latest later laterTried))) (lt_irrefl _)
        · exact inOrder.books.covered bound isManifest day was below
      explained := fun day isManifest =>
        (inOrder.books.explained day isManifest).imp_left (List.mem_cons_of_mem session)
      bounded := by
        intro day isManifest
        obtain ⟨later, isTried, le⟩ := inOrder.books.bounded day isManifest
        exact ⟨later, List.mem_cons_of_mem session isTried, le⟩
      settled := inOrder.books.settled }
  completed := inOrder.completed

theorem kept_start {run : Run} (kept : sequence.Kept calendar)
    (careful : sequence.Careful (.start run))
    (taken : sequence.step feed times calendar (.start run) = some next) : next.Kept calendar := by
  simp only [Sequence.step] at taken
  split at taken
  case isFalse => cases taken
  case isTrue enabled =>
    obtain ⟨isIdle, tier, latest⟩ := enabled
    cases taken
    have inOrder := kept.idle (Option.isNone_iff_eq_none.mp isIdle)
    cases dry : run.dryRun with
    | true =>
      refine ⟨kept.triedOf, ?_, ?_⟩
      · intro gone
        cases gone
      · rintro recorder ⟨⟩
        refine ⟨rfl, tier, latest, fun _ => ⟨trivial, inOrder⟩, ?_⟩
        intro live
        cases live.symm.trans dry
    | false =>
      obtain ⟨covered, recorded⟩ := careful.resolve_left (by simp [dry])
      refine ⟨?_, ?_, ?_⟩
      · intro item member
        exact List.mem_cons_of_mem _ (kept.triedOf item member)
      · intro gone
        cases gone
      · rintro recorder ⟨⟩
        refine ⟨rfl, tier, ?_, ?_, ?_⟩
        · exact List.forall_mem_cons.mpr ⟨le_rfl, latest⟩
        · intro isDry
          cases isDry.symm.trans dry
        · intro _
          refine ⟨?_, inOrder_start latest inOrder, ⟨?_, ?_, ?_, ?_, recorded⟩,
            List.forall_mem_nil _⟩
          · intro sym named
            rcases named with isSymbol | hasResult
            · cases isSymbol
            · cases hasResult
          · exact List.mem_cons_self
          · exact List.forall_mem_cons.mpr ⟨le_rfl, latest⟩
          · intro item member
            exact List.mem_cons_of_mem _ (kept.triedOf item member)
          · exact List.forall_mem_cons.mpr ⟨fun below => absurd below (lt_irrefl _), covered⟩

/-- Lines that are there already change nothing. -/
theorem applyAll_lines {pending : List Write}
    (present : ∀ write ∈ pending, ∃ lines, write = .gaps lines ∧
      ∀ line ∈ lines, store.HasLine line.session line.sym) :
    (store.applyAll pending).files = store.files ∧
      ∀ session sym, (store.applyAll pending).HasLine session sym → store.HasLine session sym := by
  induction pending generalizing store with
  | nil => exact ⟨rfl, fun _ _ => id⟩
  | cons write pending ih =>
    obtain ⟨lines, rfl, here⟩ := present write List.mem_cons_self
    have rest : ∀ other ∈ pending, ∃ more, other = .gaps more ∧
        ∀ line ∈ more, (store.apply (.gaps lines)).HasLine line.session line.sym := by
      intro other member
      obtain ⟨more, isMore, there⟩ := present other (List.mem_cons_of_mem _ member)
      exact ⟨more, isMore, fun line isLine => (there line isLine).apply⟩
    obtain ⟨sameFiles, sameLines⟩ := ih rest
    refine ⟨sameFiles, ?_⟩
    intro session sym line
    obtain ⟨old, member, named⟩ := sameLines session sym line
    rcases List.mem_append.mp member with was | added
    · exact ⟨old, was, named⟩
    · rw [← named.1, ← named.2]
      exact here old added

theorem inOrder_of_lines {later : Store} (inOrder : attempts.InOrder calendar later)
    (sameFiles : later.files = store.files)
    (lines : ∀ session sym, later.HasLine session sym → store.HasLine session sym) :
    attempts.InOrder calendar store := by
  rcases store with ⟨files, gaps⟩
  rcases later with ⟨files', gaps'⟩
  obtain rfl : files' = files := sameFiles
  obtain ⟨books, completed⟩ := inOrder
  refine ⟨⟨?_, ?_, books.covered, ?_, books.bounded, ?_⟩, completed⟩
  · intro bound isManifest item member below unrecorded
    exact (books.closed bound isManifest item member below unrecorded).imp_right (lines _ _)
  · intro bound isManifest day isSession first isFirst after below
    exact (books.gapless bound isManifest day isSession first isFirst after below).imp_right
      (lines _ _)
  · intro day isManifest
    exact (books.explained day isManifest).imp_right (lines _ _)
  · intro item member isSettled unrecorded
    obtain ⟨entry, found, lined⟩ := books.settled item member isSettled unrecorded
    exact ⟨entry, found, fun isMissing => lines _ _ (lined isMissing)⟩

/-- **A death that loses no line leaves the books in order.** -/
theorem inOrder_of_mayDie (underway : attempts.Underway calendar store recorder)
    (mayDie : recorder.MayDie store) : attempts.InOrder calendar store := by
  rcases recorder with ⟨run, left, passes, results, phase⟩
  cases phase with
  | finalizing made pending now =>
    obtain ⟨-, before, inOrder, ready, isStore, planned⟩ := underway
    rcases mayDie with rfl | present
    · rw [isStore]
      exact inOrder
    · obtain ⟨sameFiles, sameLines⟩ := applyAll_lines present
      have isLater : store.applyAll pending =
          before.applyAll (finalizePrior before calendar run.session now) := by
        rw [isStore, ← applyAll_append, planned]
      refine inOrder_of_lines ⟨?_, ?_⟩ sameFiles sameLines
      · rw [isLater]
        exact books_finalizePrior inOrder.books ready
      · intro session completed
        rw [isLater]
        exact mem_manifestSessions_applyAll.mpr (.inl (inOrder.completed session completed))
  | appending now => exact underway.1
  | pruning => exact underway.1
  | finished => exact underway.1
  | _ => exact underway.2.1

theorem kept_step {action : SequenceAction} (kept : sequence.Kept calendar)
    (careful : sequence.Careful action)
    (taken : sequence.step feed times calendar action = some next) : next.Kept calendar := by
  cases action with
  | start run => exact kept_start kept careful taken
  | advance input =>
    obtain ⟨recorder, isActive, rfl⟩ := Option.map_eq_some_iff.mp taken
    have active := kept.active recorder isActive
    cases dry : recorder.run.dryRun with
    | true => exact kept_dry active kept.triedOf dry
    | false => exact kept_live recorder active kept.triedOf dry
  | die =>
    obtain ⟨recorder, isActive, rfl⟩ := Option.map_eq_some_iff.mp taken
    have active := kept.active recorder isActive
    refine ⟨kept.triedOf, ?_, ?_⟩
    · intro _
      cases dry : recorder.run.dryRun with
      | true => exact (active.dry dry).2
      | false => exact inOrder_of_mayDie (active.live dry) (careful recorder isActive)
    · intro later isLater
      cases isLater

theorem kept_of_initial (starts : (eodRuns feed times calendar).Initial sequence) :
    sequence.Kept calendar := by
  obtain rfl : sequence = ⟨⟨[], [], [], []⟩, Store.empty, none⟩ := starts
  have noManifest : ∀ session, session ∉ Store.empty.manifestSessions := by
    intro session member
    rw [mem_manifestSessions] at member
    cases member
  refine ⟨List.forall_mem_nil _, fun _ => ⟨⟨?_, ?_, ?_, ?_, ?_, List.forall_mem_nil _⟩,
    List.forall_mem_nil _⟩, ?_⟩
  · exact fun bound member => absurd member (noManifest bound)
  · exact fun bound member => absurd member (noManifest bound)
  · exact fun bound member => absurd member (noManifest bound)
  · exact fun session member => absurd member (noManifest session)
  · exact fun session member => absurd member (noManifest session)
  · intro recorder isActive
    cases isActive

/-- **No gap is lost where no run dies inside the closing, and none leaves a session unsettled.** -/
theorem no_gap_lost
    (reached : (eodRuns feed times calendar).ReachableUnder Sequence.Careful sequence) :
    sequence.NoGapLost calendar := by
  have kept : sequence.Kept calendar := reached.invariant (fun _ => kept_of_initial)
    fun state action next before careful taken => kept_step before careful taken
  exact kept.noGapLost

/-! ## A run that dies inside the closing -/

def untried : Sequence :=
  ⟨⟨[], [], [], []⟩, Store.empty, none⟩

/-- A run of one symbol whose vendor does not answer, step by step. -/
def steps (count : ℕ) : List SequenceAction :=
  List.replicate count (.advance noAnswer)

def eodRun (session : ℤ) (sym : String) : Run :=
  ⟨session, [sym], .eod, false, false⟩

/-- What is shown of a state: what was tried and completed, and the sessions and symbols of the
lines. -/
structure Shown where
  tried : List ℤ
  attempted : List (ℤ × String)
  completed : List ℤ
  lines : List (ℤ × Option String)
deriving DecidableEq

def Sequence.shown (sequence : Sequence) : Shown where
  tried := sequence.tried
  attempted := sequence.attempted
  completed := sequence.completed
  lines := sequence.store.gaps.map fun line => (line.session, line.sym)

theorem mem_shown_lines {sym : Option String} (line : sequence.store.HasLine session sym) :
    (session, sym) ∈ sequence.shown.lines := by
  obtain ⟨line, member, rfl, rfl⟩ := line
  exact List.mem_map_of_mem member

theorem ran_first :
    ((eodRuns silentFeed sampleTimes sampleCalendar).run untried
      (.start (eodRun 1 "A") :: steps 8)).map (fun sequence =>
        (sequence.tried, sequence.unsettled, sequence.store.manifestSessions)) =
      some ([1], [], [1]) := by
  decide +kernel

theorem ran_both :
    ((eodRuns silentFeed sampleTimes sampleCalendar).run untried
      ((.start (eodRun 1 "A") :: steps 8) ++ .start (eodRun 3 "B") :: steps 11)).map
        Sequence.shown =
      some ⟨[3, 1], [(3, "B"), (1, "A")], [3, 1],
        [(1, some "A"), (2, none), (1, some "A"), (3, some "B")]⟩ := by
  decide +kernel

/-- A run begins where nothing is unsettled, and goes on to its end. -/
theorem reached_run {run : Run} {count : ℕ}
    (reached : (eodRuns silentFeed sampleTimes sampleCalendar).ReachableUnder Sequence.Careful
      sequence)
    (careful : sequence.Careful (.start run))
    (ran : (eodRuns silentFeed sampleTimes sampleCalendar).run sequence
      (.start run :: steps count) = some next) :
    (eodRuns silentFeed sampleTimes sampleCalendar).ReachableUnder Sequence.Careful next := by
  obtain ⟨begun, started, rest⟩ := Option.bind_eq_some_iff.mp ran
  refine System.ReachableUnder.run (.step reached careful started) ?_ rest
  intro action member state
  rw [List.eq_of_mem_replicate member]
  trivial

theorem no_gap_lost_sample : ∃ sequence : Sequence,
    sequence.shown = ⟨[3, 1], [(3, "B"), (1, "A")], [3, 1],
        [(1, some "A"), (2, none), (1, some "A"), (3, some "B")]⟩ ∧
      sequence.NoGapLost sampleCalendar := by
  obtain ⟨last, ran, shown⟩ := Option.map_eq_some_iff.mp ran_both
  rw [System.run_append] at ran
  obtain ⟨first, ranFirst, ranLast⟩ := Option.bind_eq_some_iff.mp ran
  have shownFirst := ran_first
  rw [ranFirst, Option.map_some, Option.some.injEq, Prod.mk.injEq, Prod.mk.injEq] at shownFirst
  obtain ⟨tried, unsettled, manifests⟩ := shownFirst
  have reachedFirst := reached_run (.initial rfl) (.inr ⟨List.forall_mem_nil _,
    List.forall_mem_nil _⟩) ranFirst
  have careful : first.Careful (.start (eodRun 3 "B")) := by
    refine .inr ⟨?_, ?_⟩
    · intro earlier isTried _
      rw [tried] at isTried
      rw [manifests]
      exact isTried
    · intro item member
      rw [unsettled] at member
      cases member
  exact ⟨last, shown, no_gap_lost (reached_run reachedFirst careful ranLast)⟩

/-- A run of session 3 that dies after its placeholder of session 2, and one that does not. -/
theorem ran_again :
    ((eodRuns silentFeed sampleTimes sampleCalendar).run untried
      ((.start (eodRun 1 "A") :: steps 8) ++ (.start (eodRun 3 "B") :: steps 5) ++
        .die :: .start (eodRun 3 "B") :: steps 8)).map Sequence.shown =
      some ⟨[3, 3, 1], [(3, "B"), (3, "B"), (1, "A")], [3, 1],
        [(1, some "A"), (3, some "B")]⟩ := by
  decide +kernel

/-- **After a death inside the closing, the next run begins at a placeholder, and the session it is
of never gets its line.** -/
theorem placeholder_hides_last_session : ∃ sequence : Sequence,
    (eodRuns silentFeed sampleTimes sampleCalendar).Reachable sequence ∧
      ¬ sequence.NoGapLost sampleCalendar := by
  obtain ⟨sequence, ran, shown⟩ := Option.map_eq_some_iff.mp ran_again
  refine ⟨sequence, .run (.initial rfl) (fun _ _ _ => trivial) ran, ?_⟩
  intro noGapLost
  have tried : sequence.tried = [3, 3, 1] := congrArg Shown.tried shown
  have completed : (3 : ℤ) ∈ sequence.completed := by
    rw [show sequence.completed = [3, 1] from congrArg Shown.completed shown]
    exact List.mem_cons_self
  have isSession : (2 : ℤ) ∈ sampleCalendar.sessions := by decide
  have isFirst : (1 : ℤ) ∈ sequence.tried := by
    rw [tried]
    decide
  have untriedTwo : (2 : ℤ) ∉ sequence.tried := by
    rw [tried]
    decide
  have line := (noGapLost 3 completed).2 2 isSession 1 isFirst (by decide) (by decide) untriedTwo
  have inLines := mem_shown_lines line
  rw [shown] at inLines
  revert inLines
  decide

end TreeOptions.ChainStore
