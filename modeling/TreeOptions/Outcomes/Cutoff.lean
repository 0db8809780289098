import TreeOptions.Foundations.SlotSearch
import TreeOptions.Outcomes.Legs
import TreeOptions.Outcomes.Purge

/-!
# What the purged selection sees

The clocks of a window are in time order, so that those up to a day are the first slots, and an
exit is a search over the slots after the entry (`exit_found`). The searches that are settled by
the cutoff session do not see later prints. Of the others it matters whether there is a later mark
at all: with one the decision is purged, and without one the exit falls back to what came before.
-/

set_option autoImplicit false

namespace TreeOptions.Outcomes

open Checked SlotSearch

/-! ## Slots of the timeline -/

namespace Window

variable {window : Window} {day other : ℤ} {slot : ℕ}

/-- How many clocks there are up to a day. -/
def slotsThrough (window : Window) (day : ℤ) : ℕ :=
  (window.timeline.filter fun clock => clock.day ≤ day).length

variable {clock : DecisionClock}

theorem day_of_mem_clocksOf (member : clock ∈ window.clocksOf day) :
    clock.day = day ∧ clock.instant = window.zone.instantOf day clock.minute ∧
      clock.minute ∈ window.scheduleFor day := by
  obtain ⟨minute, scheduled, rfl⟩ := List.mem_map.mp member
  exact ⟨rfl, rfl, scheduled⟩

theorem of_mem_timeline (member : clock ∈ window.timeline) : clock.day ∈ window.sessions ∧
      clock.instant = window.zone.instantOf clock.day clock.minute ∧
        clock.minute ∈ window.scheduleFor clock.day := by
  obtain ⟨session, isSession, inside⟩ := List.mem_flatMap.mp member
  obtain ⟨rfl, at_, scheduled⟩ := day_of_mem_clocksOf inside
  exact ⟨isSession, at_, scheduled⟩

theorem filter_clocksOf (condition : ℤ → Bool) :
    ((window.clocksOf day).filter fun clock => condition clock.day) =
      if condition day then window.clocksOf day else [] := by
  split
  case isTrue met =>
    rw [List.filter_eq_self]
    intro clock member
    rw [(day_of_mem_clocksOf member).1, met]
  case isFalse unmet =>
    rw [List.filter_eq_nil_iff]
    intro clock member
    rw [(day_of_mem_clocksOf member).1]
    exact unmet

theorem filter_timeline (condition : ℤ → Bool) :
    (window.timeline.filter fun clock => condition clock.day) =
      (window.sessions.filter condition).flatMap window.clocksOf := by
  rw [timeline]
  induction window.sessions with
  | nil => rfl
  | cons session rest ih =>
    rw [List.flatMap_cons, List.filter_append, ih, filter_clocksOf, List.filter_cons]
    split
    · rw [List.flatMap_cons]
    · rw [List.nil_append]

theorem slotsThrough_eq (window : Window) (day : ℤ) :
    window.slotsThrough day =
      ((window.sessions.filter fun session => session ≤ day).flatMap window.clocksOf).length :=
  congrArg List.length (filter_timeline fun session => session ≤ day)

theorem sorted_timeline (window : Window) :
    window.timeline.Pairwise fun first second => first.day ≤ second.day := by
  rw [timeline, List.pairwise_flatMap]
  constructor
  · intro session _
    refine List.pairwise_of_forall_mem_list ?_
    intro first member second member'
    rw [(day_of_mem_clocksOf member).1, (day_of_mem_clocksOf member').1]
  · refine window.increasing.imp ?_
    intro session later before first member second member'
    rw [(day_of_mem_clocksOf member).1, (day_of_mem_clocksOf member').1]
    exact before.le

theorem slot_lt_iff (at_ : window.timeline[slot]? = some clock) :
    slot < window.slotsThrough day ↔ clock.day ≤ day := by
  rw [slotsThrough]
  have sorted := window.sorted_timeline
  revert at_ sorted
  induction window.timeline generalizing slot with
  | nil =>
    intro at_
    cases at_
  | cons first rest ih =>
    intro at_ sorted
    obtain ⟨below, sorted⟩ := List.pairwise_cons.mp sorted
    by_cases early : first.day ≤ day
    · rw [List.filter_cons_of_pos (by simpa using early), List.length_cons]
      cases slot with
      | zero =>
        cases at_
        simp [early]
      | succ slot =>
        rw [Nat.succ_lt_succ_iff]
        exact ih at_ sorted
    · have none_ : (rest.filter fun clock => clock.day ≤ day) = [] := by
        rw [List.filter_eq_nil_iff]
        intro other member
        have := below other member
        simp only [decide_eq_true_eq]
        omega
      rw [List.filter_cons_of_neg (by simpa using early), none_, List.length_nil]
      have after : day < clock.day := by
        cases slot with
        | zero =>
          cases at_
          omega
        | succ slot =>
          have := below clock (List.mem_of_getElem? at_)
          omega
      omega

theorem slotsThrough_mono (le : day ≤ other) :
    window.slotsThrough day ≤ window.slotsThrough other := by
  apply List.Sublist.length_le
  refine List.monotone_filter_right _ ?_
  intro clock early
  exact decide_eq_true ((of_decide_eq_true early).trans le)

theorem slotsThrough_le (window : Window) (day : ℤ) :
    window.slotsThrough day ≤ window.timeline.length :=
  List.length_filter_le _ _

theorem clocksOf_ne_nil (window : Window) (day : ℤ) : window.clocksOf day ≠ [] := by
  rw [clocksOf, scheduleFor]
  split <;> exact List.cons_ne_nil _ _

theorem lastSlot_add_one (isSession : day ∈ window.sessions) :
    window.lastSlot day + 1 = window.slotsThrough day := by
  rw [slotsThrough_eq, lastSlot]
  obtain ⟨clock, member⟩ := List.exists_mem_of_ne_nil _ (window.clocksOf_ne_nil day)
  have inside : clock ∈
      (window.sessions.filter fun session => session ≤ day).flatMap window.clocksOf :=
    List.mem_flatMap.mpr ⟨day, List.mem_filter.mpr ⟨isSession, decide_eq_true le_rfl⟩, member⟩
  have positive := List.length_pos_of_mem inside
  omega

theorem le_lastSession (isSession : day ∈ window.sessions) : day ≤ window.lastSession :=
  le_of_getLast? (window.increasing.imp fun before => before.le)
    (List.getLast?_eq_some_getLast window.nonempty) isSession

theorem slotsThrough_of_lastSession (past : window.lastSession ≤ day) :
    window.slotsThrough day = window.timeline.length := by
  rw [slotsThrough, List.filter_eq_self.mpr]
  intro clock member
  exact decide_eq_true ((le_lastSession (of_mem_timeline member).1).trans past)

theorem slotsThrough_lastBefore (isSession : other ∈ window.sessions) (le : other ≤ day) :
    window.lastBefore day ∈ window.sessions ∧
      window.slotsThrough (window.lastBefore day) = window.slotsThrough day := by
  have inside : other ∈ window.sessions.filter fun session => session ≤ day :=
    List.mem_filter.mpr ⟨isSession, decide_eq_true le⟩
  obtain ⟨last, isLast⟩ := List.getLast?_isSome.mpr (List.ne_nil_of_mem inside) |>
    Option.isSome_iff_exists.mp
  have sorted : (window.sessions.filter fun session => session ≤ day).Pairwise
      fun first second => id first ≤ id second :=
    (window.increasing.imp fun before => before.le).filter _
  have same : window.lastBefore day = last := by rw [lastBefore, isLast, Option.getD_some]
  obtain ⟨member, early⟩ := List.mem_filter.mp (List.mem_of_getLast? isLast)
  rw [same]
  refine ⟨member, ?_⟩
  rw [slotsThrough_eq, slotsThrough_eq]
  congr 2
  apply List.filter_congr
  intro session isSession'
  rw [decide_eq_decide]
  constructor
  · intro before
    exact before.trans (of_decide_eq_true early)
  · intro before
    exact le_of_getLast? sorted isLast
      (List.mem_filter.mpr ⟨isSession', decide_eq_true before⟩)

end Window

/-! ## Prints up to the close -/

section Prints

variable {points : List Print} {now close : ℤ}

theorem seen_seen (early : now ≤ close) : seen (seen points close) now = seen points now := by
  rw [seen, seen, seen, List.filter_filter]
  apply List.filter_congr
  intro print _
  by_cases before : print.stamp ≤ now
  · simp [before, before.trans early]
  · simp [before]

end Prints

/-! ## Exits as searches -/

section Search

variable {window : Window} {bars : MinuteBars} {sync : Option ℤ} {candidate : Candidate}

theorem backward_eq (high low : ℕ) :
    backward window bars sync candidate high low =
      lastIn (mark window bars sync candidate) (low + 1) (high + 1) := by
  rw [backward, lastIn, Nat.add_sub_add_right]
  rfl

theorem walk_eq (start : ℕ) :
    walk window bars sync candidate start =
      firstIn (mark window bars sync candidate) start (window.slotsThrough candidate.expiry) := by
  have upTo : ∀ slot, slot < window.timeline.length →
      ((window.timeline[slot]?.all fun clock => clock.day ≤ candidate.expiry) ↔
        slot < window.slotsThrough candidate.expiry) := by
    intro slot inside
    have at_ := List.getElem?_eq_getElem inside
    rw [at_, Window.slot_lt_iff at_, Option.all_some, decide_eq_true_eq]
  rw [walk, takeWhile_range (window.slotsThrough_le _) upTo]
  rfl

theorem found_expiryRule {slot : ℕ} {day : ℤ} (isSession : day ∈ window.sessions)
    (unexpired : day ≤ candidate.expiry) (closedReason endReason : ExitReason) :
    (expiryRule window bars sync candidate slot closedReason endReason).found =
      lastIn (mark window bars sync candidate) (slot + 1)
        (window.slotsThrough candidate.expiry) := by
  rw [expiryRule]
  split
  case isTrue past =>
    have all := Window.slotsThrough_of_lastSession past.le
    have some_ := window.lastSlot_add_one isSession
    have within := window.slotsThrough_le day
    have high : window.timeline.length - 1 + 1 = window.slotsThrough candidate.expiry := by omega
    rw [backward_eq, high]
    split <;> rename_i found <;> rw [found]
  case isFalse =>
    obtain ⟨isSession', same⟩ := Window.slotsThrough_lastBefore isSession unexpired
    rw [backward_eq, window.lastSlot_add_one isSession', same]
    split <;> rename_i found <;> rw [found]

theorem found_walkOrExpire {slot start : ℕ} {day : ℤ} (isSession : day ∈ window.sessions)
    (unexpired : day ≤ candidate.expiry) (reason : ExitReason) :
    (walkOrExpire window bars sync candidate slot start reason).found =
      (firstIn (mark window bars sync candidate) start
        (window.slotsThrough candidate.expiry)).or
        (lastIn (mark window bars sync candidate) (slot + 1)
          (window.slotsThrough candidate.expiry)) := by
  rw [walkOrExpire, walk_eq]
  split
  case h_1 found met => rw [met, Option.some_or]
  case h_2 unmet => rw [unmet, Option.none_or, found_expiryRule isSession unexpired]

theorem found_eod {slot : ℕ} {day : ℤ} (isSession : day ∈ window.sessions)
    (unexpired : day ≤ candidate.expiry) :
    (exit window bars sync candidate slot day .eod).found =
      (lastIn (mark window bars sync candidate) (slot + 1) (window.slotsThrough day)).or
        ((firstIn (mark window bars sync candidate) (window.slotsThrough day)
          (window.slotsThrough candidate.expiry)).or
          (lastIn (mark window bars sync candidate) (slot + 1)
            (window.slotsThrough candidate.expiry))) := by
  rw [exit, backward_eq, window.lastSlot_add_one isSession]
  split
  case h_1 item met => rw [met, Option.some_or]
  case h_2 unmet => rw [unmet, Option.none_or, found_walkOrExpire isSession unexpired]

end Search

/-! ## What the cutoff settles -/

section Settled

variable (window : Window) (bars : MinuteBars) (sync : Option ℤ) (candidate : Candidate)

/-- The slots up to the cutoff and the expiry. -/
def cutOf (cutoff : ℤ) : ℕ :=
  window.slotsThrough (min cutoff candidate.expiry)

/-- The spread has a mark at a clock after the cutoff session, and up to its expiry. -/
def MarkedLater (cutoff : ℤ) : Prop :=
  AnyIn (mark window bars sync candidate) (cutOf window candidate cutoff)
    (window.slotsThrough candidate.expiry)

/-- From where on the first mark is the exit of a mode. The exit at the expiry is the last mark. -/
def walkStart (slot : ℕ) (day : ℤ) : ExitMode → Option ℕ
  | .expiry => none
  | .intraday | .eod => some (slot + 1)
  | .hold days =>
    window.sessions[window.sessions.idxOf day + days.count]?.map window.lastSlot

/-- The exit is settled by the marks up to the cutoff session. -/
def SettledBy (cutoff : ℤ) (slot : ℕ) (day : ℤ) (mode : ExitMode) : Prop :=
  ∃ start, walkStart window slot day mode = some start ∧
    AnyIn (mark window bars sync candidate) start (cutOf window candidate cutoff)

/-- The last mark after the entry and up to the cutoff session. -/
def markByCutoff (cutoff : ℤ) (slot : ℕ) : Option (ℕ × ℚ) :=
  lastIn (mark window bars sync candidate) (slot + 1) (cutOf window candidate cutoff)

def settledExit (cutoff : ℤ) (slot : ℕ) (day : ℤ) : ExitMode → Option (ℕ × ℚ)
  | .expiry => none
  | .intraday =>
    firstIn (mark window bars sync candidate) (slot + 1) (cutOf window candidate cutoff)
  | .eod =>
    (lastIn (mark window bars sync candidate) (slot + 1) (window.slotsThrough day)).or
      (firstIn (mark window bars sync candidate) (window.slotsThrough day)
        (cutOf window candidate cutoff))
  | .hold days =>
    window.sessions[window.sessions.idxOf day + days.count]?.bind fun target =>
      firstIn (mark window bars sync candidate) (window.lastSlot target)
        (cutOf window candidate cutoff)

end Settled

section Cut

variable {window : Window} {bars : MinuteBars} {sync : Option ℤ} {candidate : Candidate}
  {cutoff day : ℤ} {slot : ℕ}

theorem isSome_firstIn {valueOf : ℕ → Option ℚ} {start stop : ℕ} :
    firstIn valueOf start stop ≠ none ↔ AnyIn valueOf start stop := by
  rw [Ne, firstIn_eq_none, not_not]

theorem settledExit_ne_none (before : slot < window.slotsThrough day)
    (early : window.slotsThrough day ≤ cutOf window candidate cutoff) (mode : ExitMode) :
    settledExit window bars sync candidate cutoff slot day mode ≠ none ↔
      SettledBy window bars sync candidate cutoff slot day mode := by
  rw [SettledBy]
  cases mode with
  | expiry => simp [settledExit, walkStart]
  | intraday => simp only [settledExit, walkStart, Option.some.injEq, exists_eq_left',
      isSome_firstIn]
  | eod =>
    simp only [settledExit, walkStart, Option.some.injEq, exists_eq_left', ne_eq,
      Option.or_eq_none_iff, lastIn_eq_none, firstIn_eq_none]
    constructor
    · intro either
      by_contra none_
      refine either ⟨?_, ?_⟩
      · rintro ⟨later, low, high, present⟩
        exact none_ ⟨later, low, high.trans_le early, present⟩
      · rintro ⟨later, low, high, present⟩
        exact none_ ⟨later, before.trans_le low, high, present⟩
    · rintro ⟨later, low, high, present⟩ ⟨none_, none'⟩
      by_cases same : later < window.slotsThrough day
      · exact none_ ⟨later, low, same, present⟩
      · exact none' ⟨later, not_lt.mp same, high, present⟩
  | hold days =>
    cases target : window.sessions[window.sessions.idxOf day + days.count]? with
    | none => simp [settledExit, walkStart, target]
    | some session =>
      simp [settledExit, walkStart, isSome_firstIn]

/-- **The exit of a mode, cut at the end of the cutoff session.** -/
theorem cutAt_exit (isSession : day ∈ window.sessions) (before : slot < window.slotsThrough day)
    (unexpired : day ≤ candidate.expiry) (isTrain : day ≤ cutoff) (mode : ExitMode) :
    CutAt (cutOf window candidate cutoff) (window.slotsThrough candidate.expiry)
      (settledExit window bars sync candidate cutoff slot day mode)
      (markByCutoff window bars sync candidate cutoff slot)
      (MarkedLater window bars sync candidate cutoff)
      (exit window bars sync candidate slot day mode).found := by
  have below : slot + 1 ≤ cutOf window candidate cutoff :=
    before.trans_le (Window.slotsThrough_mono (le_min isTrain unexpired))
  have inside : cutOf window candidate cutoff ≤ window.slotsThrough candidate.expiry :=
    Window.slotsThrough_mono (min_le_right _ _)
  cases mode with
  | expiry =>
    rw [exit, found_expiryRule isSession unexpired]
    exact cutAt_lastIn below inside
  | intraday =>
    rw [exit, found_walkOrExpire isSession unexpired]
    exact cutAt_firstIn below inside
  | eod =>
    rw [found_eod isSession unexpired]
    exact (cutAt_firstIn below inside).after
  | hold days =>
    rw [exit, settledExit]
    cases target : window.sessions[window.sessions.idxOf day + days.count]? with
    | none =>
      rw [Option.bind_none]
      dsimp only
      rw [found_expiryRule isSession unexpired]
      exact cutAt_lastIn below inside
    | some session =>
      rw [Option.bind_some]
      dsimp only
      rw [found_walkOrExpire isSession unexpired]
      exact cutAt_firstIn below inside

end Cut

/-! ## Clocks and the close -/

namespace Window

variable {window : Window} {day cutoff : ℤ} {minute : ℕ}

theorem closeMinute_le (window : Window) (day : ℤ) : window.closeMinute day ≤ 960 := by
  rw [closeMinute]
  split <;> decide

theorem minute_bounds (scheduled : minute ∈ window.scheduleFor day) :
    600 ≤ minute ∧ minute + 15 ≤ window.closeMinute day := by
  rw [scheduleFor] at scheduled
  rw [closeMinute] at scheduled ⊢
  by_cases isEarly : day ∈ window.earlyCloses
  · rw [if_pos isEarly] at scheduled ⊢
    have bounds : ∀ minute ∈ earlySchedule, 600 ≤ minute ∧ minute + 15 ≤ 780 := by decide
    exact bounds minute scheduled
  · rw [if_neg isEarly] at scheduled ⊢
    have bounds : ∀ minute ∈ schedule, 600 ≤ minute ∧ minute + 15 ≤ 960 := by decide
    exact bounds minute scheduled

theorem dateOf_sessionClose (window : Window) (day : ℤ) :
    window.zone.dateOf (window.sessionClose day) = day := by
  have bound := window.closeMinute_le day
  exact window.zone.dateOf_instantOf _ _ (by omega)

theorem sessionClose_mono (le : day ≤ cutoff) :
    window.sessionClose day ≤ window.sessionClose cutoff := by
  rcases le.eq_or_lt with rfl | before
  · exact le_rfl
  · by_contra later
    have dates := window.zone.dateOf_mono (not_le.mp later).le
    rw [dateOf_sessionClose, dateOf_sessionClose] at dates
    omega

theorem instant_add_le {clock : DecisionClock} (member : clock ∈ window.timeline) :
    clock.instant + ageLimit ≤ window.sessionClose clock.day := by
  obtain ⟨-, at_, scheduled⟩ := of_mem_timeline member
  obtain ⟨low, high⟩ := minute_bounds scheduled
  have bound := window.closeMinute_le clock.day
  rw [at_, sessionClose, window.zone.instantOf_later clock.day clock.minute _ low (by omega) bound]
  have within : (clock.minute : ℤ) + 15 ≤ window.closeMinute clock.day := by exact_mod_cast high
  rw [ageLimit]
  omega

theorem dateOf_instant {clock : DecisionClock} (member : clock ∈ window.timeline) :
    window.zone.dateOf clock.instant = clock.day := by
  obtain ⟨-, at_, scheduled⟩ := of_mem_timeline member
  have bound := window.closeMinute_le clock.day
  have within := (minute_bounds scheduled).2
  rw [at_]
  exact window.zone.dateOf_instantOf _ _ (by omega)

theorem of_slotOf {slot : ℕ} (found : window.slotOf day minute = some slot) :
    window.timeline[slot]? = some ⟨day, minute, window.zone.instantOf day minute⟩ := by
  obtain ⟨inside, met, -⟩ := List.findIdx?_eq_some_iff_getElem.mp found
  have at_ := List.getElem?_eq_getElem inside
  rw [Bool.and_eq_true, decide_eq_true_eq, decide_eq_true_eq] at met
  have instant := (of_mem_timeline (List.getElem_mem inside)).2.1
  rw [at_]
  congr 1
  rw [← met.1, ← met.2, ← instant]

end Window

/-! ## Bundles that agree up to the close -/

/-- The prints of two bundles agree up to the close of a session. -/
def AgreeThrough (window : Window) (cutoff : ℤ) (first second : MinuteBars) : Prop :=
  ∀ ticker, seen (first.points ticker) (window.sessionClose cutoff) =
    seen (second.points ticker) (window.sessionClose cutoff)

section Agree

variable {window : Window} {cutoff now : ℤ} {first second : MinuteBars}
  (agree : AgreeThrough window cutoff first second)

include agree

theorem seen_eq (early : now ≤ window.sessionClose cutoff) (ticker : String) :
    seen (first.points ticker) now = seen (second.points ticker) now := by
  rw [← seen_seen early, agree ticker, seen_seen early]

theorem candidates_eq (key : CandidateKey) (early : now ≤ window.sessionClose cutoff) :
    candidates window key first now = candidates window key second now := by
  have same : pairCandidates window key first now = pairCandidates window key second now := by
    funext pair
    simp only [pairCandidates, latest, seen_eq agree early]
  simp only [candidates, same]

theorem markAt_eq (sync : Option ℤ) (candidate : Candidate)
    (early : now ≤ window.sessionClose cutoff) :
    markAt window first sync candidate now = markAt window second sync candidate now := by
  simp only [markAt, latest, seen_eq agree early]

theorem mark_eq (sync : Option ℤ) (candidate : Candidate) {slot : ℕ}
    (early : slot < window.slotsThrough cutoff) :
    mark window first sync candidate slot = mark window second sync candidate slot := by
  rw [mark, mark]
  cases at_ : window.timeline[slot]? with
  | none => rfl
  | some clock =>
    have member := List.mem_of_getElem? at_
    have isTrain := (Window.slot_lt_iff at_).mp early
    have bound := (Window.instant_add_le member).trans (Window.sessionClose_mono isTrain)
    have within : clock.instant ≤ window.sessionClose cutoff := by
      rw [ageLimit] at bound
      omega
    rw [Option.bind_some, Option.bind_some, markAt_eq agree sync candidate within]

theorem mem_window_iff (early : now + ageLimit ≤ window.sessionClose cutoff) (ticker : String)
    (print : Print) : print ∈ first.points ticker ∧ InWindow now print ↔
      print ∈ second.points ticker ∧ InWindow now print := by
  have same : print ∈ seen (first.points ticker) (window.sessionClose cutoff) ↔
      print ∈ seen (second.points ticker) (window.sessionClose cutoff) := by
    rw [agree ticker]
  simp only [seen, List.mem_filter, decide_eq_true_eq] at same
  refine and_congr_left fun inWindow => ?_
  have upTo : print.stamp ≤ window.sessionClose cutoff := by
    have := inWindow.2
    omega
  simpa only [upTo, and_true] using same

theorem enter_eq (sync : Option ℤ) (candidate : Candidate)
    (early : now + ageLimit ≤ window.sessionClose cutoff) :
    enter first sync now candidate = enter second sync now candidate := by
  have next_ : ∀ ticker, next (first.points ticker) now = next (second.points ticker) now := by
    intro ticker
    ext print
    simp only [next_eq_some_iff, ← and_imp, mem_window_iff agree early]
  have walk : ∀ sync, syncedPair (fun print => print.stamp - now ≤ ageLimit)
        (fun long short => long.stamp < short.stamp) sync
        (following (first.points candidate.long) now)
        (following (first.points candidate.short) now) =
      syncedPair (fun print => print.stamp - now ≤ ageLimit)
        (fun long short => long.stamp < short.stamp) sync
        (following (second.points candidate.long) now)
        (following (second.points candidate.short) now) := by
    intro sync
    have same : Synced (InWindow now) sync (second.points candidate.long)
          (second.points candidate.short) =
        Synced (InWindow now) sync (first.points candidate.long) (first.points candidate.short) := by
      funext pair
      simp only [synced_iff, mem_window_iff agree early]
    refine leads_entry.unique ?_ (same ▸ leads_entry)
    intro pair other synced synced' long short
    exact Prod.ext (eq_of_stamp_eq synced.long.1 synced'.long.1 long)
      (eq_of_stamp_eq synced.short.1 synced'.short.1 short)
  have same : entryPrints sync now (first.points candidate.long) (first.points candidate.short) =
      entryPrints sync now (second.points candidate.long) (second.points candidate.short) := by
    simp only [entryPrints, next_, walk]
  rw [enter, enter, same]

end Agree

theorem of_unrefused {Error Value : Type} {bad : Prop} [Decidable bad] {error : Error}
    {value result : Value} (succeeded : (if bad then .error error else .ok value) =
      (.ok result : Except Error Value)) : ¬ bad ∧ value = result := by
  split at succeeded
  case isTrue => cases succeeded
  case isFalse unrefused => exact ⟨unrefused, Except.ok.inj succeeded⟩

/-- An entry is no later than its window. -/
theorem enteredAt_le {bars : MinuteBars} {sync : Option ℤ} {now : ℤ} {candidate : Candidate}
    {entry : Entry} (entered : enter bars sync now candidate = .ok entry) :
    entry.enteredAt ≤ now + ageLimit := by
  obtain ⟨prints, found, entered⟩ := bind_eq_ok.mp entered
  have within : InWindow now prints.1 ∧ InWindow now prints.2 := by
    cases sync with
    | none =>
      rw [entryPrints] at found
      split at found
      case h_1 long short isLong isShort =>
        cases found
        exact ⟨(next_eq_some_iff.mp isLong).1.2, (next_eq_some_iff.mp isShort).1.2⟩
      case h_2 => cases found
    | some sync =>
      have leads := leads_of_entryPrints found
      exact ⟨leads.1.long.2, leads.1.short.2⟩
  have late := And.intro within.1.2 within.2.2
  rw [← (of_unrefused entered).2]
  dsimp only
  omega

end TreeOptions.Outcomes
