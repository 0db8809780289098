import TreeOptions.Splitting.Splitter

/-!
# The trading calendar

The sessions of a calendar with their opens and closes. A session opens before it closes and
closes before a later one opens. Positions are asked for by session, and sessions by position;
a date that is no session, and a position behind the last, have no answer.
-/

set_option autoImplicit false

namespace TreeOptions.Backtest

structure TradingCalendar extends Splitting.SessionCalendar ℤ where
  sessionOpen : ℤ → ℤ
  sessionClose : ℤ → ℤ
  opens : ∀ session ∈ sessions, sessionOpen session ≤ sessionClose session
  ordered : ∀ first ∈ sessions, ∀ second ∈ sessions, first < second →
    sessionClose first < sessionOpen second

namespace TradingCalendar

variable (calendar : TradingCalendar)

def position (session : ℤ) : Option ℕ :=
  if session ∈ calendar.sessions then some (calendar.sessions.idxOf session) else none

/-- The session some positions after another. -/
def nthAfter (session : ℤ) (n : ℕ) : Option ℤ :=
  (calendar.position session).bind fun start => calendar.sessions[start + n]?

variable {calendar} {session : ℤ}

theorem position_eq_some {index : ℕ} :
    calendar.position session = some index ↔ calendar.sessions[index]? = some session := by
  rw [← Splitting.SessionCalendar.ordinal_eq_ok, position, Splitting.SessionCalendar.ordinal]
  split
  case isTrue => simp
  case isFalse => simp

variable {next : ℤ}

theorem nthAfter_eq_some {n : ℕ} :
    calendar.nthAfter session n = some next ↔
      ∃ index, calendar.sessions[index]? = some session ∧
        calendar.sessions[index + n]? = some next := by
  rw [nthAfter, Option.bind_eq_some_iff]
  simp only [position_eq_some]

theorem mem_of_nthAfter {n : ℕ} (after : calendar.nthAfter session n = some next) :
    next ∈ calendar.sessions := by
  obtain ⟨index, -, found⟩ := nthAfter_eq_some.mp after
  exact List.mem_of_getElem? found

/-- An earlier position is an earlier session. -/
theorem lt_of_getElem? {first second : ℤ} {index index' : ℕ} (less : index < index')
    (isFirst : calendar.sessions[index]? = some first)
    (isSecond : calendar.sessions[index']? = some second) : first < second := by
  obtain ⟨inside, rfl⟩ := List.getElem?_eq_some_iff.mp isFirst
  obtain ⟨inside', rfl⟩ := List.getElem?_eq_some_iff.mp isSecond
  exact List.pairwise_iff_getElem.mp calendar.increasing index index' inside inside' less

theorem lt_of_nthAfter (after : calendar.nthAfter session 1 = some next) : session < next := by
  obtain ⟨index, isFirst, isSecond⟩ := nthAfter_eq_some.mp after
  exact lt_of_getElem? (Nat.lt_succ_self index) isFirst isSecond

theorem nthAfter_le {later : ℤ} (after : calendar.nthAfter session 1 = some next)
    (isLater : later ∈ calendar.sessions) (less : session < later) : next ≤ later := by
  obtain ⟨index, isFirst, isSecond⟩ := nthAfter_eq_some.mp after
  obtain ⟨index', inside, isThird⟩ := List.mem_iff_getElem.mp isLater
  have found : calendar.sessions[index']? = some later :=
    List.getElem?_eq_some_iff.mpr ⟨inside, isThird⟩
  rcases Nat.lt_trichotomy (index + 1) index' with before | same | behind
  · exact (lt_of_getElem? before isSecond found).le
  · rw [same, found] at isSecond
    exact (Option.some.inj isSecond).ge
  · -- then `later` is at the position of `session` or before it
    rcases (Nat.lt_succ_iff.mp behind).eq_or_lt with same | before
    · rw [same, isFirst] at found
      exact absurd (Option.some.inj found) less.ne
    · exact absurd (lt_of_getElem? before found isFirst) less.asymm

theorem getElem?_unique {index index' : ℕ} (found : calendar.sessions[index]? = some session)
    (found' : calendar.sessions[index']? = some session) : index = index' := by
  rcases Nat.lt_trichotomy index index' with less | same | greater
  · exact absurd (lt_of_getElem? less found found') (lt_irrefl session)
  · exact same
  · exact absurd (lt_of_getElem? greater found' found) (lt_irrefl session)

/-- **A session follows one session.** -/
theorem nthAfter_injective {first second : ℤ} {n : ℕ}
    (after : calendar.nthAfter first n = some next)
    (after' : calendar.nthAfter second n = some next) : first = second := by
  obtain ⟨index, isFirst, found⟩ := nthAfter_eq_some.mp after
  obtain ⟨index', isSecond, found'⟩ := nthAfter_eq_some.mp after'
  have same := getElem?_unique found found'
  obtain rfl : index = index' := by omega
  rw [isFirst] at isSecond
  exact Option.some.inj isSecond

/-- Positions are in the order of the sessions. -/
theorem idxOf_le_idxOf {first second : ℤ} (isFirst : first ∈ calendar.sessions)
    (isSecond : second ∈ calendar.sessions) :
    calendar.sessions.idxOf first ≤ calendar.sessions.idxOf second ↔ first ≤ second := by
  have foundFirst := List.getElem?_idxOf isFirst
  have foundSecond := List.getElem?_idxOf isSecond
  constructor
  · intro le
    rcases le.lt_or_eq with less | same
    · exact (lt_of_getElem? less foundFirst foundSecond).le
    · rw [same, foundSecond] at foundFirst
      exact (Option.some.inj foundFirst).ge
  · intro le
    by_contra greater
    exact absurd (lt_of_getElem? (Nat.lt_of_not_le greater) foundSecond foundFirst)
      (Int.not_lt.mpr le)

end TradingCalendar

end TreeOptions.Backtest
