import Mathlib.Order.Lattice
import TreeOptions.Foundations.Checked

/-!
# Runs over sessions

A run goes through a list of sessions with a state and gives one row for each, or stops
with an error (`runSessions`). Two runs that take the same steps up to some session, from
states that are alike, give the same rows up to it (`rows_agree`), whatever comes after. A run
over two lists is a run over each of them (`runSessions_append_eq_ok`).
-/

set_option autoImplicit false

namespace TreeOptions

variable {Session Error State State' Row : Type}

/-- One row for each session, with the state carried along. -/
def runSessions (step : Session → State → Except Error (State × Row)) :
    List Session → State → Except Error (State × List Row)
  | [], state => .ok (state, [])
  | session :: rest, state => do
      let (next, row) ← step session state
      let (last, rows) ← runSessions step rest next
      return (last, row :: rows)

variable {step : Session → State → Except Error (State × Row)}
  {state last : State} {rows : List Row}

theorem runSessions_cons_eq_ok {session : Session} {rest : List Session} :
    runSessions step (session :: rest) state = .ok (last, rows) ↔
      ∃ next row rows', step session state = .ok (next, row) ∧
        runSessions step rest next = .ok (last, rows') ∧ rows = row :: rows' := by
  rw [runSessions, Checked.bind_eq_ok]
  constructor
  · rintro ⟨⟨next, row⟩, first, succeeded⟩
    obtain ⟨⟨last', rows'⟩, later, same⟩ := Checked.bind_eq_ok.mp succeeded
    cases same
    exact ⟨next, row, rows', first, later, rfl⟩
  · rintro ⟨next, row, rows', first, later, rfl⟩
    exact ⟨(next, row), first, Checked.bind_eq_ok.mpr ⟨(last, rows'), later, rfl⟩⟩

variable {sessions : List Session}

theorem length_runSessions (ran : runSessions step sessions state = .ok (last, rows)) :
    rows.length = sessions.length := by
  induction sessions generalizing state rows with
  | nil =>
    cases ran
    rfl
  | cons session rest ih =>
    obtain ⟨next, row, rows', -, later, rfl⟩ := runSessions_cons_eq_ok.mp ran
    rw [List.length_cons, List.length_cons, ih later]

theorem runSessions_invariant (holds : State → Prop) (shows : Session → Row → Prop)
    (kept : ∀ session ∈ sessions, ∀ state next row, holds state →
      step session state = .ok (next, row) → holds next ∧ shows session row)
    (initially : holds state) (ran : runSessions step sessions state = .ok (last, rows)) :
    holds last ∧ List.Forall₂ shows sessions rows := by
  induction sessions generalizing state rows with
  | nil =>
    cases ran
    exact ⟨initially, .nil⟩
  | cons session rest ih =>
    obtain ⟨next, row, rows', first, later, rfl⟩ := runSessions_cons_eq_ok.mp ran
    obtain ⟨afterwards, shown⟩ := kept session List.mem_cons_self state next row initially first
    obtain ⟨atEnd, others⟩ := ih
      (List.forall_mem_cons.mp kept).2 afterwards later
    exact ⟨atEnd, .cons shown others⟩

/-- **Steps that agree up to a session give the same rows up to it.** -/
theorem rows_agree {step' : Session → State' → Except Error (State' × Row)}
    (alike : State → State' → Prop) {early later later' : List Session} {state' last' : State'}
    {rows' : List Row} (related : alike state state')
    (agree : ∀ session ∈ early, ∀ state state' next next' row row', alike state state' →
      step session state = .ok (next, row) → step' session state' = .ok (next', row') →
        alike next next' ∧ row = row')
    (ran : runSessions step (early ++ later) state = .ok (last, rows))
    (ran' : runSessions step' (early ++ later') state' = .ok (last', rows')) :
    rows.take early.length = rows'.take early.length := by
  induction early generalizing state state' rows rows' with
  | nil => rw [List.length_nil, List.take_zero, List.take_zero]
  | cons session rest ih =>
    obtain ⟨next, row, others, first, later, rfl⟩ := runSessions_cons_eq_ok.mp ran
    obtain ⟨next', row', others', first', later', rfl⟩ := runSessions_cons_eq_ok.mp ran'
    obtain ⟨afterwards, same⟩ := agree session List.mem_cons_self _ _ _ _ _ _ related first first'
    rw [List.length_cons, List.take_succ_cons, List.take_succ_cons, same,
      ih afterwards (List.forall_mem_cons.mp agree).2
        later later']

/-! ## Runs in two parts -/

/-- A run over two lists goes through the first and then, from where it stands, the second. -/
theorem runSessions_append_eq_ok {early later : List Session} :
    runSessions step (early ++ later) state = .ok (last, rows) ↔
      ∃ middle rows' rows'', runSessions step early state = .ok (middle, rows') ∧
        runSessions step later middle = .ok (last, rows'') ∧ rows = rows' ++ rows'' := by
  induction early generalizing state rows with
  | nil =>
    constructor
    · intro ran
      exact ⟨state, [], rows, rfl, ran, rfl⟩
    · rintro ⟨middle, rows', rows'', first, ran, rfl⟩
      cases first
      exact ran
  | cons session rest ih =>
    constructor
    · intro ran
      rw [List.cons_append] at ran
      obtain ⟨next, row, others, first, others', rfl⟩ := runSessions_cons_eq_ok.mp ran
      obtain ⟨middle, rows', rows'', second, third, same⟩ := ih.mp others'
      refine ⟨middle, row :: rows', rows'',
        runSessions_cons_eq_ok.mpr ⟨next, row, rows', first, second, rfl⟩, third, ?_⟩
      rw [same, List.cons_append]
    · rintro ⟨middle, rows', rows'', ran, third, rfl⟩
      obtain ⟨next, row, others, first, second, rfl⟩ := runSessions_cons_eq_ok.mp ran
      exact runSessions_cons_eq_ok.mpr
        ⟨next, row, others ++ rows'', first, ih.mpr ⟨middle, others, rows'', second, third, rfl⟩,
          rfl⟩

theorem runSessions_congr {step' : Session → State → Except Error (State × Row)}
    (same : ∀ session ∈ sessions, step session = step' session) (state : State) :
    runSessions step sessions state = runSessions step' sessions state := by
  induction sessions generalizing state with
  | nil => rfl
  | cons session rest ih =>
    have others := ih (List.forall_mem_cons.mp same).2
    simp only [runSessions, same session List.mem_cons_self, others]

/-! ## Sessions up to a bound -/

section Bounds

variable {Date : Type} [LinearOrder Date]

theorem split_sorted {dates : List Date}
    (sorted : dates.Pairwise fun first second => first ≤ second) (bound : Date) :
    dates = (dates.filter fun date => date ≤ bound) ++ dates.filter fun date => bound < date := by
  induction dates with
  | nil => rfl
  | cons date rest ih =>
    obtain ⟨below, sorted'⟩ := List.pairwise_cons.mp sorted
    by_cases le : date ≤ bound
    · rw [List.filter_cons_of_pos (by simpa using le),
        List.filter_cons_of_neg (by simpa using le), List.cons_append, ← ih sorted']
    · have beyond : ∀ other ∈ date :: rest, bound < other := by
        exact List.forall_mem_cons.mpr
          ⟨not_le.mp le, fun other isLater => lt_of_lt_of_le (not_le.mp le) (below other isLater)⟩
      have none' : ((date :: rest).filter fun other => other ≤ bound) = [] := by
        rw [List.filter_eq_nil_iff]
        intro other isMember
        rw [decide_eq_true_eq]
        exact not_le.mpr (beyond other isMember)
      have all : ((date :: rest).filter fun other => bound < other) = date :: rest := by
        rw [List.filter_eq_self]
        intro other isMember
        exact decide_eq_true (beyond other isMember)
      rw [none', all, List.nil_append]

theorem filter_rows (dateOf : Row → Date) {early later : List Date} {rows : List Row}
    {bound : Date} (dates : List.Forall₂ (fun date row => dateOf row = date) (early ++ later) rows)
    (before : ∀ date ∈ early, date ≤ bound) (behind : ∀ date ∈ later, bound < date) :
    (rows.filter fun row => dateOf row ≤ bound) = rows.take early.length := by
  induction early generalizing rows with
  | nil =>
    rw [List.length_nil, List.take_zero, List.filter_eq_nil_iff]
    intro row isMember
    obtain ⟨date, isDate, same⟩ := Checked.exists_left_of_forall₂ dates isMember
    rw [decide_eq_true_eq, same]
    exact not_le.mpr (behind date isDate)
  | cons date rest ih =>
    cases dates with
    | cons same others =>
      have le := before date List.mem_cons_self
      rw [List.filter_cons_of_pos (by rw [decide_eq_true_eq, same]; exact le),
        List.length_cons, List.take_succ_cons,
        ih others (List.forall_mem_cons.mp before).2]

/-- What one condition selects is selected among what a weaker one does. -/
theorem filter_of_imp {Item : Type} {strong weak : Item → Bool}
    (implies : ∀ item, strong item → weak item) (items : List Item) :
    items.filter strong = (items.filter weak).filter strong := by
  rw [List.filter_filter]
  refine List.filter_congr ?_
  intro item _
  cases selected : strong item with
  | false => rfl
  | true => rw [implies item selected, Bool.and_true]

theorem filter_eq_of_filter_eq {Item : Type} {strong weak : Item → Bool} {items others : List Item}
    (same : items.filter weak = others.filter weak)
    (implies : ∀ item, strong item → weak item) : items.filter strong = others.filter strong := by
  rw [filter_of_imp implies items, same, ← filter_of_imp implies others]

end Bounds

end TreeOptions
