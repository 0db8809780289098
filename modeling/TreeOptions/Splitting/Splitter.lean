import Mathlib.Data.Finset.Sort
import Mathlib.Tactic.Ring
import TreeOptions.Foundations.Checked

/-!
# The anchored walk-forward splitter

`splits` walks over the ordinals of a calendar and cuts a fold at each stop: the test
block from the stop on, the validation block before it, and, after the purge and the
embargo, everything since session 0 to train on.

The walk stops at `firstTest`, `firstTest + roll`, and so on while the test block still
fits (`splitsFrom_eq`), and what a fold holds is said by ordinals (`mem_trainSessions`,
`mem_validationSessions`, `mem_testSessions`, `purged_of_mem_finalFit`).

A session is a value of any linear order; only the order of two dates is ever asked for.
-/

set_option autoImplicit false

namespace TreeOptions.Splitting

open Checked

variable {Date : Type} [LinearOrder Date]

/-- The invariants of folds that are checked. -/
inductive FoldCode
  | setsDisjoint
  | purgeOverlap
  | embargoGap
  | finalFitPurge
  | anchorMonotone
  | duplicateFoldId
  | coverage

/-- What the splitter and the checks raise. A violated invariant names the folds and the
sessions of its message. -/
inductive SplitError (Date : Type)
  | value (message : String)
  | notASession (session : Date)
  | foldInvariant (code : FoldCode) (folds : List ℕ) (sessions : List Date)

/-! ## The calendar -/

/-- The sessions of a calendar: at least one, each after the one before. -/
structure SessionCalendar (Date : Type) [LinearOrder Date] where
  sessions : List Date
  nonempty : sessions ≠ []
  increasing : sessions.Pairwise (· < ·)

namespace SessionCalendar

variable (calendar : SessionCalendar Date)

def isSession (session : Date) : Bool :=
  session ∈ calendar.sessions

def ordinal (session : Date) : Except (SplitError Date) ℕ :=
  if session ∈ calendar.sessions then .ok (calendar.sessions.idxOf session)
  else .error (.notASession session)

/-- The sessions at the ordinals from `first` up to `stop`. -/
def slice (first stop : ℕ) : List Date :=
  (calendar.sessions.take stop).drop first

/-- The first session, the anchor of every fold. -/
def base : Date :=
  calendar.sessions.head calendar.nonempty

theorem nodup : calendar.sessions.Nodup :=
  calendar.increasing.imp ne_of_lt

variable {calendar}

theorem ordinal_eq_ok {session : Date} {index : ℕ} :
    calendar.ordinal session = .ok index ↔ calendar.sessions[index]? = some session := by
  rw [ordinal]
  constructor
  · intro found
    split at found
    case isTrue member =>
      cases found
      exact List.getElem?_idxOf member
    case isFalse => cases found
  · intro found
    obtain ⟨inside, rfl⟩ := List.getElem?_eq_some_iff.mp found
    rw [if_pos (List.getElem_mem inside), calendar.nodup.idxOf_getElem index inside]

theorem mem_slice {first stop : ℕ} {session : Date} :
    session ∈ calendar.slice first stop ↔
      ∃ index, first ≤ index ∧ index < stop ∧ calendar.ordinal session = .ok index := by
  simp only [ordinal_eq_ok, slice, List.mem_iff_getElem?, List.getElem?_drop, List.getElem?_take]
  constructor
  · rintro ⟨index, found⟩
    split at found
    case isTrue inside => exact ⟨first + index, Nat.le_add_right _ _, inside, found⟩
    case isFalse => cases found
  · rintro ⟨index, after, inside, found⟩
    refine ⟨index - first, ?_⟩
    rw [Nat.add_sub_cancel' after, if_pos inside]
    exact found

theorem exists_session {index : ℕ} (inside : index < calendar.sessions.length) :
    ∃ session, calendar.ordinal session = .ok index :=
  ⟨calendar.sessions[index], ordinal_eq_ok.mpr (List.getElem?_eq_getElem inside)⟩

theorem ordinal_base : calendar.ordinal calendar.base = .ok 0 := by
  rw [ordinal_eq_ok, base, ← List.head?_eq_getElem?, List.head?_eq_some_head calendar.nonempty]

/-- Later sessions have greater ordinals. -/
theorem ordinal_le {first second : Date} {index index' : ℕ}
    (found : calendar.ordinal first = .ok index) (found' : calendar.ordinal second = .ok index')
    (le : index ≤ index') : first ≤ second := by
  obtain ⟨inside, rfl⟩ := List.getElem?_eq_some_iff.mp (ordinal_eq_ok.mp found)
  obtain ⟨inside', rfl⟩ := List.getElem?_eq_some_iff.mp (ordinal_eq_ok.mp found')
  rcases le.lt_or_eq with less | rfl
  · exact (List.pairwise_iff_getElem.mp calendar.increasing index index' inside inside' less).le
  · exact le_rfl

end SessionCalendar

/-! ## The configuration -/

structure WindowRange where
  min : ℕ
  max : ℕ
  default : ℕ
  min_pos : 0 < min
  min_le : min ≤ default
  le_max : default ≤ max

/-- The fold section of a protocol, as its validators leave it. -/
structure FoldConfig where
  labelHorizonSessions : ℕ
  embargoSessions : ℕ
  validationWindowSessions : WindowRange
  testWindowSessions : WindowRange
  rollForwardSessions : ℕ
  minTrainSessions : ℕ
  label_pos : 1 ≤ labelHorizonSessions
  embargo_pos : 1 ≤ embargoSessions
  roll_pos : 0 < rollForwardSessions
  train_pos : 0 < minTrainSessions
  rollFits : rollForwardSessions ≤ testWindowSessions.min

/-- The section of a protocol that the splitter reads. -/
structure ResearchProtocol where
  folds : FoldConfig

/-! ## Folds -/

structure Fold (Date : Type) where
  foldId : ℕ
  trainSessions : Finset Date
  validationSessions : Finset Date
  testSessions : Finset Date
  finalFitTrainSessions : Finset Date
deriving DecidableEq

def Fold.allEvalSessions (fold : Fold Date) : Finset Date :=
  fold.validationSessions ∪ fold.testSessions

structure WalkForwardSplitter (Date : Type) [LinearOrder Date] where
  calendar : SessionCalendar Date
  labelHorizonSessions : ℕ
  embargoSessions : ℕ
  valSessions : ℕ
  testSessions : ℕ
  rollSessions : ℕ
  minTrainSessions : ℕ
  label_pos : 1 ≤ labelHorizonSessions
  val_pos : 1 ≤ valSessions
  test_pos : 1 ≤ testSessions
  roll_pos : 1 ≤ rollSessions
  train_pos : 1 ≤ minTrainSessions

/-- The message of a parameter that is too small. -/
def tooSmall (name : String) (least value : ℤ) : SplitError Date :=
  .value (name ++ " must be >= " ++ toString least ++ ", got " ++ toString value)

namespace WalkForwardSplitter

/-- The constructor of the splitter: every count has to be positive, the embargo alone may
be zero. -/
def create (calendar : SessionCalendar Date)
    (labelHorizon embargo val test roll minTrain : ℤ) :
    Except (SplitError Date) (WalkForwardSplitter Date) :=
  if label_pos : labelHorizon < 1 then .error (tooSmall "label_horizon_sessions" 1 labelHorizon)
  else if val_pos : val < 1 then .error (tooSmall "val_sessions" 1 val)
  else if test_pos : test < 1 then .error (tooSmall "test_sessions" 1 test)
  else if roll_pos : roll < 1 then .error (tooSmall "roll_sessions" 1 roll)
  else if train_pos : minTrain < 1 then .error (tooSmall "min_train_sessions" 1 minTrain)
  else if embargo < 0 then .error (tooSmall "embargo_sessions" 0 embargo)
  else .ok {
    calendar := calendar
    labelHorizonSessions := labelHorizon.toNat
    embargoSessions := embargo.toNat
    valSessions := val.toNat
    testSessions := test.toNat
    rollSessions := roll.toNat
    minTrainSessions := minTrain.toNat
    label_pos := by omega
    val_pos := by omega
    test_pos := by omega
    roll_pos := by omega
    train_pos := by omega }

/-- The splitter of a protocol takes the default of each window. -/
def fromProtocol (calendar : SessionCalendar Date) (protocol : ResearchProtocol) :
    Except (SplitError Date) (WalkForwardSplitter Date) :=
  create calendar protocol.folds.labelHorizonSessions protocol.folds.embargoSessions
    protocol.folds.validationWindowSessions.default protocol.folds.testWindowSessions.default
    protocol.folds.rollForwardSessions protocol.folds.minTrainSessions

variable (splitter : WalkForwardSplitter Date)

/-- The purge and the embargo together. -/
def gap : ℕ :=
  splitter.labelHorizonSessions + splitter.embargoSessions

/-- The stop of the first test block. -/
def firstTest : ℕ :=
  splitter.minTrainSessions + splitter.gap + splitter.valSessions

/-- The sessions of the validation block that lie more than the gap before the stop. -/
def keepVal (stop : ℕ) : List Date :=
  ((List.range' (stop - splitter.valSessions) splitter.valSessions).filter fun index =>
    stop - index > splitter.gap).filterMap fun index => splitter.calendar.sessions[index]?

/-- The ordinal after the last training session. -/
def trainEnd (stop : ℕ) : ℕ :=
  stop - splitter.valSessions - splitter.gap

/-- The fold that is cut at a stop. -/
def foldAt (foldId stop : ℕ) : Fold Date where
  foldId := foldId
  trainSessions := (splitter.calendar.slice 0 (splitter.trainEnd stop)).toFinset
  validationSessions := (splitter.calendar.slice (stop - splitter.valSessions) stop).toFinset
  testSessions := (splitter.calendar.slice stop (stop + splitter.testSessions)).toFinset
  finalFitTrainSessions := (splitter.calendar.slice 0 (splitter.trainEnd stop)).toFinset ∪
    (splitter.keepVal stop).toFinset

/-- The folds from a stop on. A stop with too little to train on is left out. -/
def splitsFrom (foldId stop : ℕ) : List (Fold Date) :=
  if stop + splitter.testSessions ≤ splitter.calendar.sessions.length then
    if splitter.trainEnd stop < splitter.minTrainSessions then
      splitsFrom foldId (stop + splitter.rollSessions)
    else splitter.foldAt foldId stop :: splitsFrom (foldId + 1) (stop + splitter.rollSessions)
  else []
termination_by splitter.calendar.sessions.length - stop
decreasing_by
  all_goals
    have := splitter.test_pos
    have := splitter.roll_pos
    omega

/-- The folds of the calendar. The sessions of a panel are only checked to be sessions; the
message about them is cut at five. -/
def splits (panelDecisionSessions : Option (List Date)) :
    Except (SplitError Date) (List (Fold Date)) := do
  refuse ((panelDecisionSessions.getD []).any fun session => !splitter.calendar.isSession session)
    (.value "panel sessions not in calendar")
  return splitter.splitsFrom 0 splitter.firstTest

/-! ## What the walk cuts -/

/-- How many test blocks fit from a stop on. -/
def blocksFrom (stop : ℕ) : ℕ :=
  if stop + splitter.testSessions ≤ splitter.calendar.sessions.length then
    (splitter.calendar.sessions.length - splitter.testSessions - stop) / splitter.rollSessions + 1
  else 0

theorem lt_blocksFrom {stop count : ℕ} :
    count < splitter.blocksFrom stop ↔
      stop + count * splitter.rollSessions + splitter.testSessions ≤
        splitter.calendar.sessions.length := by
  rw [blocksFrom]
  split
  case isTrue fits =>
    rw [Nat.lt_succ_iff, Nat.le_div_iff_mul_le splitter.roll_pos]
    omega
  case isFalse tooLong =>
    constructor
    · intro impossible
      cases impossible
    · intro fits
      omega

theorem blocksFrom_succ {stop : ℕ}
    (fits : stop + splitter.testSessions ≤ splitter.calendar.sessions.length) :
    splitter.blocksFrom stop = splitter.blocksFrom (stop + splitter.rollSessions) + 1 := by
  have same : ∀ count, count < splitter.blocksFrom stop ↔
      count < splitter.blocksFrom (stop + splitter.rollSessions) + 1 := by
    intro count
    cases count with
    | zero =>
      rw [lt_blocksFrom]
      simpa using fits
    | succ count =>
      rw [lt_blocksFrom, Nat.succ_lt_succ_iff, lt_blocksFrom, Nat.succ_mul]
      omega
  exact le_antisymm (not_lt.mp fun less => lt_irrefl _ ((same _).mp less))
    (not_lt.mp fun less => lt_irrefl _ ((same _).mpr less))

/-- **The walk cuts a fold at every stop whose test block fits.** -/
theorem splitsFrom_eq {foldId stop : ℕ} (started : splitter.firstTest ≤ stop) :
    splitter.splitsFrom foldId stop = (List.range (splitter.blocksFrom stop)).map fun count =>
      splitter.foldAt (foldId + count) (stop + count * splitter.rollSessions) := by
  induction foldId, stop using splitsFrom.induct splitter with
  | case1 foldId stop fits short ih =>
    -- the first stop already leaves enough to train on
    rw [trainEnd, firstTest] at *
    omega
  | case2 foldId stop fits enough ih =>
    rw [splitsFrom, if_pos fits, if_neg enough, ih (started.trans (Nat.le_add_right _ _)),
      blocksFrom_succ splitter fits, List.range_succ_eq_map, List.map_cons, List.map_map]
    congr 1
    · rw [Nat.add_zero, Nat.zero_mul, Nat.add_zero]
    · apply List.map_congr_left
      intro count _
      change _ = splitter.foldAt (foldId + (count + 1))
        (stop + (count + 1) * splitter.rollSessions)
      congr 1 <;> ring
  | case3 foldId stop tooLong =>
    rw [splitsFrom, if_neg tooLong, blocksFrom, if_neg tooLong]
    rfl

/-- The stop of a fold by its number. -/
def stopAt (count : ℕ) : ℕ :=
  splitter.firstTest + count * splitter.rollSessions

/-- **The folds of a calendar, by their numbers.** -/
theorem splits_none : splitter.splits none =
    .ok ((List.range (splitter.blocksFrom splitter.firstTest)).map fun count =>
      splitter.foldAt count (splitter.stopAt count)) := by
  change Except.ok (splitter.splitsFrom 0 splitter.firstTest) = _
  rw [splitsFrom_eq splitter le_rfl]
  simp only [Nat.zero_add]
  rfl

/-! ## What a fold holds -/

variable {splitter} {foldId stop : ℕ} {session : Date}

theorem mem_trainSessions : session ∈ (splitter.foldAt foldId stop).trainSessions ↔
    ∃ index, splitter.calendar.ordinal session = .ok index ∧
      index < stop - splitter.valSessions - splitter.gap := by
  simp only [foldAt, trainEnd, List.mem_toFinset, SessionCalendar.mem_slice, Nat.zero_le,
    true_and]
  exact ⟨fun ⟨index, inside, found⟩ => ⟨index, found, inside⟩,
    fun ⟨index, found, inside⟩ => ⟨index, inside, found⟩⟩

theorem mem_validationSessions : session ∈ (splitter.foldAt foldId stop).validationSessions ↔
    ∃ index, splitter.calendar.ordinal session = .ok index ∧
      stop - splitter.valSessions ≤ index ∧ index < stop := by
  simp only [foldAt, List.mem_toFinset, SessionCalendar.mem_slice]
  exact ⟨fun ⟨index, after, inside, found⟩ => ⟨index, found, after, inside⟩,
    fun ⟨index, found, after, inside⟩ => ⟨index, after, inside, found⟩⟩

theorem mem_testSessions : session ∈ (splitter.foldAt foldId stop).testSessions ↔
    ∃ index, splitter.calendar.ordinal session = .ok index ∧
      stop ≤ index ∧ index < stop + splitter.testSessions := by
  simp only [foldAt, List.mem_toFinset, SessionCalendar.mem_slice]
  exact ⟨fun ⟨index, after, inside, found⟩ => ⟨index, found, after, inside⟩,
    fun ⟨index, found, after, inside⟩ => ⟨index, after, inside, found⟩⟩

/-- What the refit adds to the training sessions lies more than the gap before the test
block. -/
theorem purged_of_mem_finalFit
    (member : session ∈ (splitter.foldAt foldId stop).finalFitTrainSessions)
    (notTrain : session ∉ (splitter.foldAt foldId stop).trainSessions) :
    ∃ index, splitter.calendar.ordinal session = .ok index ∧ splitter.gap < stop - index := by
  rcases Finset.mem_union.mp member with train | kept
  · exact absurd train notTrain
  · rw [keepVal, List.mem_toFinset, List.mem_filterMap] at kept
    obtain ⟨index, inside, found⟩ := kept
    exact ⟨index, SessionCalendar.ordinal_eq_ok.mpr found,
      of_decide_eq_true (List.mem_filter.mp inside).2⟩

end WalkForwardSplitter

end TreeOptions.Splitting
