import TreeOptions.Splitting.Checks

/-!
# No leakage across a fold

Labels reach over the horizon, and the embargo adds to it. In every fold the splitter cuts,
whatever its windows and its roll are, the training sessions end more than that before the first
evaluation session, and the refit sessions more than that before the first test session
(`separated_foldAt`).

`assignRows` looks at the session of a row alone. So the rows of one session go to one
role together, and the refit rows are those of the refit sessions (`assigned_foldAt`): a session
of the validation block is in no training block, so the branch it is missed in is never taken.

No session is skipped either (`no_session_skipped`).
-/

set_option autoImplicit false

namespace TreeOptions.Splitting

open Checked

variable {Date : Type} [LinearOrder Date]

/-! ## Rows -/

/-- The indexes of the rows in each role of a fold. -/
structure Roles where
  train : List ℕ := []
  validation : List ℕ := []
  test : List ℕ := []
  finalFitTrain : List ℕ := []

/-- A row is added to the roles of its session. -/
def Roles.place (fold : Fold Date) (roles : Roles) (row : Date × ℕ) : Roles :=
  if row.1 ∈ fold.trainSessions then
    { roles with
      train := roles.train ++ [row.2]
      finalFitTrain := roles.finalFitTrain ++ [row.2] }
  else if row.1 ∈ fold.validationSessions then
    if row.1 ∈ fold.finalFitTrainSessions then
      { roles with
        validation := roles.validation ++ [row.2]
        finalFitTrain := roles.finalFitTrain ++ [row.2] }
    else { roles with validation := roles.validation ++ [row.2] }
  else if row.1 ∈ fold.testSessions then { roles with test := roles.test ++ [row.2] }
  else roles

def assignRows (fold : Fold Date) (decisionSessions : List Date) : Roles :=
  decisionSessions.zipIdx.foldl (Roles.place fold) {}

/-- The rows whose session meets a condition. -/
def rowsWith (condition : Date → Prop) [DecidablePred condition] (rows : List (Date × ℕ)) :
    List ℕ :=
  (rows.filter fun row => condition row.1).map Prod.snd

omit [LinearOrder Date] in
theorem rowsWith_cons (condition : Date → Prop) [DecidablePred condition] (row : Date × ℕ)
    (rows : List (Date × ℕ)) :
    rowsWith condition (row :: rows) =
      (if condition row.1 then [row.2] else []) ++ rowsWith condition rows := by
  by_cases meets : condition row.1 <;> simp [rowsWith, meets]

omit [LinearOrder Date] in
theorem mem_rowsWith {condition : Date → Prop} [DecidablePred condition]
    {decisionSessions : List Date} {row : ℕ} :
    row ∈ rowsWith condition decisionSessions.zipIdx ↔
      ∃ session, decisionSessions[row]? = some session ∧ condition session := by
  simp only [rowsWith, List.mem_map, List.mem_filter, decide_eq_true_eq]
  constructor
  · rintro ⟨⟨session, index⟩, ⟨member, meets⟩, rfl⟩
    exact ⟨session, List.mk_mem_zipIdx_iff_getElem?.mp member, meets⟩
  · rintro ⟨session, found, meets⟩
    exact ⟨(session, row), ⟨List.mk_mem_zipIdx_iff_getElem?.mpr found, meets⟩, rfl⟩

theorem foldl_place (fold : Fold Date) (rows : List (Date × ℕ)) (roles : Roles) :
    rows.foldl (Roles.place fold) roles =
      { train := roles.train ++ rowsWith (· ∈ fold.trainSessions) rows
        validation := roles.validation ++ rowsWith
          (fun session => session ∉ fold.trainSessions ∧ session ∈ fold.validationSessions) rows
        test := roles.test ++ rowsWith (fun session => session ∉ fold.trainSessions ∧
          session ∉ fold.validationSessions ∧ session ∈ fold.testSessions) rows
        finalFitTrain := roles.finalFitTrain ++ rowsWith
          (fun session => session ∈ fold.trainSessions ∨
            session ∈ fold.validationSessions ∧ session ∈ fold.finalFitTrainSessions) rows } := by
  induction rows generalizing roles with
  | nil => simp [rowsWith]
  | cons row rows ih =>
    rw [List.foldl_cons, ih]
    simp only [rowsWith_cons, Roles.place]
    by_cases train : row.1 ∈ fold.trainSessions
    · simp [train]
    · by_cases validation : row.1 ∈ fold.validationSessions
      · by_cases kept : row.1 ∈ fold.finalFitTrainSessions
        · simp [train, validation, kept]
        · simp [train, validation, kept]
      · by_cases test : row.1 ∈ fold.testSessions
        · simp [train, validation, test]
        · simp [train, validation, test]

theorem assignRows_eq (fold : Fold Date) (decisionSessions : List Date) :
    assignRows fold decisionSessions =
      { train := rowsWith (· ∈ fold.trainSessions) decisionSessions.zipIdx
        validation := rowsWith (fun session => session ∉ fold.trainSessions ∧
          session ∈ fold.validationSessions) decisionSessions.zipIdx
        test := rowsWith (fun session => session ∉ fold.trainSessions ∧
          session ∉ fold.validationSessions ∧ session ∈ fold.testSessions) decisionSessions.zipIdx
        finalFitTrain := rowsWith (fun session => session ∈ fold.trainSessions ∨
          session ∈ fold.validationSessions ∧ session ∈ fold.finalFitTrainSessions)
          decisionSessions.zipIdx } := by
  rw [assignRows, foldl_place]
  rfl

/-! ## What a fold keeps apart -/

structure Separated (splitter : WalkForwardSplitter Date) (fold : Fold Date) : Prop where
  trainPrefix : ∃ count, splitter.minTrainSessions ≤ count ∧
    count ≤ splitter.calendar.sessions.length ∧
    fold.trainSessions = (splitter.calendar.sessions.take count).toFinset
  train_before_eval : ∀ train ∈ fold.trainSessions, ∀ eval ∈ fold.allEvalSessions,
    ∃ index index', splitter.calendar.ordinal train = .ok index ∧
      splitter.calendar.ordinal eval = .ok index' ∧
      index + (splitter.labelHorizonSessions + splitter.embargoSessions) < index'
  refit_before_test : ∀ kept ∈ fold.finalFitTrainSessions, ∀ test ∈ fold.testSessions,
    ∃ index index', splitter.calendar.ordinal kept = .ok index ∧
      splitter.calendar.ordinal test = .ok index' ∧
      index + (splitter.labelHorizonSessions + splitter.embargoSessions) < index'
  train_validation : Disjoint fold.trainSessions fold.validationSessions
  train_test : Disjoint fold.trainSessions fold.testSessions
  validation_test : Disjoint fold.validationSessions fold.testSessions

structure Assigned (fold : Fold Date) (decisionSessions : List Date) (roles : Roles) : Prop where
  train : ∀ row, row ∈ roles.train ↔
    ∃ session, decisionSessions[row]? = some session ∧ session ∈ fold.trainSessions
  validation : ∀ row, row ∈ roles.validation ↔
    ∃ session, decisionSessions[row]? = some session ∧ session ∈ fold.validationSessions
  test : ∀ row, row ∈ roles.test ↔
    ∃ session, decisionSessions[row]? = some session ∧ session ∈ fold.testSessions
  finalFitTrain : ∀ row, row ∈ roles.finalFitTrain ↔
    ∃ session, decisionSessions[row]? = some session ∧ session ∈ fold.finalFitTrainSessions
  together : ∀ first second session, decisionSessions[first]? = some session →
    decisionSessions[second]? = some session →
    (first ∈ roles.train ↔ second ∈ roles.train) ∧
      (first ∈ roles.validation ↔ second ∈ roles.validation) ∧
      (first ∈ roles.test ↔ second ∈ roles.test)
  single : roles.train.Disjoint roles.validation ∧ roles.train.Disjoint roles.test ∧
    roles.validation.Disjoint roles.test

theorem disjoint_foldAt (splitter : WalkForwardSplitter Date) (foldId stop : ℕ) :
    Disjoint (splitter.foldAt foldId stop).trainSessions
        (splitter.foldAt foldId stop).validationSessions ∧
      Disjoint (splitter.foldAt foldId stop).trainSessions
        (splitter.foldAt foldId stop).testSessions ∧
      Disjoint (splitter.foldAt foldId stop).validationSessions
        (splitter.foldAt foldId stop).testSessions := by
  have passed : checkDisjoint (splitter.foldAt foldId stop) = .ok ⟨⟩ := checkDisjoint_foldAt
  have apart := refuse_eq_ok.mp passed
  simp only [not_or, Finset.not_nonempty_iff_eq_empty, ← Finset.disjoint_iff_inter_eq_empty]
    at apart
  exact apart

section

variable {splitter : WalkForwardSplitter Date} {foldId stop : ℕ}

theorem refit_before {session : Date}
    (member : session ∈ (splitter.foldAt foldId stop).finalFitTrainSessions) :
    ∃ index, splitter.calendar.ordinal session = .ok index ∧ index + splitter.gap < stop := by
  by_cases inTrain : session ∈ (splitter.foldAt foldId stop).trainSessions
  · obtain ⟨index, found, before⟩ := WalkForwardSplitter.mem_trainSessions.mp inTrain
    exact ⟨index, found, by omega⟩
  · obtain ⟨index, found, purged⟩ := WalkForwardSplitter.purged_of_mem_finalFit member inTrain
    exact ⟨index, found, by omega⟩

theorem refit_subset :
    (splitter.foldAt foldId stop).finalFitTrainSessions ⊆
      (splitter.foldAt foldId stop).trainSessions ∪
        (splitter.foldAt foldId stop).validationSessions := by
  intro session member
  rcases Finset.mem_union.mp member with train | kept
  · exact Finset.mem_union_left _ train
  · apply Finset.mem_union_right
    rw [WalkForwardSplitter.keepVal, List.mem_toFinset, List.mem_filterMap] at kept
    obtain ⟨index, inside, found⟩ := kept
    obtain ⟨inRange, purged⟩ := List.mem_filter.mp inside
    have bounds := List.mem_range'_1.mp inRange
    have before := of_decide_eq_true purged
    exact WalkForwardSplitter.mem_validationSessions.mpr
      ⟨index, SessionCalendar.ordinal_eq_ok.mpr found, bounds.1, by omega⟩

/-- **A fold of the splitter keeps its blocks apart.** -/
theorem separated_foldAt (started : splitter.firstTest ≤ stop)
    (fits : stop + splitter.testSessions ≤ splitter.calendar.sessions.length) :
    Separated splitter (splitter.foldAt foldId stop) := by
  have gapIs : splitter.gap = splitter.labelHorizonSessions + splitter.embargoSessions := rfl
  have firstIs : splitter.firstTest =
      splitter.minTrainSessions + splitter.gap + splitter.valSessions := rfl
  obtain ⟨trainValidation, trainTest, validationTest⟩ := disjoint_foldAt splitter foldId stop
  refine ⟨⟨splitter.trainEnd stop, ?_, ?_, rfl⟩, ?_, ?_, trainValidation, trainTest,
    validationTest⟩
  · rw [WalkForwardSplitter.trainEnd]
    omega
  · rw [WalkForwardSplitter.trainEnd]
    omega
  · intro train inTrain eval inEval
    obtain ⟨index, found, before⟩ := WalkForwardSplitter.mem_trainSessions.mp inTrain
    obtain ⟨index', found', after⟩ := eval_after inEval
    exact ⟨index, index', found, found', by omega⟩
  · intro kept inKept test inTest
    obtain ⟨index, found, before⟩ := refit_before inKept
    obtain ⟨index', found', after, -⟩ := WalkForwardSplitter.mem_testSessions.mp inTest
    exact ⟨index, index', found, found', by omega⟩

/-- **The rows of a panel are in the roles of their sessions.** -/
theorem assigned_foldAt (decisionSessions : List Date) :
    Assigned (splitter.foldAt foldId stop) decisionSessions
      (assignRows (splitter.foldAt foldId stop) decisionSessions) := by
  obtain ⟨trainValidation, trainTest, validationTest⟩ := disjoint_foldAt splitter foldId stop
  set fold := splitter.foldAt foldId stop with isFold
  have train : ∀ row, row ∈ (assignRows fold decisionSessions).train ↔
      ∃ session, decisionSessions[row]? = some session ∧ session ∈ fold.trainSessions := by
    intro row
    simp only [assignRows_eq, mem_rowsWith]
  have validation : ∀ row, row ∈ (assignRows fold decisionSessions).validation ↔
      ∃ session, decisionSessions[row]? = some session ∧ session ∈ fold.validationSessions := by
    intro row
    simp only [assignRows_eq, mem_rowsWith]
    apply exists_congr
    intro session
    refine and_congr_right fun _ => and_iff_right_of_imp fun inValidation inTrain => ?_
    exact Finset.disjoint_left.mp trainValidation inTrain inValidation
  have test : ∀ row, row ∈ (assignRows fold decisionSessions).test ↔
      ∃ session, decisionSessions[row]? = some session ∧ session ∈ fold.testSessions := by
    intro row
    simp only [assignRows_eq, mem_rowsWith]
    apply exists_congr
    intro session
    refine and_congr_right fun _ => ⟨fun placed => placed.2.2, fun inTest => ⟨?_, ?_, inTest⟩⟩
    · exact fun inTrain => Finset.disjoint_left.mp trainTest inTrain inTest
    · exact fun inValidation => Finset.disjoint_left.mp validationTest inValidation inTest
  refine ⟨train, validation, test, ?_, ?_, ?_, ?_, ?_⟩
  · intro row
    simp only [assignRows_eq, mem_rowsWith]
    apply exists_congr
    intro session
    refine and_congr_right fun _ => ⟨?_, ?_⟩
    · rintro (inTrain | ⟨-, kept⟩)
      · exact Finset.mem_union_left _ inTrain
      · exact kept
    · intro kept
      rcases Finset.mem_union.mp (refit_subset kept) with inTrain | inValidation
      · exact .inl inTrain
      · exact .inr ⟨inValidation, kept⟩
  · intro first second session isFirst isSecond
    simp only [train, validation, test, isFirst, isSecond, Option.some.injEq]
    exact ⟨trivial, trivial, trivial⟩
  · intro row inTrain inValidation
    obtain ⟨session, found, isTrain⟩ := (train row).mp inTrain
    obtain ⟨session', found', isValidation⟩ := (validation row).mp inValidation
    cases found.symm.trans found'
    exact Finset.disjoint_left.mp trainValidation isTrain isValidation
  · intro row inTrain inTest
    obtain ⟨session, found, isTrain⟩ := (train row).mp inTrain
    obtain ⟨session', found', isTest⟩ := (test row).mp inTest
    cases found.symm.trans found'
    exact Finset.disjoint_left.mp trainTest isTrain isTest
  · intro row inValidation inTest
    obtain ⟨session, found, isValidation⟩ := (validation row).mp inValidation
    obtain ⟨session', found', isTest⟩ := (test row).mp inTest
    cases found.symm.trans found'
    exact Finset.disjoint_left.mp validationTest isValidation isTest

end

/-- **No fold of a splitter leaks.** The walk over the calendar ends for every panel. -/
theorem no_leakage (splitter : WalkForwardSplitter Date) (panel : Option (List Date)) :
    (splitter.splits panel = .error (.value "panel sessions not in calendar") ∧
        ∃ session ∈ panel.getD [], splitter.calendar.isSession session = false) ∨
      ∃ folds, splitter.splits panel = .ok folds ∧ ∀ fold ∈ folds, Separated splitter fold ∧
        ∀ decisionSessions, Assigned fold decisionSessions (assignRows fold decisionSessions) := by
  by_cases known : ∃ session ∈ panel.getD [], splitter.calendar.isSession session = false
  case pos =>
    left
    refine ⟨?_, known⟩
    rw [WalkForwardSplitter.splits, refuse, if_pos]
    · rfl
    · obtain ⟨session, inside, unknown⟩ := known
      exact List.any_eq_true.mpr ⟨session, inside, by rw [unknown]; rfl⟩
  case neg =>
    right
    refine ⟨splitter.splitsFrom 0 splitter.firstTest, ?_, ?_⟩
    · apply refuse_bind_eq_ok.mpr
      refine ⟨?_, rfl⟩
      intro unknown
      obtain ⟨session, inside, isUnknown⟩ := List.any_eq_true.mp unknown
      exact known ⟨session, inside, by simpa using isUnknown⟩
    · intro fold member
      rw [WalkForwardSplitter.splitsFrom_eq splitter le_rfl] at member
      obtain ⟨count, inside, rfl⟩ := List.mem_map.mp member
      have fits := (WalkForwardSplitter.lt_blocksFrom splitter).mp (List.mem_range.mp inside)
      exact ⟨separated_foldAt (Nat.le_add_right _ _) fits, fun rows => assigned_foldAt rows⟩

/-! ## Coverage -/

/-- The session is tested in the last fold that starts no later. -/
theorem exists_test {splitter : WalkForwardSplitter Date}
    (short : splitter.rollSessions ≤ splitter.testSessions)
    (fits : splitter.firstTest + splitter.testSessions ≤ splitter.calendar.sessions.length)
    {session : Date} {index : ℕ} (found : splitter.calendar.ordinal session = .ok index)
    (after : splitter.firstTest ≤ index)
    (before : index + splitter.rollSessions ≤ splitter.calendar.sessions.length) :
    ∃ count < splitter.blocksFrom splitter.firstTest,
      session ∈ (splitter.foldAt count (splitter.stopAt count)).testSessions := by
  simp only [WalkForwardSplitter.mem_testSessions, WalkForwardSplitter.stopAt]
  have least := Nat.div_mul_le_self (index - splitter.firstTest) splitter.rollSessions
  have most := Nat.lt_div_mul_add (a := index - splitter.firstTest) splitter.roll_pos
  set turn := (index - splitter.firstTest) / splitter.rollSessions
  rcases lt_or_ge turn (splitter.blocksFrom splitter.firstTest) with inside | late
  · exact ⟨turn, inside, index, found, by omega, by omega⟩
  · -- the calendar ends before the fold of this turn
    obtain ⟨last, blocks⟩ : ∃ last, splitter.blocksFrom splitter.firstTest = last + 1 :=
      ⟨_, if_pos fits⟩
    have ends := (WalkForwardSplitter.lt_blocksFrom splitter).not.mp
      (lt_irrefl (splitter.blocksFrom splitter.firstTest))
    have le := Nat.mul_le_mul_right splitter.rollSessions late
    rw [blocks, Nat.succ_mul] at ends le
    exact ⟨last, by omega, index, found, by omega, by omega⟩

/-- **The folds of a protocol skip no session.** Where one block fits, every session from the first
stop on is tested, except for fewer than a roll at the end of the calendar. -/
theorem no_session_skipped (calendar : SessionCalendar Date) (protocol : ResearchProtocol) :
    ∃ splitter folds, WalkForwardSplitter.fromProtocol calendar protocol = .ok splitter ∧
      splitter.splits none = .ok folds ∧
        (splitter.firstTest + splitter.testSessions ≤ calendar.sessions.length →
          ∀ session index, calendar.ordinal session = .ok index → splitter.firstTest ≤ index →
            index + splitter.rollSessions ≤ calendar.sessions.length →
              ∃ fold ∈ folds, session ∈ fold.testSessions) := by
  refine ⟨_, _, fromProtocol_eq protocol, WalkForwardSplitter.splits_none _, ?_⟩
  intro fits session index found after before
  obtain ⟨count, inside, tested⟩ := exists_test
    (protocol.folds.rollFits.trans protocol.folds.testWindowSessions.min_le) fits found after before
  exact ⟨_, List.mem_map_of_mem (List.mem_range.mpr inside), tested⟩

end TreeOptions.Splitting
