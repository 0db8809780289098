import TreeOptions.Splitting.Splitter

/-!
# The checks of folds and the splitter

`checkFolds` looks at every fold by itself (the roles are disjoint, training is purged
and embargoed, it starts at session 0) and then at all of them (the ids differ, no test
session is in two folds).

Every fold of the splitter passes the checks of one fold (`checkFold_foldAt`), and the ids
are the numbers of the folds. The test blocks are another matter. The configuration keeps
the roll within the *least* test window and the splitter takes the *default* one, so the
block of the next fold may start before the last one ends. The folds are accepted exactly
when the roll is the default test window or there is one fold at most (`accepted_iff`).

A set has no order of its own in Python; it is walked here by date, and only which of
several violations is named depends on it.
-/

set_option autoImplicit false

namespace TreeOptions.Splitting

open Checked

variable {Date : Type} [LinearOrder Date]

def members (sessions : Finset Date) : List Date :=
  sessions.sort fun first second => first ≤ second

@[simp] theorem mem_members {sessions : Finset Date} {session : Date} :
    session ∈ members sessions ↔ session ∈ sessions :=
  Finset.mem_sort _

/-! ## The checks -/

section

variable (calendar : SessionCalendar Date)

/-- Each of the second sessions lies more than `least` ordinals after each of the first. -/
def checkApart (firsts seconds : Finset Date) (least : ℕ) (error : Date → Date → SplitError Date) :
    Except (SplitError Date) Unit :=
  (members firsts).forM fun first => do
    let firstOrdinal ← calendar.ordinal first
    (members seconds).forM fun second => do
      let secondOrdinal ← calendar.ordinal second
      refuse ((secondOrdinal : ℤ) - firstOrdinal ≤ least) (error first second)

/-- The role sets share no session. -/
def checkDisjoint (fold : Fold Date) : Except (SplitError Date) Unit :=
  refuse ((fold.trainSessions ∩ fold.validationSessions).Nonempty ∨
      (fold.trainSessions ∩ fold.testSessions).Nonempty ∨
      (fold.validationSessions ∩ fold.testSessions).Nonempty)
    (.foldInvariant .setsDisjoint [fold.foldId] [])

/-- The first evaluation session lies more than the gap after the last training session. -/
def checkFirstEval (gap last : ℕ) (fold : Fold Date) : Except (SplitError Date) Unit := do
  let evalOrdinals ← (members fold.allEvalSessions).mapM calendar.ordinal
  match evalOrdinals.min? with
  | none => .error (.value "min() arg is an empty sequence")
  | some first =>
    refuse ((first : ℤ) - last ≤ gap) (.foldInvariant .embargoGap [fold.foldId] [])

def checkEmbargo (gap : ℕ) (fold : Fold Date) : Except (SplitError Date) Unit := do
  let trainOrdinals ← (members fold.trainSessions).mapM calendar.ordinal
  match trainOrdinals.max? with
  | none => return ⟨⟩
  | some last => checkFirstEval calendar gap last fold

/-- Training starts at session 0. -/
def checkAnchor (fold : Fold Date) : Except (SplitError Date) Unit :=
  refuse ((members fold.trainSessions).min?.any fun first => first ≠ calendar.base)
    (.foldInvariant .anchorMonotone [fold.foldId] [])

variable (labelHorizonSessions embargoSessions : ℕ)

def checkFold (fold : Fold Date) : Except (SplitError Date) Unit := do
  checkDisjoint fold
  checkApart calendar fold.trainSessions fold.allEvalSessions labelHorizonSessions
    fun train eval => .foldInvariant .purgeOverlap [fold.foldId] [train, eval]
  checkEmbargo calendar (labelHorizonSessions + embargoSessions) fold
  checkApart calendar (fold.finalFitTrainSessions \ fold.trainSessions) fold.testSessions
    (labelHorizonSessions + embargoSessions)
    fun kept test => .foldInvariant .finalFitPurge [fold.foldId] [kept, test]
  checkAnchor calendar fold

/-- No session comes twice, nor one that was seen before. -/
def checkSeen : List Date → List Date → Except (SplitError Date) Unit
  | _, [] => return ⟨⟩
  | seen, session :: rest => do
      refuse (seen.any fun other => other = session) (.foldInvariant .coverage [] [session])
      checkSeen (session :: seen) rest

/-- Raise the first invariant that is broken. -/
def checkFolds (folds : List (Fold Date)) : Except (SplitError Date) Unit := do
  folds.forM (checkFold calendar labelHorizonSessions embargoSessions)
  refuse ((folds.map fun fold => fold.foldId).toFinset.card ≠ folds.length)
    (.foldInvariant .duplicateFoldId (folds.map fun fold => fold.foldId) [])
  checkSeen [] (folds.flatMap fun fold => members fold.testSessions)

/-- Build the folds of a protocol and check them with its own horizon and embargo. -/
def checkSplits (protocol : ResearchProtocol) : Except (SplitError Date) Unit := do
  let splitter ← WalkForwardSplitter.fromProtocol calendar protocol
  let folds ← splitter.splits none
  checkFolds calendar protocol.folds.labelHorizonSessions protocol.folds.embargoSessions folds

end

/-! ## What the checks say -/

variable {calendar : SessionCalendar Date}

theorem checkApart_eq_ok {firsts seconds : Finset Date} {least : ℕ}
    {error : Date → Date → SplitError Date}
    (apart : ∀ first ∈ firsts, ∃ index, calendar.ordinal first = .ok index ∧
      ∀ second ∈ seconds, ∃ index', calendar.ordinal second = .ok index' ∧
        index + least < index') :
    checkApart calendar firsts seconds least error = .ok ⟨⟩ := by
  apply forM_eq_ok.mpr
  intro first member
  obtain ⟨index, found, after⟩ := apart first (mem_members.mp member)
  refine bind_eq_ok.mpr ⟨index, found, forM_eq_ok.mpr ?_⟩
  intro second member'
  obtain ⟨index', found', less⟩ := after second (mem_members.mp member')
  refine bind_eq_ok.mpr ⟨index', found', refuse_eq_ok.mpr ?_⟩
  omega

theorem exists_ordinals {sessions : Finset Date}
    (known : ∀ session ∈ sessions, ∃ index, calendar.ordinal session = .ok index) :
    ∃ ordinals, (members sessions).mapM calendar.ordinal = .ok ordinals ∧
      ∀ index ∈ ordinals, ∃ session ∈ sessions, calendar.ordinal session = .ok index := by
  obtain ⟨ordinals, mapped⟩ := exists_mapM fun session member =>
    known session (mem_members.mp member)
  refine ⟨ordinals, mapped, fun index member => ?_⟩
  obtain ⟨session, inside, found⟩ := exists_of_mem_mapM mapped member
  exact ⟨session, mem_members.mp inside, found⟩

theorem checkEmbargo_eq_ok {fold : Fold Date} {gap : ℕ} {eval : Date}
    (someEval : eval ∈ fold.allEvalSessions)
    (known : ∀ session ∈ fold.trainSessions, ∃ index, calendar.ordinal session = .ok index)
    (known' : ∀ session ∈ fold.allEvalSessions, ∃ index, calendar.ordinal session = .ok index)
    (apart : ∀ train ∈ fold.trainSessions, ∀ eval ∈ fold.allEvalSessions, ∀ index index',
      calendar.ordinal train = .ok index → calendar.ordinal eval = .ok index' →
        index + gap < index') :
    checkEmbargo calendar gap fold = .ok ⟨⟩ := by
  obtain ⟨trainOrdinals, mapped, fromTrain⟩ := exists_ordinals known
  refine bind_eq_ok.mpr ⟨trainOrdinals, mapped, ?_⟩
  cases latest : trainOrdinals.max? with
  | none => rfl
  | some last =>
    obtain ⟨train, inTrain, trainAt⟩ := fromTrain last (List.max?_mem latest)
    obtain ⟨evalOrdinals, mapped', fromEval⟩ := exists_ordinals known'
    refine bind_eq_ok.mpr ⟨evalOrdinals, mapped', ?_⟩
    cases earliest : evalOrdinals.min? with
    | none =>
      -- a set with a session has a first one
      have lengths := (mapM_eq_ok.mp mapped').length_eq
      rw [List.min?_eq_none_iff.mp earliest, List.length_nil, List.length_eq_zero_iff] at lengths
      have := mem_members.mpr someEval
      rw [lengths] at this
      cases this
    | some first =>
      obtain ⟨eval', inEval, evalAt⟩ := fromEval first (List.min?_mem earliest)
      have less := apart train inTrain eval' inEval last first trainAt evalAt
      apply refuse_eq_ok.mpr
      omega

theorem checkAnchor_eq_ok {fold : Fold Date} (base : calendar.base ∈ fold.trainSessions)
    (known : ∀ session ∈ fold.trainSessions, ∃ index, calendar.ordinal session = .ok index) :
    checkAnchor calendar fold = .ok ⟨⟩ := by
  have first : (members fold.trainSessions).min? = some calendar.base := by
    refine List.min?_eq_some_iff.mpr ⟨mem_members.mpr base, fun session member => ?_⟩
    obtain ⟨index, found⟩ := known session (mem_members.mp member)
    exact SessionCalendar.ordinal_le SessionCalendar.ordinal_base found (Nat.zero_le _)
  rw [checkAnchor, first]
  exact refuse_eq_ok.mpr (by simp)

/-- **The test blocks are accepted when no session is in two of them.** -/
theorem checkSeen_eq_ok {seen sessions : List Date} {done : Unit} :
    checkSeen seen sessions = .ok done ↔
      sessions.Nodup ∧ ∀ session ∈ sessions, session ∉ seen := by
  induction sessions generalizing seen with
  | nil =>
    simp only [checkSeen, List.nodup_nil, List.not_mem_nil, false_implies, implies_true, and_self,
      iff_true]
    rfl
  | cons session rest ih =>
    rw [checkSeen, refuse_bind_eq_ok, ih, List.nodup_cons]
    simp only [List.any_eq_true, decide_eq_true_eq, exists_eq_right, List.mem_cons, not_or]
    constructor
    · rintro ⟨new, nodup, others⟩
      refine ⟨⟨fun again => (others session again).1 rfl, nodup⟩, ?_⟩
      rintro other (rfl | later)
      · exact new
      · exact (others other later).2
    · rintro ⟨⟨notAgain, nodup⟩, unseen⟩
      refine ⟨unseen session (.inl rfl), nodup, fun other later => ⟨?_, unseen other (.inr later)⟩⟩
      rintro rfl
      exact notAgain later

/-! ## The folds of the splitter -/

section

variable {splitter : WalkForwardSplitter Date} {foldId stop : ℕ}

theorem ordinal_unique {session : Date} {first second : ℕ}
    (found : calendar.ordinal session = .ok first)
    (found' : calendar.ordinal session = .ok second) : first = second :=
  Except.ok.inj (found.symm.trans found')

theorem checkDisjoint_foldAt :
    checkDisjoint (splitter.foldAt foldId stop) = .ok ⟨⟩ := by
  refine refuse_eq_ok.mpr ?_
  rintro (⟨session, both⟩ | ⟨session, both⟩ | ⟨session, both⟩)
  all_goals obtain ⟨first, second⟩ := Finset.mem_inter.mp both
  · obtain ⟨index, found, before⟩ := WalkForwardSplitter.mem_trainSessions.mp first
    obtain ⟨index', found', after, -⟩ := WalkForwardSplitter.mem_validationSessions.mp second
    obtain rfl := ordinal_unique found found'
    omega
  · obtain ⟨index, found, before⟩ := WalkForwardSplitter.mem_trainSessions.mp first
    obtain ⟨index', found', after, -⟩ := WalkForwardSplitter.mem_testSessions.mp second
    obtain rfl := ordinal_unique found found'
    omega
  · obtain ⟨index, found, -, before⟩ := WalkForwardSplitter.mem_validationSessions.mp first
    obtain ⟨index', found', after, -⟩ := WalkForwardSplitter.mem_testSessions.mp second
    obtain rfl := ordinal_unique found found'
    omega

theorem eval_after {session : Date}
    (member : session ∈ (splitter.foldAt foldId stop).allEvalSessions) :
    ∃ index, splitter.calendar.ordinal session = .ok index ∧
      stop - splitter.valSessions ≤ index := by
  rcases Finset.mem_union.mp member with validation | test
  · obtain ⟨index, found, after, -⟩ := WalkForwardSplitter.mem_validationSessions.mp validation
    exact ⟨index, found, after⟩
  · obtain ⟨index, found, after, -⟩ := WalkForwardSplitter.mem_testSessions.mp test
    exact ⟨index, found, (Nat.sub_le _ _).trans after⟩

/-- **Every fold of the splitter passes the checks of one fold.** -/
theorem checkFold_foldAt (started : splitter.firstTest ≤ stop)
    (fits : stop + splitter.testSessions ≤ splitter.calendar.sessions.length) :
    checkFold splitter.calendar splitter.labelHorizonSessions splitter.embargoSessions
      (splitter.foldAt foldId stop) = .ok ⟨⟩ := by
  have trainPos := splitter.train_pos
  have testPos := splitter.test_pos
  rw [WalkForwardSplitter.firstTest] at started
  have gapIs : splitter.gap = splitter.labelHorizonSessions + splitter.embargoSessions := rfl
  have trainKnown : ∀ session ∈ (splitter.foldAt foldId stop).trainSessions,
      ∃ index, splitter.calendar.ordinal session = .ok index := by
    intro session member
    obtain ⟨index, found, -⟩ := WalkForwardSplitter.mem_trainSessions.mp member
    exact ⟨index, found⟩
  refine bind_eq_ok.mpr ⟨⟨⟩, checkDisjoint_foldAt, bind_eq_ok.mpr ⟨⟨⟩, ?_, bind_eq_ok.mpr
    ⟨⟨⟩, ?_, bind_eq_ok.mpr ⟨⟨⟩, ?_, ?_⟩⟩⟩⟩
  · apply checkApart_eq_ok
    intro train inTrain
    obtain ⟨index, found, before⟩ := WalkForwardSplitter.mem_trainSessions.mp inTrain
    refine ⟨index, found, fun eval inEval => ?_⟩
    obtain ⟨index', found', after⟩ := eval_after inEval
    exact ⟨index', found', by omega⟩
  · -- the test block has a first session, so there is one to evaluate on
    have onCalendar : stop < splitter.calendar.sessions.length := by omega
    obtain ⟨eval, evalAt⟩ := SessionCalendar.exists_session onCalendar
    have inTest : eval ∈ (splitter.foldAt foldId stop).testSessions :=
      WalkForwardSplitter.mem_testSessions.mpr ⟨stop, evalAt, le_rfl, by omega⟩
    apply checkEmbargo_eq_ok (Finset.mem_union_right _ inTest) trainKnown
    · intro session member
      obtain ⟨index, found, -⟩ := eval_after member
      exact ⟨index, found⟩
    · intro train inTrain eval' inEval index index' trainAt evalAt'
      obtain ⟨index₁, found, before⟩ := WalkForwardSplitter.mem_trainSessions.mp inTrain
      obtain ⟨index₂, found', after⟩ := eval_after inEval
      obtain rfl := ordinal_unique trainAt found
      obtain rfl := ordinal_unique evalAt' found'
      omega
  · apply checkApart_eq_ok
    intro kept inKept
    obtain ⟨inFinal, notTrain⟩ := Finset.mem_sdiff.mp inKept
    obtain ⟨index, found, purged⟩ :=
      WalkForwardSplitter.purged_of_mem_finalFit inFinal notTrain
    refine ⟨index, found, fun test inTest => ?_⟩
    obtain ⟨index', found', after, -⟩ := WalkForwardSplitter.mem_testSessions.mp inTest
    exact ⟨index', found', by omega⟩
  · apply checkAnchor_eq_ok _ trainKnown
    exact WalkForwardSplitter.mem_trainSessions.mpr
      ⟨0, SessionCalendar.ordinal_base, by omega⟩

theorem checkFolds_splits {stops : List ℕ} {foldOf : ℕ → ℕ}
    (inside : ∀ count ∈ stops, splitter.firstTest ≤ foldOf count ∧
      foldOf count + splitter.testSessions ≤ splitter.calendar.sessions.length)
    (distinct : stops.Nodup) :
    checkFolds splitter.calendar splitter.labelHorizonSessions splitter.embargoSessions
        (stops.map fun count => splitter.foldAt count (foldOf count)) = .ok ⟨⟩ ↔
      stops.Pairwise fun first second => Disjoint
        (splitter.foldAt first (foldOf first)).testSessions
        (splitter.foldAt second (foldOf second)).testSessions := by
  have each : (stops.map fun count => splitter.foldAt count (foldOf count)).forM
      (checkFold splitter.calendar splitter.labelHorizonSessions splitter.embargoSessions) =
        .ok ⟨⟩ := by
    refine forM_eq_ok.mpr fun fold member => ?_
    obtain ⟨count, inStops, rfl⟩ := List.mem_map.mp member
    exact checkFold_foldAt (inside count inStops).1 (inside count inStops).2
  have ids : ((stops.map fun count => splitter.foldAt count (foldOf count)).map
      fun fold => fold.foldId) = stops := by
    rw [List.map_map]
    exact List.map_id stops
  have unique : stops.toFinset.card = stops.length :=
    List.toFinset_card_of_nodup distinct
  rw [checkFolds, bind_eq_ok]
  simp only [ids, List.length_map, unique]
  constructor
  · rintro ⟨⟨⟩, -, checked⟩
    obtain ⟨-, seen⟩ := refuse_bind_eq_ok.mp checked
    have nodup := (checkSeen_eq_ok.mp seen).1
    rw [List.nodup_flatMap, List.pairwise_map] at nodup
    refine nodup.2.imp fun {first second} apart => ?_
    rw [Finset.disjoint_left]
    intro session inFirst inSecond
    exact apart (mem_members.mpr inFirst) (mem_members.mpr inSecond)
  · intro disjoint
    refine ⟨⟨⟩, each, refuse_bind_eq_ok.mpr ⟨fun wrong => wrong rfl, checkSeen_eq_ok.mpr ⟨?_, ?_⟩⟩⟩
    · rw [List.nodup_flatMap, List.pairwise_map]
      refine ⟨fun fold _ => Finset.sort_nodup _ _, disjoint.imp fun {first second} apart => ?_⟩
      intro session inFirst inSecond
      exact Finset.disjoint_left.mp apart (mem_members.mp inFirst) (mem_members.mp inSecond)
    · intro session _ seen
      cases seen

/-- Two blocks of the default window share a session when the roll is shorter. -/
theorem disjoint_testSessions {first second : ℕ} (later : first < second)
    (fits : splitter.stopAt second + splitter.testSessions ≤ splitter.calendar.sessions.length) :
    Disjoint (splitter.foldAt first (splitter.stopAt first)).testSessions
        (splitter.foldAt second (splitter.stopAt second)).testSessions ↔
      splitter.testSessions ≤ (second - first) * splitter.rollSessions := by
  have stops : splitter.stopAt second =
      splitter.stopAt first + (second - first) * splitter.rollSessions := by
    rw [WalkForwardSplitter.stopAt, WalkForwardSplitter.stopAt, add_assoc, ← Nat.add_mul,
      Nat.add_sub_cancel' later.le]
  have testPos := splitter.test_pos
  constructor
  · intro apart
    by_contra short
    have onCalendar : splitter.stopAt second < splitter.calendar.sessions.length := by omega
    obtain ⟨session, found⟩ := SessionCalendar.exists_session onCalendar
    refine Finset.disjoint_left.mp apart
      (WalkForwardSplitter.mem_testSessions.mpr ⟨_, found, by omega, by omega⟩)
      (WalkForwardSplitter.mem_testSessions.mpr ⟨_, found, le_rfl, by omega⟩)
  · intro apart
    rw [Finset.disjoint_left]
    intro session inFirst inSecond
    obtain ⟨index, found, -, before⟩ := WalkForwardSplitter.mem_testSessions.mp inFirst
    obtain ⟨index', found', after, -⟩ := WalkForwardSplitter.mem_testSessions.mp inSecond
    obtain rfl := ordinal_unique found found'
    omega

end

/-! ## The folds of a protocol -/

/-- The splitter of a protocol. Its numbers pass the checks of the constructor. -/
def protocolSplitter (calendar : SessionCalendar Date) (folds : FoldConfig) :
    WalkForwardSplitter Date where
  calendar := calendar
  labelHorizonSessions := folds.labelHorizonSessions
  embargoSessions := folds.embargoSessions
  valSessions := folds.validationWindowSessions.default
  testSessions := folds.testWindowSessions.default
  rollSessions := folds.rollForwardSessions
  minTrainSessions := folds.minTrainSessions
  label_pos := folds.label_pos
  val_pos := folds.validationWindowSessions.min_pos.trans_le folds.validationWindowSessions.min_le
  test_pos := folds.testWindowSessions.min_pos.trans_le folds.testWindowSessions.min_le
  roll_pos := folds.roll_pos
  train_pos := folds.train_pos

theorem fromProtocol_eq (protocol : ResearchProtocol) :
    WalkForwardSplitter.fromProtocol calendar protocol =
      .ok (protocolSplitter calendar protocol.folds) := by
  have label := protocol.folds.label_pos
  have val := protocol.folds.validationWindowSessions.min_pos.trans_le
    protocol.folds.validationWindowSessions.min_le
  have test := protocol.folds.testWindowSessions.min_pos.trans_le
    protocol.folds.testWindowSessions.min_le
  have roll := protocol.folds.roll_pos
  have train := protocol.folds.train_pos
  rw [WalkForwardSplitter.fromProtocol, WalkForwardSplitter.create, dif_neg (by omega),
    dif_neg (by omega), dif_neg (by omega), dif_neg (by omega), dif_neg (by omega),
    if_neg (by omega)]
  rfl

/-- The folds are accepted when no two test blocks meet. -/
theorem checkSplits_eq_ok (protocol : ResearchProtocol) :
    checkSplits calendar protocol = .ok ⟨⟩ ↔
      ∀ first second, first < second →
        (protocolSplitter calendar protocol.folds).stopAt second +
            protocol.folds.testWindowSessions.default ≤ calendar.sessions.length →
          protocol.folds.testWindowSessions.default ≤
            (second - first) * protocol.folds.rollForwardSessions := by
  let splitter := protocolSplitter calendar protocol.folds
  have program : checkSplits calendar protocol =
      checkFolds splitter.calendar splitter.labelHorizonSessions splitter.embargoSessions
        ((List.range (splitter.blocksFrom splitter.firstTest)).map fun count =>
          splitter.foldAt count (splitter.stopAt count)) := by
    rw [checkSplits, fromProtocol_eq]
    change (splitter.splits none >>= fun folds => checkFolds calendar
      protocol.folds.labelHorizonSessions protocol.folds.embargoSessions folds) = _
    rw [WalkForwardSplitter.splits_none]
    rfl
  have fits : ∀ {count}, count < splitter.blocksFrom splitter.firstTest ↔
      splitter.stopAt count + splitter.testSessions ≤ splitter.calendar.sessions.length := by
    intro count
    exact splitter.lt_blocksFrom
  rw [program, checkFolds_splits _ List.nodup_range]
  · constructor
    · intro disjoint first second less inside
      have isFold := fits.mpr inside
      apply (disjoint_testSessions less inside).mp
      have pair := List.pairwise_iff_getElem.mp disjoint first second
        (by rw [List.length_range]; omega) (by rw [List.length_range]; exact isFold) less
      rwa [List.getElem_range, List.getElem_range] at pair
    · intro apart
      refine List.pairwise_lt_range.imp_of_mem fun {first second} _ inRange less => ?_
      have inside := fits.mp (List.mem_range.mp inRange)
      exact (disjoint_testSessions less inside).mpr (apart first second less inside)
  · intro count inRange
    exact ⟨Nat.le_add_right _ _, fits.mp (List.mem_range.mp inRange)⟩

/-- **The folds of a protocol are accepted exactly when the roll is the default test window
or the calendar is too short for a second fold.** -/
theorem accepted_iff (calendar : SessionCalendar Date) (protocol : ResearchProtocol) :
    checkSplits calendar protocol = .ok ⟨⟩ ↔
      protocol.folds.rollForwardSessions = protocol.folds.testWindowSessions.default ∨
      calendar.sessions.length <
        protocol.folds.minTrainSessions +
          (protocol.folds.labelHorizonSessions + protocol.folds.embargoSessions) +
          protocol.folds.validationWindowSessions.default +
          protocol.folds.rollForwardSessions + protocol.folds.testWindowSessions.default := by
  have rollFits := protocol.folds.rollFits.trans protocol.folds.testWindowSessions.min_le
  have stopIs : ∀ count, (protocolSplitter calendar protocol.folds).stopAt count =
      protocol.folds.minTrainSessions +
        (protocol.folds.labelHorizonSessions + protocol.folds.embargoSessions) +
        protocol.folds.validationWindowSessions.default +
        count * protocol.folds.rollForwardSessions := fun _ => rfl
  rw [checkSplits_eq_ok]
  constructor
  · intro apart
    -- the second fold starts one roll after the first
    have second := apart 0 1 Nat.zero_lt_one
    rw [stopIs, Nat.one_mul] at second
    by_cases short : protocol.folds.rollForwardSessions =
        protocol.folds.testWindowSessions.default
    · exact .inl short
    · refine .inr (not_le.mp fun fits => short ?_)
      exact le_antisymm rollFits (second fits)
  · rintro (same | short) first second less fits
    · rw [same]
      exact Nat.le_mul_of_pos_left _ (Nat.sub_pos_of_lt less)
    · have more : protocol.folds.rollForwardSessions ≤
          second * protocol.folds.rollForwardSessions :=
        Nat.le_mul_of_pos_left _ (Nat.zero_lt_of_lt less)
      rw [stopIs] at fits
      omega

/-- A roll of one session, within the least test window, and two sessions of test. -/
def sampleProtocol : ResearchProtocol where
  folds :=
    { labelHorizonSessions := 1
      embargoSessions := 1
      validationWindowSessions := ⟨1, 1, 1, Nat.one_pos, Nat.one_pos, Nat.one_pos⟩
      testWindowSessions := ⟨1, 2, 2, Nat.one_pos, Nat.two_pos, Nat.one_lt_two⟩
      rollForwardSessions := 1
      minTrainSessions := 1
      label_pos := Nat.one_pos
      embargo_pos := Nat.one_pos
      roll_pos := Nat.one_pos
      train_pos := Nat.one_pos
      rollFits := Nat.one_pos }

/-- Seven sessions, counted as days. -/
def sampleCalendar : SessionCalendar ℤ :=
  ⟨[0, 1, 2, 3, 4, 7, 8], by decide, by decide⟩

/-- The second fold tests on the session 7 once more. -/
theorem overlapping_folds : checkSplits sampleCalendar sampleProtocol ≠ .ok ⟨⟩ := by
  intro accepted
  have apart := (checkSplits_eq_ok sampleProtocol).mp accepted 0 1 (by decide) (by decide)
  revert apart
  decide

end TreeOptions.Splitting
