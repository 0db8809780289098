import Mathlib.Data.List.ReduceOption
import TreeOptions.Outcomes.Cutoff

/-!
# The purged selection and later prints

Two bundles whose prints agree up to the close of the cutoff session have the same fills on the
training boards. A fill whose exit is settled by the cutoff scores the same in both. Any other fill
scores zero where there is a later mark, and where there is none it scores what its last mark by
the cutoff is worth, so that the selection is the same just when the two bundles have a later mark
for the same fills, but for those that are worth zero.
-/

set_option autoImplicit false

namespace TreeOptions.Outcomes

open Checked SlotSearch

section Fills

variable (scores : Scores) (window : Window) (key : CandidateKey) (costs : Costs)
  (sync : Option ℤ) (cutoff : ℤ)

/-! ## Fills -/

structure Fills (bars : MinuteBars) (snapshot : Snapshot) (row : String) (slot : ℕ)
    (candidate : Candidate) (entry : Entry) (charge : ℚ → ℚ) : Prop where
  scheduled : window.slotOf snapshot.day snapshot.minute = some slot
  onBoard : (candidates window key bars
    (window.zone.instantOf snapshot.day snapshot.minute)).find?
      (fun candidate => candidate.id = row) = some candidate
  entered : enter bars sync (window.zone.instantOf snapshot.day snapshot.minute) candidate =
    .ok entry
  charged : costs.charge = some charge

/-- The mark that a fill is worth where no later one decides its exit. -/
def markLeft (bars : MinuteBars) (slot : ℕ) (candidate : Candidate) (entry : Entry) : ℚ :=
  ((markByCutoff window bars sync candidate cutoff slot).map Prod.snd).getD entry.debit

/-- For each fill of a training board: its exit is settled by the cutoff in the first bundle, or
the bundles have a later mark of it both or neither, or what is left without one is worth zero. -/
def Undisturbed (first second : MinuteBars) : Prop :=
  ∀ (snapshot : Snapshot) (row : String) (mode : ExitMode) (slot : ℕ) (candidate : Candidate)
    (entry : Entry) (charge : ℚ → ℚ), snapshot.day ≤ cutoff →
    Fills window key costs sync first snapshot row slot candidate entry charge →
      SettledBy window first sync candidate cutoff slot snapshot.day mode ∨
        (MarkedLater window first sync candidate cutoff ↔
          MarkedLater window second sync candidate cutoff) ∨
        scores.ofDecimal (charge (entry.gross
          (markLeft window sync cutoff first slot candidate entry))) = scores.zero

/-- What a row counts for in the selection: zero without a fill, and where its exit crosses the
cutoff. -/
def score (bars : MinuteBars) (snapshot : Snapshot) (row : String) (horizon : Option ExitMode) :
    scores.Value :=
  match filledOf window key bars costs sync snapshot row horizon with
  | none => scores.zero
  | some outcome =>
    if cutoff < window.zone.dateOf outcome.exitAt then scores.zero
    else scores.ofDecimal outcome.net

end Fills

section Score

variable {scores : Scores} {window : Window} {key : CandidateKey} {costs : Costs}
  {sync : Option ℤ} {cutoff : ℤ} {bars : MinuteBars} {snapshot : Snapshot} {row : String}
  {slot : ℕ} {candidate : Candidate} {entry : Entry} {charge : ℚ → ℚ} {mode : ExitMode}

theorem filledOf_of_fills
    (fills : Fills window key costs sync bars snapshot row slot candidate entry charge)
    (mode : ExitMode) :
    filledOf window key bars costs sync snapshot row (some mode) =
      some (settle window entry charge
        (exit window bars sync candidate slot snapshot.day mode)) := by
  simp [filledOf, candidateOutcome, fills.scheduled, fills.onBoard, evaluate, fills.entered,
    fills.charged]

theorem filledOf_eq_none
    (unfilled : ∀ slot candidate entry charge,
      ¬ Fills window key costs sync bars snapshot row slot candidate entry charge)
    (horizon : Option ExitMode) :
    filledOf window key bars costs sync snapshot row horizon = none := by
  cases horizon with
  | none => rfl
  | some mode =>
    rw [filledOf, Option.bind_some, candidateOutcome]
    cases scheduled : window.slotOf snapshot.day snapshot.minute with
    | none => rfl
    | some slot =>
      cases onBoard : (candidates window key bars
          (window.zone.instantOf snapshot.day snapshot.minute)).find?
            (fun candidate => candidate.id = row) with
      | none => simp only [onBoard, Option.map_none]
      | some candidate =>
        simp only [onBoard, Option.map_some, evaluate]
        cases entered : enter bars sync
            (window.zone.instantOf snapshot.day snapshot.minute) candidate with
        | error reason => rfl
        | ok entry =>
          cases charged : costs.charge with
          | none => rfl
          | some charge =>
            exact absurd ⟨scheduled, onBoard, entered, charged⟩
              (unfilled slot candidate entry charge)

variable {pair : Contract × Contract}

theorem mem_of_mem_pairsOfWidth {widths : List ℚ} {chain : List Contract}
    (member : pair ∈ pairsOfWidth widths chain) : pair.1 ∈ chain ∧ pair.2 ∈ chain := by
  induction chain with
  | nil => cases member
  | cons low rest ih =>
    rcases List.mem_append.mp member with first | later
    · obtain ⟨high, inside, rfl⟩ := List.mem_map.mp first
      have inRest := (List.takeWhile_prefix _).mem (List.mem_of_mem_filter inside)
      exact ⟨List.mem_cons_self, List.mem_cons_of_mem _ inRest⟩
    · exact ⟨List.mem_cons_of_mem _ (ih later).1, List.mem_cons_of_mem _ (ih later).2⟩

theorem mem_of_mem_strikePairs {widths : Option (List ℚ)} {chain : List Contract}
    (member : pair ∈ strikePairs widths chain) : pair.1 ∈ chain ∧ pair.2 ∈ chain := by
  cases widths with
  | none =>
    obtain ⟨first, second⟩ := List.of_mem_zip member
    exact ⟨first, List.mem_of_mem_tail second⟩
  | some widths => exact mem_of_mem_pairsOfWidth member

theorem expiry_of_orient {now : ℤ} {kind : SpreadKind} {long short : Contract} {width debit : ℚ}
    (oriented : orient key now kind long short width debit = some candidate) :
    candidate.expiry = long.expiry := by
  rw [orient] at oriented
  by_cases refused : (if kind.isDebit then debit else -debit) ≤ 0 ∨
      width ≤ (if kind.isDebit then debit else -debit) ∨
        Decimal.mul (if kind.isDebit then (if kind.isDebit then debit else -debit)
          else Decimal.sub width (if kind.isDebit then debit else -debit)) 100 ≤ 0 ∨
        maxLossBound < Decimal.mul (if kind.isDebit then (if kind.isDebit then debit else -debit)
          else Decimal.sub width (if kind.isDebit then debit else -debit)) 100
  · rw [if_pos refused] at oriented
    cases oriented
  · rw [if_neg refused] at oriented
    cases oriented
    rfl

theorem expiry_of_pair {now : ℤ} (member : candidate ∈ pairCandidates window key bars now pair) :
    candidate.expiry = pair.1.expiry ∨ candidate.expiry = pair.2.expiry := by
  rw [pairCandidates] at member
  split at member
  case h_1 lowPrice highPrice _ _ =>
    rw [orientations] at member
    split at member
    case isTrue => cases member
    case isFalse =>
      rw [List.reduceOption_mem_iff, List.mem_cons, List.mem_singleton] at member
      rcases member with isLow | isHigh
      · exact Or.inl (expiry_of_orient isLow.symm)
      · exact Or.inr (expiry_of_orient isHigh.symm)
  case h_2 => cases member

theorem expiry_of_mem {now : ℤ} (member : candidate ∈ candidates window key bars now) :
    window.zone.dateOf now ≤ candidate.expiry := by
  rw [candidates] at member
  obtain ⟨group, isGroup, member⟩ := List.mem_flatMap.mp member
  obtain ⟨pair, isPair, member⟩ := List.mem_flatMap.mp member
  have unexpired : ∀ contract ∈ sortedBy Contract.strike group.2,
      window.zone.dateOf now ≤ contract.expiry := by
    intro contract inside
    have eligible :=
      (key_of_mem_groupBy (mem_sortedBy.mp isGroup) (mem_sortedBy.mp inside)).1
    have days := (List.mem_filter.mp eligible).2
    rw [Bool.and_eq_true, Bool.and_eq_true, decide_eq_true_eq] at days
    omega
  obtain ⟨isLow, isHigh⟩ := mem_of_mem_strikePairs isPair
  rcases expiry_of_pair member with same | same
  · rw [same]
    exact unexpired _ isLow
  · rw [same]
    exact unexpired _ isHigh

/-! ## The score of a fill -/

theorem place_of_fills
    (fills : Fills window key costs sync bars snapshot row slot candidate entry charge) :
    window.timeline[slot]? = some ⟨snapshot.day, snapshot.minute,
        window.zone.instantOf snapshot.day snapshot.minute⟩ ∧
      snapshot.day ∈ window.sessions ∧ slot < window.slotsThrough snapshot.day ∧
        snapshot.day ≤ candidate.expiry := by
  have at_ := Window.of_slotOf fills.scheduled
  have member := List.mem_of_getElem? at_
  have unexpired := expiry_of_mem (List.mem_of_find?_eq_some fills.onBoard)
  have date := Window.dateOf_instant member
  dsimp only at date
  rw [date] at unexpired
  exact ⟨at_, (Window.of_mem_timeline member).1, (Window.slot_lt_iff at_).mpr le_rfl, unexpired⟩

theorem cut_of_fills
    (fills : Fills window key costs sync bars snapshot row slot candidate entry charge)
    (isTrain : snapshot.day ≤ cutoff) (mode : ExitMode) :
    CutAt (cutOf window candidate cutoff) (window.slotsThrough candidate.expiry)
      (settledExit window bars sync candidate cutoff slot snapshot.day mode)
      (markByCutoff window bars sync candidate cutoff slot)
      (MarkedLater window bars sync candidate cutoff)
      (exit window bars sync candidate slot snapshot.day mode).found := by
  obtain ⟨-, isSession, before, unexpired⟩ := place_of_fills fills
  exact cutAt_exit isSession before unexpired isTrain mode

theorem crosses_slot {slot' : ℕ} {value : ℚ} (inside : slot' < window.timeline.length) :
    cutoff < window.zone.dateOf (exitValue window entry (some (slot', value))).2 ↔
      ¬ slot' < window.slotsThrough cutoff := by
  have at_ := List.getElem?_eq_getElem inside
  rw [exitValue]
  dsimp only
  rw [at_, Option.map_some, Option.getD_some,
    Window.dateOf_instant (List.getElem_mem inside), Window.slot_lt_iff at_, not_le]

theorem lt_cutOf {slot' : ℕ} (before : slot' < cutOf window candidate cutoff) :
    slot' < window.slotsThrough cutoff :=
  before.trans_le (Window.slotsThrough_mono (min_le_left _ _))

theorem entered_by_cutoff
    (fills : Fills window key costs sync bars snapshot row slot candidate entry charge)
    (isTrain : snapshot.day ≤ cutoff) : window.zone.dateOf entry.enteredAt ≤ cutoff := by
  have member := List.mem_of_getElem? (place_of_fills fills).1
  have within := (enteredAt_le fills.entered).trans (Window.instant_add_le member)
  have dates := window.zone.dateOf_mono within
  rw [Window.dateOf_sessionClose] at dates
  exact dates.trans isTrain

theorem settledExit_lt {found : ℕ × ℚ} {day : ℤ}
    (early : window.slotsThrough day ≤ cutOf window candidate cutoff)
    (settled : settledExit window bars sync candidate cutoff slot day mode = some found) :
    found.1 < cutOf window candidate cutoff := by
  cases mode with
  | expiry => cases settled
  | intraday => exact (of_firstIn settled).2.1
  | eod =>
    rcases Option.or_eq_some_iff.mp settled with same | ⟨-, later⟩
    · exact (of_lastIn same).2.1.trans_le early
    · exact (of_firstIn later).2.1
  | hold days =>
    obtain ⟨target, -, found⟩ := Option.bind_eq_some_iff.mp settled
    exact (of_firstIn found).2.1

section

variable (fills : Fills window key costs sync bars snapshot row slot candidate entry charge)

include fills

theorem score_of_found {found : Option (ℕ × ℚ)}
    (exits : (exit window bars sync candidate slot snapshot.day mode).found = found) :
    score scores window key costs sync cutoff bars snapshot row (some mode) =
      if cutoff < window.zone.dateOf (exitValue window entry found).2 then scores.zero
      else scores.ofDecimal (charge (entry.gross (exitValue window entry found).1)) := by
  rw [score, filledOf_of_fills fills mode]
  dsimp only [settle]
  rw [exits]

theorem score_of_settled (isTrain : snapshot.day ≤ cutoff) {found : ℕ × ℚ}
    (settled : settledExit window bars sync candidate cutoff slot snapshot.day mode = some found) :
    score scores window key costs sync cutoff bars snapshot row (some mode) =
      scores.ofDecimal (charge (entry.gross found.2)) := by
  obtain ⟨-, -, -, unexpired⟩ := place_of_fills fills
  have early : window.slotsThrough snapshot.day ≤ cutOf window candidate cutoff :=
    Window.slotsThrough_mono (le_min isTrain unexpired)
  have before := lt_cutOf (settledExit_lt early settled)
  have inside := before.trans_le (window.slotsThrough_le cutoff)
  rw [score_of_found fills ((cut_of_fills fills isTrain mode).of_settled found settled),
    if_neg ((crosses_slot inside).not.mpr (not_not.mpr before))]
  rfl

/-- **With a later mark the decision is purged.** -/
theorem score_of_later (isTrain : snapshot.day ≤ cutoff)
    (unsettled : settledExit window bars sync candidate cutoff slot snapshot.day mode = none)
    (later : MarkedLater window bars sync candidate cutoff) :
    score scores window key costs sync cutoff bars snapshot row (some mode) = scores.zero := by
  obtain ⟨slot', value, found, after, before⟩ :=
    (cut_of_fills fills isTrain mode).of_later unsettled later
  have inside := before.trans_le (window.slotsThrough_le candidate.expiry)
  have crossed : ¬ slot' < window.slotsThrough cutoff := by
    intro early
    rcases le_total cutoff candidate.expiry with le | le
    · rw [cutOf, min_eq_left le] at after
      omega
    · rw [cutOf, min_eq_right le] at after
      omega
  rw [score_of_found fills found, if_pos ((crosses_slot inside).mpr crossed)]

/-- **Without a later mark the decision is worth its last mark by the cutoff, or its entry.** -/
theorem score_of_left (isTrain : snapshot.day ≤ cutoff)
    (unsettled : settledExit window bars sync candidate cutoff slot snapshot.day mode = none)
    (none_ : ¬ MarkedLater window bars sync candidate cutoff) :
    score scores window key costs sync cutoff bars snapshot row (some mode) =
      scores.ofDecimal (charge (entry.gross
        (markLeft window sync cutoff bars slot candidate entry))) := by
  rw [score_of_found fills ((cut_of_fills fills isTrain mode).of_left unsettled none_), markLeft]
  cases left : markByCutoff window bars sync candidate cutoff slot with
  | none =>
    have byCutoff := entered_by_cutoff fills isTrain
    rw [exitValue, if_neg (not_lt.mpr byCutoff)]
    rfl
  | some found =>
    have before := lt_cutOf (of_lastIn left).2.1
    have inside := before.trans_le (window.slotsThrough_le cutoff)
    rw [if_neg ((crosses_slot inside).not.mpr (not_not.mpr before))]
    rfl

end

end Score

/-! ## Two bundles -/

section TwoBundles

variable {scores : Scores} {window : Window} {key : CandidateKey} {costs : Costs}
  {sync : Option ℤ} {cutoff : ℤ} {first second : MinuteBars} {snapshot : Snapshot} {row : String}
  {slot : ℕ} {candidate : Candidate} {entry : Entry} {charge : ℚ → ℚ} {mode : ExitMode}

section

variable (agree : AgreeThrough window cutoff first second)

include agree

theorem AgreeThrough.symm : AgreeThrough window cutoff second first := by
  intro ticker
  exact (agree ticker).symm

theorem fills_of_agree (isTrain : snapshot.day ≤ cutoff)
    (fills : Fills window key costs sync first snapshot row slot candidate entry charge) :
    Fills window key costs sync second snapshot row slot candidate entry charge := by
  have member := List.mem_of_getElem? (place_of_fills fills).1
  have early := (Window.instant_add_le member).trans (Window.sessionClose_mono isTrain)
  have within : window.zone.instantOf snapshot.day snapshot.minute ≤
      window.sessionClose cutoff := by
    rw [ageLimit] at early
    dsimp only at early
    omega
  refine ⟨fills.scheduled, ?_, ?_, fills.charged⟩
  · rw [← candidates_eq agree key within]
    exact fills.onBoard
  · rw [← enter_eq agree sync candidate early]
    exact fills.entered

theorem settledExit_eq (day : ℤ) (early : window.slotsThrough day ≤ cutOf window candidate cutoff)
    (mode : ExitMode) :
    settledExit window first sync candidate cutoff slot day mode =
      settledExit window second sync candidate cutoff slot day mode := by
  have same : ∀ slot', slot' < cutOf window candidate cutoff →
      mark window first sync candidate slot' = mark window second sync candidate slot' := by
    intro slot' before
    exact mark_eq agree sync candidate (lt_cutOf before)
  cases mode with
  | expiry => rfl
  | intraday => exact firstIn_congr fun slot' _ before => same slot' before
  | eod =>
    rw [settledExit, settledExit, firstIn_congr fun slot' _ before => same slot' before,
      lastIn_congr fun slot' _ before => same slot' (before.trans_le early)]
  | hold days =>
    rw [settledExit, settledExit]
    congr 1
    funext target
    exact firstIn_congr fun slot' _ before => same slot' before

theorem markLeft_eq :
    markLeft window sync cutoff first slot candidate entry =
      markLeft window sync cutoff second slot candidate entry := by
  rw [markLeft, markLeft, markByCutoff, markByCutoff,
    lastIn_congr fun slot' _ before => mark_eq agree sync candidate (lt_cutOf before)]

/-- **A fill scores the same in both bundles just when its exit is settled, or a later mark is in
both or in neither, or what is left without one is worth zero.** -/
theorem score_eq_iff (isTrain : snapshot.day ≤ cutoff)
    (fills : Fills window key costs sync first snapshot row slot candidate entry charge) :
    score scores window key costs sync cutoff first snapshot row (some mode) =
        score scores window key costs sync cutoff second snapshot row (some mode) ↔
      SettledBy window first sync candidate cutoff slot snapshot.day mode ∨
        (MarkedLater window first sync candidate cutoff ↔
          MarkedLater window second sync candidate cutoff) ∨
        scores.ofDecimal (charge (entry.gross
          (markLeft window sync cutoff first slot candidate entry))) = scores.zero := by
  have fills' := fills_of_agree agree isTrain fills
  obtain ⟨-, -, before, unexpired⟩ := place_of_fills fills
  have early : window.slotsThrough snapshot.day ≤ cutOf window candidate cutoff :=
    Window.slotsThrough_mono (le_min isTrain unexpired)
  have sameSettled : settledExit window first sync candidate cutoff slot snapshot.day mode =
      settledExit window second sync candidate cutoff slot snapshot.day mode :=
    settledExit_eq agree snapshot.day early mode
  rw [← settledExit_ne_none before early mode]
  cases settled : settledExit window first sync candidate cutoff slot snapshot.day mode with
  | some found =>
    have settled' := sameSettled.symm.trans settled
    rw [score_of_settled fills isTrain settled, score_of_settled fills' isTrain settled']
    exact iff_of_true rfl (Or.inl (Option.some_ne_none found))
  | none =>
    have unsettled := sameSettled.symm.trans settled
    have sameLeft : markLeft window sync cutoff first slot candidate entry =
      markLeft window sync cutoff second slot candidate entry := markLeft_eq agree
    rw [ne_eq, eq_self, not_true_eq_false, false_or]
    by_cases later : MarkedLater window first sync candidate cutoff
    · rw [score_of_later fills isTrain settled later]
      by_cases later' : MarkedLater window second sync candidate cutoff
      · rw [score_of_later fills' isTrain unsettled later']
        exact iff_of_true rfl (Or.inl (iff_of_true later later'))
      · rw [score_of_left fills' isTrain unsettled later', ← sameLeft, eq_comm]
        simp [later, later']
    · rw [score_of_left fills isTrain settled later]
      by_cases later' : MarkedLater window second sync candidate cutoff
      · rw [score_of_later fills' isTrain unsettled later']
        simp [later, later']
      · rw [score_of_left fills' isTrain unsettled later', ← sameLeft]
        exact iff_of_true rfl (Or.inl (iff_of_false later later'))

/-- Each row of each training board scores the same just when no fill is disturbed. -/
theorem scores_eq_iff :
    (∀ (snapshot : Snapshot) (row : String) (horizon : Option ExitMode),
      snapshot.day ≤ cutoff →
        score scores window key costs sync cutoff first snapshot row horizon =
          score scores window key costs sync cutoff second snapshot row horizon) ↔
      Undisturbed scores window key costs sync cutoff first second := by
  constructor
  · intro same snapshot row mode slot candidate entry charge isTrain fills
    exact (score_eq_iff agree isTrain fills).mp (same snapshot row (some mode) isTrain)
  · intro undisturbed snapshot row horizon isTrain
    by_cases filled : ∃ slot candidate entry charge,
        Fills window key costs sync first snapshot row slot candidate entry charge
    · obtain ⟨slot, candidate, entry, charge, fills⟩ := filled
      cases horizon with
      | none => rfl
      | some mode =>
        exact (score_eq_iff agree isTrain fills).mpr
          (undisturbed snapshot row mode slot candidate entry charge isTrain fills)
    · have unfilled : ∀ slot candidate entry charge,
          ¬ Fills window key costs sync first snapshot row slot candidate entry charge := by
        intro slot candidate entry charge fills
        exact filled ⟨slot, candidate, entry, charge, fills⟩
      have unfilled' : ∀ slot candidate entry charge,
          ¬ Fills window key costs sync second snapshot row slot candidate entry charge := by
        intro slot candidate entry charge fills
        exact unfilled slot candidate entry charge (fills_of_agree agree.symm isTrain fills)
      rw [score, score, filledOf_eq_none unfilled, filledOf_eq_none unfilled']

end

end TwoBundles

/-! ## Purged decisions -/

section Decisions

variable (scores : Scores) (window : Window) (key : CandidateKey) (bars : MinuteBars)
  (costs : Costs) (sync : Option ℤ) (cutoff : ℤ)

/-- A decision of a training board whose exit crosses the cutoff. -/
def purged (item : Board × Decision) : Bool :=
  item.2.1.any fun choice => item.1.session ≤ cutoff &&
    (filledOf window key bars costs sync item.1.snapshot choice item.2.2).any fun outcome =>
      cutoff < window.zone.dateOf outcome.exitAt

def netOf (item : Board × Decision) : scores.Value :=
  ((item.2.1.bind fun choice => engineValue scores window key bars costs sync item.1.snapshot
    choice item.2.2).map Prod.snd).getD scores.zero

def selectedValue (item : Board × Decision) : scores.Value :=
  if purged window key bars costs sync cutoff item then scores.zero
  else netOf scores window key bars costs sync item

variable {scores window key bars costs sync cutoff}

theorem purged_of_train {board : Board} {choice : String} {horizon : Option ExitMode}
    (isTrain : board.session ≤ cutoff) :
    purged window key bars costs sync cutoff (board, some choice, horizon) =
      (filledOf window key bars costs sync board.snapshot choice horizon).any fun outcome =>
        cutoff < window.zone.dateOf outcome.exitAt := by
  rw [purged, Option.any_some, decide_eq_true isTrain, Bool.true_and]

theorem purged_of_test {board : Board} {choice : String} {horizon : Option ExitMode}
    (isTest : cutoff < board.session) :
    purged window key bars costs sync cutoff (board, some choice, horizon) = false := by
  rw [purged, Option.any_some, decide_eq_false (not_le.mpr isTest), Bool.false_and]

theorem selectedValue_of_train {item : Board × Decision} (isTrain : item.1.session ≤ cutoff) :
    selectedValue scores window key bars costs sync cutoff item =
      item.2.1.elim scores.zero fun choice =>
        score scores window key costs sync cutoff bars item.1.snapshot choice item.2.2 := by
  obtain ⟨board, choice, horizon⟩ := item
  cases choice with
  | none => rfl
  | some choice =>
    rw [selectedValue, purged_of_train isTrain, netOf, Option.elim_some, score]
    dsimp only [Option.bind_some, engineValue]
    cases filledOf window key bars costs sync board.snapshot choice horizon with
    | none => rfl
    | some outcome =>
      dsimp only [Option.any_some, Option.map_some, Option.getD_some]
      simp only [decide_eq_true_eq]

theorem purgeStep_engine (sessions : List ℤ) (values : List scores.Value) (counts : PurgeCounts)
    (item : Board × Decision) {position : ℕ} (inside : position < values.length) :
    ∃ counts', purgeStep window.zone scores (engineValue scores window key bars costs sync)
        (engineExit window key bars costs sync) cutoff sessions (values, counts)
          (item, position) =
      .ok (if purged window key bars costs sync cutoff item then
        values.set position scores.zero else values, counts') := by
  obtain ⟨board, choice, horizon⟩ := item
  cases choice with
  | none => exact ⟨counts, rfl⟩
  | some choice =>
    rw [purgeStep]
    dsimp only
    by_cases isTest : cutoff < board.session
    · rw [if_pos isTest, purged_of_test isTest]
      exact ⟨counts, rfl⟩
    · rw [if_neg isTest, purged_of_train (not_lt.mp isTest), engineValue, engineExit]
      cases filledOf window key bars costs sync board.snapshot choice horizon with
      | none => exact ⟨_, rfl⟩
      | some outcome =>
        dsimp only [Option.any_some, Option.map_some, crosses]
        by_cases crossed : cutoff < window.zone.dateOf outcome.exitAt
        · have room : ¬ values.length ≤ position := not_le.mpr inside
          simp only [crossed, decide_true, if_true, refuse, if_neg room]
          exact ⟨_, rfl⟩
        · simp only [crossed, decide_false, Bool.false_eq_true, if_false]
          exact ⟨_, rfl⟩

theorem purge_run (sessions : List ℤ) (items : List (Board × Decision))
    (done : List scores.Value) (counts : PurgeCounts) :
    ∃ counts', (items.zipIdx done.length).foldlM
        (purgeStep window.zone scores (engineValue scores window key bars costs sync)
          (engineExit window key bars costs sync) cutoff sessions)
        (done ++ items.map (netOf scores window key bars costs sync), counts) =
      .ok (done ++ items.map (selectedValue scores window key bars costs sync cutoff),
        counts') := by
  induction items generalizing done counts with
  | nil => exact ⟨counts, rfl⟩
  | cons item rest ih =>
    have inside : done.length <
        (done ++ (item :: rest).map (netOf scores window key bars costs sync)).length := by
      simp
    obtain ⟨counts', stepped⟩ : ∃ counts', purgeStep window.zone scores
          (engineValue scores window key bars costs sync) (engineExit window key bars costs sync)
          cutoff sessions
          (done ++ (item :: rest).map (netOf scores window key bars costs sync), counts)
          (item, done.length) = .ok (_, counts') :=
      purgeStep_engine sessions _ counts item inside
    have next : (if purged window key bars costs sync cutoff item then
          (done ++ (item :: rest).map (netOf scores window key bars costs sync)).set done.length
            scores.zero
        else done ++ (item :: rest).map (netOf scores window key bars costs sync)) =
        (done ++ [selectedValue scores window key bars costs sync cutoff item]) ++
          rest.map (netOf scores window key bars costs sync) := by
      rw [selectedValue]
      split
      · simp
      · simp
    obtain ⟨counts'', ran⟩ :=
      ih (done ++ [selectedValue scores window key bars costs sync cutoff item]) counts'
    rw [next] at stepped
    rw [List.length_append, List.length_singleton] at ran
    refine ⟨counts'', bind_eq_ok.mpr ⟨_, stepped, ran.trans ?_⟩⟩
    rw [List.append_assoc, List.singleton_append, List.map_cons]

theorem selectedValues_eq {boards : List Board} {decisions : List Decision}
    (lengths : boards.length = decisions.length) (sessions : List ℤ) :
    ∃ counts, selectedValues scores window key bars costs sync cutoff boards decisions sessions =
      .ok ((boards.zip decisions).map (selectedValue scores window key bars costs sync cutoff),
        counts) := by
  rw [selectedValues, purgeDecisions, refuse, if_neg (not_not.mpr lengths)]
  exact purge_run sessions (boards.zip decisions) [] ⟨0, 0, 0⟩

end Decisions

/-! ## The purged null -/

section Null

variable (scores : Scores) (window : Window) (key : CandidateKey) (bars : MinuteBars)
  (costs : Costs) (sync : Option ℤ) (cutoff : ℤ)

def nullWorth (board : Board) (option : String × Option ExitMode) : scores.Value :=
  if board.session ≤ cutoff then
    score scores window key costs sync cutoff bars board.snapshot option.1 option.2
  else netOf scores window key bars costs sync (board, some option.1, option.2)

variable {scores window key bars costs sync cutoff}

theorem nullOption_engine (purgeWindow : List ℤ) (board : Board)
    (option : String × Option ExitMode) :
    ∃ counts, nullOption window.zone scores (engineValue scores window key bars costs sync)
        (engineExit window key bars costs sync) cutoff purgeWindow board option =
      .ok (nullWorth scores window key bars costs sync cutoff board option, counts) := by
  obtain ⟨row, horizon⟩ := option
  rw [nullOption, nullWorth, netOf, score]
  dsimp only [engineValue, engineExit, Option.bind_some]
  cases filledOf window key bars costs sync board.snapshot row horizon with
  | none => exact ⟨⟨0, 0⟩, by simp⟩
  | some outcome =>
    by_cases isTrain : board.session ≤ cutoff
    · by_cases crossed : cutoff < window.zone.dateOf outcome.exitAt
      · exact ⟨⟨1, 1⟩, by simp [isTrain, crossed, crosses, bind, Except.bind, pure, Except.pure]⟩
      · exact ⟨⟨1, 0⟩, by simp [isTrain, crossed, crosses, bind, Except.bind, pure, Except.pure]⟩
    · exact ⟨⟨0, 0⟩, by simp [isTrain]⟩

variable (scores window key bars costs sync cutoff)

def engineNullStep (sessions : List ℤ) (horizons : List (Option ExitMode)) (pEnter : scores.Value)
    (purgeWindow : List ℤ) :
    (ℤ → scores.Value) × NullCounts → Board → Except PurgeError ((ℤ → scores.Value) × NullCounts) :=
  nullStep window.zone scores (engineValue scores window key bars costs sync)
    (engineExit window key bars costs sync) cutoff sessions horizons pEnter purgeWindow

theorem engineNullStep_eq (sessions : List ℤ) (horizons : List (Option ExitMode))
    (pEnter : scores.Value) (purgeWindow : List ℤ) (expected : ℤ → scores.Value)
    (counts : NullCounts) (board : Board) :
    ∃ counts', engineNullStep scores window key bars costs sync cutoff sessions horizons pEnter
        purgeWindow (expected, counts) board =
      if board.ids.product horizons = [] then .ok (expected, counts')
      else if board.session ∉ sessions then .error (.unknownSession board.session)
      else .ok (Function.update expected board.session (scores.add (expected board.session)
        (scores.mul pEnter (scores.mean ((board.ids.product horizons).map
          (nullWorth scores window key bars costs sync cutoff board))))), counts') := by
  obtain ⟨options, mapped⟩ : ∃ options, (board.ids.product horizons).mapM
      (nullOption window.zone scores (engineValue scores window key bars costs sync)
        (engineExit window key bars costs sync) cutoff purgeWindow board) = .ok options := by
    apply exists_mapM
    intro option _
    obtain ⟨counts, same⟩ := nullOption_engine purgeWindow board option
    exact ⟨_, same⟩
  have worths : options.map Prod.fst = (board.ids.product horizons).map
      (nullWorth scores window key bars costs sync cutoff board) := by
    refine map_eq_of_mapM mapped ?_
    intro option _ value same
    obtain ⟨counts, same'⟩ := nullOption_engine purgeWindow board option
    rw [same'] at same
    cases same
    rfl
  have empty : options.isEmpty = true ↔ board.ids.product horizons = [] := by
    rw [List.isEmpty_iff, ← List.map_eq_nil_iff (f := Prod.fst), worths, List.map_eq_nil_iff]
  refine ⟨(options.map Prod.snd).foldl NullCounts.plus counts, ?_⟩
  rw [engineNullStep, nullStep, mapped, ← worths]
  change (if options.isEmpty then _ else _) = _
  by_cases nothing : board.ids.product horizons = []
  · rw [if_pos (empty.mpr nothing), if_pos nothing]
    rfl
  · rw [if_neg (empty.not.mpr nothing), if_neg nothing, refuse]
    by_cases unknown : board.session ∉ sessions
    · rw [if_pos unknown, if_pos unknown]
      rfl
    · rw [if_neg unknown, if_neg unknown]
      rfl

variable {scores window key bars costs sync cutoff}
  {horizons : List (Option ExitMode)} {purgeWindow : List ℤ}

theorem nullValues_of_error {boards : List Board} {sessions : List ℤ} {pEnter : scores.Value}
    {error : PurgeError}
    (failed : boards.foldlM (engineNullStep scores window key bars costs sync cutoff sessions
      horizons pEnter purgeWindow) (fun _ => scores.zero, ⟨0, 0⟩) = .error error) :
    nullValues scores window key bars costs sync cutoff boards sessions horizons pEnter
      purgeWindow = .error error := by
  rw [engineNullStep] at failed
  rw [nullValues, purgedNull, failed]
  rfl

theorem nullValues_of_ok {boards : List Board} {sessions : List ℤ} {pEnter : scores.Value}
    {expected : (ℤ → scores.Value) × NullCounts}
    (ran : boards.foldlM (engineNullStep scores window key bars costs sync cutoff sessions
      horizons pEnter purgeWindow) (fun _ => scores.zero, ⟨0, 0⟩) = .ok expected) :
    nullValues scores window key bars costs sync cutoff boards sessions horizons pEnter
      purgeWindow = .ok (sessions.map expected.1, expected.2) := by
  rw [engineNullStep] at ran
  rw [nullValues, purgedNull, ran]
  rfl

end Null

/-! ## The selection of two bundles -/

/-- Two results that fail alike, or expect the same of each session up to the cutoff. -/
def ExpectAlike {Value : Type} (cutoff : ℤ)
    (first second : Except PurgeError ((ℤ → Value) × NullCounts)) : Prop :=
  (∃ error, first = .error error ∧ second = .error error) ∨
    ∃ expected expected', first = .ok expected ∧ second = .ok expected' ∧
      ∀ session ≤ cutoff, expected.1 session = expected'.1 session

def trainValues {Value : Type} (cutoff : ℤ) (boards : List Board)
    (result : List Value × PurgeCounts) : List Value :=
  ((boards.zip result.1).filter fun item => item.1.session ≤ cutoff).map Prod.snd

def trainExpectations {Value : Type} (cutoff : ℤ) (sessions : List ℤ)
    (result : List Value × NullCounts) : List Value :=
  ((sessions.zip result.1).filter fun item => item.1 ≤ cutoff).map Prod.snd

structure SameSelection (scores : Scores) (window : Window) (key : CandidateKey) (costs : Costs)
    (sync : Option ℤ) (cutoff : ℤ) (first second : MinuteBars) : Prop where
  decisions : ∀ (boards : List Board) (decisions : List Decision) (sessions : List ℤ),
    (selectedValues scores window key first costs sync cutoff boards decisions sessions).map
        (trainValues cutoff boards) =
      (selectedValues scores window key second costs sync cutoff boards decisions sessions).map
        (trainValues cutoff boards)
  null : ∀ (boards : List Board) (sessions : List ℤ) (horizons : List (Option ExitMode))
    (pEnter : scores.Value) (purgeWindow : List ℤ),
    (nullValues scores window key first costs sync cutoff boards sessions horizons pEnter
        purgeWindow).map (trainExpectations cutoff sessions) =
      (nullValues scores window key second costs sync cutoff boards sessions horizons pEnter
        purgeWindow).map (trainExpectations cutoff sessions)

section Same

variable {scores : Scores} {window : Window} {key : CandidateKey} {costs : Costs}
  {sync : Option ℤ} {cutoff : ℤ} {first second : MinuteBars}

variable {decisions : List Decision} {boards : List Board}

theorem zip_map_zip {Value : Type} (lengths : boards.length = decisions.length)
    (value : Board × Decision → Value) : boards.zip ((boards.zip decisions).map value) =
      (boards.zip decisions).map fun item => (item.1, value item) := by
  induction boards generalizing decisions with
  | nil => rfl
  | cons board rest ih =>
    cases decisions with
    | nil => cases lengths
    | cons decision later =>
      rw [List.zip_cons_cons, List.map_cons, List.zip_cons_cons, List.map_cons,
        ih (Nat.succ.inj lengths)]

theorem trainValues_congr {Value : Type} (lengths : boards.length = decisions.length)
    {value value' : Board × Decision → Value}
    (same : ∀ item, item.1.session ≤ cutoff → value item = value' item)
    (counts counts' : PurgeCounts) :
    trainValues cutoff boards ((boards.zip decisions).map value, counts) =
      trainValues cutoff boards ((boards.zip decisions).map value', counts') := by
  rw [trainValues, trainValues, zip_map_zip lengths, zip_map_zip lengths]
  induction boards.zip decisions with
  | nil => rfl
  | cons item rest ih =>
    rw [List.map_cons, List.map_cons]
    by_cases isTrain : item.1.session ≤ cutoff
    · rw [List.filter_cons_of_pos (by simpa using isTrain),
        List.filter_cons_of_pos (by simpa using isTrain), List.map_cons, List.map_cons, ih,
        same item isTrain]
    · rw [List.filter_cons_of_neg (by simpa using isTrain),
        List.filter_cons_of_neg (by simpa using isTrain), ih]

theorem trainExpectations_congr {Value : Type} {expected expected' : ℤ → Value}
    (same : ∀ session ≤ cutoff, expected session = expected' session) (sessions : List ℤ)
    (counts counts' : NullCounts) :
    trainExpectations cutoff sessions (sessions.map expected, counts) =
      trainExpectations cutoff sessions (sessions.map expected', counts') := by
  rw [trainExpectations, trainExpectations]
  induction sessions with
  | nil => rfl
  | cons session rest ih =>
    rw [List.map_cons, List.map_cons, List.zip_cons_cons, List.zip_cons_cons]
    by_cases isTrain : session ≤ cutoff
    · rw [List.filter_cons_of_pos (by simpa using isTrain),
        List.filter_cons_of_pos (by simpa using isTrain), List.map_cons, List.map_cons, ih,
        same session isTrain]
    · rw [List.filter_cons_of_neg (by simpa using isTrain),
        List.filter_cons_of_neg (by simpa using isTrain), ih]

theorem null_run
    (alike : ∀ (snapshot : Snapshot) (row : String) (horizon : Option ExitMode),
      snapshot.day ≤ cutoff →
        score scores window key costs sync cutoff first snapshot row horizon =
          score scores window key costs sync cutoff second snapshot row horizon)
    (sessions : List ℤ) (horizons : List (Option ExitMode)) (pEnter : scores.Value)
    (purgeWindow : List ℤ) (boards : List Board) (expected expected' : ℤ → scores.Value)
    (counts counts' : NullCounts)
    (same : ∀ session ≤ cutoff, expected session = expected' session) :
    ExpectAlike cutoff
      (boards.foldlM (engineNullStep scores window key first costs sync cutoff sessions horizons
        pEnter purgeWindow) (expected, counts))
      (boards.foldlM (engineNullStep scores window key second costs sync cutoff sessions horizons
        pEnter purgeWindow) (expected', counts')) := by
  induction boards generalizing expected expected' counts counts' with
  | nil => exact Or.inr ⟨_, _, rfl, rfl, same⟩
  | cons board rest ih =>
    obtain ⟨after, stepped⟩ := engineNullStep_eq scores window key first costs sync cutoff
      sessions horizons pEnter purgeWindow expected counts board
    obtain ⟨after', stepped'⟩ := engineNullStep_eq scores window key second costs sync cutoff
      sessions horizons pEnter purgeWindow expected' counts' board
    rw [List.foldlM_cons, List.foldlM_cons, stepped, stepped']
    by_cases nothing : board.ids.product horizons = []
    · rw [if_pos nothing, if_pos nothing]
      exact ih expected expected' after after' same
    · rw [if_neg nothing, if_neg nothing]
      by_cases unknown : board.session ∉ sessions
      · rw [if_pos unknown, if_pos unknown]
        exact Or.inl ⟨_, rfl, rfl⟩
      · rw [if_neg unknown, if_neg unknown]
        refine ih _ _ after after' ?_
        intro session isTrain
        by_cases isOwn : session = board.session
        · subst isOwn
          have worths : nullWorth scores window key first costs sync cutoff board =
              nullWorth scores window key second costs sync cutoff board := by
            funext option
            rw [nullWorth, nullWorth, if_pos isTrain, if_pos isTrain,
              alike board.snapshot option.1 option.2 isTrain]
          rw [Function.update_self, Function.update_self, same _ isTrain, worths]
        · rw [Function.update_of_ne isOwn, Function.update_of_ne isOwn, same session isTrain]

theorem selectedValues_of_mismatch {bars : MinuteBars} (mismatch : boards.length ≠ decisions.length)
    (sessions : List ℤ) :
    selectedValues scores window key bars costs sync cutoff boards decisions sessions =
      .error .lengthMismatch := by
  rw [selectedValues, purgeDecisions, refuse, if_pos mismatch]
  rfl

theorem sameSelection_of_scores
    (alike : ∀ (snapshot : Snapshot) (row : String) (horizon : Option ExitMode),
      snapshot.day ≤ cutoff →
        score scores window key costs sync cutoff first snapshot row horizon =
          score scores window key costs sync cutoff second snapshot row horizon) :
    SameSelection scores window key costs sync cutoff first second := by
  refine ⟨?_, ?_⟩
  · intro boards decisions sessions
    by_cases lengths : boards.length = decisions.length
    · have same : ∀ item : Board × Decision, item.1.session ≤ cutoff →
          selectedValue scores window key first costs sync cutoff item =
            selectedValue scores window key second costs sync cutoff item := by
        rintro ⟨board, choice, horizon⟩ isTrain
        rw [selectedValue_of_train isTrain, selectedValue_of_train isTrain]
        cases choice with
        | none => simp only [Option.elim_none]
        | some choice =>
          rw [Option.elim_some, Option.elim_some]
          exact alike board.snapshot choice horizon isTrain
      obtain ⟨counts, selected⟩ : ∃ counts, selectedValues scores window key first costs sync cutoff
          boards decisions sessions = .ok (_, counts) := selectedValues_eq lengths sessions
      obtain ⟨counts', selected'⟩ : ∃ counts, selectedValues scores window key second costs sync
          cutoff boards decisions sessions = .ok (_, counts) := selectedValues_eq lengths sessions
      have values := trainValues_congr lengths same counts counts'
      rw [selected, selected']
      exact congrArg Except.ok values
    · rw [selectedValues_of_mismatch lengths, selectedValues_of_mismatch lengths]
  · intro boards sessions horizons pEnter purgeWindow
    have runs := null_run alike sessions horizons pEnter purgeWindow boards
      (fun _ => scores.zero) (fun _ => scores.zero) ⟨0, 0⟩ ⟨0, 0⟩ fun _ _ => rfl
    rcases runs with ⟨error, failed, failed'⟩ | ⟨expected, expected', ran, ran', same⟩
    · rw [nullValues_of_error failed, nullValues_of_error failed']
    · have values := trainExpectations_congr same sessions expected.2 expected'.2
      rw [nullValues_of_ok ran, nullValues_of_ok ran']
      exact congrArg Except.ok values

/-- The decision of one row on a board of its own shows its score. -/
theorem scores_of_sameSelection
    (same : SameSelection scores window key costs sync cutoff first second) (snapshot : Snapshot)
    (row : String) (horizon : Option ExitMode) (isTrain : snapshot.day ≤ cutoff) :
    score scores window key costs sync cutoff first snapshot row horizon =
      score scores window key costs sync cutoff second snapshot row horizon := by
  have one := same.decisions [⟨snapshot.day, snapshot.minute, [row]⟩] [(some row, horizon)] []
  obtain ⟨counts, selected⟩ : ∃ counts, selectedValues scores window key first costs sync cutoff
      [⟨snapshot.day, snapshot.minute, [row]⟩] [(some row, horizon)] [] = .ok (_, counts) :=
    selectedValues_eq rfl []
  obtain ⟨counts', selected'⟩ : ∃ counts, selectedValues scores window key second costs sync cutoff
      [⟨snapshot.day, snapshot.minute, [row]⟩] [(some row, horizon)] [] = .ok (_, counts) :=
    selectedValues_eq rfl []
  rw [selected, selected'] at one
  have shown : ∀ value value' : scores.Value,
      (Except.ok ([value], counts) : Except PurgeError (List scores.Value × PurgeCounts)).map
          (trainValues cutoff [⟨snapshot.day, snapshot.minute, [row]⟩]) =
        (Except.ok ([value'], counts') : Except PurgeError _).map
          (trainValues cutoff [⟨snapshot.day, snapshot.minute, [row]⟩]) → value = value' := by
    intro value value' equal
    simpa [trainValues, Except.map, isTrain] using equal
  have values := shown _ _ one
  rw [selectedValue_of_train (isTrain : (_ : Board × Decision).1.session ≤ cutoff),
    selectedValue_of_train (isTrain : (_ : Board × Decision).1.session ≤ cutoff)] at values
  exact values

/-- **The purged selection is the same for two bundles that agree up to the close of the cutoff
session just when no fill of a training board is disturbed by what comes later.** -/
theorem purged_selection_iff (agree : AgreeThrough window cutoff first second) :
    SameSelection scores window key costs sync cutoff first second ↔
      Undisturbed scores window key costs sync cutoff first second := by
  rw [← scores_eq_iff agree]
  constructor
  · intro same snapshot row horizon isTrain
    exact scores_of_sameSelection same snapshot row horizon isTrain
  · intro alike
    exact sameSelection_of_scores alike

end Same

/-! ## A print after the cutoff -/

theorem utc_mono {earlier later : ℤ} (le : earlier ≤ later) :
    earlier / 86400000 ≤ later / 86400000 :=
  Int.ediv_le_ediv (by decide) le

theorem utc_dateOf (day : ℤ) (minute : ℕ) (within : minute < 1440) :
    (day * 86400000 + minute * 60000) / 86400000 = day := by
  omega

theorem utc_later (day : ℤ) (minute later : ℕ) (_ : 600 ≤ minute) (_ : minute ≤ later)
    (_ : later ≤ 960) :
    day * 86400000 + later * 60000 = day * 86400000 + minute * 60000 + (later - minute) * 60000 := by
  omega

def utc : MarketZone :=
  ⟨fun day minute => day * 86400000 + minute * 60000, fun instant => instant / 86400000, utc_mono,
    utc_dateOf, utc_later⟩

theorem sampleSessions_increasing : ([0, 1] : List ℤ).Pairwise (· < ·) := by
  decide

theorem sampleSessions_nonempty : ([0, 1] : List ℤ) ≠ [] :=
  List.cons_ne_nil _ _

/-- Two sessions, and two calls of one expiry. -/
def sampleWindow : Window :=
  ⟨utc, [], [0, 1], sampleSessions_nonempty, sampleSessions_increasing,
    [⟨"A", "X", 10, .call, 100⟩, ⟨"B", "X", 10, .call, 105⟩], none, none⟩

def printsOf (long short : List Print) (ticker : String) : List Print :=
  if ticker = "A" then long else if ticker = "B" then short else []

def morning (price : ℚ) : List Print :=
  [⟨600 * 60000, price⟩, ⟨601 * 60000, price⟩]

def nextDay (price : ℚ) : List Print :=
  morning price ++ [⟨86400000 + 600 * 60000, price⟩]

theorem printsOf_increasing {long short : List Print}
    (increasing : long.Pairwise fun first second => first.stamp < second.stamp)
    (increasing' : short.Pairwise fun first second => first.stamp < second.stamp)
    (ticker : String) :
    (printsOf long short ticker).Pairwise fun first second => first.stamp < second.stamp := by
  rw [printsOf]
  split
  · exact increasing
  · split
    · exact increasing'
    · exact List.Pairwise.nil

theorem morning_increasing (price : ℚ) :
    (morning price).Pairwise fun first second => first.stamp < second.stamp := by
  simp [morning]

theorem nextDay_increasing (price : ℚ) :
    (nextDay price).Pairwise fun first second => first.stamp < second.stamp := by
  simp [nextDay, morning]

/-- The legs print on the second day too. -/
def printedLater : MinuteBars :=
  ⟨printsOf (nextDay 3) (nextDay 1),
    printsOf_increasing (nextDay_increasing 3) (nextDay_increasing 1)⟩

/-- The legs do not print after the first morning. -/
def printedOnce : MinuteBars :=
  ⟨printsOf (morning 3) (morning 1),
    printsOf_increasing (morning_increasing 3) (morning_increasing 1)⟩

def decimalScores : Scores :=
  ⟨ℚ, id, 0, (· + ·), (· * ·), fun values => values.sum / values.length⟩

def sampleKey : CandidateKey := fun _ _ long short => long ++ short

def sampleCosts : Costs :=
  .flat ⟨65 / 100, 3 / 100, 100⟩

theorem samples_agree : AgreeThrough sampleWindow 0 printedLater printedOnce := by
  intro ticker
  change seen (printsOf (nextDay 3) (nextDay 1) ticker) _ =
    seen (printsOf (morning 3) (morning 1) ticker) _
  rw [printsOf, printsOf]
  split
  · rfl
  · split
    · rfl
    · rfl

/-- What the spread of the two calls counts for when it is entered in the first morning. -/
def sampleScore (bars : MinuteBars) : ℚ :=
  score decimalScores sampleWindow sampleKey sampleCosts none 0 bars ⟨0, 600⟩ "AB"
    (some .intraday)

theorem later_print_moves_selection :
    ¬ ∀ (scores : Scores) (window : Window) (key : CandidateKey) (costs : Costs)
      (sync : Option ℤ) (cutoff : ℤ) (first second : MinuteBars),
        AgreeThrough window cutoff first second →
          SameSelection scores window key costs sync cutoff first second := by
  intro always
  have same := always decimalScores sampleWindow sampleKey sampleCosts none 0 printedLater
    printedOnce samples_agree
  have equal : sampleScore printedLater = sampleScore printedOnce :=
    scores_of_sameSelection same ⟨0, 600⟩ "AB" (some .intraday) le_rfl
  have isPurged : sampleScore printedLater = 0 := by decide +kernel
  have isKept : sampleScore printedOnce = -(146 / 10) := by decide +kernel
  rw [isPurged, isKept] at equal
  norm_num at equal

theorem purged_selection_sample :
    SameSelection decimalScores sampleWindow sampleKey sampleCosts none 0 printedLater
        printedOnce ↔
      Undisturbed decimalScores sampleWindow sampleKey sampleCosts none 0 printedLater
        printedOnce :=
  purged_selection_iff samples_agree

end TreeOptions.Outcomes
