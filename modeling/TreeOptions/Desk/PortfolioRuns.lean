import TreeOptions.Desk.PortfolioReplay

/-!
# The capital path of the scenario

An account that is run in time has, at each date, the capital with the outcomes of what exited
until then, and admits a row when the losses that are still open leave room for it. The scenario
keeps to that as far as the risk goes. Its lowest capital does not: positions that are released
together are closed in the order of their admission, and not of their exits, so that a gain may
come before an earlier loss (`low_hides_early_loss`).

Where a run offers its rows in the order of their entries, releases positions in the order of their
exits and forms no sum that the decimal context has to round, the path is chronological
(`capital_path_chronological`).
-/

set_option autoImplicit false

namespace TreeOptions.Desk

open Checked Decimal

/-! ## What a run does -/

/-- The rows that are admitted from a state on. -/
def admittedFrom (limits : RiskLimits) : Scenario → List Offer → List Offer
  | _, [] => []
  | state, offer :: rest =>
    if (state.release offer.entry).verdict limits offer = .admitted then
      offer :: admittedFrom limits (state.offer limits offer) rest
    else admittedFrom limits (state.offer limits offer) rest

/-- The state after some rows. -/
def stateAfter (limits : RiskLimits) (offers : List Offer) : Scenario :=
  offers.foldl (Scenario.offer limits) (.start limits.capital)

def admittedBy (limits : RiskLimits) (offers : List Offer) : List Offer :=
  admittedFrom limits (.start limits.capital) offers

/-- A row is admitted after these. -/
def Admits (limits : RiskLimits) (before : List Offer) (offer : Offer) : Prop :=
  ((stateAfter limits before).release offer.entry).verdict limits offer = .admitted

def losses (offers : List Offer) : ℚ :=
  (offers.map fun offer => offer.loss).sum

def outcomes (offers : List Offer) : ℚ :=
  (offers.map fun offer => offer.pnl).sum

/-- What a chronological path of the capital is. -/
structure ChronologicalCapital (limits : RiskLimits) (offers : List Offer) (minimum : ℚ) :
    Prop where
  openLoss : ∀ before offer after, offers = before ++ offer :: after →
    Admits limits before offer →
      losses ((admittedBy limits before).filter fun other => offer.entry ≤ other.exit) +
        offer.loss ≤ limits.maxOpenLoss
  solvent : ∀ before offer after, offers = before ++ offer :: after →
    Admits limits before offer →
      losses ((admittedBy limits before).filter fun other => offer.entry ≤ other.exit) +
        offer.loss ≤ limits.capital +
          outcomes ((admittedBy limits before).filter fun other => other.exit < offer.entry)
  low : ∀ date, minimum ≤ limits.capital +
    outcomes ((admittedBy limits offers).filter fun other => other.exit ≤ date)

/-! ## When a run is in order -/

/-- Each sum on the way is kept as it is by the decimal context. -/
def ExactSums : ℚ → List ℚ → Prop
  | _, [] => True
  | start, amount :: rest =>
    roundContext (start + amount) = start + amount ∧ ExactSums (start + amount) rest

instance decidableExactSums : (start : ℚ) → (amounts : List ℚ) →
    Decidable (ExactSums start amounts)
  | _, [] => .isTrue trivial
  | start, amount :: rest =>
    have := decidableExactSums (start + amount) rest
    inferInstanceAs (Decidable (_ ∧ _))

namespace Scenario

/-- What a row releases of the active positions. -/
def released (state : Scenario) (entry : ℤ) : List Position :=
  state.active.filter fun position => position.exit < entry

def retained (state : Scenario) (entry : ℤ) : List Position :=
  state.active.filter fun position => entry ≤ position.exit

end Scenario

/-- A row is not before another that was offered, what it releases exits in the order of its
admission, and its sums are exact. -/
structure StepInOrder (before : List Offer) (state : Scenario) (offer : Offer) : Prop where
  entries : ∀ earlier ∈ before, earlier.entry ≤ offer.entry
  exits : (state.released offer.entry).Pairwise fun first second => first.exit ≤ second.exit
  closings : ExactSums state.closedCash ((state.released offer.entry).map Position.pnl)
  reserves : ExactSums 0 ((state.retained offer.entry).map Position.loss ++ [offer.loss])

instance (before : List Offer) (state : Scenario) (offer : Offer) :
    Decidable (StepInOrder before state offer) :=
  decidable_of_iff
    ((∀ earlier ∈ before, earlier.entry ≤ offer.entry) ∧
      ((state.released offer.entry).Pairwise fun first second => first.exit ≤ second.exit) ∧
      ExactSums state.closedCash ((state.released offer.entry).map Position.pnl) ∧
      ExactSums 0 ((state.retained offer.entry).map Position.loss ++ [offer.loss]))
    ⟨fun ⟨entries, exits, closings, reserves⟩ => ⟨entries, exits, closings, reserves⟩,
      fun step => ⟨step.entries, step.exits, step.closings, step.reserves⟩⟩

/-- The rest of a run is in order, and what is closed at its end has exact sums. -/
def InOrderFrom (limits : RiskLimits) (before : List Offer) : List Offer → Prop
  | [] => ExactSums (stateAfter limits before).closedCash
      ((sortedBy Position.order (stateAfter limits before).active).map Position.pnl)
  | offer :: rest => StepInOrder before (stateAfter limits before) offer ∧
      InOrderFrom limits (before ++ [offer]) rest

instance decidableInOrderFrom (limits : RiskLimits) : (before rest : List Offer) →
    Decidable (InOrderFrom limits before rest)
  | _, [] => decidableExactSums _ _
  | before, offer :: rest =>
    have := decidableInOrderFrom limits (before ++ [offer]) rest
    inferInstanceAs (Decidable (_ ∧ _))

def RunInOrder (limits : RiskLimits) (offers : List Offer) : Prop :=
  InOrderFrom limits [] offers

instance (limits : RiskLimits) (offers : List Offer) : Decidable (RunInOrder limits offers) :=
  decidableInOrderFrom limits [] offers

/-! ## Sums -/

theorem exactSums_append {start : ℚ} {front back : List ℚ} :
    ExactSums start (front ++ back) ↔
      ExactSums start front ∧ ExactSums (start + front.sum) back := by
  induction front generalizing start with
  | nil => simp [ExactSums]
  | cons amount rest ih =>
    rw [List.cons_append, ExactSums, ExactSums, ih, List.sum_cons, add_assoc, and_assoc]

theorem foldl_add_of_exact {start : ℚ} {amounts : List ℚ} (exact : ExactSums start amounts) :
    amounts.foldl add start = start + amounts.sum := by
  induction amounts generalizing start with
  | nil => simp
  | cons amount rest ih =>
    obtain ⟨first, exact⟩ := exact
    have isSum : add start amount = start + amount := first
    rw [List.foldl_cons, isSum, ih exact, List.sum_cons, add_assoc]

namespace Scenario

variable {limits : RiskLimits}

/-! ## Closing -/

theorem close_active (state : Scenario) (position : Position) :
    (state.close position).active = state.active :=
  rfl

theorem closeAll_closedCash (state : Scenario) (positions : List Position) :
    (positions.foldl close state).closedCash =
      (positions.map Position.pnl).foldl add state.closedCash := by
  induction positions generalizing state with
  | nil => rfl
  | cons position rest ih =>
    rw [List.foldl_cons, ih, List.map_cons, List.foldl_cons]
    rfl

theorem closeAll_low_le (state : Scenario) (positions : List Position) :
    (positions.foldl close state).lowClosedCash ≤ state.lowClosedCash := by
  induction positions generalizing state with
  | nil => exact le_refl _
  | cons position rest ih =>
    rw [List.foldl_cons]
    exact (ih _).trans (min_le_left _ _)

theorem closeAll_low_le_closed {state : Scenario} (positions : List Position)
    (below : state.lowClosedCash ≤ state.closedCash) :
    (positions.foldl close state).lowClosedCash ≤ (positions.foldl close state).closedCash := by
  induction positions generalizing state with
  | nil => exact below
  | cons position rest ih =>
    rw [List.foldl_cons]
    exact ih (min_le_right _ _)

/-- The lowest capital is at most what is left after a part at the start was closed. -/
theorem closeAll_low_le_front {state : Scenario} {positions front back : List Position}
    (split : positions = front ++ back) (below : state.lowClosedCash ≤ state.closedCash)
    (exact : ExactSums state.closedCash (positions.map Position.pnl)) :
    (positions.foldl close state).lowClosedCash ≤
      state.closedCash + (front.map Position.pnl).sum := by
  subst split
  rw [List.map_append, exactSums_append] at exact
  rw [List.foldl_append]
  calc (back.foldl close (front.foldl close state)).lowClosedCash
      ≤ (front.foldl close state).lowClosedCash := closeAll_low_le _ _
    _ ≤ (front.foldl close state).closedCash := closeAll_low_le_closed front below
    _ = state.closedCash + (front.map Position.pnl).sum := by
        rw [closeAll_closedCash, foldl_add_of_exact exact.1]

/-! ## Releasing -/

theorem closeAll_with_active (state : Scenario) (active : List Position)
    (positions : List Position) :
    positions.foldl close { state with active } =
      { positions.foldl close state with active := active } := by
  induction positions generalizing state with
  | nil => rfl
  | cons position rest ih => exact ih (state.close position)

theorem foldl_releaseOne (entry : ℤ) (state : Scenario) (positions : List Position) :
    positions.foldl (releaseOne entry) state =
      { (positions.filter fun position => position.exit < entry).foldl close state with
        active := state.active ++ positions.filter fun position => entry ≤ position.exit } := by
  induction positions generalizing state with
  | nil => simp
  | cons position rest ih =>
    rw [List.foldl_cons, ih, releaseOne]
    by_cases exited : position.exit < entry
    · rw [if_pos exited, List.filter_cons_of_pos (by simpa using exited),
        List.filter_cons_of_neg (by simpa using exited), List.foldl_cons, close_active]
    · rw [if_neg exited, List.filter_cons_of_neg (by simpa using exited),
        List.filter_cons_of_pos (by simpa using not_lt.mp exited), closeAll_with_active,
        List.append_assoc, List.singleton_append]

theorem release_eq (entry : ℤ) (state : Scenario) :
    state.release entry =
      { (state.released entry).foldl close state with active := state.retained entry } := by
  rw [release, foldl_releaseOne, closeAll_with_active, List.nil_append, released, retained]

theorem release_active (entry : ℤ) (state : Scenario) :
    (state.release entry).active = state.retained entry := by
  rw [release_eq]

theorem release_closedCash {entry : ℤ} {state : Scenario}
    (exact : ExactSums state.closedCash ((state.released entry).map Position.pnl)) :
    (state.release entry).closedCash =
      state.closedCash + ((state.released entry).map Position.pnl).sum := by
  rw [release_eq]
  exact (closeAll_closedCash _ _).trans (foldl_add_of_exact exact)

theorem settle_closedCash (state : Scenario) (offer : Offer) :
    (state.settle limits offer).closedCash = state.closedCash := by
  rw [settle]
  split <;> rfl

theorem settle_low (state : Scenario) (offer : Offer) :
    (state.settle limits offer).lowClosedCash = state.lowClosedCash := by
  rw [settle]
  split <;> rfl

theorem settle_active (state : Scenario) (offer : Offer) :
    (state.settle limits offer).active =
      if state.verdict limits offer = .admitted then state.active ++ [offer.toPosition]
      else state.active := by
  rw [settle]
  cases decided : state.verdict limits offer with
  | tradeCap => rfl
  | openCap => rfl
  | capital => rfl
  | admitted => rfl

theorem of_verdict_admitted {state : Scenario} {offer : Offer}
    (decided : state.verdict limits offer = .admitted) :
    add state.reserved offer.loss ≤ limits.maxOpenLoss ∧
      add state.reserved offer.loss ≤ state.closedCash := by
  revert decided
  fun_cases verdict limits state offer with
  | case4 _ within funded => exact fun _ => ⟨not_lt.mp within, not_lt.mp funded⟩
  | _ => exact nofun

end Scenario

/-! ## Runs -/

section Runs

variable {limits : RiskLimits}

theorem stateAfter_append (before : List Offer) (offer : Offer) :
    stateAfter limits (before ++ [offer]) = (stateAfter limits before).offer limits offer := by
  rw [stateAfter, List.foldl_append]
  rfl

theorem admittedFrom_append (state : Scenario) (front back : List Offer) :
    admittedFrom limits state (front ++ back) =
      admittedFrom limits state front ++
        admittedFrom limits (front.foldl (Scenario.offer limits) state) back := by
  induction front generalizing state with
  | nil => rfl
  | cons offer rest ih =>
    rw [List.cons_append, admittedFrom, admittedFrom, ih, List.foldl_cons]
    split <;> rfl

instance (before : List Offer) (offer : Offer) : Decidable (Admits limits before offer) :=
  inferInstanceAs (Decidable (_ = _))

theorem admittedBy_append (before : List Offer) (offer : Offer) :
    admittedBy limits (before ++ [offer]) =
      admittedBy limits before ++ if Admits limits before offer then [offer] else [] := by
  rw [admittedBy, admittedFrom_append]
  congr 1

/-! ## What is kept -/

/-- The outcomes of what exits before a day. -/
def outcomesBefore (offers : List Offer) (day : ℤ) : ℚ :=
  outcomes (offers.filter fun offer => offer.exit < day)

theorem outcomesBefore_append (front back : List Offer) (day : ℤ) :
    outcomesBefore (front ++ back) day = outcomesBefore front day + outcomesBefore back day := by
  simp [outcomesBefore, outcomes]

/-- The outcomes of a span of days come on top of those before it. -/
theorem outcomesBefore_split (offers : List Offer) {first last : ℤ} (ordered : first ≤ last) :
    outcomesBefore offers last = outcomesBefore offers first +
      outcomesBefore (offers.filter fun offer => first ≤ offer.exit) last := by
  induction offers with
  | nil => simp [outcomesBefore, outcomes]
  | cons offer rest ih =>
    have single : outcomesBefore [offer] last = outcomesBefore [offer] first +
        outcomesBefore ([offer].filter fun offer => first ≤ offer.exit) last := by
      by_cases early : offer.exit < first
      · have before : offer.exit < last := early.trans_le ordered
        simp [outcomesBefore, outcomes, early, before]
      · have late : first ≤ offer.exit := not_lt.mp early
        simp [outcomesBefore, outcomes, late, early]
    have whole : offer :: rest = [offer] ++ rest := rfl
    rw [whole, outcomesBefore_append, outcomesBefore_append, List.filter_append,
      outcomesBefore_append, ih, single]
    ring

/-- What is kept after some rows, up to a day on which the last of them enters. -/
structure PathKept (limits : RiskLimits) (offers : List Offer) (day : ℤ) : Prop where
  active : (stateAfter limits offers).active =
    ((admittedBy limits offers).filter fun offer => day ≤ offer.exit).map Offer.toPosition
  closed : (stateAfter limits offers).closedCash =
    limits.capital + outcomesBefore (admittedBy limits offers) day
  below : (stateAfter limits offers).lowClosedCash ≤ (stateAfter limits offers).closedCash
  low : ∀ bound ≤ day, (stateAfter limits offers).lowClosedCash ≤
    limits.capital + outcomesBefore (admittedBy limits offers) bound

theorem pathKept_nil (day : ℤ) : PathKept limits [] day where
  active := rfl
  closed := (add_zero limits.capital).symm
  below := le_refl limits.capital
  low := by
    intro bound _
    exact (add_zero limits.capital).ge

variable {before : List Offer} {offer : Offer} {day : ℤ}

theorem PathKept.retained (kept : PathKept limits before day) {later : ℤ} (ordered : day ≤ later) :
    (stateAfter limits before).retained later =
      ((admittedBy limits before).filter fun offer => later ≤ offer.exit).map
        Offer.toPosition := by
  rw [Scenario.retained, kept.active, List.filter_map, List.filter_filter]
  congr 1
  apply List.filter_congr
  intro other _
  by_cases held : later ≤ other.exit
  · simp [held, ordered.trans held]
  · simp [held]

variable {bound : ℤ}

section

variable (kept : PathKept limits before day)

include kept

theorem PathKept.released {later : ℤ} (ordered : bound ≤ later) :
    ((((stateAfter limits before).released later).filter
        fun position => position.exit < bound).map Position.pnl).sum =
      outcomesBefore ((admittedBy limits before).filter fun offer => day ≤ offer.exit) bound := by
  rw [Scenario.released, kept.active, List.filter_map, List.filter_map, List.map_map,
    List.filter_filter, outcomesBefore, outcomes]
  congr 2
  apply List.filter_congr
  intro other _
  by_cases exited : other.exit < bound
  · simp [exited, exited.trans_le ordered]
  · simp [exited]

theorem PathKept.closed_release (ordered : day ≤ offer.entry)
    (inOrder : StepInOrder before (stateAfter limits before) offer) :
    ((stateAfter limits before).release offer.entry).closedCash =
      limits.capital + outcomesBefore (admittedBy limits before) offer.entry := by
  have whole : ((stateAfter limits before).released offer.entry).filter
      (fun position => position.exit < offer.entry) =
        (stateAfter limits before).released offer.entry := by
    rw [Scenario.released, List.filter_filter]
    simp
  have isReleased := kept.released (le_refl offer.entry)
  rw [whole] at isReleased
  rw [Scenario.release_closedCash inOrder.closings, kept.closed, isReleased,
    outcomesBefore_split (admittedBy limits before) ordered, add_assoc]

theorem PathKept.low_release (inOrder : StepInOrder before (stateAfter limits before) offer)
    (inTime : bound ≤ offer.entry) :
    ((stateAfter limits before).release offer.entry).lowClosedCash ≤
      limits.capital + outcomesBefore (admittedBy limits before) bound := by
  rw [Scenario.release_eq]
  rcases le_total bound day with early | late
  · exact (Scenario.closeAll_low_le _ _).trans (kept.low bound early)
  · obtain ⟨back, split⟩ := exists_append_of_sorted inOrder.exits bound
    calc (((stateAfter limits before).released offer.entry).foldl Scenario.close
          (stateAfter limits before)).lowClosedCash
        ≤ (stateAfter limits before).closedCash +
            ((((stateAfter limits before).released offer.entry).filter
              fun position => position.exit < bound).map Position.pnl).sum :=
          Scenario.closeAll_low_le_front split kept.below inOrder.closings
      _ = limits.capital + outcomesBefore (admittedBy limits before) bound := by
          rw [kept.released inTime, kept.closed,
            outcomesBefore_split (admittedBy limits before) late, add_assoc]

end

theorem outcomesBefore_admitted (inTime : bound ≤ offer.entry) :
    outcomesBefore (admittedBy limits (before ++ [offer])) bound =
      outcomesBefore (admittedBy limits before) bound := by
  have notYet : ¬ offer.exit < bound := not_lt.mpr (inTime.trans offer.later.le)
  rw [admittedBy_append, outcomesBefore_append]
  split
  case isTrue => simp [outcomesBefore, outcomes, notYet]
  case isFalse => simp [outcomesBefore, outcomes]

/-- **A row that is offered in order keeps the path.** -/
theorem PathKept.step (kept : PathKept limits before day) (ordered : day ≤ offer.entry)
    (inOrder : StepInOrder before (stateAfter limits before) offer) :
    PathKept limits (before ++ [offer]) offer.entry := by
  have isNext := @stateAfter_append limits before offer
  refine ⟨?_, ?_, ?_, ?_⟩
  · have held : offer.entry ≤ offer.exit := offer.later.le
    rw [isNext, Scenario.offer, Scenario.settle_active, Scenario.release_active,
      kept.retained ordered, admittedBy_append, List.filter_append, List.map_append]
    by_cases admits : Admits limits before offer
    · rw [if_pos admits]
      have decided := admits
      rw [Admits] at decided
      rw [if_pos decided]
      simp [held]
    · rw [if_neg admits]
      have decided := admits
      rw [Admits] at decided
      rw [if_neg decided]
      simp
  · rw [isNext, Scenario.offer, Scenario.settle_closedCash, kept.closed_release ordered inOrder,
      outcomesBefore_admitted (le_refl _)]
  · rw [isNext, Scenario.offer, Scenario.settle_closedCash, Scenario.settle_low,
      Scenario.release_eq]
    exact Scenario.closeAll_low_le_closed _ kept.below
  · intro bound inTime
    rw [isNext, Scenario.offer, Scenario.settle_low, outcomesBefore_admitted inTime]
    exact kept.low_release inOrder inTime

theorem InOrderFrom.of_append {done front back : List Offer}
    (inOrder : InOrderFrom limits done (front ++ back)) :
    InOrderFrom limits (done ++ front) back := by
  induction front generalizing done with
  | nil =>
    rw [List.append_nil]
    exact inOrder
  | cons offer rest ih =>
    have further := ih inOrder.2
    rwa [List.append_assoc, List.singleton_append] at further

variable {offers : List Offer}

section

variable (inOrder : RunInOrder limits offers)

include inOrder

theorem RunInOrder.step {after : List Offer} (split : offers = before ++ offer :: after) :
    StepInOrder before (stateAfter limits before) offer := by
  subst split
  exact (InOrderFrom.of_append inOrder).1

theorem RunInOrder.last :
    ExactSums (stateAfter limits offers).closedCash
      ((sortedBy Position.order (stateAfter limits offers).active).map Position.pnl) := by
  have whole : InOrderFrom limits [] (offers ++ []) := by
    rw [List.append_nil]
    exact inOrder
  exact InOrderFrom.of_append whole

/-- **Every part of a run in order keeps the path,** up to the entry of its last row. -/
theorem exists_pathKept (day : ℤ) :
    ∀ before after, offers = before ++ after → (∀ earlier ∈ before, earlier.entry ≤ day) →
      ∃ last ≤ day, PathKept limits before last := by
  intro before
  induction before using List.reverseRecOn generalizing day with
  | nil =>
    intro after _ _
    exact ⟨day, le_refl day, pathKept_nil day⟩
  | append_singleton before offer ih =>
    intro after split early
    rw [List.append_assoc, List.singleton_append] at split
    have step := inOrder.step split
    obtain ⟨last, ordered, kept⟩ := ih offer.entry (offer :: after) split step.entries
    exact ⟨offer.entry, early offer (by simp), kept.step ordered step⟩

end

theorem PathKept.reserved_release (kept : PathKept limits before day)
    (ordered : day ≤ offer.entry)
    (inOrder : StepInOrder before (stateAfter limits before) offer) :
    add ((stateAfter limits before).release offer.entry).reserved offer.loss =
      losses ((admittedBy limits before).filter fun other => offer.entry ≤ other.exit) +
        offer.loss := by
  obtain ⟨exact, last, -⟩ := exactSums_append.mp inOrder.reserves
  rw [zero_add] at last
  have isReserve : ((stateAfter limits before).release offer.entry).reserved =
      (((stateAfter limits before).retained offer.entry).map Position.loss).sum := by
    rw [Scenario.reserved, Scenario.release_active, foldl_add_of_exact exact, zero_add]
  rw [isReserve, add, last, kept.retained ordered, List.map_map, losses]
  rfl

theorem outcomes_until (offers : List Offer) (date : ℤ) :
    outcomes (offers.filter fun offer => offer.exit ≤ date) =
      outcomesBefore offers (date + 1) := by
  simp only [outcomesBefore, Int.lt_add_one_iff]

theorem PathKept.low_finish (kept : PathKept limits before day)
    (exact : ExactSums (stateAfter limits before).closedCash
      ((sortedBy Position.order (stateAfter limits before).active).map Position.pnl))
    (bound : ℤ) :
    (stateAfter limits before).finish.lowClosedCash ≤
      limits.capital + outcomesBefore (admittedBy limits before) bound := by
  rw [Scenario.finish]
  rcases le_total bound day with early | late
  · exact (Scenario.closeAll_low_le _ _).trans (kept.low bound early)
  · have sorted : (sortedBy Position.order (stateAfter limits before).active).Pairwise
        fun first second => first.exit ≤ second.exit := by
      refine (pairwise_sortedBy Position.order _).imp ?_
      intro first second ordered
      exact Prod.Lex.monotone_fst _ _ ordered
    obtain ⟨back, split⟩ := exists_append_of_sorted sorted bound
    have perm := (((sortedBy_perm Position.order (stateAfter limits before).active).filter
      fun position => decide (position.exit < bound)).map Position.pnl).sum_eq
    have isFront : (((stateAfter limits before).active.filter
        fun position => position.exit < bound).map Position.pnl).sum =
        outcomesBefore ((admittedBy limits before).filter fun offer => day ≤ offer.exit)
          bound := by
      rw [kept.active, List.filter_map, List.map_map, outcomesBefore, outcomes]
      rfl
    refine (Scenario.closeAll_low_le_front split kept.below exact).trans_eq ?_
    rw [perm, isFront, kept.closed, outcomesBefore_split (admittedBy limits before) late, add_assoc]

/-- **A run in order has a chronological path of its capital.** -/
theorem chronological_of_inOrder (inOrder : RunInOrder limits offers) :
    ChronologicalCapital limits offers (stateAfter limits offers).finish.lowClosedCash := by
  refine ⟨?_, ?_, ?_⟩
  · intro before offer after split admits
    have step := inOrder.step split
    obtain ⟨day, ordered, kept⟩ :=
      exists_pathKept inOrder offer.entry before (offer :: after) split step.entries
    rw [← kept.reserved_release ordered step]
    exact (Scenario.of_verdict_admitted admits).1
  · intro before offer after split admits
    have step := inOrder.step split
    obtain ⟨day, ordered, kept⟩ :=
      exists_pathKept inOrder offer.entry before (offer :: after) split step.entries
    have isClosed := kept.closed_release ordered step
    rw [outcomesBefore] at isClosed
    rw [← kept.reserved_release ordered step, ← isClosed]
    exact (Scenario.of_verdict_admitted admits).2
  · intro date
    obtain ⟨day, early⟩ : ∃ day : ℤ, ∀ offer ∈ offers, offer.entry ≤ day := by
      refine ⟨(offers.map fun offer => offer.entry).foldr max 0, ?_⟩
      intro offer member
      exact List.le_max_of_le' 0 (List.mem_map_of_mem member) (le_refl offer.entry)
    obtain ⟨last, -, kept⟩ := exists_pathKept inOrder day offers [] (List.append_nil _).symm early
    rw [outcomes_until]
    exact kept.low_finish inOrder.last (date + 1)

/-! ## The scenario -/

theorem foldlM_takeRow {rows : List ReplayRow} {start last : Scenario}
    (ran : rows.foldlM (takeRow limits) start = .ok last) :
    ∃ offers, rows.mapM readRow = .ok offers ∧
      last = offers.foldl (Scenario.offer limits) start := by
  induction rows generalizing start with
  | nil =>
    cases ran
    exact ⟨[], rfl, rfl⟩
  | cons row rest ih =>
    obtain ⟨next, taken, ran⟩ := bind_eq_ok.mp ran
    obtain ⟨offer, read, taken⟩ := bind_eq_ok.mp taken
    cases taken
    obtain ⟨offers, readRest, isLast⟩ := ih ran
    exact ⟨offer :: offers, mapM_eq_ok.mpr (.cons read (mapM_eq_ok.mp readRest)), isLast⟩

/-- **The capital of every variant takes a chronological path where the run is in order.** -/
theorem capital_path_chronological {document : ReplayDocument}
    {capital maxTradeLoss maxOpenLoss : AmountField} {report : ScenarioReport}
    (accepted : simulate document capital maxTradeLoss maxOpenLoss = .ok report) {key : String}
    {summary : VariantSummary} (member : (key, summary) ∈ report.variants) :
    ∃ offers, (variantRows document key).mapM readRow = .ok offers ∧
      (RunInOrder report.spec offers →
        ChronologicalCapital report.spec offers summary.minimumClosedCapital) := by
  obtain ⟨-, accepted⟩ := refuse_bind_eq_ok.mp accepted
  obtain ⟨limits, -, accepted⟩ := bind_eq_ok.mp accepted
  obtain ⟨-, accepted⟩ := refuse_bind_eq_ok.mp accepted
  obtain ⟨variants, ran, same⟩ := bind_eq_ok.mp accepted
  cases same
  obtain ⟨name, -, ran⟩ := exists_of_mem_mapM ran member
  obtain ⟨last, walked, same⟩ := bind_eq_ok.mp ran
  cases same
  obtain ⟨offers, read, rfl⟩ := foldlM_takeRow walked
  exact ⟨offers, read, chronological_of_inOrder⟩

end Runs

/-! ## A loss behind a gain -/

def rowSample (name entry exit : String) (pnl : ℚ) : ReplayRow :=
  ⟨"xsmom_top3", "call_debit", name, entry, entry, exit, "2026-05-15",
    .text (some (.finite 200)), .text (some (.finite pnl))⟩

theorem variantSample_nodup : ["xsmom_top3/call_debit"].Nodup :=
  List.nodup_singleton _

def documentSample (rows : List ReplayRow) : ReplayDocument :=
  ⟨replaySchema, ["xsmom_top3/call_debit"], rows, variantSample_nodup⟩

def capitalSample : AmountField :=
  .text (some (.finite 5000))

def tradeSample : AmountField :=
  .text (some (.finite 300))

def openSample : AmountField :=
  .text (some (.finite 1500))

/-- A gain that exits on the eighth is admitted before a loss that exits on the seventh. -/
def gainFirst : List ReplayRow :=
  [rowSample "AAA" "2026-01-05" "2026-01-08" 100, rowSample "BBB" "2026-01-05" "2026-01-07" (-100),
    rowSample "CCC" "2026-01-09" "2026-01-12" 0]

def oneByOne : List ReplayRow :=
  [rowSample "AAA" "2026-01-05" "2026-01-08" 100, rowSample "CCC" "2026-01-09" "2026-01-12" (-50)]

def limitsSample : RiskLimits :=
  ⟨5000, 300, 1500⟩

def reportSample (considered : ℕ) (names : List String) (peak pnl minimum : ℚ) :
    ScenarioReport :=
  ⟨limitsSample, [("xsmom_top3/call_debit",
    ⟨considered, names.length, ⟨0, 0, 0⟩, names, peak, pnl, 5000 + pnl, minimum⟩)]⟩

def offersOf (rows : List ReplayRow) : List Offer :=
  (rows.mapM readRow).toOption.getD []

theorem samples_run :
    (simulate (documentSample gainFirst) capitalSample tradeSample openSample =
        .ok (reportSample 3 ["2026-01-05:AAA", "2026-01-05:BBB", "2026-01-09:CCC"] 400 0 5000) ∧
      (variantRows (documentSample gainFirst) "xsmom_top3/call_debit").mapM readRow =
        .ok (offersOf gainFirst) ∧
      outcomes ((admittedBy limitsSample (offersOf gainFirst)).filter
        fun other => other.exit ≤ 20460) = -100) ∧
    simulate (documentSample oneByOne) capitalSample tradeSample openSample =
        .ok (reportSample 2 ["2026-01-05:AAA", "2026-01-09:CCC"] 200 50 5000) ∧
      (variantRows (documentSample oneByOne) "xsmom_top3/call_debit").mapM readRow =
        .ok (offersOf oneByOne) ∧
      RunInOrder limitsSample (offersOf oneByOne) := by
  decide +kernel

theorem low_hides_early_loss :
    ¬ ∀ (document : ReplayDocument) (capital maxTradeLoss maxOpenLoss : AmountField)
      (report : ScenarioReport),
      simulate document capital maxTradeLoss maxOpenLoss = .ok report →
        ∀ key summary, (key, summary) ∈ report.variants →
          ∀ offers, (variantRows document key).mapM readRow = .ok offers →
            ChronologicalCapital report.spec offers summary.minimumClosedCapital := by
  intro chronological
  obtain ⟨accepted, read, early⟩ := samples_run.1
  have low := (chronological _ _ _ _ _ accepted _ _ List.mem_cons_self _ read).low 20460
  have isSpec : (reportSample 3 ["2026-01-05:AAA", "2026-01-05:BBB", "2026-01-09:CCC"]
      400 0 5000).spec = limitsSample := rfl
  rw [isSpec, early, limitsSample] at low
  norm_num at low

theorem capital_path_chronological_sample :
    ChronologicalCapital limitsSample (offersOf oneByOne) 5000 := by
  obtain ⟨accepted, read, inOrder⟩ := samples_run.2
  obtain ⟨offers, read', path⟩ := capital_path_chronological accepted List.mem_cons_self
  cases read.symm.trans read'
  exact path inOrder

end TreeOptions.Desk
