import TreeOptions.BarsManifest.Selection

/-!
# The ranks of the grid

Every contract that some master selects is listed once, as far as the cap allows. Its rank is the
number of nearer strikes that were picked for the same master and expiry, and not of those that the
master lists: a strike whose contracts were all picked for an earlier date leaves no trace
(`skipped_strike_shifts_rank`). So the ranks are those of the grid just where every strike that is
nearer than a listed one has a contract that was not selected before (`grid_coordinates`).
-/

set_option autoImplicit false

namespace TreeOptions.BarsManifest

open Checked Decimal

/-! ## What the manifest is for -/

/-- A row of a master is in the band of days, passes the filters and is among the strikes around the
spot. -/
structure InGrid (profile : SelectionProfile) (spot : String → ℤ → Option ℚ)
    (capture : MasterCapture) (row : MasterRow) (anchor : ℚ) (expiration : ℤ) : Prop where
  member : row ∈ capture.rows
  expires : dateFromIso row.expiration = some expiration
  inBand : profile.dteMin ≤ expiration - capture.asOf ∧ expiration - capture.asOf ≤ profile.dteMax
  wanted : profile.wantedExpiry expiration = true
  kind : row.kind ∈ profile.kinds
  anchored : spot capture.underlying capture.asOf = some anchor
  strike : row.strike.value ∈
    (rankedStrikes anchor (ladderOf profile capture.rows expiration)).take
      (2 * profile.strikeBand + 1)

section Manifest

variable (profile : SelectionProfile) (spot : String → ℤ → Option ℚ)
  (captures : List MasterCapture)

/-- The candidates without those whose contract was selected before. -/
def newOf (seen : List String) : List Candidate → List Candidate
  | [] => []
  | candidate :: rest =>
    if candidate.ticker ∈ seen then newOf seen rest
    else candidate :: newOf (seen ++ [candidate.ticker]) rest

def newCandidates : List Candidate :=
  newOf [] (candidates profile spot captures)

/-- The rank of an entry is that of its strike in the grid of its master and expiry. -/
def RankTrue (entry : BarsWorkEntry) : Prop :=
  ∃ capture ∈ captures, capture.underlying = entry.underlying ∧ capture.asOf = entry.asOf ∧
    ∃ anchor, spot capture.underlying capture.asOf = some anchor ∧
      entry.strike ∈ rankedStrikes anchor (ladderOf profile capture.rows entry.expiry) ∧
        entry.strikeRank =
          (rankedStrikes anchor (ladderOf profile capture.rows entry.expiry)).idxOf entry.strike

/-- Every contract of a grid is listed, unless the cap has cut it. -/
def GridListed (entries : List BarsWorkEntry) : Prop :=
  ∀ capture ∈ captures, ∀ row anchor expiration,
    InGrid profile spot capture row anchor expiration →
      row.ticker ∈ entries.map BarsWorkEntry.ticker ∨
        row.ticker ∈ ((newCandidates profile spot captures).drop profile.wanted).map
          Candidate.ticker

/-- The master and expiry of a candidate. -/
def Candidate.grid (candidate : Candidate) : String × ℤ × ℤ :=
  (candidate.underlying, candidate.asOf, candidate.expiration)

/-- Each strike that is nearer than that of a listed contract has a contract, too, that was not
selected before. -/
def NearerAreNew : Prop :=
  ∀ listed ∈ (newCandidates profile spot captures).take profile.wanted,
    ∀ anchor, spot listed.underlying listed.asOf = some anchor →
      ∀ nearer ∈ candidates profile spot captures, nearer.grid = listed.grid →
        strikeKey anchor nearer.strike < strikeKey anchor listed.strike →
          ∃ fresh ∈ newCandidates profile spot captures, fresh.grid = listed.grid ∧
            fresh.strike = nearer.strike

end Manifest

structure Consistent (captures : List MasterCapture) : Prop where
  distinct : (captures.map fun capture => (capture.underlying, capture.asOf)).Nodup
  contracts : ∀ capture ∈ captures, ∀ row ∈ capture.rows, ∀ capture' ∈ captures,
    ∀ row' ∈ capture'.rows, row.ticker = row'.ticker →
      capture.underlying = capture'.underlying ∧ row.expiration = row'.expiration ∧
        row.strike.value = row'.strike.value ∧ row.kind = row'.kind
  digits : ∀ capture ∈ captures, ∀ row ∈ capture.rows, row.strike.written = row.strike.value

/-! ## Candidates -/

section Candidates

variable {profile : SelectionProfile} {spot : String → ℤ → Option ℚ}
  {captures : List MasterCapture}

theorem strikeKey_injective (anchor : ℚ) : Function.Injective (strikeKey anchor) := by
  intro first second same
  exact (Prod.mk.inj (toLex.injective same)).2

theorem rankedStrikes_strict (anchor : ℚ) (ladder : List MasterRow) :
    (rankedStrikes anchor ladder).Pairwise fun nearer farther =>
      strikeKey anchor nearer < strikeKey anchor farther := by
  have distinct : (rankedStrikes anchor ladder).Pairwise fun first second => first ≠ second :=
    ((sortedBy_perm _ _).nodup_iff).mpr (nodup_firstSeen _)
  refine (distinct.and (pairwise_sortedBy (strikeKey anchor) _)).imp ?_
  rintro first second ⟨unequal, below⟩
  exact lt_of_le_of_ne below fun same => unequal (strikeKey_injective anchor same)

variable {capture : MasterCapture} {candidate : Candidate}

theorem mem_expiryCandidates {anchor : ℚ} {expiration : ℤ} :
    candidate ∈ expiryCandidates profile capture anchor expiration ↔
      ∃ row ∈ ladderOf profile capture.rows expiration,
        row.strike.value ∈ (rankedStrikes anchor (ladderOf profile capture.rows expiration)).take
            (2 * profile.strikeBand + 1) ∧
          candidate = ⟨row.ticker, capture.underlying, capture.asOf, expiration,
            row.strike.value⟩ := by
  rw [expiryCandidates, List.mem_flatMap]
  constructor
  · rintro ⟨strike, inBand, member⟩
    obtain ⟨row, isRow, rfl⟩ := List.mem_map.mp member
    rw [strikeRows, mem_sortedBy, List.mem_filter, decide_eq_true_iff] at isRow
    obtain ⟨inLadder, rfl⟩ := isRow
    exact ⟨row, inLadder, inBand, rfl⟩
  · rintro ⟨row, inLadder, inBand, rfl⟩
    refine ⟨row.strike.value, inBand, List.mem_map.mpr ⟨row, ?_, rfl⟩⟩
    rw [strikeRows, mem_sortedBy, List.mem_filter, decide_eq_true_iff]
    exact ⟨inLadder, rfl⟩

theorem mem_gridExpirations {expiration : ℤ} :
    expiration ∈ gridExpirations profile capture ↔
      (∃ row ∈ capture.rows, dateFromIso row.expiration = some expiration) ∧
        (profile.dteMin ≤ expiration - capture.asOf ∧
          expiration - capture.asOf ≤ profile.dteMax) ∧
        profile.wantedExpiry expiration = true := by
  rw [gridExpirations, bandExpirations, List.mem_filter, mem_sortedBy, List.mem_filter,
    mem_firstSeen, List.mem_filterMap, Bool.and_eq_true, decide_eq_true_iff, decide_eq_true_iff,
    and_assoc]

/-- **The candidates are the rows of the grids.** -/
theorem mem_candidates :
    candidate ∈ candidates profile spot captures ↔
      ∃ capture ∈ captures, ∃ row anchor expiration,
        InGrid profile spot capture row anchor expiration ∧
          candidate = ⟨row.ticker, capture.underlying, capture.asOf, expiration,
            row.strike.value⟩ := by
  rw [candidates, List.mem_flatMap]
  constructor
  · rintro ⟨capture, isCapture, member⟩
    rw [captureCandidates] at member
    split at member
    case h_1 anchor anchored =>
      obtain ⟨expiration, inGrid, member⟩ := List.mem_flatMap.mp member
      obtain ⟨-, inBand, wanted⟩ := mem_gridExpirations.mp inGrid
      obtain ⟨row, inLadder, strike, rfl⟩ := mem_expiryCandidates.mp member
      rw [ladderOf, List.mem_filter, Bool.and_eq_true, decide_eq_true_iff, decide_eq_true_iff]
        at inLadder
      exact ⟨capture, mem_sortedBy.mp isCapture, row, anchor, expiration,
        ⟨inLadder.1, inLadder.2.1, inBand, wanted, inLadder.2.2, anchored, strike⟩, rfl⟩
    case h_2 => cases member
  · rintro ⟨capture, isCapture, row, anchor, expiration, inGrid, rfl⟩
    refine ⟨capture, mem_sortedBy.mpr isCapture, ?_⟩
    rw [captureCandidates, inGrid.anchored]
    refine List.mem_flatMap.mpr ⟨expiration, mem_gridExpirations.mpr
      ⟨⟨row, inGrid.member, inGrid.expires⟩, inGrid.inBand, inGrid.wanted⟩, ?_⟩
    refine mem_expiryCandidates.mpr ⟨row, ?_, inGrid.strike, rfl⟩
    rw [ladderOf, List.mem_filter, Bool.and_eq_true, decide_eq_true_iff, decide_eq_true_iff]
    exact ⟨inGrid.member, inGrid.expires, inGrid.kind⟩

/-- The distance from the spot of its date. -/
def Candidate.key (spot : String → ℤ → Option ℚ) (candidate : Candidate) : ℚ ×ₗ ℚ :=
  strikeKey ((spot candidate.underlying candidate.asOf).getD 0) candidate.strike

theorem expiryCandidates_sorted {anchor : ℚ}
    (anchored : spot capture.underlying capture.asOf = some anchor) (expiration : ℤ) :
    (expiryCandidates profile capture anchor expiration).Pairwise fun nearer farther =>
      nearer.key spot ≤ farther.key spot := by
  rw [expiryCandidates, List.pairwise_flatMap]
  constructor
  · intro strike _
    rw [List.pairwise_map]
    exact List.pairwise_of_forall fun _ _ => le_refl _
  · refine ((rankedStrikes_strict anchor _).take).imp ?_
    intro nearer farther less first isFirst second isSecond
    obtain ⟨row, -, rfl⟩ := List.mem_map.mp isFirst
    obtain ⟨row', -, rfl⟩ := List.mem_map.mp isSecond
    rw [Candidate.key, Candidate.key, anchored]
    exact less.le

/-- **Within a grid the candidates come by their distance.** -/
theorem candidates_sorted
    (distinct : (captures.map fun capture => (capture.underlying, capture.asOf)).Nodup) :
    (candidates profile spot captures).Pairwise fun nearer farther =>
      nearer.grid = farther.grid → nearer.key spot ≤ farther.key spot := by
  rw [candidates, List.pairwise_flatMap]
  constructor
  · intro capture _
    rw [captureCandidates]
    split
    case h_1 anchor anchored =>
      rw [List.pairwise_flatMap]
      constructor
      · intro expiration _
        refine (expiryCandidates_sorted anchored expiration).imp ?_
        intro nearer farther ordered _
        exact ordered
      · have unequal : (gridExpirations profile capture).Nodup := by
          rw [gridExpirations, bandExpirations]
          exact ((((sortedBy_perm id _).nodup_iff).mpr ((nodup_firstSeen _).filter _))).filter _
        refine unequal.imp ?_
        intro first second different candidate isFirst candidate' isSecond same
        obtain ⟨row, -, -, rfl⟩ := mem_expiryCandidates.mp isFirst
        obtain ⟨row', -, -, rfl⟩ := mem_expiryCandidates.mp isSecond
        exact absurd (Prod.mk.inj (Prod.mk.inj same).2).2 different
    case h_2 => exact .nil
  · have unequal : (sortedBy MasterCapture.order captures).Pairwise fun first second =>
        (first.underlying, first.asOf) ≠ (second.underlying, second.asOf) := by
      rw [← List.pairwise_map]
      exact (((sortedBy_perm MasterCapture.order captures).map _).nodup_iff).mpr distinct
    refine unequal.imp ?_
    intro first second different candidate isFirst candidate' isSecond same
    have ofCapture : ∀ {capture : MasterCapture} {candidate : Candidate},
        candidate ∈ captureCandidates profile spot capture →
          candidate.underlying = capture.underlying ∧ candidate.asOf = capture.asOf := by
      intro capture candidate member
      rw [captureCandidates] at member
      split at member
      case h_1 =>
        obtain ⟨expiration, -, member⟩ := List.mem_flatMap.mp member
        obtain ⟨row, -, -, rfl⟩ := mem_expiryCandidates.mp member
        exact ⟨rfl, rfl⟩
      case h_2 => cases member
    obtain ⟨ofFirst, onFirst⟩ := ofCapture isFirst
    obtain ⟨ofSecond, onSecond⟩ := ofCapture isSecond
    refine absurd (Prod.ext ?_ ?_) different
    · exact ofFirst.symm.trans ((Prod.mk.inj same).1.trans ofSecond)
    · exact onFirst.symm.trans ((Prod.mk.inj (Prod.mk.inj same).2).1.trans onSecond)

/-! ## New candidates -/

theorem newOf_sublist (seen : List String) (all : List Candidate) :
    (newOf seen all).Sublist all := by
  induction all generalizing seen with
  | nil => exact .slnil
  | cons candidate rest ih =>
    rw [newOf]
    split
    case isTrue => exact (ih seen).cons candidate
    case isFalse => exact (ih _).cons_cons candidate

theorem notMem_seen {seen : List String} {all : List Candidate}
    (member : candidate ∈ newOf seen all) : candidate.ticker ∉ seen := by
  induction all generalizing seen with
  | nil => cases member
  | cons first rest ih =>
    rw [newOf] at member
    split at member
    case isTrue => exact ih member
    case isFalse new =>
      rcases List.mem_cons.mp member with rfl | later
      · exact new
      · exact fun before => ih later (List.mem_append_left _ before)

theorem nodup_newOf (seen : List String) (all : List Candidate) :
    ((newOf seen all).map Candidate.ticker).Nodup := by
  induction all generalizing seen with
  | nil => exact .nil
  | cons candidate rest ih =>
    rw [newOf]
    split
    case isTrue => exact ih seen
    case isFalse =>
      rw [List.map_cons, List.nodup_cons]
      refine ⟨?_, ih _⟩
      intro again
      obtain ⟨other, member, same⟩ := List.mem_map.mp again
      exact notMem_seen member (List.mem_append_right _ (List.mem_singleton.mpr same))

theorem ticker_mem_newOf {seen : List String} {all : List Candidate} {candidate : Candidate}
    (member : candidate ∈ all) :
    candidate.ticker ∈ seen ∨ candidate.ticker ∈ (newOf seen all).map Candidate.ticker := by
  induction all generalizing seen with
  | nil => cases member
  | cons first rest ih =>
    rw [newOf]
    split
    case isTrue before =>
      rcases List.mem_cons.mp member with rfl | later
      · exact .inl before
      · exact ih later
    case isFalse =>
      rw [List.map_cons]
      rcases List.mem_cons.mp member with rfl | later
      · exact .inr List.mem_cons_self
      · rcases ih later with before | after
        · rcases List.mem_append.mp before with before | same
          · exact .inl before
          · exact .inr (by rw [List.mem_singleton.mp same]; exact List.mem_cons_self)
        · exact .inr (List.mem_cons_of_mem _ after)

def Candidate.pick (candidate : Candidate) : Pick :=
  ⟨candidate.ticker, candidate.asOf, candidate.expiration⟩

/-- **What is picked are the new candidates.** -/
theorem picks_foldl (state : Selecting) (all : List Candidate) :
    (all.foldl takeCandidate state).picks =
      state.picks ++ (newOf state.seen all).map Candidate.pick := by
  induction all generalizing state with
  | nil => exact (List.append_nil _).symm
  | cons candidate rest ih =>
    rw [List.foldl_cons, ih, takeCandidate, newOf]
    split
    case isTrue => rfl
    case isFalse =>
      rw [List.map_cons, List.append_assoc, List.singleton_append]
      rfl

variable (profile spot captures) in
def listedCandidates : List Candidate :=
  (newCandidates profile spot captures).take profile.wanted

theorem selected_eq (profile : SelectionProfile) (spot : String → ℤ → Option ℚ)
    (captures : List MasterCapture) :
    (selectAtmGridBars profile spot captures).1 =
      (listedCandidates profile spot captures).map Candidate.pick := by
  rw [selectAtmGridBars, picks_foldl, List.nil_append, listedCandidates, List.map_take,
    newCandidates]

end Candidates

/-! ## Entries -/

def BarsWorkEntry.grid (entry : BarsWorkEntry) : String × ℤ × ℤ :=
  (entry.underlying, entry.asOf, entry.expiry)

structure EntryOf (captures : List MasterCapture) (pick : Pick) (entry : BarsWorkEntry) : Prop where
  ticker : entry.ticker = pick.ticker
  asOf : entry.asOf = pick.asOf
  expiry : entry.expiry = pick.expiration
  listed : ∃ listed, tickerIndex captures pick.ticker = some listed ∧
    entry.underlying = listed.underlying ∧ entry.strike = listed.strike

/-- What is kept while entries are made: the ladder of a grid has its strikes in the order of their
first pick, and each entry has its place in it. -/
structure RankingKept (captures : List MasterCapture) (picks : List Pick) (state : Ranking) :
    Prop where
  entries : List.Forall₂ (EntryOf captures) picks state.entries
  ranks : ∀ grid, state.ranks grid =
    firstSeen ((state.entries.filter fun entry => entry.grid = grid).map BarsWorkEntry.strike)
  places : ∀ entry ∈ state.entries, entry.strikeRank = (state.ranks entry.grid).idxOf entry.strike

theorem firstSeen_withStrike (strikes : List ℚ) (strike : ℚ) :
    firstSeen (strikes ++ [strike]) = withStrike (firstSeen strikes) strike :=
  firstSeen_append_singleton strikes strike

theorem idxOf_withStrike {ladder : List ℚ} {strike : ℚ} (other : ℚ) (member : strike ∈ ladder) :
    (withStrike ladder other).idxOf strike = ladder.idxOf strike := by
  rw [withStrike]
  split
  case isTrue => rfl
  case isFalse => exact List.idxOf_append_of_mem member

variable {captures : List MasterCapture} {picks : List Pick}

theorem RankingKept.strike_mem {state : Ranking} (kept : RankingKept captures picks state)
    {entry : BarsWorkEntry} (member : entry ∈ state.entries) :
    entry.strike ∈ state.ranks entry.grid := by
  rw [kept.ranks, mem_firstSeen]
  exact List.mem_map_of_mem (List.mem_filter.mpr ⟨member, decide_eq_true rfl⟩)

def entryOf (listed : RowMeta) (pick : Pick) (ladder : List ℚ) (side : Side) : BarsWorkEntry :=
  ⟨listed.underlying, pick.asOf, pick.expiration, listed.strike, ladder.idxOf listed.strike, side,
    pick.ticker⟩

theorem entryOf_grid (listed : RowMeta) (pick : Pick) (ladder : List ℚ) (side : Side) :
    (entryOf listed pick ladder side).grid = (listed.underlying, pick.asOf, pick.expiration) :=
  rfl

/-- **What one pick does.** -/
theorem of_enterPick {pick : Pick} {state next : Ranking}
    (entered : enterPick captures state pick = .ok next) :
    ∃ listed side, tickerIndex captures pick.ticker = some listed ∧
      next.ranks = Function.update state.ranks (listed.underlying, pick.asOf, pick.expiration)
        (withStrike (state.ranks (listed.underlying, pick.asOf, pick.expiration)) listed.strike) ∧
      next.entries = state.entries ++ [entryOf listed pick (withStrike
        (state.ranks (listed.underlying, pick.asOf, pick.expiration)) listed.strike) side] := by
  obtain ⟨listed, isListed, entered⟩ := bind_eq_ok.mp entered
  obtain ⟨-, entered⟩ := refuse_bind_eq_ok.mp entered
  obtain ⟨side, -, entered⟩ := bind_eq_ok.mp entered
  cases entered
  rw [metaOf] at isListed
  split at isListed
  case h_1 found =>
    cases isListed
    exact ⟨listed, side, found, rfl, rfl⟩
  case h_2 => cases isListed

theorem strikes_singleton (entry : BarsWorkEntry) (grid : String × ℤ × ℤ) :
    ([entry].filter fun other => other.grid = grid).map BarsWorkEntry.strike =
      if entry.grid = grid then [entry.strike] else [] := by
  by_cases same : entry.grid = grid
  · simp [same]
  · simp [same]

/-- **Each pick keeps the ranking.** -/
theorem RankingKept.step {pick : Pick} {state next : Ranking}
    (kept : RankingKept captures picks state) (entered : enterPick captures state pick = .ok next) :
    RankingKept captures (picks ++ [pick]) next := by
  obtain ⟨listed, side, indexed, ranks, entries⟩ := of_enterPick entered
  refine ⟨?_, ?_, ?_⟩
  · rw [entries]
    exact List.rel_append kept.entries (.cons ⟨rfl, rfl, rfl, listed, indexed, rfl, rfl⟩ .nil)
  · intro grid
    rw [ranks, entries, List.filter_append, List.map_append]
    by_cases same : (listed.underlying, pick.asOf, pick.expiration) = grid
    · subst same
      rw [Function.update_self, strikes_singleton, entryOf_grid, if_pos rfl,
        firstSeen_withStrike, kept.ranks]
      rfl
    · have other : ¬ grid = (listed.underlying, pick.asOf, pick.expiration) := fun h => same h.symm
      rw [Function.update_of_ne other, strikes_singleton, entryOf_grid, if_neg same,
        List.append_nil, kept.ranks]
  · rw [ranks, entries]
    intro entry member
    rcases List.mem_append.mp member with earlier | new
    · rw [kept.places entry earlier]
      by_cases same : entry.grid = (listed.underlying, pick.asOf, pick.expiration)
      · have inside := kept.strike_mem earlier
        rw [same] at inside ⊢
        rw [Function.update_self, idxOf_withStrike _ inside]
      · rw [Function.update_of_ne same]
    · rw [List.mem_singleton.mp new, entryOf_grid, Function.update_self]
      rfl

theorem rankingKept {last : Ranking}
    (ran : picks.foldlM (enterPick captures) ⟨fun _ => [], []⟩ = .ok last) :
    RankingKept captures picks last := by
  have started : RankingKept captures [] ⟨fun _ => [], []⟩ := by
    refine ⟨.nil, fun _ => rfl, ?_⟩
    intro entry member
    cases member
  have kept := foldlM_invariant (RankingKept captures)
    (fun _ _ _ _ before entered => before.step entered) started ran
  exact kept

/-! ## The manifest -/

section Built

variable {profile : SelectionProfile} {spot : String → ℤ → Option ℚ}
  {captures : List MasterCapture} {asOfMin : Option ℤ} {manifest : BarsWorkManifest}

/-- **What a manifest was built of.** -/
theorem of_built (built : buildBarsWorkManifest profile spot captures asOfMin = .ok manifest) :
    ∃ ranking, RankingKept captures
        ((listedCandidates profile spot (windowed asOfMin captures)).map Candidate.pick) ranking ∧
      manifest.entries = sortedBy BarsWorkEntry.order ranking.entries := by
  obtain ⟨-, built⟩ := refuse_bind_eq_ok.mp built
  obtain ⟨entries, made, built⟩ := bind_eq_ok.mp built
  obtain ⟨-, built⟩ := refuse_bind_eq_ok.mp built
  obtain ⟨ranking, ran, same⟩ := bind_eq_ok.mp made
  cases same
  cases built
  refine ⟨ranking, ?_, rfl⟩
  rw [← selected_eq]
  exact rankingKept ran

variable {ranking : Ranking}

theorem RankingKept.tickers {picks : List Pick} (kept : RankingKept captures picks ranking) :
    ranking.entries.map BarsWorkEntry.ticker = picks.map Pick.ticker := by
  have each := kept.entries
  clear kept
  generalize ranking.entries = entries at each
  induction each with
  | nil => rfl
  | @cons pick entry picks entries first rest ih =>
    rw [List.map_cons, List.map_cons, first.ticker, ih]

section

variable (built : buildBarsWorkManifest profile spot captures asOfMin = .ok manifest)

include built

theorem tickers_of_built :
    (manifest.entries.map BarsWorkEntry.ticker).Perm
      ((listedCandidates profile spot (windowed asOfMin captures)).map Candidate.ticker) := by
  obtain ⟨ranking, kept, isSorted⟩ := of_built built
  have tickers := kept.tickers
  rw [List.map_map] at tickers
  rw [isSorted]
  exact ((sortedBy_perm BarsWorkEntry.order ranking.entries).map _).trans (.of_eq tickers)

/-- **Every ticker is listed once.** -/
theorem tickers_nodup : (manifest.entries.map BarsWorkEntry.ticker).Nodup := by
  refine ((tickers_of_built built).nodup_iff).mpr ?_
  rw [listedCandidates, List.map_take]
  exact (nodup_newOf [] _).sublist (List.take_sublist _ _)

/-- **Every contract of a grid is listed unless the cap cut it.** -/
theorem grid_listed : GridListed profile spot (windowed asOfMin captures) manifest.entries := by
  intro capture isCapture row anchor expiration inGrid
  have member := mem_candidates.mpr ⟨capture, isCapture, row, anchor, expiration, inGrid, rfl⟩
  rcases @ticker_mem_newOf [] _ _ member with before | new
  · cases before
  · rw [(tickers_of_built built).mem_iff, listedCandidates]
    have split := List.take_append_drop profile.wanted
      (newCandidates profile spot (windowed asOfMin captures))
    rw [← newCandidates, ← split, List.map_append, List.mem_append] at new
    exact new

end

def BarsWorkEntry.candidate (entry : BarsWorkEntry) : Candidate :=
  ⟨entry.ticker, entry.underlying, entry.asOf, entry.expiry, entry.strike⟩

variable {capture : MasterCapture}

theorem Consistent.tickerIndex (consistent : Consistent captures) (isCapture : capture ∈ captures)
    {row : MasterRow} (isRow : row ∈ capture.rows) {listed : RowMeta}
    (found : tickerIndex captures row.ticker = some listed) :
    listed.underlying = capture.underlying ∧ listed.strike = row.strike.value := by
  obtain ⟨⟨underlying, other⟩, last, rfl⟩ := Option.map_eq_some_iff.mp found
  obtain ⟨member, sameTicker⟩ := List.mem_filter.mp (List.mem_of_getLast? last)
  obtain ⟨capture', isCapture', member⟩ := List.mem_flatMap.mp member
  obtain ⟨row', isRow', same⟩ := List.mem_map.mp member
  cases same
  obtain ⟨sameUnderlying, -, sameStrike, -⟩ := consistent.contracts capture' isCapture' other isRow'
    capture isCapture row isRow (of_decide_eq_true sameTicker)
  exact ⟨sameUnderlying, (consistent.digits capture' isCapture' other isRow').trans sameStrike⟩

theorem mem_windowed (member : capture ∈ windowed asOfMin captures) : capture ∈ captures :=
  List.mem_of_mem_filter member

theorem entries_candidates (consistent : Consistent captures) (kept : RankingKept captures
      ((listedCandidates profile spot (windowed asOfMin captures)).map Candidate.pick) ranking) :
    ranking.entries.map BarsWorkEntry.candidate =
      listedCandidates profile spot (windowed asOfMin captures) := by
  have each := kept.entries
  clear kept
  rw [List.forall₂_map_left_iff] at each
  have known : ∀ candidate ∈ listedCandidates profile spot (windowed asOfMin captures),
      candidate ∈ candidates profile spot (windowed asOfMin captures) := by
    intro candidate member
    exact (newOf_sublist [] _).subset (List.mem_of_mem_take member)
  generalize listedCandidates profile spot (windowed asOfMin captures) = listed at each known
  generalize ranking.entries = entries at each
  induction each with
  | nil => rfl
  | @cons candidate entry listed entries first rest ih =>
    obtain ⟨capture, isCapture, row, anchor, expiration, inGrid, rfl⟩ :=
      mem_candidates.mp (known candidate List.mem_cons_self)
    obtain ⟨found, indexed, underlying, strike⟩ := first.listed
    obtain ⟨sameUnderlying, sameStrike⟩ :=
      consistent.tickerIndex (mem_windowed isCapture) inGrid.member indexed
    have same : entry.candidate = ⟨row.ticker, capture.underlying, capture.asOf, expiration,
        row.strike.value⟩ := by
      rw [BarsWorkEntry.candidate, first.ticker, first.asOf, first.expiry, underlying,
        sameUnderlying, strike, sameStrike]
      rfl
    rw [List.map_cons, same, ih (List.forall_mem_cons.mp known).2]

/-- The strikes of a grid that are listed, in the order of the picks. -/
def listedStrikes (profile : SelectionProfile) (spot : String → ℤ → Option ℚ)
    (captures : List MasterCapture) (grid : String × ℤ × ℤ) : List ℚ :=
  firstSeen (((listedCandidates profile spot captures).filter fun candidate =>
    candidate.grid = grid).map Candidate.strike)

variable {grid : String × ℤ × ℤ} {strike : ℚ}

theorem mem_listedStrikes : strike ∈ listedStrikes profile spot captures grid ↔
      ∃ candidate ∈ listedCandidates profile spot captures, candidate.grid = grid ∧
        candidate.strike = strike := by
  rw [listedStrikes, mem_firstSeen, List.mem_map]
  simp [and_assoc]

theorem ranks_eq (consistent : Consistent captures) (kept : RankingKept captures
      ((listedCandidates profile spot (windowed asOfMin captures)).map Candidate.pick) ranking)
    (grid : String × ℤ × ℤ) :
    ranking.ranks grid = listedStrikes profile spot (windowed asOfMin captures) grid := by
  rw [kept.ranks, listedStrikes, ← entries_candidates consistent kept, List.filter_map,
    List.map_map]
  rfl

variable {candidate : Candidate}

theorem mem_candidates_of_listed (member : candidate ∈ listedCandidates profile spot captures) :
    candidate ∈ candidates profile spot captures :=
  (newOf_sublist [] _).subset (List.mem_of_mem_take member)

theorem newCandidates_sorted
    (distinct : (captures.map fun capture => (capture.underlying, capture.asOf)).Nodup) :
    (newCandidates profile spot captures).Pairwise fun nearer farther =>
      nearer.grid = farther.grid → nearer.key spot ≤ farther.key spot :=
  (candidates_sorted distinct).sublist (newOf_sublist [] _)

variable {anchor : ℚ}

theorem key_eq (anchored : spot grid.1 grid.2.1 = some anchor) (same : candidate.grid = grid) :
    candidate.key spot = strikeKey anchor candidate.strike := by
  subst same
  rw [Candidate.grid] at anchored
  rw [Candidate.key, anchored]
  rfl

theorem listedStrikes_strict
    (distinct : (captures.map fun capture => (capture.underlying, capture.asOf)).Nodup)
    (anchored : spot grid.1 grid.2.1 = some anchor) :
    (listedStrikes profile spot captures grid).Pairwise fun nearer farther =>
      strikeKey anchor nearer < strikeKey anchor farther := by
  have ordered : (((listedCandidates profile spot captures).filter fun candidate =>
      candidate.grid = grid).map Candidate.strike).Pairwise fun nearer farther =>
        strikeKey anchor nearer ≤ strikeKey anchor farther := by
    rw [List.pairwise_map]
    have sorted := ((@newCandidates_sorted profile spot captures distinct).sublist
      (List.take_sublist profile.wanted _)).filter fun candidate => candidate.grid = grid
    refine sorted.imp_of_mem ?_
    intro nearer farther isNearer isFarther inOrder
    have nearerGrid := of_decide_eq_true (List.mem_filter.mp isNearer).2
    have fartherGrid := of_decide_eq_true (List.mem_filter.mp isFarther).2
    have ordered := inOrder (nearerGrid.trans fartherGrid.symm)
    rwa [key_eq anchored nearerGrid, key_eq anchored fartherGrid] at ordered
  have distinctStrikes : (listedStrikes profile spot captures grid).Pairwise
      fun first second => first ≠ second := nodup_firstSeen _
  refine (distinctStrikes.and (ordered.sublist (firstSeen_sublist _))).imp ?_
  rintro nearer farther ⟨unequal, below⟩
  exact lt_of_le_of_ne below fun same => unequal (strikeKey_injective anchor same)

theorem mem_take_of_grid
    (distinct : (captures.map fun capture => (capture.underlying, capture.asOf)).Nodup)
    (isCapture : capture ∈ captures) (anchored : spot capture.underlying capture.asOf = some anchor)
    {expiration : ℤ} (member : candidate ∈ candidates profile spot captures)
    (sameGrid : candidate.grid = (capture.underlying, capture.asOf, expiration)) :
    candidate.strike ∈ (rankedStrikes anchor (ladderOf profile capture.rows expiration)).take
      (2 * profile.strikeBand + 1) := by
  obtain ⟨capture', isCapture', row, anchor', expiration', inGrid, rfl⟩ := mem_candidates.mp member
  obtain ⟨underlying, rest⟩ := Prod.mk.inj sameGrid
  obtain ⟨asOf, expires⟩ := Prod.mk.inj rest
  obtain rfl : capture' = capture :=
    List.inj_on_of_nodup_map distinct isCapture' isCapture (Prod.ext underlying asOf)
  obtain rfl : expiration' = expiration := expires
  cases anchored.symm.trans inGrid.anchored
  exact inGrid.strike

theorem exists_candidate (isCapture : capture ∈ captures) {row : MasterRow} {expiration : ℤ}
    (inGrid : InGrid profile spot capture row anchor expiration)
    (near : strike ∈ (rankedStrikes anchor (ladderOf profile capture.rows expiration)).take
      (2 * profile.strikeBand + 1)) : ∃ candidate ∈ candidates profile spot captures,
      candidate.grid = (capture.underlying, capture.asOf, expiration) ∧
        candidate.strike = strike := by
  have ranked := List.mem_of_mem_take near
  rw [rankedStrikes, mem_sortedBy, mem_firstSeen] at ranked
  obtain ⟨other, inLadder, rfl⟩ := List.mem_map.mp ranked
  rw [ladderOf, List.mem_filter, Bool.and_eq_true, decide_eq_true_iff, decide_eq_true_iff]
    at inLadder
  refine ⟨_, mem_candidates.mpr ⟨capture, isCapture, other, anchor, expiration,
    ⟨inLadder.1, inLadder.2.1, inGrid.inBand, inGrid.wanted, inLadder.2.2, inGrid.anchored,
      near⟩, rfl⟩, rfl, rfl⟩

theorem mem_take_of_nearer {ladder : List MasterRow} {count : ℕ} {nearer : ℚ}
    (near : strike ∈ (rankedStrikes anchor ladder).take count)
    (ranked : nearer ∈ rankedStrikes anchor ladder)
    (less : strikeKey anchor nearer < strikeKey anchor strike) :
    nearer ∈ (rankedStrikes anchor ladder).take count := by
  have strict := rankedStrikes_strict anchor ladder
  rw [← List.take_append_drop count (rankedStrikes anchor ladder)] at strict ranked
  rcases List.mem_append.mp ranked with first | later
  · exact first
  · exact absurd ((List.pairwise_append.mp strict).2.2 strike near nearer later) less.not_gt

/-- **The rank of an entry is true just where each nearer strike has a new contract.** -/
theorem rankTrue_iff (consistent : Consistent captures) (kept : RankingKept captures
      ((listedCandidates profile spot (windowed asOfMin captures)).map Candidate.pick) ranking)
    {entry : BarsWorkEntry} (isEntry : entry ∈ ranking.entries) :
    RankTrue profile spot (windowed asOfMin captures) entry ↔
      ∀ anchor, spot entry.underlying entry.asOf = some anchor →
        ∀ nearer ∈ candidates profile spot (windowed asOfMin captures),
          nearer.grid = entry.candidate.grid →
            strikeKey anchor nearer.strike < strikeKey anchor entry.strike →
              ∃ fresh ∈ newCandidates profile spot (windowed asOfMin captures),
                fresh.grid = entry.candidate.grid ∧ fresh.strike = nearer.strike := by
  have distinct : ((windowed asOfMin captures).map fun capture =>
      (capture.underlying, capture.asOf)).Nodup :=
    consistent.distinct.sublist (List.filter_sublist.map _)
  have isListed : entry.candidate ∈ listedCandidates profile spot (windowed asOfMin captures) := by
    rw [← entries_candidates consistent kept]
    exact List.mem_map_of_mem isEntry
  obtain ⟨capture, isCapture, row, anchor, expiration, inGrid, isCandidate⟩ :=
    mem_candidates.mp (mem_candidates_of_listed isListed)
  have underlying : entry.underlying = capture.underlying :=
    congrArg Candidate.underlying isCandidate
  have asOf : entry.asOf = capture.asOf := congrArg Candidate.asOf isCandidate
  have expiry : entry.expiry = expiration := congrArg Candidate.expiration isCandidate
  have grid : entry.candidate.grid = (capture.underlying, capture.asOf, expiration) :=
    congrArg Candidate.grid isCandidate
  have near : entry.strike ∈
      (rankedStrikes anchor (ladderOf profile capture.rows expiration)).take
        (2 * profile.strikeBand + 1) :=
    mem_take_of_grid distinct isCapture inGrid.anchored (mem_candidates_of_listed isListed) grid
  have place : entry.strikeRank = (listedStrikes profile spot (windowed asOfMin captures)
      (capture.underlying, capture.asOf, expiration)).idxOf entry.strike := by
    rw [kept.places entry isEntry, ranks_eq consistent kept, ← grid]
    rfl
  have own : RankTrue profile spot (windowed asOfMin captures) entry ↔
      entry.strikeRank =
        (rankedStrikes anchor (ladderOf profile capture.rows expiration)).idxOf entry.strike := by
    constructor
    · rintro ⟨capture', isCapture', underlying', asOf', anchor', anchored', -, isRank⟩
      obtain rfl : capture' = capture := List.inj_on_of_nodup_map distinct isCapture' isCapture
        (Prod.ext (underlying'.trans underlying) (asOf'.trans asOf))
      cases anchored'.symm.trans inGrid.anchored
      rw [expiry] at isRank
      exact isRank
    · intro isRank
      refine ⟨capture, isCapture, underlying.symm, asOf.symm, anchor, inGrid.anchored, ?_, ?_⟩
      · rw [expiry]
        exact List.mem_of_mem_take near
      · rw [expiry]
        exact isRank
  have inside : listedStrikes profile spot (windowed asOfMin captures)
      (capture.underlying, capture.asOf, expiration) ⊆
        rankedStrikes anchor (ladderOf profile capture.rows expiration) := by
    intro strike member
    obtain ⟨candidate, isListed', sameGrid, rfl⟩ := mem_listedStrikes.mp member
    exact List.mem_of_mem_take (mem_take_of_grid distinct isCapture inGrid.anchored
      (mem_candidates_of_listed isListed') sameGrid)
  have member : entry.strike ∈ listedStrikes profile spot (windowed asOfMin captures)
      (capture.underlying, capture.asOf, expiration) :=
    mem_listedStrikes.mpr ⟨entry.candidate, isListed, grid, rfl⟩
  rw [own, place, idxOf_eq_iff (listedStrikes_strict distinct inGrid.anchored)
    (rankedStrikes_strict anchor _) inside member, underlying, asOf, grid]
  constructor
  · intro complete anchor' anchored' nearer isNearer sameGrid less
    cases anchored'.symm.trans inGrid.anchored
    have ranked := List.mem_of_mem_take
      (mem_take_of_grid distinct isCapture inGrid.anchored isNearer sameGrid)
    obtain ⟨fresh, isFresh, freshGrid, sameStrike⟩ :=
      mem_listedStrikes.mp (complete nearer.strike ranked less)
    exact ⟨fresh, List.mem_of_mem_take isFresh, freshGrid, sameStrike⟩
  · intro new strike ranked less
    obtain ⟨nearer, isNearer, sameGrid, rfl⟩ :=
      exists_candidate isCapture inGrid (mem_take_of_nearer near ranked less)
    obtain ⟨fresh, isFresh, freshGrid, sameStrike⟩ :=
      new anchor inGrid.anchored nearer isNearer sameGrid less
    -- a new candidate that is nearer comes before the listed one, so the cap keeps it, too
    have sorted := @newCandidates_sorted profile spot (windowed asOfMin captures) distinct
    rw [← List.take_append_drop profile.wanted
      (newCandidates profile spot (windowed asOfMin captures))] at sorted isFresh
    refine mem_listedStrikes.mpr ⟨fresh, ?_, freshGrid, sameStrike⟩
    rcases List.mem_append.mp isFresh with first | later
    · exact first
    · have ordered := (List.pairwise_append.mp sorted).2.2 entry.candidate isListed fresh later
        (grid.trans freshGrid.symm)
      rw [key_eq inGrid.anchored grid, key_eq inGrid.anchored freshGrid, sameStrike] at ordered
      exact absurd less (not_lt.mpr ordered)

/-- **Every contract of the grids is listed once, and in consistent masters the ranks are those of
the grids just where each strike nearer than a listed one has a contract that was not selected
before.** -/
theorem grid_coordinates
    (built : buildBarsWorkManifest profile spot captures asOfMin = .ok manifest) :
    (manifest.entries.map BarsWorkEntry.ticker).Nodup ∧
      GridListed profile spot (windowed asOfMin captures) manifest.entries ∧
      (Consistent captures →
        ((∀ entry ∈ manifest.entries, RankTrue profile spot (windowed asOfMin captures) entry) ↔
          NearerAreNew profile spot (windowed asOfMin captures))) := by
  refine ⟨tickers_nodup built, grid_listed built, ?_⟩
  intro consistent
  obtain ⟨ranking, kept, isSorted⟩ := of_built built
  rw [isSorted, NearerAreNew]
  constructor
  · intro ranks listed isListed
    have isEntry := isListed
    rw [← listedCandidates, ← entries_candidates consistent kept] at isEntry
    obtain ⟨entry, inEntries, rfl⟩ := List.mem_map.mp isEntry
    exact (rankTrue_iff consistent kept inEntries).mp (ranks entry (mem_sortedBy.mpr inEntries))
  · intro new entry isEntry
    rw [mem_sortedBy] at isEntry
    refine (rankTrue_iff consistent kept isEntry).mpr (new entry.candidate ?_)
    rw [← listedCandidates, ← entries_candidates consistent kept]
    exact List.mem_map_of_mem isEntry

end Built

/-! ## Two dates with some contracts in common -/

theorem profileSample_valid : 1 ≤ 10 ∧ 30 ≤ 60 := by
  decide

theorem wantedSample_positive : 1 ≤ 10 :=
  profileSample_valid.1

theorem dteSample_ordered : 30 ≤ 60 :=
  profileSample_valid.2

/-- Calls from thirty to sixty days, one strike on either side of the spot. -/
def profileSample : SelectionProfile :=
  ⟨10, 30, 60, 1, .all, .call, wantedSample_positive, dteSample_ordered⟩

def callSample (ticker : String) (strike : ℤ) : MasterRow :=
  ⟨ticker, "2026-02-20", "call", .int strike⟩

def masterSample (asOf : ℤ) : MasterCapture :=
  ⟨"SPY", asOf, [callSample "C100" 100, callSample "C105" 105, callSample "C110" 110,
    callSample "C115" 115]⟩

/-- The spot is 100 on the second of January 2026, and 110 a week later. -/
def spotSample (_ : String) (asOf : ℤ) : Option ℚ :=
  if asOf = 20455 then some 100 else if asOf = 20462 then some 110 else none

def entrySample (asOf : ℤ) (ticker : String) (strike : ℚ) (rank : ℕ) : BarsWorkEntry :=
  ⟨"SPY", asOf, 20504, strike, rank, .call, ticker⟩

def firstEntries : List BarsWorkEntry :=
  [entrySample 20455 "C100" 100 0, entrySample 20455 "C105" 105 1, entrySample 20455 "C110" 110 2]

/-- In the second week 115 is the farthest of three, and gets the rank of the nearest. -/
theorem manifests_built :
    buildBarsWorkManifest profileSample spotSample [masterSample 20455, masterSample 20462] none =
        .ok ⟨none, firstEntries ++ [entrySample 20462 "C115" 115 0], [.duplicates 2]⟩ ∧
      (rankedStrikes 110 (ladderOf profileSample (masterSample 20462).rows 20504)).idxOf 115 = 2 ∧
      buildBarsWorkManifest profileSample spotSample [masterSample 20455] none =
        .ok ⟨none, firstEntries, []⟩ ∧
      newCandidates profileSample spotSample [masterSample 20455] =
        candidates profileSample spotSample [masterSample 20455] := by
  decide +kernel

theorem skipped_strike_shifts_rank :
    ¬ ∀ (profile : SelectionProfile) (spot : String → ℤ → Option ℚ)
      (captures : List MasterCapture) (asOfMin : Option ℤ) (manifest : BarsWorkManifest),
      buildBarsWorkManifest profile spot captures asOfMin = .ok manifest →
        (manifest.entries.map BarsWorkEntry.ticker).Nodup ∧
          GridListed profile spot (windowed asOfMin captures) manifest.entries ∧
            ∀ entry ∈ manifest.entries,
              RankTrue profile spot (windowed asOfMin captures) entry := by
  intro isTrue
  obtain ⟨built, place, -, -⟩ := manifests_built
  obtain ⟨capture, isCapture, -, asOf, anchor, anchored, -, rank⟩ :=
    (isTrue _ _ _ _ _ built).2.2 (entrySample 20462 "C115" 115 0) (by simp)
  have isSecond : capture = masterSample 20462 := by
    rcases List.mem_cons.mp (mem_windowed isCapture) with rfl | isSecond
    · exact absurd asOf (by decide)
    · exact List.mem_singleton.mp isSecond
  subst isSecond
  have isAnchor : anchor = 110 := (Option.some.inj anchored).symm
  subst isAnchor
  have isRank : 0 = 2 := rank.trans place
  exact absurd isRank (by decide)

theorem grid_coordinates_sample : (firstEntries.map BarsWorkEntry.ticker).Nodup ∧
    ∀ entry ∈ firstEntries,
      RankTrue profileSample spotSample (windowed none [masterSample 20455]) entry := by
  obtain ⟨-, -, built, allNew⟩ := manifests_built
  refine ⟨(grid_coordinates built).1,
    ((grid_coordinates built).2.2 ⟨List.nodup_singleton _, ?_, ?_⟩).mpr ?_⟩
  · decide
  · decide
  · intro listed _ anchor _ nearer isNearer sameGrid _
    have isNew : nearer ∈ newCandidates profileSample spotSample [masterSample 20455] := by
      rw [allNew]
      exact isNearer
    exact ⟨nearer, isNew, sameGrid, rfl⟩

end TreeOptions.BarsManifest
