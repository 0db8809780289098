import TreeOptions.PointInTime.Dataset

/-!
# What the quality gate lets through

A snapshot that is verified has one bar for each security and session, its bars are on sessions
and published at or after their close, and every jump of a price has a split declared on its
session. The declared splits are collected by security and session, and of several into one
session only the last is kept. So a verified snapshot has a price effect for every declared split
just where the splits that were replaced have theirs, too (`gate_complete_iff`).
-/

set_option autoImplicit false

namespace TreeOptions.PointInTime

open Checked Decimal

/-! ## What the gate is for -/

/-- A split or a reverse split. -/
def CorporateActionRecord.ChangesRatio (action : CorporateActionRecord) : Prop :=
  action.kind = .split ∨ action.kind = .reverseSplit

instance (action : CorporateActionRecord) : Decidable action.ChangesRatio :=
  inferInstanceAs (Decidable (_ ∨ _))

/-- Two bars of one security with none between them. -/
structure Consecutive (bars : List BarRecord) (previous bar : BarRecord) : Prop where
  previous_mem : previous ∈ bars
  bar_mem : bar ∈ bars
  security : previous.securityId = bar.securityId
  earlier : previous.session < bar.session
  apart : ∀ other ∈ bars, other.securityId = bar.securityId →
    ¬ (previous.session < other.session ∧ other.session < bar.session)

/-- The factor between the closes of two bars, in the decimal context. -/
def closeFactor (previous bar : BarRecord) : ℚ :=
  roundContext (previous.close / bar.close)

def Jumps (previous bar : BarRecord) : Prop :=
  closeFactor previous bar ≤ splitFactorInverse ∨ splitFactorBound ≤ closeFactor previous bar

/-- A factor is within two per cent of the ratio that an action declares. -/
def MatchesRatio (action : CorporateActionRecord) (factor : ℚ) : Prop :=
  ∃ numerator denominator ratio relative, action.ratioNumerator = some numerator ∧
    action.ratioDenominator = some denominator ∧ div? numerator denominator = some ratio ∧
    div? factor ratio = some relative ∧ |sub relative 1| ≤ splitRatioTolerance

/-- The price goes into the session of an action by the ratio that it declares. -/
def HasPriceEffect (bars : List BarRecord) (action : CorporateActionRecord) : Prop :=
  ∃ previous bar, Consecutive bars previous bar ∧ bar.securityId = action.securityId ∧
    bar.session = action.effectiveSession ∧ MatchesRatio action (closeFactor previous bar)

/-- What a snapshot is that has no silent damage. -/
structure GateComplete (snapshot : DatasetSnapshot) (calendar : DatasetCalendar) : Prop where
  distinct : (snapshot.bars.map fun bar => (bar.securityId, bar.session)).Nodup
  published : ∀ bar ∈ snapshot.bars, bar.session ∈ calendar.sessions ∧
    calendar.sessionClose bar.session ≤ bar.availableAt
  covered : ∀ previous bar, Consecutive snapshot.bars previous bar → Jumps previous bar →
    ∃ action ∈ snapshot.actions, action.ChangesRatio ∧ action.securityId = bar.securityId ∧
      action.effectiveSession = bar.session
  effective : ∀ action ∈ snapshot.actions, action.ChangesRatio →
    HasPriceEffect snapshot.bars action

/-- A later record of the same security and session takes the place of this one. -/
def CorporateActionRecord.Replaced (actions : List CorporateActionRecord)
    (action : CorporateActionRecord) : Prop :=
  ratioAction actions action.securityId action.effectiveSession ≠ some action

/-- The records that are replaced declare the factor that the price shows on their session. -/
def ReplacedMatch (snapshot : DatasetSnapshot) : Prop :=
  ∀ action ∈ snapshot.actions, action.ChangesRatio → action.Replaced snapshot.actions →
    ∀ previous bar, Consecutive snapshot.bars previous bar →
      bar.securityId = action.securityId → bar.session = action.effectiveSession →
        MatchesRatio action (closeFactor previous bar)

/-! ## The checks -/

theorem divide_eq_ok {x y quotient : ℚ} : divide x y = .ok quotient ↔ div? x y = some quotient := by
  rw [divide]
  cases div? x y with
  | none => simp
  | some value => simp

variable {action : CorporateActionRecord}

theorem requireRatioMatch_eq_ok {factor : ℚ} {done : Unit} :
    requireRatioMatch action factor = .ok done ↔ MatchesRatio action factor := by
  rw [requireRatioMatch]
  constructor
  · intro matched
    split at matched
    case h_1 numerator denominator isNumerator isDenominator =>
      obtain ⟨ratio, isRatio, matched⟩ := bind_eq_ok.mp matched
      obtain ⟨relative, isRelative, matched⟩ := bind_eq_ok.mp matched
      exact ⟨numerator, denominator, ratio, relative, isNumerator, isDenominator,
        divide_eq_ok.mp isRatio, divide_eq_ok.mp isRelative, not_lt.mp (refuse_eq_ok.mp matched)⟩
    case h_2 => cases matched
  · rintro ⟨numerator, denominator, ratio, relative, isNumerator, isDenominator, isRatio,
      isRelative, near⟩
    rw [isNumerator, isDenominator]
    exact bind_eq_ok.mpr ⟨ratio, divide_eq_ok.mpr isRatio,
      bind_eq_ok.mpr ⟨relative, divide_eq_ok.mpr isRelative, refuse_eq_ok.mpr (not_lt.mpr near)⟩⟩

theorem closeFactor_of_divide {previous bar : BarRecord} {factor : ℚ}
    (divided : divide previous.close bar.close = .ok factor) : factor = closeFactor previous bar := by
  have isQuotient := divide_eq_ok.mp divided
  rw [div?, Option.ite_none_left_eq_some] at isQuotient
  exact (Option.some.inj isQuotient.2).symm

variable {actions : List CorporateActionRecord}

theorem of_ratioAction {securityId : String} {session : ℤ}
    (found : ratioAction actions securityId session = some action) :
    action ∈ actions ∧ action.ChangesRatio ∧ action.securityId = securityId ∧
      action.effectiveSession = session := by
  have member := List.mem_of_getLast? found
  rw [List.mem_filter] at member
  simp only [Bool.and_eq_true, Bool.or_eq_true, decide_eq_true_eq] at member
  exact ⟨member.1, member.2.1.1, member.2.1.2, member.2.2⟩

theorem exists_ratioAction (member : action ∈ actions) (changes : action.ChangesRatio) :
    ∃ kept, ratioAction actions action.securityId action.effectiveSession = some kept := by
  cases found : ratioAction actions action.securityId action.effectiveSession with
  | some kept => exact ⟨kept, rfl⟩
  | none =>
    have nothing := List.getLast?_eq_none_iff.mp found
    have inside : action ∈ actions.filter fun other =>
        (other.kind = .split || other.kind = .reverseSplit) &&
          other.securityId = action.securityId &&
            other.effectiveSession = action.effectiveSession := by
      rw [List.mem_filter]
      simpa using ⟨member, changes⟩
    rw [nothing] at inside
    cases inside

section Bars

variable {bars : List BarRecord} {bar : BarRecord}

theorem mem_barsBySession {securityId : String} :
    bar ∈ barsBySession bars securityId ↔ bar ∈ bars ∧ bar.securityId = securityId := by
  rw [barsBySession, mem_sortedBy, List.mem_filter, decide_eq_true_iff]

theorem barsBySession_strict
    (distinct : (bars.map fun bar => (bar.securityId, bar.session)).Nodup) (securityId : String) :
    (barsBySession bars securityId).Pairwise fun earlier later =>
      earlier.session < later.session := by
  have distinctSorted :
      ((barsBySession bars securityId).map fun bar => (bar.securityId, bar.session)).Nodup := by
    have permuted := (sortedBy_perm BarRecord.session
      (bars.filter fun bar => bar.securityId = securityId)).map
        fun bar => (bar.securityId, bar.session)
    exact permuted.nodup_iff.mpr (distinct.sublist (List.filter_sublist.map _))
  have apart := List.pairwise_map.mp distinctSorted
  have ordered := pairwise_sortedBy BarRecord.session
    (bars.filter fun bar => bar.securityId = securityId)
  refine (apart.and ordered).imp_of_mem ?_
  rintro earlier later isEarlier isLater ⟨unequal, below⟩
  have sameSecurity : earlier.securityId = later.securityId :=
    (mem_barsBySession.mp isEarlier).2.trans (mem_barsBySession.mp isLater).2.symm
  refine lt_of_le_of_ne below ?_
  intro sameSession
  exact unequal (Prod.ext sameSecurity sameSession)

variable {previous : BarRecord}

theorem mem_pairs_iff (distinct : (bars.map fun bar => (bar.securityId, bar.session)).Nodup) :
    (previous, bar) ∈ (barsBySession bars bar.securityId).zip
        (barsBySession bars bar.securityId).tail ↔ Consecutive bars previous bar := by
  rw [mem_zip_tail (barsBySession_strict distinct bar.securityId), mem_barsBySession,
    mem_barsBySession]
  constructor
  · rintro ⟨⟨inPrevious, sameSecurity⟩, ⟨inBar, -⟩, earlier, apart⟩
    refine ⟨inPrevious, inBar, sameSecurity, earlier, ?_⟩
    intro other inOther ofSecurity
    exact apart other (mem_barsBySession.mpr ⟨inOther, ofSecurity⟩)
  · intro consecutive
    refine ⟨⟨consecutive.previous_mem, consecutive.security⟩, ⟨consecutive.bar_mem, rfl⟩,
      consecutive.earlier, ?_⟩
    intro other inOther
    obtain ⟨inOther, ofSecurity⟩ := mem_barsBySession.mp inOther
    exact consecutive.apart other inOther ofSecurity

theorem Consecutive.unique (distinct : (bars.map fun bar => (bar.securityId, bar.session)).Nodup)
    {previous' bar' : BarRecord} (first : Consecutive bars previous bar)
    (second : Consecutive bars previous' bar') (sameSecurity : bar.securityId = bar'.securityId)
    (sameSession : bar.session = bar'.session) : previous = previous' ∧ bar = bar' := by
  have byKey := List.inj_on_of_nodup_map distinct
  have sameBar : bar = bar' :=
    byKey first.bar_mem second.bar_mem (Prod.ext sameSecurity sameSession)
  subst sameBar
  have sameBefore : previous.securityId = previous'.securityId :=
    first.security.trans second.security.symm
  have sessions : previous.session = previous'.session := by
    rcases lt_trichotomy previous.session previous'.session with less | same | more
    · exact (first.apart previous' second.previous_mem second.security ⟨less, second.earlier⟩).elim
    · exact same
    · exact (second.apart previous first.previous_mem first.security ⟨more, first.earlier⟩).elim
  exact ⟨byKey first.previous_mem second.previous_mem (Prod.ext sameBefore sessions), rfl⟩

theorem consecutive_of_before {securityId : String} {session : ℤ}
    (isPrevious : ((barsBySession bars securityId).filter
      fun bar => bar.session < session).getLast? = some previous)
    (isBar : ((barsBySession bars securityId).filter
      fun bar => bar.session = session).head? = some bar) :
    Consecutive bars previous bar ∧ bar.securityId = securityId ∧ bar.session = session := by
  have previousMember := List.mem_filter.mp (List.mem_of_getLast? isPrevious)
  have barMember := List.mem_filter.mp (List.mem_of_head? isBar)
  obtain ⟨inPrevious, ofPrevious⟩ := mem_barsBySession.mp previousMember.1
  obtain ⟨inBar, ofBar⟩ := mem_barsBySession.mp barMember.1
  have before : previous.session < session := of_decide_eq_true previousMember.2
  have onSession : bar.session = session := of_decide_eq_true barMember.2
  refine ⟨⟨inPrevious, inBar, ofPrevious.trans ofBar.symm, ?_, ?_⟩, ofBar, onSession⟩
  · rw [onSession]
    exact before
  · rintro other inOther ofOther ⟨after, beforeBar⟩
    have isBefore : other ∈ (barsBySession bars securityId).filter
        fun bar => bar.session < session := by
      rw [List.mem_filter, mem_barsBySession, decide_eq_true_iff]
      exact ⟨⟨inOther, ofOther.trans ofBar⟩, onSession ▸ beforeBar⟩
    have sorted : ((barsBySession bars securityId).filter
        fun bar => bar.session < session).Pairwise fun earlier later =>
          earlier.session ≤ later.session :=
      (pairwise_sortedBy BarRecord.session _).filter _
    exact absurd (le_of_getLast? sorted isPrevious isBefore) (not_le.mpr after)

end Bars

/-! ## What verification establishes -/

section Verified

variable {contentSha256 :
  List SecurityMasterRecord → List BarRecord → List CorporateActionRecord → String}
  {snapshot : DatasetSnapshot} {calendar : DatasetCalendar}

theorem checkBar_eq_ok {known : List String} {seen keys : List (String × ℤ)} {bar : BarRecord}
    (checked : checkBar calendar known seen bar = .ok keys) :
    (bar.securityId, bar.session) ∉ seen ∧ bar.session ∈ calendar.sessions ∧
      calendar.sessionClose bar.session ≤ bar.availableAt ∧
        keys = seen ++ [(bar.securityId, bar.session)] := by
  obtain ⟨fresh, checked⟩ := refuse_bind_eq_ok.mp checked
  obtain ⟨-, checked⟩ := refuse_bind_eq_ok.mp checked
  obtain ⟨onSession, checked⟩ := refuse_bind_eq_ok.mp checked
  obtain ⟨published, checked⟩ := refuse_bind_eq_ok.mp checked
  cases checked
  refine ⟨?_, not_not.mp onSession, not_lt.mp published, rfl⟩
  intro member
  exact fresh (List.any_eq_true.mpr ⟨_, member, decide_eq_true rfl⟩)

theorem validateSnapshot_of_verified
    (verified : verifyManifest contentSha256 snapshot calendar = .ok ⟨⟩) :
    validateSnapshot snapshot calendar = .ok ⟨⟩ := by
  iterate 9 replace verified := (refuse_bind_eq_ok.mp verified).2
  exact verified

section

variable (validated : validateSnapshot snapshot calendar = .ok ⟨⟩)

include validated

theorem distinct_of_validated :
    (snapshot.bars.map fun bar => (bar.securityId, bar.session)).Nodup := by
  obtain ⟨keys, walked, -⟩ := bind_eq_ok.mp validated
  have unique : ((sortedBy BarRecord.key snapshot.bars).map fun bar =>
      (bar.securityId, bar.session)).Nodup := by
    refine nodup_of_foldlM ?_ walked
    intro seen bar keys checked
    obtain ⟨fresh, -, -, isNext⟩ := checkBar_eq_ok checked
    exact ⟨fresh, isNext⟩
  exact (((sortedBy_perm _ _).map _).nodup_iff).mp unique

theorem published_of_validated :
    ∀ bar ∈ snapshot.bars, bar.session ∈ calendar.sessions ∧
      calendar.sessionClose bar.session ≤ bar.availableAt := by
  obtain ⟨keys, walked, -⟩ := bind_eq_ok.mp validated
  have nothing : ∀ bar ∈ ([] : List BarRecord), bar.session ∈ calendar.sessions ∧
      calendar.sessionClose bar.session ≤ bar.availableAt := by
    intro bar member
    cases member
  have each := foldlM_invariant
    (fun (done : List BarRecord) (_ : List (String × ℤ)) => ∀ bar ∈ done,
      bar.session ∈ calendar.sessions ∧ calendar.sessionClose bar.session ≤ bar.availableAt)
    (by
      intro done bar seen next before checked other member
      obtain ⟨-, onSession, published, -⟩ := checkBar_eq_ok checked
      rcases List.mem_append.mp member with earlier | same
      · exact before other earlier
      · rw [List.mem_singleton.mp same]
        exact ⟨onSession, published⟩)
    nothing walked
  intro bar member
  exact each bar (mem_sortedBy.mpr member)

theorem transition_of_validated {previous bar : BarRecord}
    (consecutive : Consecutive snapshot.bars previous bar) :
    checkTransition snapshot.actions (previous, bar) = .ok ⟨⟩ := by
  have distinct := distinct_of_validated validated
  obtain ⟨-, -, validated⟩ := bind_eq_ok.mp validated
  obtain ⟨-, -, validated⟩ := bind_eq_ok.mp validated
  obtain ⟨⟨⟩, transitions, -⟩ := bind_eq_ok.mp validated
  have member : bar.securityId ∈ firstSeen (snapshot.bars.map BarRecord.securityId) :=
    mem_firstSeen.mpr (List.mem_map_of_mem consecutive.bar_mem)
  have ofSecurity := forM_eq_ok.mp transitions bar.securityId member
  exact forM_eq_ok.mp ofSecurity _ ((mem_pairs_iff distinct).mpr consecutive)

theorem ratioAction_of_validated {action : CorporateActionRecord}
    (member : action ∈ snapshot.actions)
    (kept : ratioAction snapshot.actions action.securityId action.effectiveSession = some action) :
    checkRatioAction snapshot.bars action = .ok ⟨⟩ := by
  obtain ⟨-, -, validated⟩ := bind_eq_ok.mp validated
  obtain ⟨-, -, validated⟩ := bind_eq_ok.mp validated
  obtain ⟨-, -, validated⟩ := bind_eq_ok.mp validated
  exact forM_eq_ok.mp validated action (List.mem_filter.mpr ⟨member, decide_eq_true kept⟩)

end

theorem covered_of_transition {actions : List CorporateActionRecord} {previous bar : BarRecord}
    (checked : checkTransition actions (previous, bar) = .ok ⟨⟩) (jumps : Jumps previous bar) :
    ∃ action ∈ actions, action.ChangesRatio ∧ action.securityId = bar.securityId ∧
      action.effectiveSession = bar.session := by
  obtain ⟨factor, divided, checked⟩ := bind_eq_ok.mp checked
  rw [closeFactor_of_divide divided] at checked
  replace checked := (if_pos jumps).symm.trans checked
  rw [requireCovered] at checked
  cases found : ratioAction actions bar.securityId bar.session with
  | none =>
    rw [found] at checked
    cases checked
  | some covering => exact ⟨covering, of_ratioAction found⟩

theorem hasPriceEffect_of_checked {bars : List BarRecord} {action : CorporateActionRecord}
    (checked : checkRatioAction bars action = .ok ⟨⟩) : HasPriceEffect bars action := by
  rw [checkRatioAction] at checked
  split at checked
  case h_1 previous bar isPrevious isBar =>
    obtain ⟨factor, divided, checked⟩ := bind_eq_ok.mp checked
    obtain ⟨consecutive, ofSecurity, onSession⟩ := consecutive_of_before isPrevious isBar
    refine ⟨previous, bar, consecutive, ofSecurity, onSession, ?_⟩
    rw [← closeFactor_of_divide divided]
    exact requireRatioMatch_eq_ok.mp checked
  case h_2 => cases checked

/-- **A verified snapshot has no silent damage just where the splits that another record of their
security and session replaces declare what the price shows.** -/
theorem gate_complete_iff (verified : verifyManifest contentSha256 snapshot calendar = .ok ⟨⟩) :
    GateComplete snapshot calendar ↔ ReplacedMatch snapshot := by
  have validated := validateSnapshot_of_verified verified
  have distinct := distinct_of_validated validated
  constructor
  · intro complete action member changes _ previous bar consecutive ofSecurity onSession
    obtain ⟨previous', bar', consecutive', ofSecurity', onSession', matched⟩ :=
      complete.effective action member changes
    obtain ⟨rfl, rfl⟩ := consecutive.unique distinct consecutive'
      (ofSecurity.trans ofSecurity'.symm) (onSession.trans onSession'.symm)
    exact matched
  · intro replacedMatch
    refine ⟨distinct, published_of_validated validated, ?_, ?_⟩
    · intro previous bar consecutive jumps
      exact covered_of_transition (transition_of_validated validated consecutive) jumps
    · intro action member changes
      obtain ⟨kept, isKept⟩ := exists_ratioAction member changes
      obtain ⟨keptMember, -, sameSecurity, sameSession⟩ := of_ratioAction isKept
      have keepsItself : ratioAction snapshot.actions kept.securityId kept.effectiveSession =
          some kept := by
        rw [sameSecurity, sameSession]
        exact isKept
      obtain ⟨previous, bar, consecutive, ofSecurity, onSession, matched⟩ :=
        hasPriceEffect_of_checked (ratioAction_of_validated validated keptMember keepsItself)
      rw [sameSecurity] at ofSecurity
      rw [sameSession] at onSession
      refine ⟨previous, bar, consecutive, ofSecurity, onSession, ?_⟩
      -- of the records into one session only the one that was kept has been compared
      by_cases same : kept = action
      · rw [← same]
        exact matched
      · refine replacedMatch action member changes ?_ previous bar consecutive ofSecurity onSession
        intro own
        exact same (Option.some.inj (isKept.symm.trans own))

end Verified

/-! ## Two splits into one session -/

theorem openListing_consistent (start : ℤ) : ListingConsistent start none none := by
  constructor
  · intro last ended
    cases ended
  · intro event delisted
    cases delisted

def listedSample : SecurityMasterRecord :=
  ⟨"A", -1, none, 0, none, openListing_consistent (-1)⟩

/-- A bar with one price all day. -/
def barSample (session : ℤ) (close : ℚ) : BarRecord :=
  ⟨"A", session, close, close, close, close, 100, "vendor", "bar", "", "snap", session⟩

def splitSample (numerator : ℕ) : CorporateActionRecord :=
  ⟨"A", .split, 1, some numerator, some 1, "vendor", "split", "", "snap"⟩

/-- The close goes from six to two, with these splits declared. -/
def snapshotSample (actions : List CorporateActionRecord) : DatasetSnapshot :=
  ⟨"snap", [listedSample], [barSample 0 6, barSample 1 2], actions,
    ⟨"vendor", "snap", manifestSchemaVersion, 2 + actions.length, 2, actions.length, 1,
      some (0, 1), List.replicate (2 + actions.length) "", ""⟩⟩

def calendarSample : DatasetCalendar :=
  ⟨⟨[0, 1], List.cons_ne_nil _ _, by decide⟩, fun session => session⟩

theorem snapshots_verified :
    verifyManifest (fun _ _ _ => "") (snapshotSample [splitSample 3]) calendarSample = .ok ⟨⟩ ∧
      verifyManifest (fun _ _ _ => "") (snapshotSample [splitSample 2, splitSample 3])
        calendarSample = .ok ⟨⟩ ∧
      requireRatioMatch (splitSample 2) (closeFactor (barSample 0 6) (barSample 1 2)) ≠
        .ok ⟨⟩ := by
  decide +kernel

/-- Two for one is declared where the price shows three for one. -/
theorem replaced_split_unchecked :
    ¬ ∀ (contentSha256 : List SecurityMasterRecord → List BarRecord →
        List CorporateActionRecord → String) (snapshot : DatasetSnapshot)
      (calendar : DatasetCalendar), verifyManifest contentSha256 snapshot calendar = .ok ⟨⟩ →
        GateComplete snapshot calendar := by
  intro complete
  have effective := (complete _ _ _ snapshots_verified.2.1).effective (splitSample 2)
    List.mem_cons_self (.inl rfl)
  obtain ⟨previous, bar, consecutive, -, onSession, matched⟩ := effective
  have isBar : bar = barSample 1 2 := by
    rcases List.mem_cons.mp consecutive.bar_mem with rfl | isSecond
    · cases onSession
    · exact List.mem_singleton.mp isSecond
  subst isBar
  have isPrevious : previous = barSample 0 6 := by
    rcases List.mem_cons.mp consecutive.previous_mem with isFirst | isSecond
    · exact isFirst
    · rw [List.mem_singleton.mp isSecond] at consecutive
      exact absurd consecutive.earlier (lt_irrefl _)
  subst isPrevious
  exact snapshots_verified.2.2 (requireRatioMatch_eq_ok.mpr matched)

theorem gate_complete_sample :
    GateComplete (snapshotSample [splitSample 3]) calendarSample ↔
      ReplacedMatch (snapshotSample [splitSample 3]) :=
  gate_complete_iff snapshots_verified.1

end TreeOptions.PointInTime
