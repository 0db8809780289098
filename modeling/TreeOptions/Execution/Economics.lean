import TreeOptions.Execution.Retained

/-!
# The economics of a clean lifecycle

Without a reason to reconcile (`Clean`) the fills add up: no two overlap, together they
cover what was filled from the first unit on, and no more of it than the broker
confirmed. When the order is at its end as filled, it is exactly that total
(`economicsExact`).

The last point is about two scans of the records, of the facts and of what says something
of the total. The snapshot that reports a total last decides the total
(`deriveQuantityAuthority_confirmed`), and after a fact that ends the order as filled it
has to report the order filled as well (`readbackTerminalState_of_clean`).
-/

set_option autoImplicit false

namespace TreeOptions.Execution

variable {json : Serialization} {records : List ExecutionRecord}

/-! ## No reason to reconcile -/

/-- Nothing among the records asks for a reconciliation. -/
structure Clean (json : Serialization) (authority : QuantityAuthority)
    (records : List ExecutionRecord) : Prop where
  quantities : authority.reasons = ∅
  submitted : brokerFacts records = [] ∨ submitAttempts records ≠ []
  oneOrder : ¬ BrokerIdConflict json records
  apart : ¬ FillOverlap records
  forward : ¬ HasFillCumulativeRegression records
  noRetry : ¬ HasRetryAfterLocalKnowledge json records
  resolved : ¬ HasOverlappingReplaceIntents json records
  covered : 0 < deriveObservedCumulative records →
    coversThrough (deriveFillIntervals records) (deriveObservedCumulative records) = true
  confirmed : 0 < deriveObservedCumulative records → authority.confirmed ≠ none
  within : ∀ total, authority.confirmed = some total → deriveObservedCumulative records ≤ total
  kinds : ∀ total, authority.confirmed = some total →
    ∀ record ∈ fillRecords records, ¬ record.MismatchesTotal total
  facts : deriveFactReasons json records = ∅

theorem reasonIf_eq_empty {reason : ReconciliationReason} {found : Bool} :
    reasonIf reason found = ∅ ↔ found = false := by
  cases found <;> simp [reasonIf]

theorem any_eq_false_iff {Item : Type} {item : Option Item} {found : Item → Bool} :
    item.any found = false ↔ ∀ value, item = some value → found value = false := by
  cases item <;> simp

/-- **There is no reason exactly when nothing asks for one.** -/
theorem deriveReconciliationReasons_eq_empty {authority : QuantityAuthority} :
    deriveReconciliationReasons json authority records = ∅ ↔ Clean json authority records := by
  simp only [deriveReconciliationReasons, Finset.union_eq_empty, reasonIf_eq_empty,
    decide_eq_false_iff_not, any_eq_false_iff, not_and, not_not, not_exists, not_lt]
  constructor
  · rintro ⟨⟨⟨⟨⟨⟨⟨⟨⟨⟨⟨a, b⟩, c⟩, d⟩, e⟩, f⟩, g⟩, h⟩, i⟩, j⟩, k⟩, l⟩
    exact ⟨a, or_iff_not_imp_left.mpr b, c, d, e, f, g, h, i, j, k, l⟩
  · rintro ⟨a, b, c, d, e, f, g, h, i, j, k, l⟩
    exact ⟨⟨⟨⟨⟨⟨⟨⟨⟨⟨⟨a, or_iff_not_imp_left.mp b⟩, c⟩, d⟩, e⟩, f⟩, g⟩, h⟩, i⟩, j⟩, k⟩, l⟩

/-! ## What the fills cover -/

def FillRecord.units (record : FillRecord) : Finset ℕ :=
  Finset.Ico (record.cumulativeQuantity - record.fillQuantity) record.cumulativeQuantity

theorem rawIntervals_perm (records : List ExecutionRecord) :
    (rawIntervals records).Perm ((fillRecords records).map fillInterval) :=
  sortedBy_perm _ _

theorem sorted_rawIntervals (records : List ExecutionRecord) :
    (rawIntervals records).Pairwise fun first second => first.1 ≤ second.1 := by
  refine (pairwise_sortedBy (fun interval => toLex interval) _).imp ?_
  intro first second le
  rcases Prod.Lex.le_iff.mp le with less | ⟨same, -⟩
  · exact less.le
  · exact same.le

theorem covers_fills {unit : ℕ} : Intervals.Covers (rawIntervals records) unit ↔
    ∃ record ∈ fillRecords records, unit ∈ record.units := by
  simp only [Intervals.Covers, (rawIntervals_perm records).mem_iff, List.mem_map,
    FillRecord.units, Finset.mem_Ico]
  constructor
  · rintro ⟨interval, ⟨record, member, rfl⟩, inside⟩
    exact ⟨record, member, inside⟩
  · rintro ⟨record, member, inside⟩
    exact ⟨_, ⟨record, member, rfl⟩, inside⟩

theorem le_foldr_max {numbers : List ℕ} {number : ℕ} (member : number ∈ numbers) :
    number ≤ numbers.foldr max 0 := by
  induction numbers with
  | nil => cases member
  | cons first rest ih =>
    rcases List.mem_cons.mp member with rfl | later
    · exact le_max_left _ _
    · exact (ih later).trans (le_max_right _ _)

variable {fact : BrokerFact}

/-- **No fact reports more than was filled.** -/
theorem cumulativeQuantity_le (member : fact ∈ brokerFacts records) {cumulative : ℕ}
    (reported : fact.cumulativeQuantity? = some cumulative) :
    cumulative ≤ deriveObservedCumulative records :=
  le_foldr_max (List.mem_filterMap.mpr ⟨fact, member, reported⟩)

theorem mem_fillRecords {record : FillRecord} :
    record ∈ fillRecords records ↔ BrokerFact.fill record ∈ brokerFacts records := by
  rw [fillRecords, List.mem_filterMap]
  constructor
  · rintro ⟨fact, member, is⟩
    cases fact <;> cases is
    exact member
  · intro member
    exact ⟨_, member, rfl⟩

variable {record : BrokerReadback}

theorem mem_readbacks :
    record ∈ readbacks records ↔ BrokerFact.readback record ∈ brokerFacts records := by
  rw [readbacks, List.mem_filterMap]
  constructor
  · rintro ⟨fact, member, is⟩
    cases fact <;> cases is
    exact member
  · intro member
    exact ⟨_, member, rfl⟩

section

variable {authority : QuantityAuthority} (clean : Clean json authority records)

include clean

theorem pairwise_disjoint_units :
    (fillRecords records).Pairwise fun first second => Disjoint first.units second.units := by
  have apart := not_not.mp clean.apart
  rw [(rawIntervals_perm records).pairwise_iff fun overlap => fun other => overlap other.symm,
    List.pairwise_map] at apart
  refine apart.imp ?_
  intro first second separate
  exact Intervals.disjoint_of_not_overlap separate

/-- **The fills cover what was filled, from the first unit on.** -/
theorem mem_units_iff (unit : ℕ) : (∃ record ∈ fillRecords records, unit ∈ record.units) ↔
    unit < deriveObservedCumulative records := by
  rw [← covers_fills, ← Intervals.covers_merge (sorted_rawIntervals records)]
  rcases Nat.eq_zero_or_pos (deriveObservedCumulative records) with nothing | positive
  · have noFill : fillRecords records = [] := by
      rw [List.eq_nil_iff_forall_not_mem]
      intro record member
      have most := cumulativeQuantity_le (mem_fillRecords.mp member) rfl
      have := record.fill_pos
      have := record.fill_le
      omega
    have noInterval : rawIntervals records = [] := by
      rw [rawIntervals, noFill]
      rfl
    rw [noInterval, nothing]
    simp [Intervals.merge, Intervals.Covers]
  · have covered := clean.covered positive
    have whole : Intervals.merge (rawIntervals records) = [(0, deriveObservedCumulative records)] := by
      simpa [coversThrough, positive.ne', deriveFillIntervals] using covered
    rw [whole]
    simp [Intervals.Covers]

/-- **The fills add up to what was filled.** -/
theorem sum_fillQuantity : ((fillRecords records).map fun record => record.fillQuantity).sum =
    deriveObservedCumulative records := by
  have lengths : ((rawIntervals records).map fun interval => interval.2 - interval.1).sum =
      ((fillRecords records).map fun record => record.fillQuantity).sum := by
    rw [((rawIntervals_perm records).map _).sum_eq, List.map_map]
    congr 1
    apply List.map_congr_left
    intro record _
    have := record.fill_le
    change record.cumulativeQuantity - (record.cumulativeQuantity - record.fillQuantity) = _
    omega
  have covered : ∀ unit, unit ∈ Finset.range (deriveObservedCumulative records) ↔
      Intervals.Covers (rawIntervals records) unit := by
    intro unit
    rw [covers_fills, mem_units_iff clean, Finset.mem_range]
  rw [← lengths, Intervals.sum_length (not_not.mp clean.apart) covered, Finset.card_range]

end

/-! ## Facts that end the order -/

/-- A fact that ends the order as filled. -/
def BrokerFact.Completes : BrokerFact → Prop
  | fill record => record.kind = .completeFill
  | readback record => readbackTerminalState record = some .filled
  | acknowledgement _ | reject _ => False

variable {progress : BrokerProgress}

theorem BrokerProgress.completes_of_next (filled : (progress.next fact).state = .filled) :
    progress.state = .filled ∨ fact.Completes := by
  revert filled
  cases fact with
  | acknowledgement record =>
    rw [next]
    fun_cases onAcknowledgement progress with
    | case1 => exact .inl
    | case2 =>
      intro filled
      dsimp only at filled
      split at filled <;> cases filled
  | reject record =>
    rw [next]
    split
    case isTrue => exact nofun
    case isFalse => exact .inl
  | fill record =>
    rw [next]
    fun_cases onFill progress record with
    | case1 => exact .inl
    | case2 _ _ isComplete => exact fun _ => .inr isComplete
    | case3 => exact nofun
  | readback record =>
    rw [next]
    fun_cases onReadback progress record with
    | case3 state _ isState =>
      rintro rfl
      rw [BrokerFact.Completes, readbackTerminalState]
      rw [stateForStatus] at isState
      split at isState <;> simp_all
    | _ => exact .inl

theorem completes_of_foldl {facts : List BrokerFact}
    (filled : (facts.foldl BrokerProgress.next progress).state = .filled) :
    progress.state = .filled ∨ ∃ fact ∈ facts, fact.Completes := by
  induction facts generalizing progress with
  | nil => exact .inl filled
  | cons fact rest ih =>
    rcases ih filled with before | ⟨later, member, completes⟩
    · rcases BrokerProgress.completes_of_next before with before | completes
      · exact .inl before
      · exact .inr ⟨fact, List.mem_cons_self, completes⟩
    · exact .inr ⟨later, List.mem_cons_of_mem _ member, completes⟩

/-- **An order that is filled at the broker has a fact that says so.** -/
theorem exists_completes (filled : deriveBrokerState json records = .filled) :
    ∃ fact ∈ brokerFacts records, fact.Completes := by
  rw [deriveBrokerState] at filled
  split at filled
  case isTrue => cases filled
  case isFalse =>
    rcases completes_of_foldl filled with impossible | ⟨fact, member, completes⟩
    · cases impossible
    · exact ⟨fact, mem_sortedBy.mp member, completes⟩

/-! ## After the order is filled -/

namespace FactScan

@[simp] theorem addIf_terminal (scan : FactScan) (found : Bool) (reason : ReconciliationReason) :
    (scan.addIf found reason).terminal = scan.terminal := by
  rw [addIf]
  split <;> rfl

variable {scan : FactScan}

@[simp] theorem addIf_reasons_eq_empty {found : Bool} {reason : ReconciliationReason} :
    (scan.addIf found reason).reasons = ∅ ↔ found = false ∧ scan.reasons = ∅ := by
  cases found <;> simp [addIf]

theorem onFill_reasons_eq_empty {record : FillRecord} :
    (scan.onFill record).reasons = ∅ ↔ scan.reasons = ∅ ∧ (scan.terminal ≠ none →
      record.cumulativeQuantity ≤ scan.terminalCumulative ∧
        ∀ terminalAt, scan.terminalAt = some terminalAt → record.exchangeEventAt ≤ terminalAt) := by
  have same : (scan.onFill record).reasons = (scan.addIf (scan.terminal ≠ none ∧
      (scan.terminalCumulative < record.cumulativeQuantity ∨
        scan.terminalAt.any (· < record.exchangeEventAt))) .terminalFactContradiction).reasons := by
    rw [onFill]
    cases record.kind <;> rfl
  rw [same, addIf_reasons_eq_empty, decide_eq_false_iff_not, and_comm]
  refine and_congr_right fun _ => ?_
  cases scan.terminalAt <;> simp

theorem onSnapshot_reasons_eq_empty {record : BrokerReadback} :
    (scan.onSnapshot record).reasons = ∅ ↔ scan.reasons = ∅ ∧
      scan.observed ≤ record.cumulativeQuantity ∧
      (record.status = .opened ∨ record.status = .rejected → scan.observed = 0) ∧
      (scan.terminal ≠ none → readbackTerminalState record = scan.terminal) := by
  have same : (scan.onSnapshot record).reasons =
      (((scan.addIf (record.cumulativeQuantity < scan.observed)
        .readbackCumulativeRegression).addIf
        ((record.status = .opened ∨ record.status = .rejected) ∧ 0 < scan.observed)
          .readbackFillContradiction).addIf
        (scan.terminal ≠ none ∧ readbackTerminalState record ≠ scan.terminal)
          .terminalFactContradiction).reasons := by
    rw [onSnapshot]
    cases readbackTerminalState record <;> rfl
  simp only [same, addIf_reasons_eq_empty, decide_eq_false_iff_not, not_lt, not_and,
    Nat.le_zero, not_not]
  tauto

end FactScan

/-- What one fact does to a scan that finds nothing: nothing was found before, and an
order that was filled still is. A snapshot of it says so. -/
theorem FactScan.next_filled {scan : FactScan} (none_found : (scan.next fact).reasons = ∅) :
    scan.reasons = ∅ ∧
      (scan.terminal = some .filled ∨ fact.Completes → (scan.next fact).terminal = some .filled) ∧
      (scan.terminal = some .filled → ∀ record, fact = .readback record →
        record.totalQuantity ≠ none → readbackTerminalState record = some .filled) := by
  cases fact with
  | acknowledgement record =>
    rw [next, addIf_reasons_eq_empty] at none_found
    refine ⟨none_found.2, ?_, ?_⟩
    · rintro (filled | completes)
      · rw [next, addIf_terminal, filled]
      · exact False.elim completes
    · rintro _ _ ⟨⟩
  | reject record =>
    have found : ((scan.addIf (0 < scan.observed) .rejectWithObservedFill).addIf
        (scan.terminal ≠ none ∧ scan.terminal ≠ some .rejected)
          .terminalFactContradiction).reasons = ∅ := none_found
    simp only [addIf_reasons_eq_empty, decide_eq_false_iff_not] at found
    refine ⟨found.2.2, ?_, ?_⟩
    · rintro (filled | completes)
      · exact absurd ⟨by simp [filled], by simp [filled]⟩ found.1
      · exact False.elim completes
    · rintro _ _ ⟨⟩
  | fill record =>
    rw [next, onFill_reasons_eq_empty] at none_found
    refine ⟨none_found.1, ?_, ?_⟩
    · intro filled
      rw [next, onFill]
      cases kind : record.kind with
      | completeFill => rfl
      | partialFill =>
        rcases filled with filled | isComplete
        · simpa using filled
        · cases kind.symm.trans isComplete
    · rintro _ _ ⟨⟩
  | readback record =>
    rw [next] at none_found ⊢
    split at none_found
    case isTrue =>
      rw [addIf_reasons_eq_empty] at none_found
      cases none_found.1
    case isFalse found =>
      obtain ⟨none_before, -, -, agrees⟩ := onSnapshot_reasons_eq_empty.mp none_found
      have reports : scan.terminal = some .filled →
          readbackTerminalState record = some .filled := by
        intro filled
        rw [agrees (by simp [filled]), filled]
      refine ⟨none_before, ?_, ?_⟩
      · intro filled
        have isFilled : readbackTerminalState record = some .filled :=
          filled.elim reports fun completes => completes
        rw [if_neg found, onSnapshot, isFilled]
        rfl
      · rintro filled _ ⟨⟩ -
        exact reports filled

theorem foldl_filled {facts : List BrokerFact} {scan : FactScan}
    (none_found : (facts.foldl FactScan.next scan).reasons = ∅) : scan.reasons = ∅ ∧
      (scan.terminal = some .filled ∨ (∃ fact ∈ facts, fact.Completes) →
        (facts.foldl FactScan.next scan).terminal = some .filled) := by
  induction facts generalizing scan with
  | nil => exact ⟨none_found, by simp⟩
  | cons fact rest ih =>
    obtain ⟨none_found', stays⟩ := ih none_found
    obtain ⟨none_before, becomes, -⟩ := FactScan.next_filled none_found'
    refine ⟨none_before, ?_⟩
    rintro (before | ⟨other, member, completes⟩)
    · exact stays (.inl (becomes (.inl before)))
    · rcases List.mem_cons.mp member with rfl | later
      · exact stays (.inl (becomes (.inr completes)))
      · exact stays (.inr ⟨other, later, completes⟩)

/-- **A snapshot after the order is filled reports it filled.** -/
theorem readbackTerminalState_of_clean (none_found : deriveFactReasons json records = ∅)
    (member : fact ∈ brokerFacts records) (completes : fact.Completes)
    (member' : .readback record ∈ brokerFacts records) (total : record.totalQuantity ≠ none)
    (later : eventSortKey json (.brokerFact fact) ≤
      eventSortKey json (.brokerFact (.readback record))) :
    readbackTerminalState record = some .filled := by
  by_cases same : fact = .readback record
  · rw [same] at completes
    exact completes
  · -- the fact that ends the order stands before the snapshot
    have inSorted : .readback record ∈
        sortedBy (fun fact => eventSortKey json (.brokerFact fact)) (brokerFacts records) :=
      mem_sortedBy.mpr member'
    obtain ⟨before, after, split⟩ := List.mem_iff_append.mp inSorted
    have sorted := pairwise_sortedBy (fun fact => eventSortKey json (.brokerFact fact))
      (brokerFacts records)
    have earlier : fact ∈ before := by
      have inSorted' :
          fact ∈ sortedBy (fun fact => eventSortKey json (.brokerFact fact)) (brokerFacts records) :=
        mem_sortedBy.mpr member
      rw [split] at inSorted' sorted
      rcases List.mem_append.mp inSorted' with earlier | other
      · exact earlier
      · rcases List.mem_cons.mp other with isSame | after
        · exact absurd isSame same
        · have above := (List.pairwise_cons.mp (List.pairwise_append.mp sorted).2.1).1 fact after
          cases eventSortKey_injective (le_antisymm later above)
          exact absurd rfl same
    rw [deriveFactReasons, sortedFacts, split, List.foldl_append, List.foldl_cons] at none_found
    obtain ⟨none_at, -⟩ := foldl_filled none_found
    obtain ⟨none_before, -, reports⟩ := FactScan.next_filled none_at
    exact reports ((foldl_filled none_before).2 (.inr ⟨fact, earlier, completes⟩)) record rfl total

/-! ## The total -/

namespace QuantityAuthority

variable {intent : OrderIntent} {authority : QuantityAuthority}

@[simp] theorem addIf_submitted (authority : QuantityAuthority) (found : Bool)
    (reason : ReconciliationReason) :
    (authority.addIf found reason).submitted = authority.submitted := by
  rw [addIf]
  split <;> rfl

theorem observe_confirmed (record : BrokerReadback) (observed : ℕ) :
    (authority.observe intent record observed).confirmed = some observed := by
  rw [observe]
  cases confirmed : authority.confirmed with
  | none => rfl
  | some total =>
    by_cases other : observed ≠ total
    · simp only [if_pos other]
      rfl
    · simp only [if_neg other]
      rw [confirmed, not_not.mp other]

theorem answer_confirmed (pending : ℕ) (record : BrokerReadback) (observed : ℕ) :
    (authority.answer intent pending record observed).confirmed = some observed := by
  fun_cases answer authority intent pending record observed with
  | case2 => exact observe_confirmed record observed
  | case4 _ _ same => exact (not_not.mp same).symm
  | _ => rfl

theorem onReadback_confirmed {record : BrokerReadback} {total : ℕ}
    (reported : record.totalQuantity = some total) :
    (authority.onReadback intent record).confirmed = some total := by
  rw [onReadback, reported]
  cases authority.pending with
  | none => exact observe_confirmed record total
  | some pending => exact answer_confirmed pending record total

theorem observe_submitted (record : BrokerReadback) (observed : ℕ) :
    (authority.observe intent record observed).submitted = authority.submitted := by
  rw [observe]
  split
  · simp [confirm]
  · split
    · simp [confirm]
    · rfl

theorem answer_submitted (pending : ℕ) (record : BrokerReadback) (observed : ℕ) :
    (authority.answer intent pending record observed).submitted = authority.submitted := by
  rw [answer]
  split
  · split
    · simp [confirm]
    · exact observe_submitted record observed
  · split
    · split
      · simp [confirm]
      · rfl
    · simp [confirm]

theorem onReadback_submitted (record : BrokerReadback) :
    (authority.onReadback intent record).submitted = authority.submitted := by
  rw [onReadback]
  split
  · rfl
  · split
    · exact answer_submitted _ _ _
    · exact observe_submitted _ _

/-- Does a record report a total? -/
def Reports (record : ExecutionRecord) : Prop :=
  ∃ readback total, record = .brokerFact (.readback readback) ∧ readback.totalQuantity = some total

theorem next_submitted (record : ExecutionRecord) (submitted : authority.submitted = true) :
    (authority.next intent record).submitted = true := by
  cases record with
  | submitAttempt record => rfl
  | replaceIntent record =>
    rw [next, if_pos submitted]
    exact submitted
  | observation record => exact submitted
  | brokerFact record =>
    cases record with
    | acknowledgement record =>
      rw [next, if_pos submitted, onAcknowledgement]
      split <;> exact submitted
    | reject record => exact submitted
    | fill record => exact submitted
    | readback record =>
      rw [next, if_pos submitted, onReadback_submitted]
      exact submitted

theorem foldl_submitted
    (submitted : authority.submitted = true ∨ ∃ attempt, .submitAttempt attempt ∈ records) :
    (records.foldl (next intent) authority).submitted = true := by
  induction records generalizing authority with
  | nil => simpa using submitted
  | cons record rest ih =>
    apply ih
    rcases submitted with before | ⟨attempt, member⟩
    · exact .inl (next_submitted record before)
    · rcases List.mem_cons.mp member with rfl | later
      · exact .inl rfl
      · exact .inr ⟨attempt, later⟩

/-- Without another snapshot of it a confirmed total stays. -/
theorem foldl_confirmed {total : ℕ} (confirmed : authority.confirmed = some total)
    (quiet : ∀ record ∈ records, ¬ Reports record) :
    (records.foldl (next intent) authority).confirmed = some total := by
  induction records generalizing authority with
  | nil => exact confirmed
  | cons record rest ih =>
    obtain ⟨silent, quiet'⟩ := List.forall_mem_cons.mp quiet
    refine ih ?_ quiet'
    cases record with
    | submitAttempt record => exact confirmed
    | replaceIntent record =>
      rw [next]
      split <;> exact confirmed
    | observation record => exact confirmed
    | brokerFact record =>
      cases record with
      | acknowledgement record =>
        rw [next]
        split
        · rw [onAcknowledgement, if_neg (by simp [confirmed]), confirmed]
        · exact confirmed
      | reject record => exact confirmed
      | fill record => exact confirmed
      | readback record =>
        have noTotal : record.totalQuantity = none := by
          rw [Option.eq_none_iff_forall_ne_some]
          intro total reported
          exact silent ⟨record, total, rfl, reported⟩
        rw [next, onReadback, noTotal]
        split <;> exact confirmed

end QuantityAuthority

open QuantityAuthority ExecutionLifecycle

theorem exists_last {Item : Type} {holds : Item → Prop} {items : List Item}
    (some' : ∃ item ∈ items, holds item) : ∃ before last after,
      items = before ++ last :: after ∧ holds last ∧ ∀ item ∈ after, ¬ holds item := by
  induction items with
  | nil =>
    obtain ⟨item, member, -⟩ := some'
    cases member
  | cons first rest ih =>
    by_cases later : ∃ item ∈ rest, holds item
    · obtain ⟨before, last, after, rfl, isLast, quiet⟩ := ih later
      exact ⟨first :: before, last, after, rfl, isLast, quiet⟩
    · obtain ⟨item, member, held⟩ := some'
      rcases List.mem_cons.mp member with rfl | inRest
      · exact ⟨[], item, rest, rfl, held, fun other inside held' => later ⟨other, inside, held'⟩⟩
      · exact absurd ⟨item, inRest, held⟩ later

theorem mem_authorityRecords {record : ExecutionRecord} :
    record ∈ authorityRecords json records ↔ record ∈ records ∧ record.isAuthority = true := by
  rw [authorityRecords, mem_sortedBy, List.mem_filter]

theorem mem_before_of_key_le {items before after : List ExecutionRecord}
    {record other : ExecutionRecord}
    (sorted : items.Pairwise fun first second => eventSortKey json first ≤ eventSortKey json second)
    (split : items = before ++ record :: after) (member : other ∈ items) (different : other ≠ record)
    (earlier : eventSortKey json other ≤ eventSortKey json record) : other ∈ before := by
  rw [split] at member sorted
  rcases List.mem_append.mp member with inBefore | other'
  · exact inBefore
  · rcases List.mem_cons.mp other' with same | inAfter
    · exact absurd same different
    · have above := (List.pairwise_cons.mp (List.pairwise_append.mp sorted).2.1).1 other inAfter
      exact absurd (eventSortKey_injective (le_antisymm earlier above)) different

theorem submit_key_le {attempt : SubmitAttempt} (early : attempt.sendAttemptAt ≤ fact.primaryTime) :
    eventSortKey json (.submitAttempt attempt) ≤ eventSortKey json (.brokerFact fact) := by
  rw [eventSortKey, eventSortKey, Prod.Lex.toLex_le_toLex]
  rcases early.lt_or_eq with less | same
  · exact .inl less
  · exact .inr ⟨same, Prod.Lex.toLex_le_toLex.mpr (.inl Nat.zero_lt_one)⟩

variable {intent : OrderIntent}

/-- **The snapshot that reports a total last decides it.** -/
theorem deriveQuantityAuthority_confirmed (submitFirst : SubmitFirst records)
    (submitted : submitAttempts records ≠ [])
    (reported : ∃ readback ∈ readbacks records, readback.totalQuantity ≠ none) :
    ∃ readback ∈ readbacks records,
      (deriveQuantityAuthority json intent records).confirmed = readback.totalQuantity ∧
      readback.totalQuantity ≠ none ∧
      ∀ other ∈ readbacks records, other.totalQuantity ≠ none →
        eventSortKey json (.brokerFact (.readback other)) ≤
          eventSortKey json (.brokerFact (.readback readback)) := by
  have inRecords : ∀ {readback}, readback ∈ readbacks records →
      .brokerFact (.readback readback) ∈ authorityRecords json records := by
    intro readback member
    exact mem_authorityRecords.mpr ⟨mem_brokerFacts.mp (mem_readbacks.mp member), rfl⟩
  have sorted := pairwise_sortedBy (eventSortKey json)
    (records.filter ExecutionRecord.isAuthority)
  obtain ⟨before, last, after, split, ⟨readback, total, rfl, isTotal⟩, quiet⟩ :
      ∃ before last after, authorityRecords json records = before ++ last :: after ∧
        Reports last ∧ ∀ record ∈ after, ¬ Reports record := by
    obtain ⟨readback, member, some'⟩ := reported
    obtain ⟨total, isTotal⟩ := Option.ne_none_iff_exists'.mp some'
    exact exists_last ⟨_, inRecords member, readback, total, rfl, isTotal⟩
  have member : .brokerFact (.readback readback) ∈ authorityRecords json records := by
    rw [split]
    exact List.mem_append_right _ List.mem_cons_self
  have isFact := mem_brokerFacts.mpr (mem_authorityRecords.mp member).1
  refine ⟨readback, mem_readbacks.mpr isFact, ?_, by simp [isTotal], ?_⟩
  · obtain ⟨attempt, isAttempt, early⟩ := submitFirst submitted
    have attempted : .submitAttempt attempt ∈ before := by
      apply mem_before_of_key_le sorted split ?_ (fun same => ExecutionRecord.noConfusion same)
        (submit_key_le (early _ isFact))
      exact mem_authorityRecords.mpr ⟨mem_submitAttempts.mp isAttempt, rfl⟩
    rw [deriveQuantityAuthority, split, List.foldl_append, List.foldl_cons, isTotal]
    refine foldl_confirmed ?_ quiet
    rw [QuantityAuthority.next, if_pos (foldl_submitted (.inr ⟨attempt, attempted⟩))]
    exact onReadback_confirmed isTotal
  · intro other isReadback some'
    have inItems := inRecords isReadback
    rw [split] at inItems
    rw [authorityRecords] at split
    rw [split] at sorted
    rcases List.mem_append.mp inItems with inBefore | inRest
    · exact (List.pairwise_append.mp sorted).2.2 _ inBefore _ List.mem_cons_self
    · rcases List.mem_cons.mp inRest with same | inAfter
      · rw [same]
      · obtain ⟨total', isTotal'⟩ := Option.ne_none_iff_exists'.mp some'
        exact absurd ⟨other, total', rfl, isTotal'⟩ (quiet _ inAfter)

theorem totalQuantity_of_filled (filled : readbackTerminalState record = some .filled) :
    record.totalQuantity = some record.cumulativeQuantity := by
  have admitted := record.admitted
  rw [readbackTerminalState] at filled
  split at filled
  case h_1 isFilled =>
    rw [isFilled] at admitted
    exact admitted.2
  case h_2 =>
    split at filled
    case isTrue whole => exact whole
    case isFalse => cases filled
  all_goals cases filled

/-- **An order that is filled is filled at the confirmed total.** -/
theorem confirmed_of_filled (submitFirst : SubmitFirst records)
    (clean : Clean json (deriveQuantityAuthority json intent records) records)
    (filled : deriveBrokerState json records = .filled) :
    (deriveQuantityAuthority json intent records).confirmed =
      some (deriveObservedCumulative records) := by
  obtain ⟨fact, member, completes⟩ := exists_completes filled
  have submitted : submitAttempts records ≠ [] := by
    rcases clean.submitted with noFact | submitted
    · rw [noFact] at member
      cases member
    · exact submitted
  cases fact with
  | acknowledgement record => exact False.elim completes
  | reject record => exact False.elim completes
  | fill record =>
    have most := cumulativeQuantity_le member rfl
    have positive : 0 < deriveObservedCumulative records :=
      (record.fill_pos.trans record.fill_le).trans most
    obtain ⟨total, isTotal⟩ := Option.ne_none_iff_exists'.mp (clean.confirmed positive)
    have fits := clean.kinds total isTotal record (mem_fillRecords.mpr member)
    rw [FillRecord.MismatchesTotal, (completes : record.kind = .completeFill)] at fits
    rw [isTotal, le_antisymm (clean.within total isTotal) (not_not.mp fits ▸ most)]
  | readback record =>
    have whole := totalQuantity_of_filled completes
    have decided : ∃ record ∈ readbacks records, record.totalQuantity ≠ none :=
      ⟨record, mem_readbacks.mpr member, by simp [whole]⟩
    obtain ⟨last, isLast, decides, some', latest⟩ :=
      deriveQuantityAuthority_confirmed submitFirst submitted decided
    have isFilled := readbackTerminalState_of_clean clean.facts member completes
      (mem_readbacks.mp isLast) some'
      (latest record (mem_readbacks.mpr member) (by simp [whole]))
    have whole' := totalQuantity_of_filled isFilled
    rw [whole'] at decides
    rw [decides, le_antisymm (clean.within _ decides)
      (cumulativeQuantity_le (mem_readbacks.mp isLast) rfl)]

/-! ## Clean lifecycles -/

/-- A lifecycle that needs no reconciliation has no reason for one. -/
theorem clean_of_state
    (settled : (projectRecords json intent records).state ≠ .reconciliationRequired) :
    Clean json (deriveQuantityAuthority json intent records) records ∧
      ¬ HasInvalidReplaceBasis json intent records := by
  have reasons : (projectRecords json intent records).reconciliationReasons = ∅ := by
    by_contra some'
    exact settled (if_pos some')
  rw [projectRecords, Finset.union_eq_empty, deriveReconciliationReasons_eq_empty,
    reasonIf_eq_empty, decide_eq_false_iff_not] at reasons
  exact reasons

theorem settled_of_effective {reasons : Finset ReconciliationReason}
    {uncertainSince : Option ℤ} {brokerState state : ExecutionState}
    (effective : effectiveState reasons uncertainSince brokerState = state)
    (noReconciliation : state ≠ .reconciliationRequired) (known : state ≠ .unknown) :
    reasons = ∅ ∧ uncertainSince = none ∧ brokerState = state := by
  rw [effectiveState] at effective
  split at effective
  case isTrue => exact absurd effective.symm noReconciliation
  case isFalse noReason =>
    split at effective
    case isTrue => exact absurd effective.symm known
    case isFalse certain => exact ⟨not_not.mp noReason, not_not.mp certain, effective⟩

namespace ExecutionLifecycle

/-- **A lifecycle that needs no reconciliation is economically exact.** -/
theorem economicsExact (json : Serialization) (life : ExecutionLifecycle)
    (reachable : Reachable json life) (settled : life.state ≠ .reconciliationRequired) :
    (fillRecords life.records).Pairwise (fun first second => Disjoint first.units second.units) ∧
    (∀ unit, (∃ record ∈ fillRecords life.records, unit ∈ record.units) ↔
      unit < life.filledQuantity) ∧
    ((fillRecords life.records).map fun record => record.fillQuantity).sum =
      life.filledQuantity ∧
    (0 < life.filledQuantity → ∃ total, life.brokerConfirmedTotalQuantity = some total ∧
      life.filledQuantity ≤ total) ∧
    (life.state = .filled → life.brokerConfirmedTotalQuantity = some life.filledQuantity) := by
  obtain ⟨projected, -, -, submitFirst⟩ := reachable.retains
  rw [projected] at settled ⊢
  obtain ⟨clean, -⟩ := clean_of_state settled
  refine ⟨pairwise_disjoint_units clean, mem_units_iff clean, sum_fillQuantity clean, ?_, ?_⟩
  · intro positive
    obtain ⟨total, isTotal⟩ := Option.ne_none_iff_exists'.mp (clean.confirmed positive)
    exact ⟨total, isTotal, clean.within total isTotal⟩
  · intro filled
    refine confirmed_of_filled submitFirst clean ?_
    exact (settled_of_effective filled (by decide) (by decide)).2.2

/-- A submit, its acknowledgement and a fill of the whole order, all at one instant. -/
def sampleFilled : List ExecutionRecord :=
  [.submitAttempt (sampleAttempt "s" 0),
    .brokerFact (.acknowledgement (sampleAcknowledgement "a" 0 0)),
    .brokerFact (.fill (sampleFill "f" .completeFill 2 2 Nat.two_pos Nat.one_lt_two 0))]

/-- Two contracts, filled at once. -/
theorem economicsExact_sample :
    ((fillRecords sampleFilled).map fun record => record.fillQuantity).sum = 2 :=
  (economicsExact sampleSerialization
    (projectRecords sampleSerialization (sampleIntent 2 (by decide)) sampleFilled)
    ⟨sampleFilled, rfl⟩ (by decide)).2.2.1

end ExecutionLifecycle

end TreeOptions.Execution
