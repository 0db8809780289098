import TreeOptions.SealGate.Criteria

/-!
# What a pass of the sealed gate certifies

A gate that passed has checked every stamped fill by the texts of its stamps, and every book by the
volume that was stamped last in it. So it certifies that the fills keep to their bars just when the
order of the texts is the order of what they stand for and each book has one stamp, or stays within
all of its volumes (`pass_certifies_iff`). The replay and the mutation campaign are certified in
every case.

What instant a stamp stands for is a function that is given.
-/

set_option autoImplicit false

namespace TreeOptions.SealGate

/-! ## The certificate -/

section Certificate

variable (instantOf : String → Option ℤ)

structure FillSound (calendar : Backtest.TradingCalendar) (fill : Fill) : Prop where
  afterDecision : ∃ decision execution date date', fill.decisionSession = .of decision ∧
    fill.executionSession = .of execution ∧ dateFromIso decision = some date ∧
      dateFromIso execution = some date' ∧ date < date'
  barReceived : ∃ received executionAt instant instant', fill.quoteReceivedAt = .of received ∧
    fill.executionAt = .of executionAt ∧ instantOf received = some instant ∧
      instantOf executionAt = some instant' ∧ instant ≤ instant'
  nextSession : ∃ bar execution date date' index, fill.barSession = .of bar ∧
    fill.executionSession = .of execution ∧ dateFromIso bar = some date ∧
      dateFromIso execution = some date' ∧ calendar.position date = some index ∧
        calendar.position date' = some (index + 1)

/-- The fills of a contract against the bar of a session. -/
def bookFills (payload : TrialPayload) (contract : String) (session : ℤ) : List Fill :=
  payload.fillsLog.filter fun fill =>
    fill.contractId.asText = some contract ∧ fill.barSession.value?.bind dateFromIso = some session

def Fill.taken (fill : Fill) : ℤ :=
  fill.quantity.value?.getD 0

/-- The fills of a book sum to at most every volume that is stamped on one of them. -/
def WithinVolumes (payload : TrialPayload) (contract : String) (session : ℤ) : Prop :=
  ∀ fill ∈ bookFills payload contract session, ∀ volume, fill.barVolume = .of volume →
    ((bookFills payload contract session).map Fill.taken).sum ≤ volume

/-- The report has one entry for each mutant of the registry, each is killed, and what the report
declares is what the registry and the sealed head say. -/
structure CampaignSound (report : MutationReport) (ids : Finset String) (digest head : String) :
    Prop where
  once : (report.mutants.map fun entry => entry.id.getText).Nodup
  live : ∀ id, id ∈ ids ↔ ∃ entry ∈ report.mutants, entry.id.getText = id
  killed : ∀ entry ∈ report.mutants, entry.verdict = .of "KILLED"
  total : report.total = .of (ids.card : ℤ)
  totals : report.killed = .of (ids.card : ℤ)
  selection : ∃ selection, report.selection = some selection ∧
    selection.count = some (ids.card : ℤ)
  digest : report.registryDigest = some digest
  head : report.head = some head

structure Certified (input : GateInput) (ids : Finset String) (digest head : String) : Prop where
  fills : ∀ row ∈ input.trialPayloads.rows, ∀ fill ∈ row.2.fillsLog,
    FillSound instantOf input.executionCalendar fill
  books : ∀ row ∈ input.trialPayloads.rows, ∀ contract session,
    WithinVolumes row.2 contract session
  replayed : ∃ replay, input.replayHashes = some replay ∧
    ∀ name, (replay.find? name).map Prod.snd = (input.stampedHashes.find? name).map Prod.snd
  campaign : ∃ report, input.mutationReport = .report report ∧
    CampaignSound report ids digest head

/-! ## The condition -/

/-- The order of the texts is the order of what they stand for. -/
structure OrderKept (fill : Fill) : Prop where
  sessions : ∀ decision execution, fill.decisionSession.getOr "~" = some decision →
    fill.executionSession = .of execution → decision < execution →
      fill.decisionSession = .of decision ∧ ∃ date date', dateFromIso decision = some date ∧
        dateFromIso execution = some date' ∧ date < date'
  instants : ∀ received executionAt, fill.quoteReceivedAt.getOr "~" = some received →
    fill.executionAt = .of executionAt → ¬ executionAt < received →
      fill.quoteReceivedAt = .of received ∧ ∃ instant instant', instantOf received = some instant ∧
        instantOf executionAt = some instant' ∧ instant ≤ instant'

/-- The fills of a book stamp the session of the bar in one text, and one volume of it. -/
def OneStamp (payload : TrialPayload) (contract : String) (session : ℤ) : Prop :=
  ∀ fill ∈ bookFills payload contract session, ∀ other ∈ bookFills payload contract session,
    fill.barSession = other.barSession ∧ fill.barVolume = other.barVolume

structure StampsAgree (input : GateInput) : Prop where
  inOrder : ∀ row ∈ input.trialPayloads.rows, ∀ fill ∈ row.2.fillsLog, OrderKept instantOf fill
  books : ∀ row ∈ input.trialPayloads.rows, ∀ contract session,
    OneStamp row.2 contract session ∨ WithinVolumes row.2 contract session

end Certificate

/-! ## A fill that was judged -/

theorem getText_eq_of {entry : Entry String} {text : String} (other : text ≠ "None")
    (same : entry.getText = text) : entry = .of text := by
  cases entry with
  | absent => exact absurd same.symm other
  | null => exact absurd same.symm other
  | of value =>
    cases same
    rfl

theorem value?_eq_some {Value : Type} {entry : Entry Value} {value : Value} :
    entry.value? = some value ↔ entry = .of value := by
  cases entry <;> simp [Entry.value?]

/-- What a fill without a failure takes of its bar. -/
def bookOf (row : String × Fill) : BookedFill :=
  ⟨(row.1, row.2.contractId.asText.getD "", row.2.barSession.value?.getD ""), row.2.taken,
    (row.2.barVolume.getOr (-1)).getD (-1)⟩

/-- A fill that was judged and has no failure. -/
structure Clean (calendar : Backtest.TradingCalendar) (fill : Fill) : Prop where
  sessions : ∃ decision execution, fill.decisionSession.getOr "~" = some decision ∧
    fill.executionSession = .of execution ∧ decision < execution
  instants : ∃ received executionAt, fill.quoteReceivedAt.getOr "~" = some received ∧
    fill.executionAt = .of executionAt ∧ ¬ executionAt < received
  gap : ∃ execution bar, fill.executionSession = .of execution ∧ fill.barSession = .of bar ∧
    ordinalGap calendar execution bar = some 1
  contract : ∃ contract, fill.contractId.asText = some contract

variable {calendar : Backtest.TradingCalendar} {fill : Fill}

theorem judgeFill_clean {key : String} {booked : Option BookedFill}
    (judged : judgeFill calendar key fill = some ([], booked)) :
    Clean calendar fill ∧ booked = some (bookOf (key, fill)) := by
  rw [judgeFill] at judged
  obtain ⟨decision, isDecision, judged⟩ := Option.bind_eq_some_iff.mp judged
  obtain ⟨execution, isExecution, judged⟩ := Option.bind_eq_some_iff.mp judged
  split at judged
  case isFalse => simp at judged
  case isTrue after =>
    obtain ⟨received, isReceived, judged⟩ := Option.bind_eq_some_iff.mp judged
    obtain ⟨executionAt, isExecutionAt, judged⟩ := Option.bind_eq_some_iff.mp judged
    dsimp only at judged
    split at judged
    case h_1 => simp at judged
    case h_2 bar isBar =>
      split at judged
      case h_1 => simp at judged
      case h_2 gap isGap =>
        obtain ⟨contract, isContract, judged⟩ := Option.bind_eq_some_iff.mp judged
        obtain ⟨quantity, isQuantity, judged⟩ := Option.bind_eq_some_iff.mp judged
        obtain ⟨volume, isVolume, judged⟩ := Option.bind_eq_some_iff.mp judged
        obtain ⟨failures, isBooked⟩ := Prod.mk.inj (Option.some.inj judged)
        obtain ⟨inTime, oneGap⟩ := List.append_eq_nil_iff.mp failures
        rw [ite_eq_right_iff] at inTime oneGap
        have isOne : gap = 1 := by
          by_contra differs
          exact List.cons_ne_nil _ _ (oneGap differs)
        rw [isOne] at isGap
        refine ⟨⟨⟨decision, execution, isDecision, value?_eq_some.mp isExecution, after⟩,
          ⟨received, executionAt, isReceived, value?_eq_some.mp isExecutionAt, ?_⟩,
          ⟨execution, bar, value?_eq_some.mp isExecution, value?_eq_some.mp isBar, isGap⟩,
          ⟨contract, isContract⟩⟩, ?_⟩
        · intro early
          exact List.cons_ne_nil _ _ (inTime early)
        · rw [← isBooked, bookOf, Fill.taken, isContract, isBar, isQuantity, isVolume]
          rfl

theorem ordinalGap_eq_one {execution bar : String}
    (gap : ordinalGap calendar execution bar = some 1) :
    ∃ date date' index, dateFromIso bar = some date ∧ dateFromIso execution = some date' ∧
      calendar.position date = some index ∧ calendar.position date' = some (index + 1) := by
  rw [ordinalGap] at gap
  obtain ⟨executed, isExecuted, gap⟩ := Option.bind_eq_some_iff.mp gap
  obtain ⟨observed, isObserved, gap⟩ := Option.bind_eq_some_iff.mp gap
  obtain ⟨date', isDate', isExecuted⟩ := Option.bind_eq_some_iff.mp isExecuted
  obtain ⟨date, isDate, isObserved⟩ := Option.bind_eq_some_iff.mp isObserved
  have difference : (executed : ℤ) - observed = 1 := Option.some.inj gap
  have next : executed = observed + 1 := by omega
  exact ⟨date, date', observed, isDate, isDate', isObserved, next ▸ isExecuted⟩

/-! ## The books -/

theorem foldl_participation (rows : List BookedFill) (books : Books) :
    (rows.foldl Books.add books).participation =
      rows.foldl (fun dict row => dict.set row.book (dict.get row.book + row.quantity))
        books.participation := by
  induction rows generalizing books with
  | nil => rfl
  | cons row rest ih => exact ih _

theorem foldl_barVolumes (rows : List BookedFill) (books : Books) :
    (rows.foldl Books.add books).barVolumes =
      rows.foldl (fun dict row => dict.set row.book row.volume) books.barVolumes := by
  induction rows generalizing books with
  | nil => rfl
  | cons row rest ih => exact ih _

theorem within_last {rows : List BookedFill}
    (within : (rows.foldl Books.add .empty).exceeded = []) {book : BookKey} {last : BookedFill}
    (isLast : (rows.filter fun row => row.book = book).getLast? = some last) :
    ((rows.filter fun row => row.book = book).map BookedFill.quantity).sum ≤ last.volume := by
  have member := List.mem_filter.mp (List.mem_of_getLast? isLast)
  have known : book ∈ (rows.foldl Books.add .empty).participation.keys := by
    rw [foldl_participation, DefaultDict.mem_keys_foldl]
    exact Or.inr ⟨last, member.1, of_decide_eq_true member.2⟩
  have notOver : ¬ (rows.foldl Books.add .empty).barVolumes.get book <
      (rows.foldl Books.add .empty).participation.get book := by
    intro exceeds
    rw [Books.exceeded, List.map_eq_nil_iff, sortedBy_eq_nil, List.filter_eq_nil_iff] at within
    exact within book known (decide_eq_true exceeds)
  rw [foldl_participation, foldl_barVolumes, DefaultDict.get_foldl_add,
    DefaultDict.get_foldl_last, isLast, Option.map_some, Option.getD_some, not_lt] at notOver
  simpa [Books.empty, DefaultDict.empty] using notOver

/-! ## One arm -/

theorem filter_flatMap_of_mem {Item Part : Type} {items : List Item} {parts : Item → List Part}
    {wanted : Part → Bool} {item : Item} (unique : items.Nodup) (member : item ∈ items)
    (others : ∀ other ∈ items, other ≠ item → ∀ part ∈ parts other, wanted part = false) :
    (items.flatMap parts).filter wanted = (parts item).filter wanted := by
  induction items with
  | nil => cases member
  | cons first rest ih =>
    obtain ⟨fresh, unique'⟩ := List.nodup_cons.mp unique
    have nothing : ∀ other ∈ first :: rest, other ≠ item →
        (parts other).filter wanted = [] := by
      intro other isMember differs
      rw [List.filter_eq_nil_iff]
      intro part isPart
      rw [others other isMember differs part isPart]
      exact Bool.false_ne_true
    rw [List.flatMap_cons, List.filter_append]
    rcases List.mem_cons.mp member with rfl | later
    · have rest_ : (rest.flatMap parts).filter wanted = [] := by
        rw [List.filter_flatMap, List.flatMap_eq_nil_iff]
        intro other isMember
        refine nothing other (List.mem_cons_of_mem _ isMember) ?_
        rintro rfl
        exact fresh isMember
      rw [rest_, List.append_nil]
    · have differs : first ≠ item := by
        rintro rfl
        exact fresh later
      rw [nothing first List.mem_cons_self differs, List.nil_append]
      exact ih unique' later fun other isMember =>
        others other (List.mem_cons_of_mem _ isMember)

theorem laneKey_injective : Function.Injective laneKey := by
  intro arm arm' same
  have lists := congrArg String.toList same
  rw [laneKey, laneKey, String.toList_append, String.toList_append] at lists
  exact String.toList_inj.mp (List.append_cancel_left lists)

variable {payloads : Named TrialPayload} {row : String × TrialPayload}

theorem mem_fillRows (member : row ∈ payloads.rows) (inLog : fill ∈ row.2.fillsLog) :
    (laneKey row.1, fill) ∈ fillRows payloads := by
  rw [fillRows, List.mem_flatMap]
  exact ⟨row, mem_sortedBy.mpr member, List.mem_map_of_mem inLog⟩

theorem filter_fillRows (member : row ∈ payloads.rows) (contract bar : String) :
    (fillRows payloads).filter (fun other =>
        (bookOf other).book = (laneKey row.1, contract, bar)) =
      (row.2.fillsLog.map fun fill => (laneKey row.1, fill)).filter fun other =>
        (bookOf other).book = (laneKey row.1, contract, bar) := by
  have distinct : payloads.rows.Nodup := payloads.unique.of_map
  refine filter_flatMap_of_mem ((sortedBy_perm _ _).nodup_iff.mpr distinct)
    (mem_sortedBy.mpr member) ?_
  intro other isMember differs part isPart
  obtain ⟨fill, -, rfl⟩ := List.mem_map.mp isPart
  refine decide_eq_false ?_
  intro same
  have sameArm : other.1 = row.1 := laneKey_injective (congrArg Prod.fst same)
  exact differs (List.inj_on_of_nodup_map payloads.unique (mem_sortedBy.mp isMember) member
    sameArm)

theorem judged_clean {rows : List (String × Fill)}
    {judged : List (List FillFailure × Option BookedFill)}
    (each : (rows.mapM fun row => judgeFill calendar row.1 row.2) = some judged)
    (clean : judged.flatMap Prod.fst = []) :
    (∀ row ∈ rows, Clean calendar row.2) ∧ judged.filterMap Prod.snd = rows.map bookOf := by
  induction rows generalizing judged with
  | nil =>
    cases each
    exact ⟨List.forall_mem_nil _, rfl⟩
  | cons row rest ih =>
    rw [List.mapM_cons] at each
    obtain ⟨⟨failures, booked⟩, first, each⟩ := Option.bind_eq_some_iff.mp each
    obtain ⟨later, others, same⟩ := Option.bind_eq_some_iff.mp each
    cases same
    obtain ⟨rfl, clean⟩ := List.append_eq_nil_iff.mp clean
    obtain ⟨isClean, rfl⟩ := judgeFill_clean first
    obtain ⟨allClean, same⟩ := ih others clean
    refine ⟨List.forall_mem_cons.mpr ⟨isClean, allClean⟩, ?_⟩
    rw [List.map_cons, ← same]
    rfl

theorem criterionFillDiscipline_clean
    (passed : criterionFillDiscipline payloads calendar = some []) :
    (∀ row ∈ fillRows payloads, Clean calendar row.2) ∧
      (((fillRows payloads).map bookOf).foldl Books.add .empty).exceeded = [] := by
  rw [criterionFillDiscipline] at passed
  obtain ⟨judged, each, passed⟩ := Option.bind_eq_some_iff.mp passed
  obtain ⟨clean, within⟩ := List.append_eq_nil_iff.mp (Option.some.inj passed)
  obtain ⟨all, same⟩ := judged_clean each clean
  rw [same] at within
  exact ⟨all, within⟩

/-- **A book with one stamp that was not exceeded stays within its volume.** -/
theorem withinVolumes_of_oneStamp (clean : ∀ row ∈ fillRows payloads, Clean calendar row.2)
    (within : (((fillRows payloads).map bookOf).foldl Books.add .empty).exceeded = [])
    (member : row ∈ payloads.rows) {contract : String} {session : ℤ}
    (one : OneStamp row.2 contract session) : WithinVolumes row.2 contract session := by
  intro fill inBook volume isVolume
  obtain ⟨-, isSession⟩ := of_decide_eq_true (List.mem_filter.mp inBook).2
  obtain ⟨bar, isBar, isDate⟩ := Option.bind_eq_some_iff.mp isSession
  have sameBook : ∀ other ∈ row.2.fillsLog,
      decide ((bookOf (laneKey row.1, other)).book = (laneKey row.1, contract, bar)) =
        decide (other.contractId.asText = some contract ∧
          other.barSession.value?.bind dateFromIso = some session) := by
    intro other inLog
    have isClean := clean _ (mem_fillRows member inLog)
    obtain ⟨contract', isContract'⟩ := isClean.contract
    obtain ⟨execution, bar', -, isBar', -⟩ := isClean.gap
    rw [decide_eq_decide, bookOf, isContract', isBar', Option.getD_some, Entry.value?,
      Option.getD_some, Option.bind_some]
    constructor
    · intro same
      cases same
      exact ⟨rfl, isDate⟩
    · rintro ⟨sameContract, sameSession⟩
      have others : other ∈ bookFills row.2 contract session := by
        refine List.mem_filter.mpr ⟨inLog, decide_eq_true ⟨isContract'.trans sameContract, ?_⟩⟩
        rw [isBar']
        exact sameSession
      have stamps := (one fill inBook other others).1
      rw [value?_eq_some.mp isBar, isBar'] at stamps
      cases stamps
      cases sameContract
      rfl
  have rows : ((fillRows payloads).map bookOf).filter
        (fun booked => booked.book = (laneKey row.1, contract, bar)) =
      (bookFills row.2 contract session).map fun other => bookOf (laneKey row.1, other) := by
    rw [List.filter_map]
    have arm := filter_fillRows member contract bar
    rw [List.filter_map, Function.comp_def] at arm
    rw [Function.comp_def, arm, List.map_map, bookFills]
    rw [List.filter_congr sameBook]
    rfl
  obtain ⟨last, isLast⟩ := Option.isSome_iff_exists.mp
    (List.getLast?_isSome.mpr (List.ne_nil_of_mem inBook))
  have isLastRow : (((fillRows payloads).map bookOf).filter fun booked =>
      booked.book = (laneKey row.1, contract, bar)).getLast? =
        some (bookOf (laneKey row.1, last)) := by
    rw [rows, List.getLast?_map, isLast]
    rfl
  have bound := within_last within isLastRow
  rw [rows, List.map_map] at bound
  have sameVolume := (one fill inBook last (List.mem_of_getLast? isLast)).2
  have lastVolume : (bookOf (laneKey row.1, last)).volume = volume := by
    rw [bookOf, ← sameVolume, isVolume]
    rfl
  rw [lastVolume] at bound
  exact bound

/-! ## The replay and the campaign -/

theorem find?_eq_none_iff {Value : Type} {named : Named Value} {name : String} :
    named.find? name = none ↔ name ∉ named.rows.map Prod.fst := by
  constructor
  · exact Table.not_mem_of_find?_eq_none
  · intro absent
    cases found : named.find? name with
    | none => rfl
    | some row =>
      obtain ⟨member, rfl⟩ := Table.find?_eq_some_iff.mp found
      exact absurd (List.mem_map_of_mem member) absent

/-- A replay without a failure has the payloads that were stamped, with their hashes. -/
theorem criterionDeterminism_clean {stamped : Named String} {replay? : Option (Named String)}
    {aliased : Bool} (passed : criterionDeterminism stamped replay? aliased = []) :
    ∃ replay, replay? = some replay ∧
      ∀ name, (replay.find? name).map Prod.snd = (stamped.find? name).map Prod.snd := by
  cases aliased with
  | true => cases passed
  | false =>
    cases replay? with
    | none => cases passed
    | some replay =>
      simp only [criterionDeterminism, Bool.false_eq_true, if_false, List.append_eq_nil_iff, List.map_eq_nil_iff,
        List.filter_eq_nil_iff, decide_eq_true_eq, not_not, not_and, ne_eq] at passed
      obtain ⟨⟨missing, extra⟩, diverged⟩ := passed
      refine ⟨replay, rfl, ?_⟩
      intro name
      by_cases known : name ∈ stamped.rows.map Prod.fst
      · exact (diverged name known (missing name known)).symm
      · have unknown : name ∉ replay.rows.map Prod.fst := fun inReplay =>
          known (extra name inReplay)
        rw [find?_eq_none_iff.mpr known, find?_eq_none_iff.mpr unknown]

variable {report : MutationReport}

theorem selectionFailures_clean {total : ℤ} (passed : selectionFailures report total = []) :
    ∃ selection, report.selection = some selection ∧ selection.count = some total := by
  rw [selectionFailures] at passed
  split at passed
  case isTrue => cases passed
  case isFalse =>
    obtain ⟨counted, -⟩ := List.append_eq_nil_iff.mp passed
    split at counted
    case h_1 => cases counted
    case h_2 count isCount =>
      obtain ⟨selection, isSelection, same⟩ := Option.bind_eq_some_iff.mp isCount
      have isTotal : count = total := by
        by_contra differs
        exact List.cons_ne_nil _ _ (ite_eq_right_iff.mp counted differs)
      exact ⟨selection, isSelection, isTotal ▸ same⟩

theorem registryFailures_clean {ids : Finset String} {digest : String}
    (passed : registryFailures report (some ids) (some digest) = []) :
    (report.mutants.map fun entry => entry.id.getText).toFinset = ids ∧
      report.registryDigest = some digest := by
  simp only [registryFailures, List.append_eq_nil_iff, ite_eq_right_iff, List.cons_ne_nil,
    imp_false, not_not, ne_eq] at passed
  obtain ⟨⟨omitted, foreign⟩, digest'⟩ := passed
  refine ⟨?_, digest'⟩
  exact Finset.Subset.antisymm (Finset.sdiff_eq_empty_iff_subset.mp foreign)
    (Finset.sdiff_eq_empty_iff_subset.mp omitted)

/-- A number that is not negative was stamped where it is read with a default of minus one. -/
theorem eq_of_getOr {entry : Entry ℤ} {count : ℕ} (read : entry.getOr (-1) = some (count : ℤ)) :
    entry = .of (count : ℤ) := by
  cases entry with
  | absent =>
    have same : (-1 : ℤ) = count := Option.some.inj read
    omega
  | null => cases read
  | of value =>
    rw [Option.some.inj read]

/-- **A report without a failure is the campaign of the registry.** -/
theorem reportFailures_clean {ids : Finset String} {digest head : String}
    (passed : reportFailures report (some ids) (some digest) (some head) = some []) :
    CampaignSound report ids digest head := by
  rw [reportFailures] at passed
  obtain ⟨total, isTotal, passed⟩ := Option.bind_eq_some_iff.mp passed
  obtain ⟨killed, isKilled, passed⟩ := Option.bind_eq_some_iff.mp passed
  have failures := Option.some.inj passed
  simp only [List.append_eq_nil_iff, ite_eq_right_iff, List.cons_ne_nil, imp_false, not_not,
    ne_eq] at failures
  obtain ⟨⟨⟨⟨⟨⟨⟨⟨allKilled, -⟩, selected⟩, entries⟩, unique⟩, verdicts⟩, -⟩, registry⟩, headed⟩ :=
    failures
  have once : (report.mutants.map fun entry => entry.id.getText).Nodup := by
    by_contra repeated
    rw [if_neg repeated] at unique
    cases unique
  obtain ⟨sameIds, sameDigest⟩ := registryFailures_clean registry
  have card : total = (ids.card : ℤ) := by
    rw [entries, ← sameIds, List.toFinset_card_of_nodup once]
  subst card
  have counted : (report.mutants.countP fun entry => entry.verdict.getText = "KILLED") =
      report.mutants.length := by
    rw [List.length_map] at entries
    exact_mod_cast verdicts.trans entries
  refine ⟨once, ?_, ?_, eq_of_getOr isTotal, eq_of_getOr (allKilled ▸ isKilled),
    selectionFailures_clean selected, sameDigest, ?_⟩
  · intro id
    rw [← sameIds, List.mem_toFinset, List.mem_map]
  · intro entry member
    have isText := List.countP_eq_length.mp counted entry member
    exact getText_eq_of (by decide) (of_decide_eq_true isText)
  · by_contra other
    rw [headFailures, Option.any_some, if_pos (decide_eq_true other)] at headed
    cases headed

/-! ## The gate -/

theorem verdict_eq_pass {evaluation : G4GateEvaluation} (passed : evaluation.verdict = .pass) :
    evaluation = ⟨[], [], [], [], [], []⟩ := by
  by_contra differs
  rw [G4GateEvaluation.verdict, if_neg differs] at passed
  cases passed

variable {instantOf : String → Option ℤ}

theorem FillSound.orderKept (sound : FillSound instantOf calendar fill) :
    OrderKept instantOf fill := by
  constructor
  · intro decision execution isDecision isExecution _
    obtain ⟨decision', execution', date, date', same, same', dates⟩ := sound.afterDecision
    rw [same] at isDecision ⊢
    rw [same'] at isExecution
    cases isDecision
    cases isExecution
    exact ⟨rfl, date, date', dates⟩
  · intro received executionAt isReceived isExecutionAt _
    obtain ⟨received', executionAt', instant, instant', same, same', instants⟩ := sound.barReceived
    rw [same] at isReceived ⊢
    rw [same'] at isExecutionAt
    cases isReceived
    cases isExecutionAt
    exact ⟨rfl, instant, instant', instants⟩

theorem Clean.fillSound (clean : Clean calendar fill) (kept : OrderKept instantOf fill) :
    FillSound instantOf calendar fill := by
  obtain ⟨decision, execution, isDecision, isExecution, after⟩ := clean.sessions
  obtain ⟨received, executionAt, isReceived, isExecutionAt, inTime⟩ := clean.instants
  obtain ⟨stamped, date, date', dates⟩ :=
    kept.sessions decision execution isDecision isExecution after
  obtain ⟨stamped', instant, instant', instants⟩ :=
    kept.instants received executionAt isReceived isExecutionAt inTime
  obtain ⟨execution', bar, isExecution', isBar, gap⟩ := clean.gap
  obtain ⟨barDate, executed, index, positions⟩ := ordinalGap_eq_one gap
  exact ⟨⟨decision, execution, date, date', stamped, isExecution, dates⟩,
    ⟨received, executionAt, instant, instant', stamped', isExecutionAt, instants⟩,
    ⟨bar, execution', barDate, executed, index, isBar, isExecution', positions⟩⟩

/-- **A gate that passed certifies what it says just when the stamps agree.** -/
theorem pass_certifies_iff (instantOf : String → Option ℤ) (input : GateInput)
    (ids : Finset String) (digest head : String) (evaluation : G4GateEvaluation)
    (supplied : input.mutationRegistryIds = some ids ∧ input.mutationRegistryDigest = some digest ∧
      input.head = some head)
    (evaluated : evaluateG4Criteria input = some evaluation)
    (passed : evaluation.verdict = .pass) :
    Certified instantOf input ids digest head ↔ StampsAgree instantOf input := by
  obtain rfl := verdict_eq_pass passed
  rw [evaluateG4Criteria, supplied.1, supplied.2.1, supplied.2.2] at evaluated
  obtain ⟨manifest, -, evaluated⟩ := Option.bind_eq_some_iff.mp evaluated
  obtain ⟨fillFailures, filled, evaluated⟩ := Option.bind_eq_some_iff.mp evaluated
  obtain ⟨mutationFailures, mutated, evaluated⟩ := Option.bind_eq_some_iff.mp evaluated
  simp only [Option.pure_def, Option.some.injEq, G4GateEvaluation.mk.injEq] at evaluated
  obtain ⟨-, -, rfl, -, replayed, rfl⟩ := evaluated
  obtain ⟨clean, within⟩ := criterionFillDiscipline_clean filled
  constructor
  · intro certified
    refine ⟨fun row member fill inLog => (certified.fills row member fill inLog).orderKept, ?_⟩
    intro row member contract session
    exact Or.inr (certified.books row member contract session)
  · intro agree
    refine ⟨?_, ?_, criterionDeterminism_clean replayed, ?_⟩
    · intro row member fill inLog
      exact (clean _ (mem_fillRows member inLog)).fillSound (agree.inOrder row member fill inLog)
    · intro row member contract session
      rcases agree.books row member contract session with one | fits
      · exact withinVolumes_of_oneStamp clean within member one
      · exact fits
    · cases report : input.mutationReport with
      | missing =>
        rw [report] at mutated
        cases mutated
      | malformed reason =>
        rw [report] at mutated
        cases mutated
      | report report' =>
        rw [report] at mutated
        exact ⟨report', rfl, reportFailures_clean mutated⟩

/-! ## Two fills of one bar -/

theorem sampleDays_nonempty : ([20458, 20459] : List ℤ) ≠ [] := by
  decide

theorem sampleDays_increasing : ([20458, 20459] : List ℤ).Pairwise (· < ·) := by
  decide

theorem sampleDays_opens : ∀ session ∈ ([20458, 20459] : List ℤ), 4 * session ≤ 4 * session + 1 := by
  decide

theorem sampleDays_ordered : ∀ first ∈ ([20458, 20459] : List ℤ),
    ∀ second ∈ ([20458, 20459] : List ℤ), first < second → 4 * first + 1 < 4 * second := by
  decide

/-- The fifth and the sixth of January 2026. -/
def twoDays : Backtest.TradingCalendar :=
  ⟨⟨[20458, 20459], sampleDays_nonempty, sampleDays_increasing⟩, fun day => 4 * day,
    fun day => 4 * day + 1, sampleDays_opens, sampleDays_ordered⟩

/-- A fill on the second day against the bar of the first. -/
def sampleFill (quantity volume : ℤ) : Fill where
  fillId := .of "fill"
  contractId := .of "C"
  quantity := .of quantity
  decisionSession := .of "2026-01-05"
  executionSession := .of "2026-01-06"
  executionAt := .of "2026-01-06T15:00:00+00:00"
  quoteReceivedAt := .of "2026-01-05T22:00:00+00:00"
  barSession := .of "2026-01-05"
  barVolume := .of volume

/-- Three packages and then one, against one bar. The first fill stamps another volume of it. -/
def samplePayload (volume : ℤ) : TrialPayload :=
  ⟨[sampleFill 3 volume, sampleFill 1 10], some 100, fun _ _ => 1, 0, []⟩

theorem one_arm (volume : ℤ) : ([("A", samplePayload volume)].map Prod.fst).Nodup :=
  List.nodup_singleton _

theorem one_hash : ([("A.json", "hash")].map Prod.fst).Nodup :=
  List.nodup_singleton _

def sampleHashes : Named String :=
  ⟨[("A.json", "hash")], one_hash⟩

def sampleCensus : LaneCensus :=
  ⟨⟨true, "manifest", some 1, some 1, .of 1, .of 1⟩, ⟨0, 50, 0, 0⟩, ["quote"], some "quote"⟩

def sampleReport : MutationReport :=
  ⟨.of 1, .of 1, true, some ⟨some "full", some 1⟩, some 1,
    [⟨.of "M1", .of "KILLED", "seal/g4_gate.py", ""⟩], some "digest", some "head"⟩

def sampleInput (volume : ℤ) : GateInput where
  protocolThreshold := some 100
  lane1Census := sampleCensus
  lane2Census := sampleCensus
  trialPayloads := ⟨[("A", samplePayload volume)], one_arm volume⟩
  executionCalendar := twoDays
  stampedHashes := sampleHashes
  replayHashes := some sampleHashes
  replayAliased := false
  mutationReport := .report sampleReport
  eraTarget := .counts 1 1
  mutationRegistryIds := some {"M1"}
  mutationRegistryDigest := some "digest"
  head := some "head"
  rejectionFloor := 50
  rejectionLane1Floor := 0
  lane2ManifestContentHash := "manifest"

/-- The instants of the stamps of the sample. -/
def sampleInstant (text : String) : Option ℤ :=
  if text = "2026-01-05T22:00:00+00:00" then some 0
  else if text = "2026-01-06T15:00:00+00:00" then some 1
  else none

theorem same_volume_passes :
    evaluateG4Criteria (sampleInput 10) = some ⟨[], [], [], [], [], []⟩ := by
  decide +kernel

theorem other_volume_passes :
    evaluateG4Criteria (sampleInput 2) = some ⟨[], [], [], [], [], []⟩ := by
  decide +kernel

theorem pass_certifies_sample :
    Certified sampleInstant (sampleInput 10) {"M1"} "digest" "head" ↔
      StampsAgree sampleInstant (sampleInput 10) :=
  pass_certifies_iff sampleInstant (sampleInput 10) {"M1"} "digest" "head" _ ⟨rfl, rfl, rfl⟩
    same_volume_passes rfl

theorem sampleFill_inBook : sampleFill 3 2 ∈ bookFills (samplePayload 2) "C" 20458 := by
  decide +kernel

theorem sampleBook_total :
    ((bookFills (samplePayload 2) "C" 20458).map Fill.taken).sum = 4 := by
  decide +kernel

/-- The gate passes although four packages were taken of a bar that is stamped with a volume of
two. -/
theorem overwritten_volume_passes :
    ∃ (input : GateInput) (evaluation : G4GateEvaluation),
      (input.mutationRegistryIds = some {"M1"} ∧ input.mutationRegistryDigest = some "digest" ∧
        input.head = some "head") ∧ evaluateG4Criteria input = some evaluation ∧
        evaluation.verdict = .pass ∧
          ¬ Certified sampleInstant input {"M1"} "digest" "head" := by
  refine ⟨sampleInput 2, _, ⟨rfl, rfl, rfl⟩, other_volume_passes, rfl, ?_⟩
  intro certified
  have within := certified.books ("A", samplePayload 2) List.mem_cons_self "C" 20458
    (sampleFill 3 2) sampleFill_inBook 2 rfl
  rw [sampleBook_total] at within
  omega

end TreeOptions.SealGate
