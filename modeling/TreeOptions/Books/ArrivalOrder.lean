import TreeOptions.Books.Arrival
import TreeOptions.Books.Fold

/-!
# The books for every order of arrival

What the ledger holds of reports that one fold takes together: for every base execution
id the figures of its latest version, and every commission once that some batch tells
with its execution (`AccountsFor`). Two schedules of the same reports then leave the same
quantity and cash with every account, contract and attribution (`holdings`).

Reports that disagree, that tie in version, or a commission that no batch tells with its
execution are booked as they come (`Disagree`).
-/

set_option autoImplicit false

namespace TreeOptions.Books

open Checked

/-! ## Reports that one fold takes -/

/-- One fold takes every report so far. -/
def FoldTogether (batches : List Batch) : Prop :=
  ∃ book, foldExecutions (reported batches) (batches.flatMap Batch.commissions) = .ok book

/-- The versions of a base have different keys. -/
def Untied (batches : List Batch) : Prop :=
  ∀ first ∈ reported batches, ∀ second ∈ reported batches,
    first.baseExecId = second.baseExecId → versionKey first.execId = versionKey second.execId →
    first.execId = second.execId

variable {batches : List Batch}

theorem Told.charged {execId : String} {amount : ℤ} (told : Told batches execId amount) :
    (∃ execution ∈ reported batches, execution.execId = execId) ∧
      Charged (reported batches) (batches.flatMap Batch.commissions) execId amount := by
  obtain ⟨batch, inBatches, ⟨execution, member, same⟩, charged⟩ := told
  constructor
  · exact ⟨execution, List.mem_flatMap.mpr ⟨batch, inBatches, member⟩, same⟩
  · rcases charged with ⟨other, member', same', told⟩ | member'
    · exact .inl ⟨other, List.mem_flatMap.mpr ⟨batch, inBatches, member'⟩, same', told⟩
    · exact .inr (List.mem_flatMap.mpr ⟨batch, inBatches, member'⟩)

variable {first second : BrokerExecution}

theorem SameFill.of_plain {other : BrokerExecution} (same : SameFill first other)
    (plain : first.plain = second.plain) : SameFill second other := by
  rw [eq_withCommission plain.symm]
  exact ⟨same.permId, same.orderRef, same.accountId, same.conId, same.secType, same.side,
    same.multiplier⟩

theorem SameFill.symm (same : SameFill first second) : SameFill second first :=
  ⟨same.permId.symm, same.orderRef.symm, same.accountId.symm, same.conId.symm,
    same.secType.symm, same.side.symm, same.multiplier.symm⟩

theorem SameFill.trans {third : BrokerExecution} (same : SameFill first second)
    (same' : SameFill second third) : SameFill first third :=
  ⟨same.permId.trans same'.permId, same.orderRef.trans same'.orderRef,
    same.accountId.trans same'.accountId, same.conId.trans same'.conId,
    same.secType.trans same'.secType, same.side.trans same'.side,
    same.multiplier.trans same'.multiplier⟩

/-- **Reports that one fold takes agree.** -/
theorem coherent_of_foldTogether (together : FoldTogether batches) (untied : Untied batches) :
    Coherent batches := by
  obtain ⟨book, folded⟩ := together
  obtain ⟨reports, collected, checked, -⟩ := foldExecutions_ok folded
  -- every execution stands among the reports, and a report is determined by its id
  have held : ∀ execution ∈ reported batches, ∃ report ∈ reports.rows,
      report.plain = execution.plain := by
    intro execution member
    exact List.mem_map.mp ((collected.plain execution.plain).mpr (List.mem_map_of_mem member))
  have unique : ∀ first ∈ reports.rows, ∀ second ∈ reports.rows,
      first.execId = second.execId → first = second := by
    intro first inFirst second inSecond same
    exact List.inj_on_of_nodup_map reports.unique inFirst inSecond same
  constructor
  · intro first inFirst second inSecond same
    obtain ⟨report, inReport, plain⟩ := held first inFirst
    obtain ⟨report', inReport', plain'⟩ := held second inSecond
    have ids : report.execId = report'.execId := by
      rw [execId_of_plain plain, execId_of_plain plain', same]
    rw [← plain, ← plain', unique report inReport report' inReport' ids]
  · intro first inFirst second inSecond base
    obtain ⟨report, inReport, plain⟩ := held first inFirst
    obtain ⟨report', inReport', plain'⟩ := held second inSecond
    have base₁ : report.baseExecId = first.baseExecId := by rw [eq_withCommission plain]; rfl
    have base₂ : report'.baseExecId = first.baseExecId := by
      rw [eq_withCommission plain', base]
      rfl
    have versions : ∀ version ∈ reports.rows, version.baseExecId = first.baseExecId →
        version ∈ sortedBy (fun version => versionKey version.execId)
          (reports.rows.filter fun version => version.baseExecId = first.baseExecId) := by
      intro version member same
      exact mem_sortedBy.mpr (List.mem_filter.mpr ⟨member, decide_eq_true same⟩)
    let fill : Fill :=
      { baseExecId := first.baseExecId
        versions := _
        reported := List.ne_nil_of_mem (versions report inReport base₁) }
    have inFills : fill ∈ fillsOf reports.rows := mem_fillsOf.mpr rfl
    have same := sameFill_of_checkVersions (checked fill inFills)
    have ofReports := (same report (versions report inReport base₁)).trans
      (same report' (versions report' inReport' base₂)).symm
    exact ((ofReports.of_plain plain).symm.of_plain plain').symm
  · intro execId first second told told'
    obtain ⟨⟨execution, member, same⟩, charged⟩ := told.charged
    obtain ⟨report, inReport, plain⟩ := held execution member
    have ids : report.execId = execId := (execId_of_plain plain).trans same
    have present := (collected.charged report inReport first).mpr (ids ▸ charged)
    have present' := (collected.charged report inReport second).mpr (ids ▸ told'.charged.2)
    exact Option.some.inj (present.symm.trans present')
  · exact untied

/-! ## Schedules of the same reports -/

/-- Two schedules of the same executions, that tell the same commissions. -/
structure SameReports (batches batches' : List Batch) : Prop where
  executions : ∀ execution, execution ∈ (reported batches).map BrokerExecution.plain ↔
    execution ∈ (reported batches').map BrokerExecution.plain
  commissions : ∀ execId amount, Told batches execId amount ↔ Told batches' execId amount

theorem Latest.of_forall {batches' : List Batch} {version version' : BrokerExecution}
    (latest : Latest batches version) (plain : version'.plain = version.plain)
    (reports : ∀ other ∈ reported batches', ∃ same ∈ reported batches, same.plain = other.plain) :
    Latest batches' version' := by
  intro other member base
  obtain ⟨same, inReported, plain'⟩ := reports other member
  have bases : same.baseExecId = version.baseExecId := by
    rw [eq_withCommission plain', eq_withCommission plain.symm]
    exact base
  rw [execId_of_plain plain, ← execId_of_plain plain']
  exact latest same inReported bases

namespace SameReports

variable {batches batches' : List Batch} (same : SameReports batches batches')

include same

theorem symm : SameReports batches' batches :=
  ⟨fun execution => (same.executions execution).symm,
    fun execId amount => (same.commissions execId amount).symm⟩

theorem exists_plain {execution : BrokerExecution} (member : execution ∈ reported batches) :
    ∃ other ∈ reported batches', other.plain = execution.plain :=
  List.mem_map.mp ((same.executions execution.plain).mp (List.mem_map_of_mem member))

theorem coherent (coherent : Coherent batches) : Coherent batches' := by
  constructor
  · intro first inFirst second inSecond execIds
    obtain ⟨one, inOne, plain⟩ := same.symm.exists_plain inFirst
    obtain ⟨two, inTwo, plain'⟩ := same.symm.exists_plain inSecond
    rw [← plain, ← plain']
    refine coherent.execution one inOne two inTwo ?_
    rw [execId_of_plain plain, execId_of_plain plain', execIds]
  · intro first inFirst second inSecond base
    obtain ⟨one, inOne, plain⟩ := same.symm.exists_plain inFirst
    obtain ⟨two, inTwo, plain'⟩ := same.symm.exists_plain inSecond
    have bases : one.baseExecId = two.baseExecId := by
      rw [eq_withCommission plain, eq_withCommission plain']
      exact base
    exact (((coherent.version one inOne two inTwo bases).of_plain plain).symm.of_plain
      plain').symm
  · intro execId first second told told'
    exact coherent.commission execId first second ((same.commissions execId first).mpr told)
      ((same.commissions execId second).mpr told')
  · intro first inFirst second inSecond base key
    obtain ⟨one, inOne, plain⟩ := same.symm.exists_plain inFirst
    obtain ⟨two, inTwo, plain'⟩ := same.symm.exists_plain inSecond
    have bases : one.baseExecId = two.baseExecId := by
      rw [eq_withCommission plain, eq_withCommission plain']
      exact base
    rw [← execId_of_plain plain, ← execId_of_plain plain'] at key ⊢
    exact coherent.key one inOne two inTwo bases key

end SameReports

/-! ## What the ledger accounts for -/

/-- The commission rows of an execution id. -/
def feesOf (execId : String) (ledger : List LedgerEvent) : List LedgerEvent :=
  ledger.filter fun row => row.kind = .commission ∧ row.execId = some execId

/-- The ledger holds the figures of the latest version of every base, unless it is
combo-level, and every commission that was told, once. -/
structure AccountsFor (batches : List Batch) (ledger : List LedgerEvent) : Prop where
  chain : ∀ version ∈ reported batches, version.secType ≠ .bag → Latest batches version →
    moved (chainOf version.baseExecId ledger) = figures version
  combo : ∀ version ∈ reported batches, version.secType = .bag →
    chainOf version.baseExecId ledger = []
  charged : ∀ execution ∈ reported batches, execution.secType ≠ .bag →
    ∀ amount, Told batches execution.execId amount →
      (feesOf execution.execId ledger).map LedgerEvent.moved = [(0, -amount)]
  uncharged : ∀ execId, (∀ amount, ¬ Told batches execId amount) → feesOf execId ledger = []

/-- What the rows of one chain share, and the commissions of one execution. -/
abbrev Label :=
  Bool × Option String × String × Option ℕ × Attribution

def LedgerEvent.label (row : LedgerEvent) : Label :=
  (decide row.kind.Moves, row.baseExecId, row.accountId, row.conId, row.attribution)

/-- The label of the rows of an execution. -/
def AttributionIndex.label (index : AttributionIndex) (moves : Bool)
    (execution : BrokerExecution) : Label :=
  (moves, some execution.baseExecId, execution.accountId, some execution.conId,
    (index.owner execution.orderRef).attribution)

theorem RowOf.label {index : AttributionIndex} {kind : LedgerKind}
    {execution : BrokerExecution} {row : LedgerEvent}
    (rowOf : RowOf (index.owner execution.orderRef) kind execution row) :
    row.label = index.label (decide kind.Moves) execution := by
  rw [LedgerEvent.label, rowOf.kind, rowOf.baseExecId, rowOf.accountId, rowOf.conId,
    rowOf.attribution, AttributionIndex.label]

theorem label_of_plain {index : AttributionIndex} {moves : Bool}
    (same : first.plain = second.plain) : index.label moves first = index.label moves second := by
  rw [eq_withCommission same]
  rfl

theorem SameFill.label (same : SameFill first second) (base : first.baseExecId = second.baseExecId)
    (index : AttributionIndex) (moves : Bool) :
    index.label moves first = index.label moves second := by
  rw [AttributionIndex.label, base, same.accountId, same.conId, same.orderRef,
    AttributionIndex.label]

namespace Booked

variable {index : AttributionIndex} {batches : List Batch} {ledger : List LedgerEvent}
  (booked : Booked index batches ledger) (coherent : Coherent batches)

include booked

theorem of_mem_feesOf {execId : String} {row : LedgerEvent}
    (member : row ∈ feesOf execId ledger) :
    row ∈ ledger ∧ (∃ execution ∈ reported batches, execution.execId = execId ∧
        RowOf (index.owner execution.orderRef) .commission execution row) ∧
      ∃ amount, Told batches execId amount ∧ row.moved = (0, -amount) := by
  obtain ⟨inLedger, isFee⟩ := List.mem_filter.mp member
  obtain ⟨commission, names⟩ := of_decide_eq_true isFee
  obtain ⟨-, execution, inReported, rowOf⟩ := booked.row row inLedger
  obtain ⟨execId', amount, names', told, moves⟩ := booked.fee row inLedger commission
  rw [rowOf.execId] at names
  rw [rowOf.execId, names] at names'
  rw [commission] at rowOf
  rw [← Option.some.inj names'] at told
  exact ⟨inLedger, ⟨execution, inReported, Option.some.inj names, rowOf⟩, amount, told, moves⟩

theorem exists_feesOf (coherent : Coherent batches) {execution : BrokerExecution}
    (inside : execution ∈ reported batches) (isBooked : execution.secType ≠ .bag) {amount : ℤ}
    (told : Told batches execution.execId amount) :
    ∃ row, feesOf execution.execId ledger = [row] ∧ row.moved = (0, -amount) ∧
      RowOf (index.owner execution.orderRef) .commission execution row := by
  obtain ⟨row, inLedger, commission, names⟩ :=
    booked.charged execution inside isBooked amount told
  have member : row ∈ feesOf execution.execId ledger :=
    List.mem_filter.mpr ⟨inLedger, decide_eq_true ⟨commission, names⟩⟩
  obtain ⟨-, ⟨other, inReported, execIds, rowOf⟩, amount', told', moves⟩ :=
    booked.of_mem_feesOf member
  have plain := coherent.execution other inReported execution inside execIds
  have orderRef : other.orderRef = execution.orderRef := by
    rw [eq_withCommission plain]
    rfl
  rw [orderRef] at rowOf
  rw [coherent.commission _ _ _ told' told] at moves
  refine ⟨row, ?_, moves, rowOf.of_plain plain⟩
  have unique : (feesOf execution.execId ledger).Nodup :=
    List.Nodup.filter _ (List.Nodup.of_map _ booked.ids)
  rw [← List.perm_singleton, List.perm_ext_iff_of_nodup unique (List.nodup_singleton row)]
  intro row'
  rw [List.mem_singleton]
  constructor
  · intro member'
    obtain ⟨inLedger', ⟨other', -, execIds', rowOf'⟩, -⟩ := booked.of_mem_feesOf member'
    refine List.inj_on_of_nodup_map booked.ids inLedger' inLedger ?_
    rw [rowOf'.eventId, rowOf.eventId, execIds', execIds]
  · rintro rfl
    exact member

/-- **The ledger accounts for every report.** -/
theorem accountsFor (coherent : Coherent batches) : AccountsFor batches ledger := by
  constructor
  · intro version inside isBooked latest
    exact (booked.chain version inside isBooked latest).1
  · intro version inside combo
    rw [List.eq_nil_iff_forall_not_mem]
    intro row member
    obtain ⟨execution, inReported, isBooked, base, -⟩ := booked.exists_version member
    rw [(coherent.version execution inReported version inside base).secType] at isBooked
    exact isBooked combo
  · intro execution inside isBooked amount told
    obtain ⟨row, fees, moves, -⟩ := booked.exists_feesOf coherent inside isBooked told
    rw [fees, List.map_singleton, moves]
  · intro execId untold
    rw [List.eq_nil_iff_forall_not_mem]
    intro row member
    obtain ⟨-, -, amount, told, -⟩ := booked.of_mem_feesOf member
    exact untold amount told

end Booked

/-! ## Holdings -/

/-- The rows of an account, a contract and an attribution. -/
def LedgerEvent.BooksTo (key : LotKey) (row : LedgerEvent) : Prop :=
  row.accountId = key.1 ∧ row.conId = some key.2.1 ∧ row.attribution = key.2.2

instance (key : LotKey) (row : LedgerEvent) : Decidable (row.BooksTo key) :=
  inferInstanceAs (Decidable (_ ∧ _ ∧ _))

/-- The quantity and the cash that the ledger books to a key. -/
def holdings (key : LotKey) (ledger : List LedgerEvent) : ℤ × ℤ :=
  moved (ledger.filter fun row => row.BooksTo key)

/-- What a row is a row of: a chain, or the commission of an execution. -/
def LedgerEvent.subject (row : LedgerEvent) : Bool × Option String :=
  if row.kind.Moves then (true, row.baseExecId) else (false, row.execId)

def LedgerEvent.movedBy (selects : Label → Prop) [DecidablePred selects] (row : LedgerEvent) :
    ℤ × ℤ :=
  if selects row.label then row.moved else 0

theorem filter_subject_chain (base : String) (ledger : List LedgerEvent) :
    (ledger.filter fun row => row.subject = (true, some base)) = chainOf base ledger := by
  rw [chainOf]
  refine List.filter_congr ?_
  intro row _
  rw [decide_eq_decide, LedgerEvent.subject]
  by_cases moves : row.kind.Moves
  · simp [moves]
  · simp [moves]

theorem eq_commission {kind : LedgerKind} (ofExecution : kind.OfExecution)
    (still : ¬ kind.Moves) : kind = .commission := by
  cases kind with
  | fill => exact absurd trivial still
  | correction => exact absurd trivial still
  | commission => rfl
  | cashAdjustment => exact ofExecution.elim
  | reconciliation => exact ofExecution.elim

namespace Booked

variable {index : AttributionIndex} {batches : List Batch} {ledger : List LedgerEvent}
  (booked : Booked index batches ledger)

include booked

theorem filter_subject_fees (execId : String) :
    (ledger.filter fun row => row.subject = (false, some execId)) = feesOf execId ledger := by
  rw [feesOf]
  refine List.filter_congr ?_
  intro row member
  rw [decide_eq_decide, LedgerEvent.subject]
  by_cases moves : row.kind.Moves
  · have other : row.kind ≠ .commission := by
      intro commission
      rw [commission] at moves
      exact moves
    simp [moves, other]
  · have commission := eq_commission (booked.row row member).1 moves
    rw [if_neg moves]
    simp [commission]

variable (selects : Label → Prop) [DecidablePred selects]

theorem sum_chain (coherent : Coherent batches) {version : BrokerExecution}
    (inside : version ∈ reported batches) (isBooked : version.secType ≠ .bag)
    (latest : Latest batches version) :
    ((chainOf version.baseExecId ledger).map (LedgerEvent.movedBy selects)).sum =
      if selects (index.label true version) then figures version else 0 := by
  rw [← (booked.chain version inside isBooked latest).1, moved]
  refine (ite_sum ?_ LedgerEvent.moved).symm
  intro row member
  obtain ⟨execution, inReported, -, base, rowOf, -⟩ := booked.exists_version member
  have moves := (mem_chainOf.mp member).2.1
  have same := coherent.version execution inReported version inside base
  rw [rowOf.label, decide_eq_true moves, same.label base]

theorem sum_fees (coherent : Coherent batches) {execution : BrokerExecution}
    (inside : execution ∈ reported batches) (isBooked : execution.secType ≠ .bag) {amount : ℤ}
    (told : Told batches execution.execId amount) :
    ((feesOf execution.execId ledger).map (LedgerEvent.movedBy selects)).sum =
      if selects (index.label false execution) then (0, -amount) else 0 := by
  obtain ⟨row, fees, moves, rowOf⟩ := booked.exists_feesOf coherent inside isBooked told
  rw [fees, List.map_singleton, List.sum_singleton, LedgerEvent.movedBy, moves, rowOf.label]
  rfl

variable {batches' : List Batch} {ledger' : List LedgerEvent}

section

variable (booked' : Booked index batches' ledger')

include booked'

theorem sum_subject (coherent : Coherent batches) (same : SameReports batches batches')
    {subject : Bool × Option String}
    (some' : (ledger.filter fun row => row.subject = subject) ≠ []) :
    ((ledger.filter fun row => row.subject = subject).map (LedgerEvent.movedBy selects)).sum =
      ((ledger'.filter fun row => row.subject = subject).map
        (LedgerEvent.movedBy selects)).sum := by
  obtain ⟨row, member⟩ := List.exists_mem_of_ne_nil _ some'
  obtain ⟨inLedger, isSubject⟩ := List.mem_filter.mp member
  obtain rfl := of_decide_eq_true isSubject
  obtain ⟨ofExecution, execution, inReported, rowOf⟩ := booked.row row inLedger
  rw [LedgerEvent.subject]
  split
  case isTrue moves =>
    obtain ⟨version, inVersions, base, latest⟩ := exists_latest inReported
    have isBooked : version.secType ≠ .bag := by
      rw [(coherent.version version inVersions execution inReported base).secType]
      exact rowOf.booked
    obtain ⟨version', inVersions', plain⟩ := same.exists_plain inVersions
    have latest' : Latest batches' version' :=
      latest.of_forall plain fun other member => same.symm.exists_plain member
    have isBooked' : version'.secType ≠ .bag := by
      rw [eq_withCommission plain]
      exact isBooked
    have base' : version'.baseExecId = version.baseExecId := by
      rw [eq_withCommission plain]
      rfl
    have chain := booked'.sum_chain selects (same.coherent coherent) inVersions'
      isBooked' latest'
    rw [base'] at chain
    rw [rowOf.baseExecId, ← base, filter_subject_chain, filter_subject_chain,
      booked.sum_chain selects coherent inVersions isBooked latest, chain, label_of_plain plain,
      figures_of_plain plain]
  case isFalse still =>
    obtain ⟨execId, amount, names, told, -⟩ :=
      booked.fee row inLedger (eq_commission ofExecution still)
    cases names.symm.trans rowOf.execId
    obtain ⟨execution', inReported', plain⟩ := same.exists_plain inReported
    have isBooked' : execution'.secType ≠ .bag := by
      rw [eq_withCommission plain]
      exact rowOf.booked
    have execIds := execId_of_plain plain
    have told' := (same.commissions _ _).mp told
    have fees := booked'.sum_fees selects (same.coherent coherent) inReported'
      isBooked' (execIds ▸ told')
    rw [execIds] at fees
    rw [names, booked.filter_subject_fees, booked'.filter_subject_fees,
      booked.sum_fees selects coherent inReported rowOf.booked told, fees, label_of_plain plain]

/-- **Schedules of the same reports book the same under every label.** -/
theorem moved_eq (coherent : Coherent batches) (same : SameReports batches batches')
    (selects : Label → Prop) [DecidablePred selects] :
    moved (ledger.filter fun row => selects row.label) =
      moved (ledger'.filter fun row => selects row.label) := by
  have weigh : ∀ rows : List LedgerEvent, moved (rows.filter fun row => selects row.label) =
      (rows.map (LedgerEvent.movedBy selects)).sum := by
    intro rows
    rw [moved, sum_map_filter]
    simp only [decide_eq_true_eq]
    rfl
  rw [weigh, weigh]
  refine sum_eq_of_keys LedgerEvent.subject _ ?_
  intro subject
  by_cases none' : (ledger.filter fun row => row.subject = subject) = []
  · by_cases none'' : (ledger'.filter fun row => row.subject = subject) = []
    · rw [none', none'']
    · exact (booked'.sum_subject selects booked (same.coherent coherent) same.symm none'').symm
  · exact booked.sum_subject selects booked' coherent same none'

theorem holdings_eq (coherent : Coherent batches) (same : SameReports batches batches')
    (key : LotKey) : holdings key ledger = holdings key ledger' :=
  booked.moved_eq booked' coherent same fun label =>
    label.2.2.1 = key.1 ∧ label.2.2.2.1 = some key.2.1 ∧ label.2.2.2.2 = key.2.2

end

end Booked

/-- **The books account for their reports, in whatever order these arrive.** -/
theorem accountsFor_ingestAll {index : AttributionIndex} {batches : List Batch}
    {ledger : List LedgerEvent} (ingested : ingestAll index batches = .ok ledger)
    (together : FoldTogether batches) (untied : Untied batches) :
    AccountsFor batches ledger ∧ ∀ batches' ledger', ingestAll index batches' = .ok ledger' →
      SameReports batches batches' →
        AccountsFor batches' ledger' ∧ ∀ key, holdings key ledger = holdings key ledger' := by
  have coherent := coherent_of_foldTogether together untied
  have booked := booked_ingestAll ingested coherent
  refine ⟨booked.accountsFor coherent, ?_⟩
  intro batches' ledger' ingested' same
  have coherent' := same.coherent coherent
  have booked' := booked_ingestAll ingested' coherent'
  exact ⟨booked'.accountsFor coherent', booked.holdings_eq booked' coherent same⟩

/-! ## A corrected fill that arrives in two orders -/

theorem opt_ne_stk : ExecSecType.opt ≠ .stk := by
  decide

/-- A reported purchase of one contract. -/
def sampleExecution (execId : String) (quantity : ℕ) (time : ℤ) (secType : ExecSecType)
    (positive : 1 ≤ quantity) (notStock : secType ≠ .stk) : BrokerExecution where
  execId := execId
  baseExecId := baseExecIdOf execId
  permId := 1
  orderRef := ""
  accountId := "DU1"
  conId := 7
  secType := secType
  symbol := "XYZ"
  side := .bot
  quantity := quantity
  priceMicros := 3
  multiplier := 100
  time := time
  commissionMicros := none
  permId_pos := le_refl 1
  conId_pos := by decide
  quantity_pos := positive
  multiplier_pos := by decide
  base := rfl
  stock := fun stock => absurd stock notStock

/-- A purchase of two, and its correction to three. -/
def sampleFirst : BrokerExecution :=
  sampleExecution "a.01" 2 1 .opt Nat.two_pos opt_ne_stk

def sampleSecond : BrokerExecution :=
  sampleExecution "a.02" 3 1 .opt (by decide) opt_ne_stk

def sampleIndex : AttributionIndex where
  intents := fun _ => none
  structures := fun _ => none

/-- The fill and its commission, then the correction. -/
def sampleBatches : List Batch :=
  [⟨[sampleFirst], [⟨"a.01", 9⟩], 5⟩, ⟨[sampleSecond], [], 6⟩]

/-- The correction first, then the fill with its commission. -/
def sampleBatches' : List Batch :=
  [⟨[sampleSecond], [], 5⟩, ⟨[sampleFirst], [⟨"a.01", 9⟩], 6⟩, ⟨[sampleSecond], [], 7⟩]

/-- The ledger of a schedule, empty where a step raises. -/
def ledgerOf (batches : List Batch) : List LedgerEvent :=
  match ingestAll sampleIndex batches with
  | .ok ledger => ledger
  | .error _ => []

theorem sameReports_sample : SameReports sampleBatches sampleBatches' := by
  constructor
  · intro execution
    simp only [reported, sampleBatches, sampleBatches', List.flatMap_cons, List.flatMap_nil,
      List.append_nil, List.singleton_append, List.map_cons, List.map_nil, List.mem_cons,
      List.not_mem_nil, or_false]
    tauto
  · intro execId amount
    simp [Told, Charged, sampleBatches, sampleBatches', sampleFirst, sampleSecond,
      sampleExecution, eq_comm]

theorem accountsFor_sample :
    AccountsFor sampleBatches (ledgerOf sampleBatches) ∧
      AccountsFor sampleBatches' (ledgerOf sampleBatches') ∧
      holdings ("DU1", 7, outside) (ledgerOf sampleBatches) = (3, -909) ∧
      holdings ("DU1", 7, outside) (ledgerOf sampleBatches') = (3, -909) := by
  have untied : Untied sampleBatches := by
    unfold Untied
    decide
  have ingested : ingestAll sampleIndex sampleBatches = .ok (ledgerOf sampleBatches) := by
    decide
  have ingested' : ingestAll sampleIndex sampleBatches' = .ok (ledgerOf sampleBatches') := by
    decide
  have sums : holdings ("DU1", 7, outside) (ledgerOf sampleBatches) = (3, -909) := by
    decide
  obtain ⟨accounts, others⟩ := accountsFor_ingestAll ingested ⟨_, rfl⟩ untied
  obtain ⟨accounts', same⟩ := others sampleBatches' _ ingested' sameReports_sample
  exact ⟨accounts, accounts', sums, (same _).symm.trans sums⟩

/-! ## What depends on the order of arrival -/

/-- Two schedules that both succeed and leave different holdings. -/
def Disagree (batches batches' : List Batch) : Prop :=
  ∃ ledger ledger', ingestAll sampleIndex batches = .ok ledger ∧
    ingestAll sampleIndex batches' = .ok ledger' ∧
    holdings ("DU1", 7, outside) ledger ≠ holdings ("DU1", 7, outside) ledger'

theorem disagree_of_ledgerOf {batches' : List Batch}
    (ingested : ingestAll sampleIndex batches = .ok (ledgerOf batches))
    (ingested' : ingestAll sampleIndex batches' = .ok (ledgerOf batches'))
    (differ : holdings ("DU1", 7, outside) (ledgerOf batches) ≠
      holdings ("DU1", 7, outside) (ledgerOf batches')) : Disagree batches batches' :=
  ⟨ledgerOf batches, ledgerOf batches', ingested, ingested', differ⟩

/-- A commission that comes alone after its execution is not booked, of two reports under
one execution id and of two versions with one key the first is booked, and a combo-level
report is not booked. -/
theorem ingestAll_depends_on_arrival :
    Disagree [⟨[sampleFirst], [⟨"a.01", 9⟩], 5⟩]
        [⟨[sampleFirst], [], 5⟩, ⟨[], [⟨"a.01", 9⟩], 6⟩] ∧
      Disagree [⟨[sampleFirst], [], 5⟩, ⟨[{ sampleFirst with priceMicros := 4 }], [], 6⟩]
        [⟨[{ sampleFirst with priceMicros := 4 }], [], 5⟩, ⟨[sampleFirst], [], 6⟩] ∧
      Disagree
        [⟨[sampleExecution "7" 2 1 .opt (by decide) (by decide)], [], 5⟩,
          ⟨[sampleExecution "7.7" 3 1 .opt (by decide) (by decide)], [], 6⟩]
        [⟨[sampleExecution "7.7" 3 1 .opt (by decide) (by decide)], [], 5⟩,
          ⟨[sampleExecution "7" 2 1 .opt (by decide) (by decide)], [], 6⟩] ∧
      ingestAll sampleIndex [⟨[sampleExecution "a.01" 2 1 .bag (by decide) (by decide)], [], 5⟩] =
        .ok [] := by
  refine ⟨?_, ?_, ?_, by decide⟩
  · exact disagree_of_ledgerOf (by decide) (by decide) (by decide)
  · exact disagree_of_ledgerOf (by decide) (by decide) (by decide)
  · exact disagree_of_ledgerOf (by decide) (by decide) (by decide)

end TreeOptions.Books
