import TreeOptions.Books.Rows

/-!
# Broker reports in any order

The books take in reports batch by batch (`ingest`): the batch is folded, the rows that
the ledger lacks are derived and appended. Whatever the batches and whatever comes again,
the rows of a base execution id sum to the figures of its latest version so far, and a
commission is booked once if some batch tells it with its execution
(`booked_ingestAll`).

The invariant (`Booked`) speaks of the reports so far. One batch keeps it because a chain
and the rows it lacked telescope to the last version booked (`chain_ok`), which is the
latest of both (`Booked.moved_chain`).
-/

set_option autoImplicit false

namespace TreeOptions.Books

open Checked

/-! ## Batches -/

/-- Reports that are folded together, and when their rows are recorded. -/
structure Batch where
  executions : List BrokerExecution
  commissions : List CommissionReport
  recordedAt : ℤ

/-- Fold a batch and append the rows it adds to the ledger. -/
def ingest (index : AttributionIndex) (ledger : List LedgerEvent) (batch : Batch) :
    Except BooksError (List LedgerEvent) := do
  let book ← (foldExecutions batch.executions batch.commissions).mapError .fillConflict
  let fresh ← fillEvents book index batch.recordedAt ledger
  let result ← appendEvents ledger fresh
  return result.events

def ingestAll (index : AttributionIndex) (batches : List Batch) :
    Except BooksError (List LedgerEvent) :=
  batches.foldlM (ingest index) []

/-- Every execution reported so far. -/
def reported (batches : List Batch) : List BrokerExecution :=
  batches.flatMap Batch.executions

theorem reported_concat (batches : List Batch) (batch : Batch) :
    reported (batches ++ [batch]) = reported batches ++ batch.executions := by
  rw [reported, List.flatMap_append, List.flatMap_singleton, reported]

/-- A commission that some batch tells together with its execution. -/
def Told (batches : List Batch) (execId : String) (amount : ℤ) : Prop :=
  ∃ batch ∈ batches, (∃ execution ∈ batch.executions, execution.execId = execId) ∧
    Charged batch.executions batch.commissions execId amount

/-- The latest version of its base so far. -/
def Latest (batches : List Batch) (version : BrokerExecution) : Prop :=
  ∀ other ∈ reported batches, other.baseExecId = version.baseExecId →
    versionKey other.execId ≤ versionKey version.execId

/-- Reports that one fold could take together, whose versions have different keys. -/
structure Coherent (batches : List Batch) : Prop where
  execution : ∀ first ∈ reported batches, ∀ second ∈ reported batches,
    first.execId = second.execId → first.plain = second.plain
  version : ∀ first ∈ reported batches, ∀ second ∈ reported batches,
    first.baseExecId = second.baseExecId → SameFill first second
  commission : ∀ execId first second, Told batches execId first → Told batches execId second →
    first = second
  key : ∀ first ∈ reported batches, ∀ second ∈ reported batches,
    first.baseExecId = second.baseExecId → versionKey first.execId = versionKey second.execId →
    first.execId = second.execId

variable {batches : List Batch} {batch : Batch}

theorem Told.concat {execId : String} {amount : ℤ} (told : Told batches execId amount) :
    Told (batches ++ [batch]) execId amount := by
  obtain ⟨batch', member, told⟩ := told
  exact ⟨batch', List.mem_append_left _ member, told⟩

theorem Coherent.of_concat (coherent : Coherent (batches ++ [batch])) : Coherent batches := by
  have earlier : ∀ execution ∈ reported batches, execution ∈ reported (batches ++ [batch]) := by
    intro execution member
    rw [reported_concat]
    exact List.mem_append_left _ member
  constructor
  · intro first inFirst second inSecond
    exact coherent.execution first (earlier _ inFirst) second (earlier _ inSecond)
  · intro first inFirst second inSecond
    exact coherent.version first (earlier _ inFirst) second (earlier _ inSecond)
  · intro execId first second told told'
    exact coherent.commission execId first second told.concat told'.concat
  · intro first inFirst second inSecond
    exact coherent.key first (earlier _ inFirst) second (earlier _ inSecond)

/-! ## What a batch adds -/

variable {first second : BrokerExecution}

/-- A report is its execution and its commission. -/
theorem eq_withCommission (same : first.plain = second.plain) :
    first = second.withCommission first.commissionMicros := by
  have plain : first.plain.withCommission first.commissionMicros =
      second.plain.withCommission first.commissionMicros := by rw [same]
  exact plain

theorem figures_of_plain (same : first.plain = second.plain) : figures first = figures second := by
  rw [eq_withCommission same]
  rfl

theorem RowOf.of_plain {owner : Owner} {kind : LedgerKind} {row : LedgerEvent}
    (rowOf : RowOf owner kind first row) (same : first.plain = second.plain) :
    RowOf owner kind second row := by
  rw [eq_withCommission same.symm]
  exact ⟨rowOf.booked, rowOf.kind, rowOf.eventId, rowOf.execId, rowOf.baseExecId,
    rowOf.accountId, rowOf.conId, rowOf.attribution, rowOf.detail, rowOf.at',
    rowOf.secType⟩

structure Folded (batch : Batch) (reports : Reports) (fills : List Fill) : Prop where
  collected : Collected batch.executions batch.commissions reports
  mem : ∀ fill, fill ∈ fills ↔ fill ∈ fillsOf reports.rows ∧ ¬ fill.Combo
  nodup : (fills.map Fill.baseExecId).Nodup
  same : ∀ fill ∈ fillsOf reports.rows, ∀ version ∈ fill.versions, SameFill version fill.first

namespace Folded

variable {batch : Batch} {reports : Reports} {fills : List Fill}

theorem of_foldExecutions {book : FillBook}
    (folded : foldExecutions batch.executions batch.commissions = .ok book) :
    ∃ reports, Folded batch reports book.fills := by
  obtain ⟨reports, collected, checked, perm⟩ := foldExecutions_ok folded
  refine ⟨reports, collected, ?_, ?_, ?_⟩
  · intro fill
    rw [perm.mem_iff, List.mem_filter, decide_eq_true_eq]
  · rw [(perm.map Fill.baseExecId).nodup_iff]
    exact (List.filter_sublist.map Fill.baseExecId).nodup (nodup_fillsOf _)
  · intro fill member
    exact sameFill_of_checkVersions (checked fill member)

variable {fill : Fill} {version : BrokerExecution}

section

variable (folded : Folded batch reports fills)

include folded

theorem version_mem (member : fill ∈ fills) (inside : version ∈ fill.versions) :
    version ∈ reports.rows ∧ version.baseExecId = fill.baseExecId ∧
      ∃ execution ∈ batch.executions, execution.plain = version.plain := by
  have versions := mem_fillsOf.mp ((folded.mem fill).mp member).1
  rw [versions, mem_sortedBy, List.mem_filter] at inside
  obtain ⟨report, base⟩ := inside
  have heard := (folded.collected.plain version.plain).mp (List.mem_map_of_mem report)
  exact ⟨report, of_decide_eq_true base, List.mem_map.mp heard⟩

theorem exists_version {execution : BrokerExecution} (member : execution ∈ batch.executions)
    (booked : execution.secType ≠ .bag) :
    ∃ fill ∈ fills, fill.baseExecId = execution.baseExecId ∧
      ∃ version ∈ fill.versions, version.plain = execution.plain := by
  obtain ⟨report, inside, plain⟩ := List.mem_map.mp
    ((folded.collected.plain execution.plain).mpr (List.mem_map_of_mem member))
  have same := eq_withCommission plain
  have base : report.baseExecId = execution.baseExecId := by rw [same]; rfl
  have inVersions : report ∈ sortedBy (fun version => versionKey version.execId)
      (reports.rows.filter fun version => version.baseExecId = execution.baseExecId) := by
    rw [mem_sortedBy, List.mem_filter]
    exact ⟨inside, decide_eq_true base⟩
  let fill : Fill :=
    { baseExecId := execution.baseExecId
      versions := _
      reported := List.ne_nil_of_mem inVersions }
  have inFills : fill ∈ fillsOf reports.rows := mem_fillsOf.mpr rfl
  have notCombo : ¬ fill.Combo := by
    intro combo
    have first := (folded.same fill inFills report inVersions).secType
    have last := (folded.same fill inFills fill.execution (List.getLast_mem fill.reported)).secType
    apply booked
    have kind : report.secType = execution.secType := by rw [same]; rfl
    rw [← kind, first, ← last]
    exact combo
  exact ⟨fill, (folded.mem fill).mpr ⟨inFills, notCombo⟩, rfl, report, inVersions, plain⟩

theorem exists_version_of_base (inFills : fill ∈ fills) {execution : BrokerExecution}
    (member : execution ∈ batch.executions) (booked : execution.secType ≠ .bag)
    (base : execution.baseExecId = fill.baseExecId) :
    ∃ version ∈ fill.versions, version.plain = execution.plain := by
  obtain ⟨fill', inFills', base', version, inside, plain⟩ := folded.exists_version member booked
  obtain rfl : fill' = fill :=
    List.inj_on_of_nodup_map folded.nodup inFills' inFills (base'.trans base)
  exact ⟨version, inside, plain⟩

theorem reported_version (batches : List Batch) (member : fill ∈ fills)
    (inside : version ∈ fill.versions) :
    ∃ execution ∈ reported (batches ++ [batch]), execution.plain = version.plain ∧
      execution.baseExecId = fill.baseExecId := by
  obtain ⟨-, base, execution, heard, plain⟩ := folded.version_mem member inside
  refine ⟨execution, ?_, plain, ?_⟩
  · rw [reported_concat]
    exact List.mem_append_right _ heard
  · rw [eq_withCommission plain]
    exact base

theorem pairwise_versions (member : fill ∈ fills) :
    fill.versions.Pairwise fun first second =>
      versionKey first.execId ≤ versionKey second.execId := by
  rw [mem_fillsOf.mp ((folded.mem fill).mp member).1]
  exact pairwise_sortedBy _ _

theorem nodup_versions (member : fill ∈ fills) :
    (fill.versions.map BrokerExecution.execId).Nodup := by
  rw [mem_fillsOf.mp ((folded.mem fill).mp member).1,
    ((sortedBy_perm _ _).map BrokerExecution.execId).nodup_iff]
  exact (List.filter_sublist.map _).nodup reports.unique

end

end Folded

variable {rows : List LedgerEvent}

theorem mem_chainOf {base : String} {row : LedgerEvent} :
    row ∈ chainOf base rows ↔ row ∈ rows ∧ row.kind.Moves ∧ row.baseExecId = some base := by
  rw [chainOf, List.mem_filter, decide_eq_true_eq]

theorem chainOf_append (base : String) (first second : List LedgerEvent) :
    chainOf base (first ++ second) = chainOf base first ++ chainOf base second :=
  List.filter_append ..

/-- The rows that the fills of a batch would add to a ledger. -/
def Adds (index : AttributionIndex) (ledger : List LedgerEvent) (fills : List Fill)
    (out : List (List LedgerEvent)) : Prop :=
  List.Forall₂ (fun fill rows => ∃ moves fees, FillRows index ledger fill rows moves fees)
    fills out

section Adds

variable {index : AttributionIndex} {ledger : List LedgerEvent} {fills : List Fill}
  {out : List (List LedgerEvent)}

variable {rows moves fees : List LedgerEvent} {fill : Fill}

section

variable (fillRows : FillRows index ledger fill rows moves fees)

include fillRows

section

variable (bases : ∀ version ∈ fill.versions, version.baseExecId = fill.baseExecId)

include bases

theorem FillRows.base {row : LedgerEvent} (member : row ∈ rows) :
    row.baseExecId = some fill.baseExecId := by
  obtain ⟨-, version, inside, rowOf⟩ := fillRows.of_mem member
  rw [rowOf.baseExecId, bases version inside]

theorem FillRows.chainOf_eq : chainOf fill.baseExecId rows = moves := by
  rw [fillRows.split, chainOf_append]
  have all : chainOf fill.baseExecId moves = moves := by
    rw [chainOf, List.filter_eq_self]
    intro row member
    have inRows : row ∈ rows := by
      rw [fillRows.split]
      exact List.mem_append_left _ member
    exact decide_eq_true ⟨(fillRows.chain.of_mem member).1, fillRows.base bases inRows⟩
  have none' : chainOf fill.baseExecId fees = [] := by
    rw [chainOf, List.filter_eq_nil_iff]
    intro row member books
    obtain ⟨_, _, rowOf, -⟩ := exists_left_of_forall₂ fillRows.charged member
    have movesPosition := (of_decide_eq_true books).1
    rw [rowOf.kind] at movesPosition
    exact movesPosition
  rw [all, none', List.append_nil]

theorem chainOf_of_ne {base : String} (other : fill.baseExecId ≠ base) :
    chainOf base rows = [] := by
  rw [chainOf, List.filter_eq_nil_iff]
  intro row member books
  have same := (of_decide_eq_true books).2
  rw [fillRows.base bases member] at same
  exact other (Option.some.inj same)

end

end

variable (adds : Adds index ledger fills out)
  (bases : ∀ fill ∈ fills, ∀ version ∈ fill.versions, version.baseExecId = fill.baseExecId)

include adds bases

theorem chainOf_flatten_eq_nil {base : String} (unknown : base ∉ fills.map Fill.baseExecId) :
    chainOf base out.flatten = [] := by
  induction adds with
  | nil => rfl
  | @cons fill rows fills out fillRows _ ih =>
    obtain ⟨moves, fees, fillRows⟩ := fillRows
    rw [List.map_cons, List.mem_cons, not_or] at unknown
    rw [List.flatten_cons, chainOf_append,
      chainOf_of_ne fillRows (bases fill List.mem_cons_self) (Ne.symm unknown.1),
      ih (List.forall_mem_cons.mp bases).2 unknown.2,
      List.append_nil]

theorem chainOf_flatten (nodup : (fills.map Fill.baseExecId).Nodup) (member : fill ∈ fills) :
    ∃ rows ∈ out, ∃ moves fees, FillRows index ledger fill rows moves fees ∧
      chainOf fill.baseExecId out.flatten = moves := by
  induction adds with
  | nil => cases member
  | @cons first rows fills out fillRows rest ih =>
    obtain ⟨moves, fees, fillRows⟩ := fillRows
    rw [List.map_cons, List.nodup_cons] at nodup
    obtain ⟨fresh, nodup⟩ := nodup
    have bases' := (List.forall_mem_cons.mp bases).2
    rw [List.flatten_cons]
    rcases List.mem_cons.mp member with rfl | later
    · refine ⟨rows, List.mem_cons_self, moves, fees, fillRows, ?_⟩
      rw [chainOf_append, fillRows.chainOf_eq (bases _ List.mem_cons_self),
        chainOf_flatten_eq_nil rest bases' fresh, List.append_nil]
    · obtain ⟨rows', inside, moves', fees', fillRows', same⟩ := ih bases' nodup later
      refine ⟨rows', List.mem_cons_of_mem _ inside, moves', fees', fillRows', ?_⟩
      have other : first.baseExecId ≠ fill.baseExecId := by
        intro same
        rw [same] at fresh
        exact fresh (List.mem_map_of_mem later)
      rw [chainOf_append, chainOf_of_ne fillRows (bases _ List.mem_cons_self) other, same,
        List.nil_append]

/-- The rows that a batch adds have different ids. -/
theorem nodup_flatten (nodup : (fills.map Fill.baseExecId).Nodup)
    (distinct : ∀ fill ∈ fills, (fill.versions.map BrokerExecution.execId).Nodup) :
    (out.flatten.map fun row => row.eventId).Nodup := by
  induction adds with
  | nil => exact List.nodup_nil
  | @cons fill rows fills out fillRows rest ih =>
    obtain ⟨moves, fees, fillRows⟩ := fillRows
    rw [List.map_cons, List.nodup_cons] at nodup
    obtain ⟨fresh, nodup⟩ := nodup
    have bases' := (List.forall_mem_cons.mp bases).2
    rw [List.flatten_cons, List.map_append]
    refine List.Nodup.append (fillRows.nodup (distinct fill List.mem_cons_self))
      (ih bases' nodup (List.forall_mem_cons.mp distinct).2) ?_
    -- a row names its execution, and that its base
    intro eventId inRows inRest
    obtain ⟨row, member, rfl⟩ := List.mem_map.mp inRows
    obtain ⟨row', member', same⟩ := List.mem_map.mp inRest
    obtain ⟨rows', inOut, member'⟩ := List.mem_flatten.mp member'
    obtain ⟨fill', inFills, moves', fees', fillRows'⟩ := exists_left_of_forall₂ rest inOut
    have ofExecution := (fillRows.of_mem member).1
    have ofExecution' := (fillRows'.of_mem member').1
    have execIds := (execId_of_eventId_eq ofExecution' ofExecution same).2
    have sameBase := baseExecId_of_execId_eq ofExecution' ofExecution execIds
    rw [fillRows'.base (bases' fill' inFills) member',
      fillRows.base (bases fill List.mem_cons_self) member] at sameBase
    rw [← Option.some.inj sameBase] at fresh
    exact fresh (List.mem_map_of_mem inFills)

end Adds

/-- The rows whose id the ledger does not hold. -/
def newTo (ledger rows : List LedgerEvent) : List LedgerEvent :=
  rows.filter fun row => row.eventId ∉ ledger.map fun row => row.eventId

variable {ledger : List LedgerEvent}

theorem mem_newTo {row : LedgerEvent} : row ∈ newTo ledger rows ↔
      row ∈ rows ∧ row.eventId ∉ ledger.map fun row => row.eventId := by
  rw [newTo, List.mem_filter, decide_eq_true_eq]

/-- **What one batch does**: the rows of its fills whose id is new are appended. -/
theorem ingest_ok {index : AttributionIndex} {next : List LedgerEvent}
    (succeeded : ingest index ledger batch = .ok next) :
    ∃ reports fills out, Folded batch reports fills ∧ Adds index ledger fills out ∧
      next = ledger ++ newTo ledger out.flatten := by
  simp only [ingest, bind_eq_ok] at succeeded
  obtain ⟨book, folded, fresh, derived, result, appended, done⟩ := succeeded
  cases done
  obtain ⟨reports, folded⟩ := Folded.of_foldExecutions (mapError_eq_ok.mp folded)
  obtain ⟨out, mapped, same⟩ := bind_eq_ok.mp derived
  cases same
  have adds : Adds index ledger book.fills out :=
    (mapM_eq_ok.mp mapped).imp fun _ _ => eventsOf_ok
  have distinct := nodup_flatten adds
    (fun fill member version inside => (folded.version_mem member inside).2.1) folded.nodup
    fun fill member => folded.nodup_versions member
  refine ⟨reports, book.fills, out, folded, adds, ?_⟩
  obtain ⟨events, appended⟩ := appendEvents_ok appended
  rw [events, appended, freshOf_freshOf distinct, freshOf_eq_filter distinct, newTo]

/-! ## The invariant -/

/-- What the ledger says of the reports so far. -/
structure Booked (index : AttributionIndex) (batches : List Batch) (ledger : List LedgerEvent) :
    Prop where
  ids : (ledger.map fun row => row.eventId).Nodup
  row : ∀ row ∈ ledger, row.kind.OfExecution ∧ ∃ execution ∈ reported batches,
    RowOf (index.owner execution.orderRef) row.kind execution row
  chain : ∀ version ∈ reported batches, version.secType ≠ .bag → Latest batches version →
    moved (chainOf version.baseExecId ledger) = figures version ∧
      ∃ row ∈ chainOf version.baseExecId ledger, row.execId = some version.execId
  fee : ∀ row ∈ ledger, row.kind = .commission → ∃ execId amount, row.execId = some execId ∧
    Told batches execId amount ∧ row.moved = (0, -amount)
  charged : ∀ execution ∈ reported batches, execution.secType ≠ .bag →
    ∀ amount, Told batches execution.execId amount →
      ∃ row ∈ ledger, row.kind = .commission ∧ row.execId = some execution.execId

theorem exists_latest {execution : BrokerExecution} (member : execution ∈ reported batches) :
    ∃ version ∈ reported batches, version.baseExecId = execution.baseExecId ∧
      Latest batches version := by
  have inside : execution ∈
      (reported batches).filter fun other => other.baseExecId = execution.baseExecId :=
    List.mem_filter.mpr ⟨member, decide_eq_true rfl⟩
  obtain ⟨version, member', greatest⟩ :=
    exists_greatest (fun version : BrokerExecution => versionKey version.execId) inside
  obtain ⟨inReported, same⟩ := List.mem_filter.mp member'
  have base := of_decide_eq_true same
  refine ⟨version, inReported, base, ?_⟩
  intro other member' base'
  exact greatest other (List.mem_filter.mpr ⟨member', decide_eq_true (base'.trans base)⟩)

theorem Coherent.figures (coherent : Coherent batches) (inFirst : first ∈ reported batches)
    (inSecond : second ∈ reported batches) (base : first.baseExecId = second.baseExecId)
    (key : versionKey first.execId = versionKey second.execId) :
    first.execId = second.execId ∧ Books.figures first = Books.figures second := by
  have execIds := coherent.key first inFirst second inSecond base key
  exact ⟨execIds, figures_of_plain (coherent.execution first inFirst second inSecond execIds)⟩

section Step

variable {index : AttributionIndex} {batches : List Batch} {batch : Batch}
  {ledger : List LedgerEvent} {reports : Reports} {fills : List Fill}
  (booked : Booked index batches ledger) (coherent : Coherent (batches ++ [batch]))
  (folded : Folded batch reports fills)

include booked

theorem Booked.exists_version {base : String} {row : LedgerEvent}
    (member : row ∈ chainOf base ledger) :
    ∃ execution ∈ reported batches, execution.secType ≠ .bag ∧ execution.baseExecId = base ∧
      RowOf (index.owner execution.orderRef) row.kind execution row ∧
      eventKey row = versionKey execution.execId := by
  obtain ⟨inLedger, -, carries⟩ := mem_chainOf.mp member
  obtain ⟨-, execution, reported, rowOf⟩ := booked.row row inLedger
  rw [rowOf.baseExecId] at carries
  refine ⟨execution, reported, rowOf.booked, Option.some.inj carries, rowOf, ?_⟩
  rw [eventKey, rowOf.execId, Option.getD_some]

include coherent folded

variable {version : BrokerExecution} {fill : Fill}

theorem Booked.ownerOf_eq (member : fill ∈ fills) (inside : version ∈ fill.versions) :
    ownerOf index fill (chainOf fill.baseExecId ledger) = index.owner version.orderRef := by
  have later : ∀ execution ∈ reported batches, execution ∈ reported (batches ++ [batch]) := by
    intro execution inReported
    rw [reported_concat]
    exact List.mem_append_left _ inReported
  obtain ⟨execution, inReported, plain, base⟩ :=
    folded.reported_version batches member inside
  have orderRef : execution.orderRef = version.orderRef := by
    rw [eq_withCommission plain]
    rfl
  rw [ownerOf]
  cases found : (chainOf fill.baseExecId ledger).find? fun event => event.kind = .fill with
  | some row =>
    obtain ⟨other, inOther, -, base', rowOf, -⟩ :=
      booked.exists_version (List.mem_of_find?_eq_some found)
    have same := (coherent.version other (later _ inOther) execution inReported
      (base'.trans base.symm)).orderRef
    rw [← orderRef, ← same]
    change (⟨row.attribution, row.detail⟩ : Owner) = _
    rw [rowOf.attribution, rowOf.detail]
  | none =>
    have first := folded.same fill ((folded.mem fill).mp member).1 version inside
    change index.owner fill.first.orderRef = _
    rw [first.orderRef]

theorem Booked.booked_or_newer (member : fill ∈ fills)
    (inside : version ∈ reported (batches ++ [batch])) (isBooked : version.secType ≠ .bag)
    (base : version.baseExecId = fill.baseExecId) :
    (∃ row ∈ chainOf fill.baseExecId ledger, versionKey version.execId ≤ eventKey row) ∨
      ∃ newer ∈ newerVersions (chainOf fill.baseExecId ledger) fill,
        newer.execId = version.execId := by
  rw [reported_concat] at inside
  rcases List.mem_append.mp inside with earlier | now
  · obtain ⟨last, inLast, lastBase, latest⟩ := exists_latest earlier
    have kind : last.secType ≠ .bag := by
      rw [(coherent.of_concat.version last inLast version earlier lastBase).secType]
      exact isBooked
    obtain ⟨-, row, held, execId⟩ := booked.chain last inLast kind latest
    rw [lastBase.trans base] at held
    refine .inl ⟨row, held, ?_⟩
    rw [eventKey, execId]
    exact latest version earlier lastBase.symm
  · obtain ⟨version', inVersions, plain⟩ :=
      folded.exists_version_of_base member now isBooked base
    rw [← execId_of_plain plain]
    rcases mem_newerVersions_or inVersions with newer | older
    · exact .inr ⟨version', newer, rfl⟩
    · exact .inl older

/-- **A chain and the rows it lacked sum to the latest version of both.** -/
theorem Booked.moved_chain (member : fill ∈ fills) {rows moves fees : List LedgerEvent}
    (fillRows : FillRows index ledger fill rows moves fees)
    (inside : version ∈ reported (batches ++ [batch])) (isBooked : version.secType ≠ .bag)
    (base : version.baseExecId = fill.baseExecId) (latest : Latest (batches ++ [batch]) version) :
    moved (chainOf fill.baseExecId ledger) + moved moves = figures version ∧
      ∃ row ∈ chainOf fill.baseExecId ledger ++ moves, row.execId = some version.execId := by
  have later : ∀ execution ∈ reported batches, execution ∈ reported (batches ++ [batch]) := by
    intro execution inReported
    rw [reported_concat]
    exact List.mem_append_left _ inReported
  have reach := booked.booked_or_newer coherent folded member inside isBooked base
  rw [fillRows.sums]
  cases newest : (newerVersions (chainOf fill.baseExecId ledger) fill).getLast? with
  | none =>
    -- nothing is newer than what is booked, which stands at its latest version
    rw [List.getLast?_eq_none_iff.mp newest] at reach
    obtain ⟨row, held, bound⟩ | ⟨_, none', _⟩ := reach
    · obtain ⟨execution, inReported, isBooked', base', -, rowKey⟩ := booked.exists_version held
      obtain ⟨last, inLast, lastBase, lastLatest⟩ := exists_latest inReported
      have kind : last.secType ≠ .bag := by
        rw [(coherent.of_concat.version last inLast execution inReported lastBase).secType]
        exact isBooked'
      obtain ⟨stands, head, inChain, execId⟩ := booked.chain last inLast kind lastLatest
      rw [lastBase.trans base'] at stands inChain
      have lastBase' : last.baseExecId = version.baseExecId :=
        (lastBase.trans base').trans base.symm
      have bound' : versionKey version.execId ≤ versionKey last.execId :=
        (bound.trans rowKey.le).trans (lastLatest execution inReported lastBase.symm)
      obtain ⟨execIds, sameFigures⟩ := coherent.figures (later _ inLast) inside lastBase'
        (le_antisymm (latest last (later _ inLast) lastBase') bound')
      rw [execIds] at execId
      exact ⟨stands.trans sameFigures, head, List.mem_append_left _ inChain, execId⟩
    · cases none'
  | some newest' =>
    have inNewer := List.mem_of_getLast? newest
    obtain ⟨inVersions, above⟩ := mem_newerVersions inNewer
    obtain ⟨execution, inReported, plain, base'⟩ :=
      folded.reported_version batches member inVersions
    have sameExecId := execId_of_plain plain
    have bound : versionKey version.execId ≤ versionKey execution.execId := by
      rw [sameExecId]
      rcases reach with ⟨row, held, bound⟩ | ⟨newer, inNewer', execId⟩
      · exact bound.trans (above row held).le
      · rw [← execId]
        exact le_of_getLast?
          ((folded.pairwise_versions member).sublist (newerVersions_sublist _ _)) newest inNewer'
    obtain ⟨execIds, sameFigures⟩ := coherent.figures inReported inside (base'.trans base.symm)
      (le_antisymm (latest execution inReported (base'.trans base.symm)) bound)
    have inRows : some newest'.execId ∈ moves.map fun row => row.execId := by
      rw [fillRows.chain.map_execId]
      exact List.mem_map_of_mem inNewer
    obtain ⟨row, inMoves, execId⟩ := List.mem_map.mp inRows
    refine ⟨?_, row, List.mem_append_right _ inMoves, ?_⟩
    · rw [← sameFigures, figures_of_plain plain]
      rfl
    · rw [execId, ← sameExecId, execIds]

end Step

theorem moved_append (first second : List LedgerEvent) :
    moved (first ++ second) = moved first + moved second := by
  rw [moved, List.map_append, List.sum_append, moved, moved]

section Ingest

variable {index : AttributionIndex} {batches : List Batch} {batch : Batch}
  {ledger : List LedgerEvent} {reports : Reports} {fills : List Fill}
  {out : List (List LedgerEvent)} (booked : Booked index batches ledger)
  (coherent : Coherent (batches ++ [batch])) (folded : Folded batch reports fills)
  (adds : Adds index ledger fills out)

theorem mem_reported_concat {execution : BrokerExecution}
    (member : execution ∈ reported batches) : execution ∈ reported (batches ++ [batch]) := by
  rw [reported_concat]
  exact List.mem_append_left _ member

include adds

theorem exists_fillRows {row : LedgerEvent} (member : row ∈ out.flatten) :
    ∃ fill ∈ fills, ∃ rows ∈ out, ∃ moves fees,
      FillRows index ledger fill rows moves fees ∧ row ∈ rows := by
  obtain ⟨rows, inOut, inRows⟩ := List.mem_flatten.mp member
  obtain ⟨fill, inFills, moves, fees, fillRows⟩ := exists_left_of_forall₂ adds inOut
  exact ⟨fill, inFills, rows, inOut, moves, fees, fillRows, inRows⟩

include booked coherent folded

omit coherent in
theorem ids_ingest : ((ledger ++ newTo ledger out.flatten).map fun row => row.eventId).Nodup := by
  have distinct := nodup_flatten adds
    (fun fill member version inside => (folded.version_mem member inside).2.1) folded.nodup
    fun fill member => folded.nodup_versions member
  have sub : (newTo ledger out.flatten).Sublist out.flatten := List.filter_sublist
  rw [List.map_append]
  refine List.Nodup.append booked.ids ((sub.map fun row => row.eventId).nodup distinct) ?_
  intro eventId held new
  obtain ⟨row, member, rfl⟩ := List.mem_map.mp new
  exact (mem_newTo.mp member).2 held

theorem row_ingest {row : LedgerEvent} (member : row ∈ ledger ++ newTo ledger out.flatten) :
    row.kind.OfExecution ∧ ∃ execution ∈ reported (batches ++ [batch]),
      RowOf (index.owner execution.orderRef) row.kind execution row := by
  rcases List.mem_append.mp member with held | new
  · obtain ⟨ofExecution, execution, inReported, rowOf⟩ := booked.row row held
    exact ⟨ofExecution, execution, mem_reported_concat inReported, rowOf⟩
  · obtain ⟨fill, inFills, rows, -, moves, fees, fillRows, inRows⟩ :=
      exists_fillRows adds (mem_newTo.mp new).1
    obtain ⟨ofExecution, version, inVersions, rowOf⟩ := fillRows.of_mem inRows
    obtain ⟨execution, inReported, plain, -⟩ :=
      folded.reported_version batches inFills inVersions
    have orderRef : execution.orderRef = version.orderRef := by
      rw [eq_withCommission plain]
      rfl
    rw [booked.ownerOf_eq coherent folded inFills inVersions, ← orderRef] at rowOf
    exact ⟨ofExecution, execution, inReported, rowOf.of_plain plain.symm⟩

omit coherent in
theorem chainOf_newTo {fill : Fill} (member : fill ∈ fills) :
    ∃ rows moves fees, FillRows index ledger fill rows moves fees ∧
      chainOf fill.baseExecId (newTo ledger out.flatten) = moves := by
  obtain ⟨rows, -, moves, fees, fillRows, chained⟩ := chainOf_flatten adds
    (fun fill member version inside => (folded.version_mem member inside).2.1) folded.nodup member
  refine ⟨rows, moves, fees, fillRows, ?_⟩
  have same : chainOf fill.baseExecId (newTo ledger out.flatten) =
      newTo ledger (chainOf fill.baseExecId out.flatten) := by
    rw [chainOf, newTo, newTo, chainOf, List.filter_filter, List.filter_filter]
    refine List.filter_congr ?_
    intro row _
    rw [Bool.and_comm]
  rw [same, chained, newTo, List.filter_eq_self]
  intro row inMoves
  refine decide_eq_true ?_
  intro held
  obtain ⟨old, inLedger, sameId⟩ := List.mem_map.mp held
  obtain ⟨movesPosition, version, newer, rowOf⟩ := fillRows.chain.of_mem inMoves
  obtain ⟨inVersions, above⟩ := mem_newerVersions newer
  have ofExecution := (booked.row old inLedger).1
  obtain ⟨kinds, execIds⟩ := execId_of_eventId_eq ofExecution movesPosition.ofExecution sameId
  have base := baseExecId_of_execId_eq ofExecution movesPosition.ofExecution execIds
  rw [rowOf.baseExecId, (folded.version_mem member inVersions).2.1] at base
  have below := above old (mem_chainOf.mpr ⟨inLedger, kinds ▸ movesPosition, base⟩)
  rw [eventKey, execIds, rowOf.execId, Option.getD_some] at below
  exact lt_irrefl _ below

omit coherent booked in
/-- A base without a fill in the batch gets no row. -/
theorem chainOf_newTo_eq_nil {base : String} (unknown : base ∉ fills.map Fill.baseExecId) :
    chainOf base (newTo ledger out.flatten) = [] := by
  have none' := chainOf_flatten_eq_nil adds
    (fun fill member version inside => (folded.version_mem member inside).2.1) unknown
  rw [List.eq_nil_iff_forall_not_mem] at none' ⊢
  intro row member
  obtain ⟨new, books⟩ := mem_chainOf.mp member
  exact none' row (mem_chainOf.mpr ⟨(mem_newTo.mp new).1, books⟩)

theorem chain_ingest {version : BrokerExecution}
    (inside : version ∈ reported (batches ++ [batch])) (isBooked : version.secType ≠ .bag)
    (latest : Latest (batches ++ [batch]) version) :
    moved (chainOf version.baseExecId (ledger ++ newTo ledger out.flatten)) = figures version ∧
      ∃ row ∈ chainOf version.baseExecId (ledger ++ newTo ledger out.flatten),
        row.execId = some version.execId := by
  rw [chainOf_append]
  by_cases known : version.baseExecId ∈ fills.map Fill.baseExecId
  · obtain ⟨fill, inFills, base⟩ := List.mem_map.mp known
    obtain ⟨rows, moves, fees, fillRows, chained⟩ :=
      chainOf_newTo booked folded adds inFills
    rw [← base, chained, moved_append]
    exact booked.moved_chain coherent folded inFills fillRows inside isBooked base.symm latest
  · rw [reported_concat] at inside
    rcases List.mem_append.mp inside with earlier | now
    · rw [chainOf_newTo_eq_nil folded adds known, List.append_nil]
      exact booked.chain version earlier isBooked fun other member =>
        latest other (mem_reported_concat member)
    · obtain ⟨fill, inFills, base, -⟩ := folded.exists_version now isBooked
      rw [← base] at known
      exact absurd (List.mem_map_of_mem inFills) known

omit coherent in
theorem fee_ingest {row : LedgerEvent} (member : row ∈ ledger ++ newTo ledger out.flatten)
    (commission : row.kind = .commission) :
    ∃ execId amount, row.execId = some execId ∧ Told (batches ++ [batch]) execId amount ∧
      row.moved = (0, -amount) := by
  rcases List.mem_append.mp member with held | new
  · obtain ⟨execId, amount, present, told, fee⟩ := booked.fee row held commission
    exact ⟨execId, amount, present, told.concat, fee⟩
  · obtain ⟨fill, inFills, rows, -, moves, fees, fillRows, inRows⟩ :=
      exists_fillRows adds (mem_newTo.mp new).1
    rw [fillRows.split] at inRows
    rcases List.mem_append.mp inRows with inMoves | inFees
    · have movesPosition := (fillRows.chain.of_mem inMoves).1
      rw [commission] at movesPosition
      exact movesPosition.elim
    · obtain ⟨version, charged, rowOf, fee, -⟩ := exists_left_of_forall₂ fillRows.charged inFees
      obtain ⟨inVersions, isCharged⟩ := List.mem_filter.mp charged
      obtain ⟨amount, present⟩ := Option.isSome_iff_exists.mp isCharged
      obtain ⟨report, -, execution, heard, plain⟩ := folded.version_mem inFills inVersions
      rw [present, Option.getD_some] at fee
      refine ⟨version.execId, amount, rowOf.execId, ?_, fee⟩
      exact ⟨batch, List.mem_concat_self,
        ⟨execution, heard, execId_of_plain plain⟩,
        (folded.collected.charged version report amount).mp present⟩

theorem charged_ingest {execution : BrokerExecution}
    (inside : execution ∈ reported (batches ++ [batch])) (isBooked : execution.secType ≠ .bag)
    {amount : ℤ} (told : Told (batches ++ [batch]) execution.execId amount) :
    ∃ row ∈ ledger ++ newTo ledger out.flatten, row.kind = .commission ∧
      row.execId = some execution.execId := by
  obtain ⟨teller, inBatches, ⟨other, heard, execId⟩, charged⟩ := told
  have inReported : other ∈ reported (batches ++ [batch]) :=
    List.mem_flatMap.mpr ⟨teller, inBatches, heard⟩
  have same := coherent.execution other inReported execution inside execId
  have isBooked' : other.secType ≠ .bag := by
    rw [eq_withCommission same]
    exact isBooked
  rcases List.mem_append.mp inBatches with earlier | now
  · obtain ⟨row, held, commission, present⟩ := booked.charged other
      (List.mem_flatMap.mpr ⟨teller, earlier, heard⟩) isBooked' amount
      ⟨teller, earlier, ⟨other, heard, rfl⟩, execId ▸ charged⟩
    exact ⟨row, List.mem_append_left _ held, commission, present.trans (congrArg some execId)⟩
  · obtain rfl := List.mem_singleton.mp now
    obtain ⟨fill, inFills, -, version, inVersions, plain⟩ := folded.exists_version heard isBooked'
    have versionId : version.execId = execution.execId := (execId_of_plain plain).trans execId
    obtain ⟨report, -, -⟩ := folded.version_mem inFills inVersions
    have present := (folded.collected.charged version report amount).mpr (versionId ▸ charged)
    obtain ⟨rows, inOut, moves, fees, fillRows⟩ := exists_right_of_forall₂ adds inFills
    have isCharged : version ∈ chargedVersions fill :=
      List.mem_filter.mpr ⟨inVersions, by rw [present]; rfl⟩
    obtain ⟨row, inFees, rowOf, -⟩ := exists_right_of_forall₂ fillRows.charged isCharged
    have inRows : row ∈ rows := by
      rw [fillRows.split]
      exact List.mem_append_right _ inFees
    have execId' : row.execId = some execution.execId := by rw [rowOf.execId, versionId]
    by_cases held : row.eventId ∈ ledger.map fun row => row.eventId
    · obtain ⟨old, inLedger, sameId⟩ := List.mem_map.mp held
      obtain ⟨kinds, execIds⟩ := execId_of_eventId_eq (booked.row old inLedger).1
        (fillRows.of_mem inRows).1 sameId
      exact ⟨old, List.mem_append_left _ inLedger, kinds.trans rowOf.kind, execIds.trans execId'⟩
    · have new := mem_newTo.mpr ⟨List.mem_flatten.mpr ⟨rows, inOut, inRows⟩, held⟩
      exact ⟨row, List.mem_append_right _ new, rowOf.kind, execId'⟩

end Ingest

/-- **One batch keeps the invariant.** -/
theorem Booked.ingest {index : AttributionIndex} {next : List LedgerEvent}
    (booked : Booked index batches ledger) (coherent : Coherent (batches ++ [batch]))
    (succeeded : Books.ingest index ledger batch = .ok next) :
    Booked index (batches ++ [batch]) next := by
  obtain ⟨reports, fills, out, folded, adds, rfl⟩ := ingest_ok succeeded
  constructor
  · exact ids_ingest booked folded adds
  · intro row
    exact row_ingest booked coherent folded adds
  · intro version
    exact chain_ingest booked coherent folded adds
  · intro row
    exact fee_ingest booked folded adds
  · intro execution inside isBooked amount
    exact charged_ingest booked coherent folded adds inside isBooked

theorem booked_nil (index : AttributionIndex) : Booked index [] [] := by
  constructor
  · exact List.nodup_nil
  all_goals intro _ member; cases member

/-- **The ledger says what every report so far says.** -/
theorem booked_ingestAll {index : AttributionIndex}
    (ingested : ingestAll index batches = .ok ledger) (coherent : Coherent batches) :
    Booked index batches ledger := by
  refine foldlM_invariant (fun done ledger => Coherent done → Booked index done ledger)
    ?_ (fun _ => booked_nil index) ingested coherent
  intro done batch ledger next booked ingested coherent
  exact (booked coherent.of_concat).ingest coherent ingested

end TreeOptions.Books
