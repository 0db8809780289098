import TreeOptions.Books.ArrivalOrder

/-!
# The root of a chain

A base is booked by the fill row of the oldest version in the first batch that reports
it, and its chain holds no other fill row. The corrections that follow, in that batch or
a later one, each supersede a row of the chain (`Rooted`).

So `foldLedger` reads the ledger of every schedule, as far as no contract was booked as
two kinds, and places each fill at the broker time of its root (`rootTime`).
-/

set_option autoImplicit false

namespace TreeOptions.Books

open Checked

/-- The broker time of the oldest version of a base in a batch. -/
def oldestTime (baseExecId : String) (batch : Batch) : Option ℤ :=
  (sortedBy (fun version : BrokerExecution => versionKey version.execId)
    (batch.executions.filter fun execution =>
      execution.baseExecId = baseExecId)).head?.map BrokerExecution.time

/-- The broker time at which a base is booked: that of its oldest version in the first
batch that reports it. -/
def rootTime (batches : List Batch) (baseExecId : String) : ℤ :=
  (batches.findSome? (oldestTime baseExecId)).getD 0

/-- Every chain has one root, at its broker time, and its corrections supersede its
rows. -/
structure Rooted (batches : List Batch) (ledger : List LedgerEvent) : Prop where
  root : ∀ base, chainOf base ledger ≠ [] → ∃ root,
    ((chainOf base ledger).filter fun row => row.kind = .fill) = [root] ∧
      root.at' = rootTime batches base
  linked : ∀ row ∈ ledger, ∀ target, row.supersedesEventId = some target →
    ∃ other ∈ ledger, other.eventId = target ∧ other.baseExecId = row.baseExecId

theorem rooted_nil : Rooted [] [] := by
  constructor
  · intro base some'
    exact absurd rfl some'
  · intro row member
    cases member

/-! ## The time of a root -/

variable {batch : Batch}

theorem oldestTime_eq_none {baseExecId : String} : oldestTime baseExecId batch = none ↔
      ∀ execution ∈ batch.executions, execution.baseExecId ≠ baseExecId := by
  rw [oldestTime, Option.map_eq_none_iff, List.head?_eq_none_iff, List.eq_nil_iff_forall_not_mem]
  constructor
  · intro nothing execution member base
    exact nothing execution (mem_sortedBy.mpr (List.mem_filter.mpr ⟨member, decide_eq_true base⟩))
  · intro other execution member
    obtain ⟨inside, base⟩ := List.mem_filter.mp (mem_sortedBy.mp member)
    exact other execution inside (of_decide_eq_true base)

variable {batches : List Batch}

theorem findSome?_oldestTime_eq_none {baseExecId : String} :
    batches.findSome? (oldestTime baseExecId) = none ↔
      ∀ execution ∈ reported batches, execution.baseExecId ≠ baseExecId := by
  rw [List.findSome?_eq_none_iff]
  constructor
  · intro none' execution member
    obtain ⟨batch, inBatches, inside⟩ := List.mem_flatMap.mp member
    exact oldestTime_eq_none.mp (none' batch inBatches) execution inside
  · intro none' batch inBatches
    refine oldestTime_eq_none.mpr ?_
    intro execution inside
    exact none' execution (List.mem_flatMap.mpr ⟨batch, inBatches, inside⟩)

theorem rootTime_concat {execution : BrokerExecution} (member : execution ∈ reported batches) :
    rootTime (batches ++ [batch]) execution.baseExecId =
      rootTime batches execution.baseExecId := by
  rw [rootTime, List.findSome?_append, rootTime]
  cases found : batches.findSome? (oldestTime execution.baseExecId) with
  | none => exact absurd rfl (findSome?_oldestTime_eq_none.mp found execution member)
  | some time => rfl

theorem rootTime_of_fresh {base : String}
    (fresh : ∀ execution ∈ reported batches, execution.baseExecId ≠ base) :
    rootTime (batches ++ [batch]) base = (oldestTime base batch).getD 0 := by
  rw [rootTime, List.findSome?_append, findSome?_oldestTime_eq_none.mpr fresh, Option.none_or]
  rw [List.findSome?_cons]
  cases oldestTime base batch with
  | none => rfl
  | some time => rfl

theorem Folded.oldestTime_eq {reports : Reports} {fills : List Fill}
    (folded : Folded batch reports fills) (coherent : Coherent (batches ++ [batch])) {fill : Fill}
    (member : fill ∈ fills) : oldestTime fill.baseExecId batch = some fill.first.time := by
  have versions := mem_fillsOf.mp ((folded.mem fill).mp member).1
  have inVersions : fill.first ∈ fill.versions := List.head_mem fill.reported
  obtain ⟨-, base, execution, heard, plain⟩ := folded.version_mem member inVersions
  have inBatch : ∀ execution ∈ batch.executions, execution ∈ reported (batches ++ [batch]) := by
    intro execution inside
    rw [reported_concat]
    exact List.mem_append_right _ inside
  have base' : execution.baseExecId = fill.baseExecId := by
    rw [eq_withCommission plain]
    exact base
  rw [oldestTime]
  cases first : (sortedBy (fun version : BrokerExecution => versionKey version.execId)
    (batch.executions.filter fun execution =>
      execution.baseExecId = fill.baseExecId)).head? with
  | none =>
    have nothing := oldestTime_eq_none.mp (Option.map_eq_none_iff.mpr first)
    exact absurd base' (nothing execution heard)
  | some oldest =>
    obtain ⟨inside, oldestBase⟩ := List.mem_filter.mp
      (mem_sortedBy.mp (List.mem_of_head? first))
    have oldestBase := of_decide_eq_true oldestBase
    -- the oldest execution is a version too, so neither is older than the other
    obtain ⟨report, inReports, plain'⟩ := List.mem_map.mp
      ((folded.collected.plain oldest.plain).mpr (List.mem_map_of_mem inside))
    have reportBase : report.baseExecId = fill.baseExecId := by
      rw [eq_withCommission plain']
      exact oldestBase
    have inVersions' : report ∈ fill.versions := by
      rw [versions, mem_sortedBy, List.mem_filter]
      exact ⟨inReports, decide_eq_true reportBase⟩
    have below : versionKey oldest.execId ≤ versionKey execution.execId :=
      le_of_head? (pairwise_sortedBy _ _) first
        (mem_sortedBy.mpr (List.mem_filter.mpr ⟨heard, decide_eq_true base'⟩))
    have above : versionKey fill.first.execId ≤ versionKey report.execId :=
      le_of_head? (folded.pairwise_versions member) (List.head?_eq_some_head fill.reported)
        inVersions'
    rw [← execId_of_plain plain, execId_of_plain plain'] at above
    have execIds := coherent.key oldest (inBatch _ inside) execution (inBatch _ heard)
      (oldestBase.trans base'.symm) (le_antisymm below above)
    have same := coherent.execution oldest (inBatch _ inside) execution (inBatch _ heard) execIds
    rw [Option.map_some, eq_withCommission (same.trans plain)]
    rfl

/-! ## One batch -/

theorem Folded.isBooked {reports : Reports} {fills : List Fill}
    (folded : Folded batch reports fills) {fill : Fill} (member : fill ∈ fills)
    {version : BrokerExecution} (inside : version ∈ fill.versions) : version.secType ≠ .bag := by
  obtain ⟨inFills, notCombo⟩ := (folded.mem fill).mp member
  have first := (folded.same fill inFills version inside).secType
  have last := (folded.same fill inFills fill.execution (List.getLast_mem fill.reported)).secType
  intro bag
  rw [first, ← last] at bag
  exact notCombo bag

variable {ledger : List LedgerEvent}

/-- A base that was reported has rows, unless it is combo-level. -/
theorem Booked.chain_ne_nil {index : AttributionIndex} (booked : Booked index batches ledger)
    (coherent : Coherent batches) {execution : BrokerExecution}
    (member : execution ∈ reported batches) (isBooked : execution.secType ≠ .bag) :
    chainOf execution.baseExecId ledger ≠ [] := by
  obtain ⟨version, inReported, base, latest⟩ := exists_latest member
  have isBooked' : version.secType ≠ .bag := by
    rw [(coherent.version version inReported execution member base).secType]
    exact isBooked
  obtain ⟨-, row, inChain, -⟩ := booked.chain version inReported isBooked' latest
  rw [base] at inChain
  exact List.ne_nil_of_mem inChain

theorem roots_of_rowsOf {owner : Owner} {versions : List BrokerExecution}
    {rows : List LedgerEvent} (corrects : RowsOf owner .correction versions rows) :
    (rows.filter fun row => row.kind = .fill) = [] := by
  rw [List.filter_eq_nil_iff]
  intro row member isFill
  obtain ⟨_, _, rowOf⟩ := exists_left_of_forall₂ corrects member
  have isFill := of_decide_eq_true isFill
  rw [rowOf.kind] at isFill
  cases isFill

section Step

variable {index : AttributionIndex} {batches : List Batch} {batch : Batch}
  {ledger : List LedgerEvent} {reports : Reports} {fills : List Fill}
  {out : List (List LedgerEvent)} (rooted : Rooted batches ledger)
  (booked : Booked index batches ledger) (coherent : Coherent (batches ++ [batch]))
  (folded : Folded batch reports fills) (adds : Adds index ledger fills out)

include rooted booked

theorem root_of_chain {base : String} (some' : chainOf base ledger ≠ []) :
    ∃ root, ((chainOf base ledger).filter fun row => row.kind = .fill) = [root] ∧
      root.at' = rootTime (batches ++ [batch]) base := by
  obtain ⟨row, member⟩ := List.exists_mem_of_ne_nil _ some'
  obtain ⟨execution, inReported, -, rfl, -⟩ := booked.exists_version member
  rw [rootTime_concat inReported]
  exact rooted.root execution.baseExecId some'

include coherent folded adds

theorem root_ingest {base : String}
    (some' : chainOf base (ledger ++ newTo ledger out.flatten) ≠ []) :
    ∃ root, ((chainOf base (ledger ++ newTo ledger out.flatten)).filter fun row =>
        row.kind = .fill) = [root] ∧ root.at' = rootTime (batches ++ [batch]) base := by
  rw [chainOf_append] at some' ⊢
  by_cases known : base ∈ fills.map Fill.baseExecId
  · obtain ⟨fill, inFills, rfl⟩ := List.mem_map.mp known
    obtain ⟨rows, moves, fees, fillRows, chained⟩ := chainOf_newTo booked folded adds inFills
    rw [chained, List.filter_append]
    rcases fillRows.chain with ⟨none', opened, later, rfl, opens, corrects⟩ | ⟨held, corrects⟩
    · rw [none', List.filter_nil, List.nil_append,
        List.filter_cons_of_pos (by rw [opens.kind]; rfl), roots_of_rowsOf corrects]
      refine ⟨opened, rfl, ?_⟩
      have fresh : ∀ execution ∈ reported batches, execution.baseExecId ≠ fill.baseExecId := by
        -- an earlier report of the base would have been booked
        intro execution member base
        obtain ⟨report, heard, plain, base'⟩ :=
          folded.reported_version batches inFills (List.head_mem fill.reported)
        have same := coherent.version execution (mem_reported_concat member) report heard
          (base.trans base'.symm)
        have kind : report.secType = fill.first.secType := by
          rw [eq_withCommission plain]
          rfl
        refine booked.chain_ne_nil coherent.of_concat member ?_ (base ▸ none')
        rw [same.secType, kind]
        exact folded.isBooked inFills (List.head_mem fill.reported)
      rw [rootTime_of_fresh fresh, folded.oldestTime_eq coherent inFills, opens.at']
      rfl
    · rw [roots_of_rowsOf corrects, List.append_nil]
      exact root_of_chain rooted booked held
  · rw [chainOf_newTo_eq_nil folded adds known, List.append_nil] at some' ⊢
    exact root_of_chain rooted booked some'

omit coherent in
theorem linked_ingest {row : LedgerEvent} (member : row ∈ ledger ++ newTo ledger out.flatten)
    {target : String} (supersedes : row.supersedesEventId = some target) :
    ∃ other ∈ ledger ++ newTo ledger out.flatten,
      other.eventId = target ∧ other.baseExecId = row.baseExecId := by
  rcases List.mem_append.mp member with held | new
  · obtain ⟨other, inLedger, same⟩ := rooted.linked row held target supersedes
    exact ⟨other, List.mem_append_left _ inLedger, same⟩
  · have bases : ∀ fill ∈ fills, ∀ version ∈ fill.versions,
        version.baseExecId = fill.baseExecId :=
      fun fill member version inside => (folded.version_mem member inside).2.1
    obtain ⟨fill, inFills, rows, inOut, moves, fees, fillRows, inRows⟩ :=
      exists_fillRows adds (mem_newTo.mp new).1
    rw [fillRows.base (bases fill inFills) inRows]
    rw [fillRows.split] at inRows
    rcases List.mem_append.mp inRows with inMoves | inFees
    · obtain ⟨other, inside, same⟩ := fillRows.linked row inMoves target supersedes
      rcases List.mem_append.mp inside with inChain | inMoves'
      · obtain ⟨inLedger, -, base⟩ := mem_chainOf.mp inChain
        exact ⟨other, List.mem_append_left _ inLedger, same, base⟩
      · have inRows' : other ∈ rows := by
          rw [fillRows.split]
          exact List.mem_append_left _ inMoves'
        by_cases old : other.eventId ∈ ledger.map fun row => row.eventId
        · obtain ⟨first, inLedger, sameId⟩ := List.mem_map.mp old
          have ofExecution := (booked.row first inLedger).1
          have ofExecution' := (fillRows.of_mem inRows').1
          have base := baseExecId_of_execId_eq ofExecution ofExecution'
            (execId_of_eventId_eq ofExecution ofExecution' sameId).2
          rw [fillRows.base (bases fill inFills) inRows'] at base
          exact ⟨first, List.mem_append_left _ inLedger, sameId.trans same, base⟩
        · have new' := mem_newTo.mpr ⟨List.mem_flatten.mpr ⟨rows, inOut, inRows'⟩, old⟩
          exact ⟨other, List.mem_append_right _ new', same,
            fillRows.base (bases fill inFills) inRows'⟩
    · obtain ⟨_, _, -, -, unlinked⟩ := exists_left_of_forall₂ fillRows.charged inFees
      rw [unlinked] at supersedes
      cases supersedes

end Step

/-- **One batch keeps the roots.** -/
theorem Rooted.ingest {index : AttributionIndex} {next : List LedgerEvent}
    (rooted : Rooted batches ledger) (booked : Booked index batches ledger)
    (coherent : Coherent (batches ++ [batch]))
    (succeeded : Books.ingest index ledger batch = .ok next) :
    Rooted (batches ++ [batch]) next := by
  obtain ⟨reports, fills, out, folded, adds, rfl⟩ := ingest_ok succeeded
  constructor
  · intro base some'
    exact root_ingest rooted booked coherent folded adds some'
  · intro row member target supersedes
    exact linked_ingest rooted booked folded adds member supersedes

/-- **Every schedule leaves a rooted ledger.** -/
theorem rooted_ingestAll {index : AttributionIndex}
    (ingested : ingestAll index batches = .ok ledger) (coherent : Coherent batches) :
    Rooted batches ledger := by
  have both : Coherent batches → Booked index batches ledger ∧ Rooted batches ledger := by
    refine foldlM_invariant
      (fun done ledger => Coherent done → Booked index done ledger ∧ Rooted done ledger)
      ?_ (fun _ => ⟨booked_nil index, rooted_nil⟩) ingested
    intro done batch ledger next before ingested coherent
    obtain ⟨booked, rooted⟩ := before coherent.of_concat
    exact ⟨booked.ingest coherent ingested, rooted.ingest booked coherent ingested⟩
  exact (both coherent).2

end TreeOptions.Books
