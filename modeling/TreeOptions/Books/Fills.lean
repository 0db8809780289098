import Mathlib.Data.Prod.Lex
import Mathlib.Data.String.Basic
import TreeOptions.Books.Contracts
import TreeOptions.Foundations.Grouping
import TreeOptions.Foundations.Table

/-!
# Execution reports folded into fills

The reports of one fold are kept by execution id, a report that comes again may only
bring the commission that was missing, and a commission report joins its execution.
The executions of one base are the versions of one fill, oldest first (`versionKey`),
and the fills of one permanent id are those of one order.

A combo-level execution is evidence only: it is kept apart and never among the fills
of the book (`FillBook.fills`).
-/

set_option autoImplicit false

namespace TreeOptions.Books

open Checked

structure CommissionReport where
  execId : String
  commissionMicros : ℤ
  deriving DecidableEq

/-- The last segment of an execution id. -/
def versionSuffix (execId : String) : String :=
  match rpartition '.' execId.toList with
  | some (_, tail) => String.ofList tail
  | none => execId

/-- The order of the versions of one execution: the last segment, by length and then
by text. -/
def versionKey (execId : String) : ℕ ×ₗ String :=
  toLex ((versionSuffix execId).length, versionSuffix execId)

example : versionKey "a.09" < versionKey "a.0a" ∧ versionKey "a.0a" < versionKey "a.10" := by
  decide

def signedQuantity (execution : BrokerExecution) : ℤ :=
  match execution.side with
  | .bot => execution.quantity
  | .sld => -execution.quantity

def cashMicros (execution : BrokerExecution) : ℤ :=
  -signedQuantity execution * execution.priceMicros * execution.multiplier

/-- One execution with every version reported, oldest first. -/
structure Fill where
  baseExecId : String
  versions : List BrokerExecution
  reported : versions ≠ []

namespace Fill

def first (fill : Fill) : BrokerExecution :=
  fill.versions.head fill.reported

/-- The latest version: the figures the fill stands at. -/
def execution (fill : Fill) : BrokerExecution :=
  fill.versions.getLast fill.reported

def ofVersions? (baseExecId : String) (versions : List BrokerExecution) : Option Fill :=
  if reported : versions ≠ [] then some { baseExecId, versions, reported } else none

/-- By the time of the oldest version, then by base. -/
def order (fill : Fill) : ℤ ×ₗ String :=
  toLex (fill.first.time, fill.baseExecId)

end Fill

/-- Every fill of one order. The combo-level reports are kept apart. -/
structure OrderFills where
  permId : ℕ
  accountId : String
  orderRef : String
  fills : List Fill
  comboFills : List Fill

/-- Every order's fills, and the commission reports no execution claimed. -/
structure FillBook where
  orders : List OrderFills
  unmatchedCommissions : List CommissionReport

/-- Every booked fill across orders. -/
def FillBook.fills (book : FillBook) : List Fill :=
  sortedBy Fill.order (book.orders.flatMap OrderFills.fills)

/-! ## Reports by execution id -/

/-- Two reports that contradict each other. -/
inductive FillConflict where
  | reportsDisagree (execId : String)
  | commissionDiffers (execId : String) (held new : ℤ)
  | commissionReportsDisagree (execId : String)
  | versionChanges (baseExecId execId field : String)
  | orderNamesDiffer (permId : ℕ) (headExecId otherExecId : String)
  deriving DecidableEq

def BrokerExecution.withCommission (report : BrokerExecution) (commission : Option ℤ) :
    BrokerExecution :=
  { report with commissionMicros := commission }

/-- The report without its commission. -/
def BrokerExecution.plain (report : BrokerExecution) : BrokerExecution :=
  report.withCommission none

def joinCommission (report : BrokerExecution) :
    Option ℤ → Except FillConflict BrokerExecution
  | none => .ok report
  | some commission =>
    match report.commissionMicros with
    | none => .ok (report.withCommission (some commission))
    | some held =>
      if held = commission then .ok report
      else .error (.commissionDiffers report.execId held commission)

/-- One execution id reported twice: the reports are the same, or the later one carries
the commission the earlier lacked. -/
def mergeReport (held new : BrokerExecution) : Except FillConflict BrokerExecution := do
  refuse (held.plain ≠ new.plain) (.reportsDisagree held.execId)
  joinCommission held new.commissionMicros

/-- The reports of a fold, one for each execution id. -/
abbrev Reports :=
  Table BrokerExecution.execId

/-- The commission reports no execution has claimed, one for each execution id. -/
abbrev Unmatched :=
  Table CommissionReport.execId

/-- The reports so far and one more. -/
def recordReport (reports : Reports) (execution : BrokerExecution) :
    Except FillConflict Reports :=
  match reports.find? execution.execId with
  | none => .ok (reports.put execution)
  | some held => do
      let merged ← mergeReport held execution
      return reports.put merged

/-- The reports with one commission report joined, or kept apart. -/
def recordCommission (state : Reports × Unmatched) (commission : CommissionReport) :
    Except FillConflict (Reports × Unmatched) :=
  match state.1.find? commission.execId with
  | some target => do
      let joined ← joinCommission target (some commission.commissionMicros)
      return (state.1.put joined, state.2)
  | none => do
      let seen := state.2.find? commission.execId
      refuse (seen.isSome ∧ seen ≠ some commission)
        (.commissionReportsDisagree commission.execId)
      return (state.1, state.2.put commission)

/-- One report for each execution id, commissions joined. -/
def collectReports (executions : List BrokerExecution) (commissions : List CommissionReport) :
    Except FillConflict (Reports × Unmatched) := do
  let reports ← executions.foldlM recordReport Table.empty
  commissions.foldlM recordCommission (reports, Table.empty)

/-! ## Fills and orders -/

/-- What every version of one fill shares, by the name of the field. -/
def fillIdentity : List (String × (BrokerExecution → BrokerExecution → Bool)) :=
  [("perm_id", fun later first => later.permId = first.permId),
    ("order_ref", fun later first => later.orderRef = first.orderRef),
    ("account_id", fun later first => later.accountId = first.accountId),
    ("con_id", fun later first => later.conId = first.conId),
    ("sec_type", fun later first => later.secType = first.secType),
    ("side", fun later first => later.side = first.side),
    ("multiplier", fun later first => later.multiplier = first.multiplier)]

def checkVersions (fill : Fill) : Except FillConflict Unit :=
  fill.versions.tail.forM fun later =>
    fillIdentity.forM fun field =>
      refuse (field.2 later fill.first = false)
        (.versionChanges fill.baseExecId later.execId field.1)

/-- The fills of the reports, their versions in order. -/
def fillsOf (reports : List BrokerExecution) : List Fill :=
  (groupBy BrokerExecution.baseExecId reports).filterMap fun group =>
    Fill.ofVersions? group.1 (sortedBy (fun version => versionKey version.execId) group.2)

def Fill.Combo (fill : Fill) : Prop :=
  fill.execution.secType = .bag

instance (fill : Fill) : Decidable fill.Combo :=
  inferInstanceAs (Decidable (_ = _))

def orderOf (permId : ℕ) : List Fill → Except FillConflict (Option OrderFills)
  | [] => .ok none
  | head :: rest => do
      rest.forM fun other =>
        refuse ((other.first.accountId, other.first.orderRef) ≠
            (head.first.accountId, head.first.orderRef))
          (.orderNamesDiffer permId head.first.execId other.first.execId)
      return some {
        permId
        accountId := head.first.accountId
        orderRef := head.first.orderRef
        fills := (head :: rest).filter fun fill => ¬ fill.Combo
        comboFills := (head :: rest).filter fun fill => fill.Combo }

/-- Fold reports into per-order fill state. -/
def foldExecutions (executions : List BrokerExecution) (commissions : List CommissionReport) :
    Except FillConflict FillBook := do
  let collected ← collectReports executions commissions
  let fills := fillsOf collected.1.rows
  fills.forM checkVersions
  let byOrder := sortedBy Prod.fst (groupBy (fun fill => fill.first.permId) fills)
  let orders ← byOrder.mapM fun group => orderOf group.1 (sortedBy Fill.order group.2)
  return {
    orders := orders.reduceOption
    unmatchedCommissions := sortedBy CommissionReport.execId collected.2.rows }

/-! ## What the reports of a fold say -/

@[simp] theorem execId_plain (report : BrokerExecution) : report.plain.execId = report.execId :=
  rfl

theorem execId_of_plain {first second : BrokerExecution} (same : first.plain = second.plain) :
    first.execId = second.execId := by
  rw [← execId_plain first, same, execId_plain]

theorem joinCommission_ok {report joined : BrokerExecution} {commission : Option ℤ}
    (succeeded : joinCommission report commission = .ok joined) :
    joined.plain = report.plain ∧ ∀ amount, joined.commissionMicros = some amount ↔
      commission = some amount ∨ report.commissionMicros = some amount := by
  cases commission with
  | none =>
    cases succeeded
    simp
  | some new =>
    rw [joinCommission] at succeeded
    split at succeeded
    case h_1 missing =>
      cases succeeded
      exact ⟨rfl, fun amount => by simp [BrokerExecution.withCommission, missing]⟩
    case h_2 held present =>
      split_ifs at succeeded with same
      cases succeeded
      exact ⟨rfl, fun amount => by simp [present, same]⟩

variable {reports : Reports}

theorem recordReport_ok {next : Reports} {execution : BrokerExecution}
    (recorded : recordReport reports execution = .ok next) :
    ∃ row, next = reports.put row ∧ row.plain = execution.plain ∧
      (∀ held, reports.find? execution.execId = some held → held.plain = execution.plain) ∧
      ∀ amount, row.commissionMicros = some amount ↔ execution.commissionMicros = some amount ∨
        ∃ held, reports.find? execution.execId = some held ∧
          held.commissionMicros = some amount := by
  rw [recordReport] at recorded
  cases found : reports.find? execution.execId with
  | none =>
    rw [found] at recorded
    cases recorded
    refine ⟨execution, rfl, rfl, ?_, ?_⟩
    · intro held none'
      cases none'
    · intro amount
      simp
  | some held =>
    rw [found] at recorded
    obtain ⟨row, merged, same⟩ := bind_eq_ok.mp recorded
    cases same
    rw [mergeReport, refuse_bind_eq_ok, not_not] at merged
    obtain ⟨agree, joined⟩ := merged
    obtain ⟨plain, charged⟩ := joinCommission_ok joined
    refine ⟨row, rfl, plain.trans agree, ?_, ?_⟩
    · intro other same
      rw [← Option.some.inj same]
      exact agree
    · intro amount
      rw [charged amount]
      simp

variable {state : Reports × Unmatched} {commission : CommissionReport}

theorem recordCommission_ok {next : Reports × Unmatched}
    (recorded : recordCommission state commission = .ok next) :
    (state.1.find? commission.execId = none ∧ next.1 = state.1) ∨
      ∃ target row, state.1.find? commission.execId = some target ∧ next.1 = state.1.put row ∧
        row.plain = target.plain ∧ ∀ amount, row.commissionMicros = some amount ↔
          amount = commission.commissionMicros ∨ target.commissionMicros = some amount := by
  rw [recordCommission] at recorded
  cases found : state.1.find? commission.execId with
  | none =>
    rw [found] at recorded
    obtain ⟨-, recorded⟩ := refuse_bind_eq_ok.mp recorded
    cases recorded
    exact .inl ⟨rfl, rfl⟩
  | some target =>
    rw [found] at recorded
    obtain ⟨row, joined, same⟩ := bind_eq_ok.mp recorded
    cases same
    obtain ⟨plain, charged⟩ := joinCommission_ok joined
    refine .inr ⟨target, row, rfl, rfl, plain, ?_⟩
    intro amount
    rw [charged amount, Option.some.injEq, eq_comm]

/-- A commission of an execution, told with it or in a report of its own. -/
def Charged (executions : List BrokerExecution) (commissions : List CommissionReport)
    (execId : String) (amount : ℤ) : Prop :=
  (∃ execution ∈ executions, execution.execId = execId ∧
    execution.commissionMicros = some amount) ∨
  ⟨execId, amount⟩ ∈ commissions

/-- The reports of a fold, against what was folded: the same executions but for their
commissions, and every commission told of one of them. -/
structure Collected (executions : List BrokerExecution) (commissions : List CommissionReport)
    (reports : Reports) : Prop where
  plain : ∀ execution, execution ∈ reports.rows.map BrokerExecution.plain ↔
    execution ∈ executions.map BrokerExecution.plain
  charged : ∀ report ∈ reports.rows, ∀ amount, report.commissionMicros = some amount ↔
    Charged executions commissions report.execId amount

theorem mem_map_plain_put {row : BrokerExecution}
    (same : ∀ held, reports.find? row.execId = some held → held.plain = row.plain)
    (execution : BrokerExecution) : execution ∈ (reports.put row).rows.map BrokerExecution.plain ↔
      execution = row.plain ∨ execution ∈ reports.rows.map BrokerExecution.plain := by
  simp only [List.mem_map, Table.mem_rows_put]
  constructor
  · rintro ⟨report, rfl | ⟨inside, -⟩, rfl⟩
    · exact .inl rfl
    · exact .inr ⟨report, inside, rfl⟩
  · rintro (rfl | ⟨report, inside, rfl⟩)
    · exact ⟨row, .inl rfl, rfl⟩
    · by_cases taken : report.execId = row.execId
      · have found := Table.find?_key inside
        rw [taken] at found
        exact ⟨row, .inl rfl, (same report found).symm⟩
      · exact ⟨report, .inr ⟨inside, taken⟩, rfl⟩

theorem collected_recordReport {done : List BrokerExecution} {next : Reports}
    {execution : BrokerExecution} (before : Collected done [] reports)
    (recorded : recordReport reports execution = .ok next) :
    Collected (done ++ [execution]) [] next := by
  obtain ⟨row, rfl, plain, agree, charged⟩ := recordReport_ok recorded
  have execId : row.execId = execution.execId := execId_of_plain plain
  constructor
  · intro other
    rw [mem_map_plain_put (by rw [execId, plain]; exact agree), before.plain, plain]
    simp [or_comm]
  · intro report member amount
    rcases Table.mem_rows_put.mp member with rfl | ⟨inside, ne⟩
    · rw [charged amount]
      constructor
      · rintro (told | ⟨held, found, told⟩)
        · exact .inl ⟨execution, List.mem_concat_self, execId.symm, told⟩
        · obtain ⟨inside, same⟩ := Table.find?_eq_some_iff.mp found
          rcases (before.charged held inside amount).mp told with
            ⟨other, old, other', told'⟩ | none'
          · exact .inl ⟨other, List.mem_append_left _ old, by rw [other', same, execId], told'⟩
          · cases none'
      · rintro (⟨other, heard, same, told⟩ | none')
        · rcases List.mem_append.mp heard with old | new
          · right
            obtain ⟨held, inside, plain'⟩ :=
              List.mem_map.mp ((before.plain other.plain).mpr (List.mem_map_of_mem old))
            have held' : held.execId = other.execId := execId_of_plain plain'
            have key : held.execId = execution.execId := by rw [held', same, execId]
            refine ⟨held, key ▸ Table.find?_key inside, ?_⟩
            rw [before.charged held inside]
            exact .inl ⟨other, old, held'.symm, told⟩
          · rw [List.mem_singleton.mp new] at told
            exact .inl told
        · cases none'
    · rw [before.charged report inside amount]
      constructor
      · rintro (⟨other, old, same, told⟩ | none')
        · exact .inl ⟨other, List.mem_append_left _ old, same, told⟩
        · cases none'
      · rintro (⟨other, heard, same, told⟩ | none')
        · rcases List.mem_append.mp heard with old | new
          · exact .inl ⟨other, old, same, told⟩
          · rw [List.mem_singleton.mp new, ← execId] at same
            exact absurd same.symm ne
        · cases none'

variable {executions : List BrokerExecution}

theorem collected_recordCommission {done : List CommissionReport} {next : Reports × Unmatched}
    (before : Collected executions done state.1)
    (recorded : recordCommission state commission = .ok next) :
    Collected executions (done ++ [commission]) next.1 := by
  rcases recordCommission_ok recorded with
    ⟨free, unchanged⟩ | ⟨target, row, found, put, plain, charged⟩
  · rw [unchanged]
    refine ⟨before.plain, ?_⟩
    intro report inside amount
    rw [before.charged report inside amount]
    have other : report.execId ≠ commission.execId := by
      intro same
      have found := Table.find?_key inside
      rw [same, free] at found
      cases found
    have apart : (⟨report.execId, amount⟩ : CommissionReport) ≠ commission := by
      rintro rfl
      exact other rfl
    simp [Charged, apart]
  · obtain ⟨inside, key⟩ := Table.find?_eq_some_iff.mp found
    have execId : row.execId = target.execId := execId_of_plain plain
    rw [put]
    constructor
    · intro other
      rw [mem_map_plain_put, before.plain, or_iff_right_of_imp]
      · rintro rfl
        rw [plain, ← before.plain]
        exact List.mem_map_of_mem inside
      · intro held found'
        rw [execId, Table.find?_key inside] at found'
        rw [← Option.some.inj found', plain]
    · intro report member amount
      rcases Table.mem_rows_put.mp member with rfl | ⟨inside', ne⟩
      · rw [charged amount, before.charged target inside amount, execId, key]
        have new : (⟨commission.execId, amount⟩ : CommissionReport) = commission ↔
            amount = commission.commissionMicros := by
          constructor
          · intro same
            exact congrArg CommissionReport.commissionMicros same
          · rintro rfl
            rfl
        rw [Charged, Charged, List.mem_append, List.mem_singleton, new, or_comm, or_assoc]
      · rw [before.charged report inside' amount]
        have apart : (⟨report.execId, amount⟩ : CommissionReport) ≠ commission := by
          rintro rfl
          exact ne (key.symm.trans execId.symm)
        simp [Charged, apart]

variable {commissions : List CommissionReport}

theorem collected_collectReports (collected : collectReports executions commissions = .ok state) :
    Collected executions commissions state.1 := by
  obtain ⟨reports, recorded, joined⟩ := bind_eq_ok.mp collected
  have empty : Collected [] [] Table.empty := by
    constructor
    · intro execution
      exact Iff.rfl
    · intro report member
      cases member
  have executed : Collected executions [] reports :=
    foldlM_invariant (fun done reports => Collected done [] reports)
      (fun _ _ _ _ => collected_recordReport) empty recorded
  exact foldlM_invariant (fun done state => Collected executions done state.1)
    (fun _ _ _ _ => collected_recordCommission) executed joined

/-! ## What the fills of a fold say -/

/-- Versions of one fill: the same order's execution in the same contract and
direction. -/
structure SameFill (version first : BrokerExecution) : Prop where
  permId : version.permId = first.permId
  orderRef : version.orderRef = first.orderRef
  accountId : version.accountId = first.accountId
  conId : version.conId = first.conId
  secType : version.secType = first.secType
  side : version.side = first.side
  multiplier : version.multiplier = first.multiplier

variable {fill : Fill}

theorem sameFill_of_checkVersions (checked : checkVersions fill = .ok ()) :
    ∀ version ∈ fill.versions, SameFill version fill.first := by
  intro version member
  rw [← List.cons_head_tail fill.reported] at member
  rcases List.mem_cons.mp member with same | later
  · rw [same]
    exact ⟨rfl, rfl, rfl, rfl, rfl, rfl, rfl⟩
  · have fields := forM_eq_ok.mp (forM_eq_ok.mp checked version later)
    simp only [fillIdentity, List.forall_mem_cons, refuse_eq_ok, decide_eq_false_iff_not,
      not_not] at fields
    obtain ⟨permId, orderRef, accountId, conId, secType, side, multiplier, -⟩ := fields
    exact ⟨permId, orderRef, accountId, conId, secType, side, multiplier⟩

theorem ofVersions?_eq_some {base : String} {versions : List BrokerExecution} :
    Fill.ofVersions? base versions = some fill ↔
      fill.baseExecId = base ∧ fill.versions = versions := by
  rw [Fill.ofVersions?, Option.dite_none_right_eq_some]
  constructor
  · rintro ⟨_, same⟩
    cases same
    exact ⟨rfl, rfl⟩
  · rintro ⟨rfl, rfl⟩
    exact ⟨fill.reported, rfl⟩

theorem mem_fillsOf {reports : List BrokerExecution} : fill ∈ fillsOf reports ↔ fill.versions =
      sortedBy (fun version => versionKey version.execId)
        (reports.filter fun report => report.baseExecId = fill.baseExecId) := by
  simp only [fillsOf, List.mem_filterMap, mem_groupBy, Prod.exists, ofVersions?_eq_some]
  constructor
  · rintro ⟨base, group, ⟨-, members⟩, same, versions⟩
    rw [versions, members, same]
  · intro versions
    refine ⟨fill.baseExecId,
      reports.filter fun report => report.baseExecId = fill.baseExecId, ⟨?_, rfl⟩, rfl, versions⟩
    obtain ⟨version, member⟩ := List.exists_mem_of_ne_nil _ fill.reported
    rw [versions, mem_sortedBy, List.mem_filter] at member
    exact List.mem_map.mpr ⟨version, member.1, of_decide_eq_true member.2⟩

theorem nodup_fillsOf (reports : List BrokerExecution) :
    ((fillsOf reports).map Fill.baseExecId).Nodup := by
  have bases : (fillsOf reports).map Fill.baseExecId =
      firstSeen (reports.map BrokerExecution.baseExecId) := by
    rw [← keys_groupBy, fillsOf, List.map_filterMap, ← List.filterMap_eq_map]
    refine List.filterMap_congr ?_
    intro group member
    have reported : sortedBy (fun version => versionKey version.execId) group.2 ≠ [] := by
      intro nothing
      apply ne_nil_of_mem_groupBy member
      rw [← List.perm_nil, ← nothing]
      exact (sortedBy_perm _ _).symm
    rw [Fill.ofVersions?, dif_pos reported]
    rfl
  rw [bases]
  exact nodup_firstSeen _

theorem orderOf_ok {permId : ℕ} {fills : List Fill} {order : Option OrderFills}
    (succeeded : orderOf permId fills = .ok order) :
    order.toList.flatMap OrderFills.fills = fills.filter fun fill => ¬ fill.Combo := by
  cases fills with
  | nil =>
    cases succeeded
    rfl
  | cons head rest =>
    obtain ⟨-, -, same⟩ := bind_eq_ok.mp succeeded
    cases same
    simp

theorem flatMap_orders_perm {groups : List (ℕ × List Fill)} {orders : List (Option OrderFills)}
    (ordered : List.Forall₂
      (fun group order => orderOf group.1 (sortedBy Fill.order group.2) = .ok order)
      groups orders) :
    (orders.reduceOption.flatMap OrderFills.fills).Perm
      ((groups.flatMap Prod.snd).filter fun fill => ¬ fill.Combo) := by
  induction ordered with
  | nil => exact .refl _
  | @cons group order _ orders first _ ih =>
    have split : (order :: orders).reduceOption.flatMap OrderFills.fills =
        order.toList.flatMap OrderFills.fills ++
          orders.reduceOption.flatMap OrderFills.fills := by
      cases order with
      | none => rfl
      | some order =>
        rw [Option.toList_some, List.flatMap_singleton]
        rfl
    rw [split, orderOf_ok first, List.flatMap_cons, List.filter_append]
    exact ((sortedBy_perm _ _).filter _).append ih

/-- **What a fold returns**: the fills of its reports, their versions checked, without
the combo-level ones. -/
theorem foldExecutions_ok {book : FillBook}
    (folded : foldExecutions executions commissions = .ok book) :
    ∃ reports : Reports, Collected executions commissions reports ∧
      (∀ fill ∈ fillsOf reports.rows, checkVersions fill = .ok ()) ∧
      book.fills.Perm ((fillsOf reports.rows).filter fun fill => ¬ fill.Combo) := by
  simp only [foldExecutions, bind_eq_ok] at folded
  obtain ⟨state, collected, ⟨⟩, checked, orders, ordered, same⟩ := folded
  cases same
  refine ⟨state.1, collected_collectReports collected, forM_eq_ok.mp checked, ?_⟩
  refine (sortedBy_perm _ _).trans ((flatMap_orders_perm (mapM_eq_ok.mp ordered)).trans ?_)
  have grouped := flatMap_groupBy_perm (fun fill => fill.first.permId) (fillsOf state.1.rows)
  exact (((sortedBy_perm _ _).flatMap_right _).trans grouped).filter _

end TreeOptions.Books
