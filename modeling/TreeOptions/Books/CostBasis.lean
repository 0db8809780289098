import TreeOptions.Books.LotRun
import TreeOptions.Books.Roots

/-!
# Cost basis for every order of arrival

`foldLedger` reads the ledger of every schedule: the effective fill of a base has the
figures of its latest version, its commissions, and the broker time of its root
(`Effects`). Lots consume fills in the order of these times, so two schedules of the same
reports that root the fills of each lot in one order leave the same lots and the same
realized P&L (`sameBooks_of_sameOrder`).

A correction with another broker time that arrives before its fill roots the fill
elsewhere, and lots change with it (`foldLedger_depends_on_arrival`).
-/

set_option autoImplicit false

namespace TreeOptions.Books

open Checked

/-! ## The ledger of a schedule is read -/

structure Listed (done : List LedgerEvent) (state : Admitted) : Prop where
  rows : state.byId.rows = done
  fills : ∀ base booked, state.fills.find? base = some booked →
    ∃ row ∈ done, row.kind = .fill ∧ row.baseExecId = some base

/-- No base is filled by two rows. -/
def FilledOnce (rows : List LedgerEvent) : Prop :=
  ∀ first ∈ rows, ∀ second ∈ rows, first.kind = .fill → second.kind = .fill →
    first.baseExecId = second.baseExecId → first = second

theorem exists_admitFill {done : List LedgerEvent} {state : Admitted} {event : LedgerEvent}
    (listed : Listed done state)
    (unfilled : event.kind = .fill → ∀ row ∈ done, row.kind = .fill →
      row.baseExecId ≠ event.baseExecId) :
    ∃ fills, admitFill state.fills event = .ok fills ∧
      ∀ base booked, fills.find? base = some booked →
        ∃ row ∈ done ++ [event], row.kind = .fill ∧ row.baseExecId = some base := by
  have old : ∀ base booked, state.fills.find? base = some booked →
      ∃ row ∈ done ++ [event], row.kind = .fill ∧ row.baseExecId = some base := by
    intro base booked found
    obtain ⟨row, member, isFill⟩ := listed.fills base booked found
    exact ⟨row, List.mem_append_left _ member, isFill⟩
  rw [admitFill]
  split
  case h_1 base isFill carries =>
    have free : state.fills.find? base = none := by
      by_contra taken
      obtain ⟨booked, found⟩ := Option.ne_none_iff_exists'.mp taken
      obtain ⟨row, member, isFill', carries'⟩ := listed.fills base booked found
      exact unfilled isFill row member isFill' (carries'.trans carries.symm)
    have after : (state.fills.insertOrIgnore (base, event.eventId)).find? base =
        some (base, event.eventId) := by
      rw [Table.find?_insertOrIgnore, free, if_pos rfl]
      rfl
    refine ⟨_, refuse_bind_eq_ok.mpr ⟨?_, rfl⟩, ?_⟩
    · rw [after]
      exact not_not.mpr rfl
    · intro base' booked found
      rw [Table.find?_insertOrIgnore] at found
      rcases Option.or_eq_some_iff.mp found with earlier | ⟨-, now⟩
      · exact old base' booked earlier
      · split_ifs at now with same
        have same : base = base' := same
        exact ⟨event, List.mem_concat_self, isFill, same ▸ carries⟩
  case h_2 => exact ⟨state.fills, rfl, old⟩

/-- **Rows with different ids that fill no base twice are all held.** -/
theorem exists_admitAll {events : List LedgerEvent}
    (ids : (events.map fun row => row.eventId).Nodup) (once : FilledOnce events) :
    ∃ admitted, admitAll events = .ok admitted ∧ admitted.byId.rows = events := by
  have listed : Listed [] Admitted.empty := by
    constructor
    · rfl
    · intro base booked found
      cases found
  have held : ∃ admitted, admitAll events = .ok admitted ∧ Listed events admitted := by
    refine exists_foldlM Listed ?_ (List.nil_append events) listed
    rintro done event rest state rfl listed
    rw [List.map_append, List.map_cons, List.nodup_append] at ids
    have fresh : ∀ row ∈ done, row.eventId ≠ event.eventId := by
      intro row member
      exact ids.2.2 _ (List.mem_map_of_mem member) _ List.mem_cons_self
    have free : state.byId.find? event.eventId = none := by
      by_contra taken
      obtain ⟨row, found⟩ := Option.ne_none_iff_exists'.mp taken
      obtain ⟨member, same⟩ := Table.find?_eq_some_iff.mp found
      rw [listed.rows] at member
      exact fresh row member same
    have unfilled : event.kind = .fill → ∀ row ∈ done, row.kind = .fill →
        row.baseExecId ≠ event.baseExecId := by
      intro isFill row member isFill' same
      have again := once row (List.mem_append_left _ member) event
        (List.mem_append_right _ List.mem_cons_self) isFill' isFill same
      exact fresh row member (by rw [again])
    obtain ⟨fills, admitted, booked⟩ := exists_admitFill listed unfilled
    have put : (state.byId.put event).rows = done ++ [event] := by
      rw [Table.rows_put_of_fresh free, listed.rows]
    refine ⟨⟨state.byId.put event, fills⟩, ?_, put, booked⟩
    rw [admitEvent, free]
    exact map_eq_ok.mpr ⟨_, bind_eq_ok.mpr ⟨fills, admitted, rfl⟩, rfl⟩
  obtain ⟨admitted, succeeded, listed⟩ := held
  exact ⟨admitted, succeeded, listed.rows⟩

variable {ledger : List LedgerEvent}

theorem exists_validated (ids : (ledger.map fun row => row.eventId).Nodup)
    (once : FilledOnce ledger)
    (linked : ∀ row ∈ ledger, ∀ target, row.supersedesEventId = some target →
      ∃ other ∈ ledger, other.eventId = target ∧ other.baseExecId = row.baseExecId) :
    ∃ rows, validated ledger = .ok rows ∧ rows.Perm ledger := by
  have perm := sortedBy_perm (fun event : LedgerEvent => event.eventId) ledger
  have once' : FilledOnce (sortedBy (fun event : LedgerEvent => event.eventId) ledger) := by
    intro first inFirst second inSecond
    exact once first (mem_sortedBy.mp inFirst) second (mem_sortedBy.mp inSecond)
  obtain ⟨admitted, succeeded, rows⟩ :=
    exists_admitAll ((perm.map fun row => row.eventId).nodup_iff.mpr ids) once'
  refine ⟨admitted.byId.rows, ?_, rows ▸ perm⟩
  have checked : admitted.byId.rows.forM (checkSuperseded admitted) = .ok ⟨⟩ := by
    refine forM_eq_ok.mpr ?_
    intro row member
    rw [checkSuperseded]
    split
    case h_1 => rfl
    case h_2 target supersedes =>
      rw [rows, mem_sortedBy] at member
      obtain ⟨other, inLedger, rfl, base⟩ := linked row member target supersedes
      have inRows : other ∈ admitted.byId.rows := by
        rw [rows, mem_sortedBy]
        exact inLedger
      have found : admitted.byId.find? other.eventId = some other := Table.find?_key inRows
      rw [found]
      exact refuse_eq_ok.mpr (not_not.mpr base)
  rw [validated]
  exact bind_eq_ok.mpr ⟨admitted, succeeded, bind_eq_ok.mpr ⟨⟨⟩, checked, rfl⟩⟩

/-! ## The effective fills of a schedule -/

/-- The lot that an execution is booked to. -/
def AttributionIndex.lotKey (index : AttributionIndex) (execution : BrokerExecution) : LotKey :=
  (execution.accountId, execution.conId, (index.owner execution.orderRef).attribution)

structure Effects (index : AttributionIndex) (batches : List Batch) (ledger : List LedgerEvent)
    (version : BrokerExecution) (fill : Effective) : Prop where
  base : fill.base = version.baseExecId
  key : fill.lotKey = index.lotKey version
  secType : secTypeOf version = .ok fill.secType
  moves : (fill.quantity, fill.cash) = figures version
  fee : fill.fee = feeOf ledger version.baseExecId
  at' : fill.at' = rootTime batches version.baseExecId

variable {rows : List LedgerEvent}

theorem feeOf_perm (perm : rows.Perm ledger) (base : String) :
    feeOf rows base = feeOf ledger base :=
  ((perm.filter _).map _).sum_eq

section Reading

variable {index : AttributionIndex} {batches : List Batch} {ledger : List LedgerEvent}
  (booked : Booked index batches ledger) (rooted : Rooted batches ledger)
  (coherent : Coherent batches)

include booked coherent

variable {version : BrokerExecution}

theorem chainIdentity_eq (inside : version ∈ reported batches) {typed : PositionSecType}
    (kind : secTypeOf version = .ok typed) {row : LedgerEvent}
    (member : row ∈ chainOf version.baseExecId ledger) :
    chainIdentity row = (version.accountId, some version.conId, some typed,
      (index.owner version.orderRef).attribution) := by
  obtain ⟨execution, inReported, -, base, rowOf, -⟩ := booked.exists_version member
  have same := coherent.version execution inReported version inside base
  obtain ⟨typed', kind', secType⟩ := rowOf.secType
  have kinds : typed' = typed := by
    rw [secTypeOf, same.secType] at kind'
    rw [secTypeOf] at kind
    cases found : version.secType <;> rw [found] at kind kind' <;> cases kind <;> cases kind' <;>
      rfl
  rw [chainIdentity, rowOf.accountId, rowOf.conId, secType, rowOf.attribution, same.accountId,
    same.conId, same.orderRef, kinds]

include rooted

omit booked coherent in
theorem filledOnce_of_rooted : FilledOnce ledger := by
  intro first inFirst second inSecond isFill isFill' same
  have moves : first.kind.Moves := by rw [isFill]; trivial
  have moves' : second.kind.Moves := by rw [isFill']; trivial
  obtain ⟨execId, -, base, -⟩ := first.names moves.ofExecution
  have inChain := mem_chainOf.mpr ⟨inFirst, moves, base⟩
  have inChain' := mem_chainOf.mpr ⟨inSecond, moves', same ▸ base⟩
  obtain ⟨root, roots, -⟩ := rooted.root _ (List.ne_nil_of_mem inChain)
  have isRoot : ∀ row ∈ chainOf (baseExecIdOf execId) ledger, row.kind = .fill → row = root := by
    intro row member isFill
    have inRoots : row ∈ (chainOf (baseExecIdOf execId) ledger).filter fun row =>
        row.kind = .fill := List.mem_filter.mpr ⟨member, decide_eq_true isFill⟩
    rw [roots] at inRoots
    exact List.mem_singleton.mp inRoots
  exact (isRoot first inChain isFill).trans (isRoot second inChain' isFill').symm

variable {rows : List LedgerEvent}

/-- **The chain of a base is an effective fill.** -/
theorem exists_effectiveOf (perm : rows.Perm ledger) {chain : List LedgerEvent}
    (inside : version ∈ reported batches) (isBooked : version.secType ≠ .bag)
    (latest : Latest batches version) (same : chain.Perm (chainOf version.baseExecId ledger)) :
    ∃ fill, effectiveOf rows version.baseExecId chain = .ok fill ∧
      Effects index batches ledger version fill := by
  obtain ⟨root, roots, at'⟩ :=
    rooted.root _ (booked.chain_ne_nil coherent inside isBooked)
  have roots' : (chain.filter fun event => event.kind = .fill) = [root] := by
    rw [← List.perm_singleton, ← roots]
    exact same.filter _
  obtain ⟨typed, kind⟩ : ∃ typed, secTypeOf version = .ok typed := by
    rw [secTypeOf]
    cases found : version.secType with
    | opt => exact ⟨.opt, rfl⟩
    | stk => exact ⟨.stk, rfl⟩
    | bag => exact absurd found isBooked
  have identity : ∀ row ∈ chain, chainIdentity row = (version.accountId, some version.conId,
      some typed, (index.owner version.orderRef).attribution) := by
    intro row member
    exact chainIdentity_eq booked coherent inside kind (same.mem_iff.mp member)
  have inChain : root ∈ chain := by
    have member : root ∈ chain.filter fun event => event.kind = .fill := by
      rw [roots']
      exact List.mem_cons_self
    exact (List.mem_filter.mp member).1
  obtain ⟨account, contract, secType, attribution⟩ : root.accountId = version.accountId ∧
      root.conId = some version.conId ∧ root.secType = some typed ∧
      root.attribution = (index.owner version.orderRef).attribution := by
    simpa [chainIdentity] using identity root inChain
  have checked : (chain.forM fun event => refuse (chainIdentity event ≠ chainIdentity root)
      (BooksError.correctsElsewhere event.eventId root.eventId)) = .ok ⟨⟩ := by
    refine forM_eq_ok.mpr ?_
    intro row member
    exact refuse_eq_ok.mpr (not_not.mpr ((identity row member).trans (identity root inChain).symm))
  have sums := (booked.chain version inside isBooked latest).1
  let fill : Effective :=
    { accountId := root.accountId
      conId := version.conId
      secType := typed
      attribution := root.attribution
      at' := root.at'
      base := version.baseExecId
      source := root.eventId
      quantity := (chain.map fun event => event.quantityDelta).sum
      cash := (chain.map fun event => event.cashDeltaMicros).sum
      fee := feeOf rows version.baseExecId }
  refine ⟨fill, ?_, ?_⟩
  · rw [effectiveOf, roots']
    dsimp only
    rw [contract, secType]
    exact bind_eq_ok.mpr ⟨⟨⟩, checked, rfl⟩
  · constructor
    · rfl
    · rw [Effective.lotKey, AttributionIndex.lotKey, ← account, ← attribution]
    · exact kind
    · rw [← sums, moved_eq_sums, ← (same.map fun event => event.quantityDelta).sum_eq,
        ← (same.map fun event => event.cashDeltaMicros).sum_eq]
    · exact feeOf_perm perm _
    · exact at'

omit rooted in
theorem version_of_chain (perm : rows.Perm ledger) {chain : String × List LedgerEvent}
    (member : chain ∈ chains rows) :
    ∃ version ∈ reported batches, version.secType ≠ .bag ∧ Latest batches version ∧
      chain.1 = version.baseExecId := by
  obtain ⟨row, inside⟩ := List.exists_mem_of_ne_nil _ (ne_nil_of_mem_groupBy member)
  obtain ⟨inRows, -, base⟩ := mem_chains member inside
  obtain ⟨-, execution, inReported, rowOf⟩ := booked.row row (perm.mem_iff.mp inRows)
  obtain ⟨version, inVersions, base', latest⟩ := exists_latest inReported
  refine ⟨version, inVersions, ?_, latest, ?_⟩
  · rw [(coherent.version version inVersions execution inReported base').secType]
    exact rowOf.booked
  · rw [← base, rowOf.baseExecId, Option.getD_some, base']

omit booked rooted coherent in
theorem perm_of_chain (perm : rows.Perm ledger) {chain : String × List LedgerEvent}
    (member : chain ∈ chains rows) : chain.2.Perm (chainOf chain.1 ledger) := by
  have same : chain.2 = chainOf chain.1 rows := by
    rw [(mem_groupBy.mp member).2, List.filter_filter, chainOf]
    refine List.filter_congr ?_
    intro row _
    by_cases moves : row.kind.Moves
    · obtain ⟨execId, -, base, -⟩ := row.names moves.ofExecution
      simp [moves, base]
    · simp [moves]
  rw [same]
  exact perm.filter _

/-- **The effective fills are those of the latest versions.** -/
theorem exists_effectiveFills (perm : rows.Perm ledger) :
    ∃ effective, effectiveFills rows = .ok effective ∧
      (∀ fill ∈ effective, ∃ version ∈ reported batches, version.secType ≠ .bag ∧
        Latest batches version ∧ Effects index batches ledger version fill) ∧
      ∀ version ∈ reported batches, version.secType ≠ .bag → Latest batches version →
        ∃ fill ∈ effective, Effects index batches ledger version fill := by
  have effects : ∀ chain ∈ chains rows, ∀ version ∈ reported batches, version.secType ≠ .bag →
      Latest batches version → chain.1 = version.baseExecId → ∃ fill,
        effectiveOf rows chain.1 chain.2 = .ok fill ∧
          Effects index batches ledger version fill := by
    intro chain member version inVersions isBooked latest base
    rw [base]
    exact exists_effectiveOf booked rooted coherent perm inVersions isBooked latest
      (base ▸ perm_of_chain perm member)
  obtain ⟨effective, succeeded⟩ : ∃ effective, effectiveFills rows = .ok effective := by
    refine exists_mapM ?_
    intro chain member
    obtain ⟨version, inVersions, isBooked, latest, base⟩ :=
      version_of_chain booked coherent perm member
    obtain ⟨fill, effect, -⟩ := effects chain member version inVersions isBooked latest base
    exact ⟨fill, effect⟩
  refine ⟨effective, succeeded, ?_, ?_⟩
  · intro fill member
    obtain ⟨chain, inChains, effect⟩ := exists_of_mem_mapM succeeded member
    obtain ⟨version, inVersions, isBooked, latest, base⟩ :=
      version_of_chain booked coherent perm inChains
    obtain ⟨fill', effect', is⟩ := effects chain inChains version inVersions isBooked latest base
    cases effect'.symm.trans effect
    exact ⟨version, inVersions, isBooked, latest, is⟩
  · intro version inVersions isBooked latest
    obtain ⟨row, inChain⟩ := List.exists_mem_of_ne_nil _
      (booked.chain_ne_nil coherent inVersions isBooked)
    obtain ⟨inLedger, moves, base⟩ := mem_chainOf.mp inChain
    have inMoves : row ∈ rows.filter fun event => event.kind.Moves :=
      List.mem_filter.mpr ⟨perm.mem_iff.mpr inLedger, decide_eq_true moves⟩
    let chain : String × List LedgerEvent :=
      (version.baseExecId, (rows.filter fun event => event.kind.Moves).filter fun event =>
        event.baseExecId.getD "" = version.baseExecId)
    have inChains : chain ∈ chains rows := by
      refine mem_groupBy.mpr ⟨?_, rfl⟩
      refine List.mem_map.mpr ⟨row, inMoves, ?_⟩
      rw [base]
      rfl
    obtain ⟨fill, effect, is⟩ := effects chain inChains version inVersions isBooked latest rfl
    obtain ⟨fill', member, effect'⟩ :=
      exists_right_of_forall₂ (mapM_eq_ok.mp succeeded) inChains
    cases effect'.symm.trans effect
    exact ⟨fill, member, is⟩

end Reading

/-! ## Two schedules of the same reports -/

/-- Where a base stands among the fills. -/
def rootOrder (batches : List Batch) (baseExecId : String) : ℤ ×ₗ String :=
  toLex (rootTime batches baseExecId, baseExecId)

variable {batches : List Batch}

theorem Effects.order {index : AttributionIndex} {version : BrokerExecution} {fill : Effective}
    (is : Effects index batches ledger version fill) :
    fill.order = rootOrder batches fill.base := by
  rw [Effective.order, is.at', is.base, rootOrder]

/-- Two schedules root the fills of each lot in one order. -/
def SameOrder (index : AttributionIndex) (batches batches' : List Batch) : Prop :=
  ∀ first ∈ reported batches, ∀ second ∈ reported batches, first.secType ≠ .bag →
    second.secType ≠ .bag → index.lotKey first = index.lotKey second →
      (rootOrder batches first.baseExecId ≤ rootOrder batches second.baseExecId ↔
        rootOrder batches' first.baseExecId ≤ rootOrder batches' second.baseExecId)

/-- Two effective fills of one base that differ in their broker time at most. -/
structure SameEffect (first second : Effective) : Prop where
  base : first.base = second.base
  key : first.lotKey = second.lotKey
  secType : first.secType = second.secType
  figures : first.figures = second.figures

/-- What a lot reads of a fill. -/
def Effective.entry (fill : Effective) : String × ℤ × ℤ × ℤ :=
  (fill.base, fill.figures)

variable {effective : List Effective}

/-- **Fills that two orders place alike run a lot alike.** -/
theorem runLot_eq_of_sameEffect {effective' : List Effective}
    (nodup : (effective.map Effective.base).Nodup) (nodup' : (effective'.map Effective.base).Nodup)
    (same : ∀ fill ∈ effective, ∃ fill' ∈ effective', SameEffect fill fill')
    (same' : ∀ fill ∈ effective', ∃ fill' ∈ effective, SameEffect fill fill') (key : LotKey)
    (order : ∀ first ∈ effective, ∀ second ∈ effective, first.lotKey = key →
      second.lotKey = key → ∀ first' ∈ effective', ∀ second' ∈ effective',
        first'.base = first.base → second'.base = second.base →
          first'.order ≤ second'.order → first.order ≤ second.order) :
    runLot ((sortedBy Effective.order effective).filter fun fill => fill.lotKey = key) =
      runLot ((sortedBy Effective.order effective').filter fun fill => fill.lotKey = key) := by
  have inside : ∀ {fills : List Effective} {fill : Effective},
      fill ∈ ((sortedBy Effective.order fills).filter fun fill => fill.lotKey = key) ↔
        fill ∈ fills ∧ fill.lotKey = key := by
    intro fills fill
    rw [List.mem_filter, mem_sortedBy, decide_eq_true_eq]
  have unique : ∀ {fills : List Effective}, (fills.map Effective.base).Nodup →
      (((sortedBy Effective.order fills).filter fun fill => fill.lotKey = key).map
        Effective.entry).Nodup := by
    intro fills nodup
    refine List.Nodup.of_map Prod.fst ?_
    rw [List.map_map]
    exact (List.filter_sublist.map Effective.base).nodup
      (((sortedBy_perm _ _).map Effective.base).nodup_iff.mpr nodup)
  have entry : ∀ {first second : Effective}, SameEffect first second →
      first.entry = second.entry := by
    intro first second effect
    rw [Effective.entry, effect.base, effect.figures, Effective.entry]
  have entries : ((sortedBy Effective.order effective).filter fun fill =>
      fill.lotKey = key).map Effective.entry = ((sortedBy Effective.order effective').filter
        fun fill => fill.lotKey = key).map Effective.entry := by
    refine map_eq_of_sorted ((pairwise_sortedBy _ _).filter _) ((pairwise_sortedBy _ _).filter _)
      (unique nodup) ?_ ?_ ?_
    · rw [List.perm_ext_iff_of_nodup (unique nodup) (unique nodup')]
      intro item
      rw [List.mem_map, List.mem_map]
      constructor
      · rintro ⟨fill, member, rfl⟩
        obtain ⟨inFills, isKey⟩ := inside.mp member
        obtain ⟨fill', inFills', effect⟩ := same fill inFills
        exact ⟨fill', inside.mpr ⟨inFills', effect.key ▸ isKey⟩, (entry effect).symm⟩
      · rintro ⟨fill, member, rfl⟩
        obtain ⟨inFills, isKey⟩ := inside.mp member
        obtain ⟨fill', inFills', effect⟩ := same' fill inFills
        exact ⟨fill', inside.mpr ⟨inFills', effect.key ▸ isKey⟩, (entry effect).symm⟩
    · intro first inFirst second inSecond orders
      exact List.inj_on_of_nodup_map nodup (inside.mp inFirst).1 (inside.mp inSecond).1
        (congrArg (fun order => (ofLex order).2) orders)
    · intro first inFirst second inSecond first' inFirst' second' inSecond' entries entries'
      exact order first (inside.mp inFirst).1 second (inside.mp inSecond).1
        (inside.mp inFirst).2 (inside.mp inSecond).2 first' (inside.mp inFirst').1
        second' (inside.mp inSecond').1 (congrArg Prod.fst entries) (congrArg Prod.fst entries')
  refine runLot_congr ?_
  have figures := congrArg (List.map Prod.snd) entries
  rw [List.map_map, List.map_map] at figures
  exact figures

section Schedules

variable {index : AttributionIndex} {batches batches' : List Batch}
  {ledger ledger' : List LedgerEvent} (booked : Booked index batches ledger)
  (booked' : Booked index batches' ledger') (coherent : Coherent batches)
  (same : SameReports batches batches')

include booked booked' coherent same

/-- The commissions of a base are those that were told. -/
theorem feeOf_eq (base : String) : feeOf ledger base = feeOf ledger' base := by
  have fees : ∀ {batches : List Batch} {rows : List LedgerEvent}, Booked index batches rows →
      feeOf rows base =
        -(moved (rows.filter fun row => row.label.1 = false ∧ row.label.2.1 = some base)).2 := by
    intro batches rows booked
    have same : (rows.filter fun event =>
        event.kind = .commission ∧ event.baseExecId.getD "" = base) =
          rows.filter fun row => row.label.1 = false ∧ row.label.2.1 = some base := by
      refine List.filter_congr ?_
      intro row member
      obtain ⟨ofExecution, -⟩ := booked.row row member
      obtain ⟨execId, -, carries, -⟩ := row.names ofExecution
      have kinds : row.kind = .commission ↔ ¬ row.kind.Moves := by
        constructor
        · intro commission
          rw [commission]
          exact id
        · exact eq_commission ofExecution
      simp [LedgerEvent.label, carries, kinds]
    rw [feeOf, same, moved_eq_sums]
    dsimp only
    rw [List.sum_neg, List.map_map]
    rfl
  rw [fees booked, fees booked', booked.moved_eq booked' coherent same fun label =>
    label.1 = false ∧ label.2.1 = some base]

theorem exists_sameEffect {effective' : List Effective} {fill : Effective}
    {version : BrokerExecution} (inVersions : version ∈ reported batches)
    (isBooked : version.secType ≠ .bag) (latest : Latest batches version)
    (is : Effects index batches ledger version fill)
    (all : ∀ version ∈ reported batches', version.secType ≠ .bag → Latest batches' version →
      ∃ fill ∈ effective', Effects index batches' ledger' version fill) :
    ∃ fill' ∈ effective', SameEffect fill fill' := by
  obtain ⟨version', inVersions', plain⟩ := same.exists_plain inVersions
  have alike := eq_withCommission plain
  have isBooked' : version'.secType ≠ .bag := by
    rw [alike]
    exact isBooked
  have latest' : Latest batches' version' :=
    latest.of_forall plain fun other member => same.symm.exists_plain member
  obtain ⟨fill', member, is'⟩ := all version' inVersions' isBooked' latest'
  have base : version'.baseExecId = version.baseExecId := by
    rw [alike]
    rfl
  have secType : secTypeOf version' = secTypeOf version := by
    rw [alike]
    rfl
  have key : index.lotKey version' = index.lotKey version := by
    rw [alike]
    rfl
  refine ⟨fill', member, ?_, ?_, ?_, ?_⟩
  · rw [is.base, is'.base, base]
  · rw [is.key, is'.key, key]
  · exact Except.ok.inj (is.secType.symm.trans (secType.symm.trans is'.secType))
  · have moves := is.moves.trans ((figures_of_plain plain).symm.trans is'.moves.symm)
    obtain ⟨quantity, cash⟩ := Prod.mk.inj moves
    rw [Effective.figures, quantity, cash, is.fee, feeOf_eq booked booked' coherent same, ← base,
      ← is'.fee, Effective.figures]

end Schedules

theorem unbookedCommissions_eq_nil {index : AttributionIndex} (booked : Booked index batches ledger)
    (coherent : Coherent batches) (perm : rows.Perm ledger)
    (all : ∀ version ∈ reported batches, version.secType ≠ .bag → Latest batches version →
      ∃ fill ∈ effective, Effects index batches ledger version fill) :
    unbookedCommissions effective rows = [] := by
  rw [unbookedCommissions, List.map_eq_nil_iff, List.filter_eq_nil_iff]
  intro row member unbooked
  obtain ⟨-, absent⟩ := of_decide_eq_true unbooked
  obtain ⟨-, execution, inReported, rowOf⟩ := booked.row row (perm.mem_iff.mp member)
  obtain ⟨version, inVersions, base, latest⟩ := exists_latest inReported
  have isBooked : version.secType ≠ .bag := by
    rw [(coherent.version version inVersions execution inReported base).secType]
    exact rowOf.booked
  obtain ⟨fill, inFills, is⟩ := all version inVersions isBooked latest
  refine absent (List.mem_map.mpr ⟨fill, inFills, ?_⟩)
  rw [is.base, rowOf.baseExecId, base, Option.getD_some]

theorem realizedTo_perm {first second : List Realization} (perm : first.Perm second)
    (key : LotKey) : realizedTo key first = realizedTo key second :=
  (perm.map _).sum_eq

theorem lotsOf_perm {fills fills' : List Effective} {book book' : LotBook}
    (separate : Separate fills book) (separate' : Separate fills' book')
    (same : ∀ fill ∈ fills, ∃ fill' ∈ fills', SameEffect fill fill')
    (same' : ∀ fill ∈ fills', ∃ fill' ∈ fills, SameEffect fill fill')
    (lots : ∀ key, book.lots.get key = book'.lots.get key) :
    (lotsOf book).Perm (lotsOf book') := by
  have keys : book.lots.keys.Perm book'.lots.keys := by
    rw [List.perm_ext_iff_of_nodup book.lots.unique book'.lots.unique]
    intro key
    rw [separate.keys, separate'.keys, List.mem_map, List.mem_map]
    constructor
    · rintro ⟨fill, member, rfl⟩
      obtain ⟨fill', member', effect⟩ := same fill member
      exact ⟨fill', member', effect.key.symm⟩
    · rintro ⟨fill, member, rfl⟩
      obtain ⟨fill', member', effect⟩ := same' fill member
      exact ⟨fill', member', effect.key.symm⟩
  refine .trans (List.Perm.of_eq ?_) (keys.filterMap _)
  refine List.filterMap_congr ?_
  intro key member
  obtain ⟨fill, inFills, rfl⟩ := List.mem_map.mp ((separate.keys key).mp member)
  obtain ⟨fill', inFills', effect⟩ := same fill inFills
  obtain ⟨account, contract, -⟩ : fill.accountId = fill'.accountId ∧ fill.conId = fill'.conId ∧
      fill.attribution = fill'.attribution := by
    simpa [Effective.lotKey] using effect.key
  have typed := separate.typed fill inFills
  have typed' := separate'.typed fill' inFills'
  rw [← account, ← contract, ← effect.secType] at typed'
  rw [lots, Effective.lotKey, typed, typed']

/-! ## The fold of two schedules -/

/-- **The fold reads the ledger of a schedule.** -/
theorem foldLedger_of_booked {index : AttributionIndex} (booked : Booked index batches ledger)
    (rooted : Rooted batches ledger) (coherent : Coherent batches) :
    ∃ rows effective, rows.Perm ledger ∧ (effective.map Effective.base).Nodup ∧
      (∀ fill ∈ effective, ∃ version ∈ reported batches, version.secType ≠ .bag ∧
        Latest batches version ∧ Effects index batches ledger version fill) ∧
      (∀ version ∈ reported batches, version.secType ≠ .bag → Latest batches version →
        ∃ fill ∈ effective, Effects index batches ledger version fill) ∧
      ∀ fold, foldLedger ledger = .ok fold ↔ ∃ book,
        (sortedBy Effective.order effective).foldlM applyEffective {} = .ok book ∧
          foldOf rows effective book = fold := by
  obtain ⟨rows, valid, perm⟩ :=
    exists_validated booked.ids (filledOnce_of_rooted rooted) rooted.linked
  obtain ⟨effective, effects, each, all⟩ := exists_effectiveFills booked rooted coherent perm
  refine ⟨rows, effective, perm, nodup_bases effects, each, all, ?_⟩
  intro fold
  simp [foldLedger, bind_eq_ok, valid, effects, pure, Except.pure]

/-- **Reports in two orders leave the same lots and the same realized P&L, as far as they
root the fills of each lot in one order.** -/
theorem sameBooks_of_sameOrder {index : AttributionIndex} {batches batches' : List Batch}
    {ledger ledger' : List LedgerEvent} (ingested : ingestAll index batches = .ok ledger)
    (ingested' : ingestAll index batches' = .ok ledger') (together : FoldTogether batches)
    (untied : Untied batches) (same : SameReports batches batches')
    (order : SameOrder index batches batches') {fold : LedgerFold}
    (folded : foldLedger ledger = .ok fold) :
    ∃ fold', foldLedger ledger' = .ok fold' ∧ fold.lots.Perm fold'.lots ∧
      ∀ key, realizedTo key fold.realizations = realizedTo key fold'.realizations := by
  have coherent := coherent_of_foldTogether together untied
  have coherent' := same.coherent coherent
  have booked := booked_ingestAll ingested coherent
  have booked' := booked_ingestAll ingested' coherent'
  obtain ⟨rows, effective, perm, nodup, each, all, folds⟩ :=
    foldLedger_of_booked booked (rooted_ingestAll ingested coherent) coherent
  obtain ⟨rows', effective', perm', nodup', each', all', folds'⟩ :=
    foldLedger_of_booked booked' (rooted_ingestAll ingested' coherent') coherent'
  obtain ⟨book, applied, rfl⟩ := (folds fold).mp folded
  have effects : ∀ fill ∈ effective, ∃ fill' ∈ effective', SameEffect fill fill' := by
    intro fill member
    obtain ⟨version, inVersions, isBooked, latest, is⟩ := each fill member
    exact exists_sameEffect booked booked' coherent same inVersions isBooked latest is all'
  have effects' : ∀ fill ∈ effective', ∃ fill' ∈ effective, SameEffect fill fill' := by
    intro fill member
    obtain ⟨version, inVersions, isBooked, latest, is⟩ := each' fill member
    exact exists_sameEffect booked' booked coherent' same.symm inVersions isBooked latest is all
  -- no contract is of two kinds in the second ledger either
  have alike : TypedAlike (sortedBy Effective.order effective') := by
    have alike := typedAlike_of_foldlM applied
    intro first inFirst second inSecond account contract
    obtain ⟨one, inOne, effect⟩ := effects' first (mem_sortedBy.mp inFirst)
    obtain ⟨two, inTwo, effect'⟩ := effects' second (mem_sortedBy.mp inSecond)
    have key := effect.key
    have key' := effect'.key
    rw [Effective.lotKey, Effective.lotKey, Prod.mk.injEq, Prod.mk.injEq] at key key'
    rw [effect.secType, effect'.secType]
    refine alike one (mem_sortedBy.mpr inOne) two (mem_sortedBy.mpr inTwo) ?_ ?_
    · rw [← key.1, ← key'.1, account]
    · rw [← key.2.1, ← key'.2.1, contract]
  obtain ⟨book', applied'⟩ := exists_lotBook alike
  have separate := separate_foldlM applied
  have separate' := separate_foldlM applied'
  have runs : ∀ key,
      runLot ((sortedBy Effective.order effective).filter fun fill => fill.lotKey = key) =
        runLot ((sortedBy Effective.order effective').filter fun fill => fill.lotKey = key) := by
    intro key
    refine runLot_eq_of_sameEffect nodup nodup' effects effects' key ?_
    intro first inFirst second inSecond isKey isKey' first' inFirst' second' inSecond' base base'
    obtain ⟨one, inOne, isBooked, -, placed⟩ := each first inFirst
    obtain ⟨two, inTwo, isBooked', -, placed'⟩ := each second inSecond
    obtain ⟨_, -, -, -, replaced⟩ := each' first' inFirst'
    obtain ⟨_, -, -, -, replaced'⟩ := each' second' inSecond'
    rw [placed.order, placed'.order, replaced.order, replaced'.order, base, base', placed.base,
      placed'.base]
    refine (order one inOne two inTwo isBooked isBooked' ?_).mpr
    rw [← placed.key, ← placed'.key, isKey, isKey']
  refine ⟨_, (folds' _).mpr ⟨book', applied', rfl⟩, ?_, ?_⟩
  · refine (sortedBy_perm _ _).trans (.trans ?_ (sortedBy_perm _ _).symm)
    refine lotsOf_perm separate separate' ?_ ?_ ?_
    · intro fill member
      obtain ⟨fill', member', effect⟩ := effects fill (mem_sortedBy.mp member)
      exact ⟨fill', mem_sortedBy.mpr member', effect⟩
    · intro fill member
      obtain ⟨fill', member', effect⟩ := effects' fill (mem_sortedBy.mp member)
      exact ⟨fill', mem_sortedBy.mpr member', effect⟩
    · intro key
      rw [separate.lot, separate'.lot, runs key]
  · intro key
    have realized : ∀ {batches : List Batch} {ledger rows : List LedgerEvent}
        {effective : List Effective} {book : LotBook}, Booked index batches ledger →
        Coherent batches → rows.Perm ledger →
        (∀ version ∈ reported batches, version.secType ≠ .bag → Latest batches version →
          ∃ fill ∈ effective, Effects index batches ledger version fill) →
        Separate (sortedBy Effective.order effective) book →
        realizedTo key (foldOf rows effective book).realizations =
          (runLot ((sortedBy Effective.order effective).filter fun fill =>
            fill.lotKey = key)).2 := by
      intro batches ledger rows effective book booked coherent perm all separate
      rw [foldOf, realizedTo_perm (sortedBy_perm _ _),
        unbookedCommissions_eq_nil booked coherent perm all, List.nil_append, separate.realized]
    rw [realized booked coherent perm all separate, realized booked' coherent' perm' all' separate',
      runs key]

/-! ## Two purchases and a sale -/

/-- An execution in one contract. -/
def sampleTrade (execId : String) (side : Side) (quantity priceMicros : ℕ) (time : ℤ)
    (positive : 1 ≤ quantity) : BrokerExecution :=
  { sampleExecution execId quantity time .opt positive opt_ne_stk with
    side := side
    priceMicros := priceMicros
    multiplier := 1
    multiplier_pos := Nat.one_pos
    stock := fun _ => rfl }

/-- A purchase at 10 and one at 20, and a sale at 12. -/
def sampleTrades : List BrokerExecution :=
  [sampleTrade "a.01" .bot 1 10 1 Nat.one_pos, sampleTrade "b.01" .bot 1 20 2 Nat.one_pos,
    sampleTrade "c.01" .sld 1 12 3 Nat.one_pos]

/-- A correction of the first purchase, that the broker times after the sale. -/
def sampleLate : BrokerExecution :=
  sampleTrade "a.02" .bot 1 10 4 Nat.one_pos

def sampleSchedule : List Batch :=
  [⟨sampleTrades, [], 5⟩, ⟨[sampleLate], [], 6⟩]

/-- The trades one by one, the last first. -/
def sampleSchedule' : List Batch :=
  (sampleTrades.reverse.map fun trade => ⟨[trade], [], 5⟩) ++ [⟨[sampleLate], [], 6⟩]

/-- The correction before the trades. -/
def sampleScheduleLate : List Batch :=
  [⟨[sampleLate], [], 5⟩, ⟨sampleTrades, [], 6⟩]

theorem not_told (none' : ∀ batch ∈ batches, batch.commissions = [] ∧
    ∀ execution ∈ batch.executions, execution.commissionMicros = none) (execId : String)
    (amount : ℤ) : ¬ Told batches execId amount := by
  rintro ⟨batch, inBatches, -, ⟨execution, member, -, charged⟩ | charged⟩
  · rw [(none' batch inBatches).2 execution member] at charged
    cases charged
  · rw [(none' batch inBatches).1] at charged
    cases charged

theorem sameReports_of_perm {batches' : List Batch}
    (perm : (reported batches).Perm (reported batches'))
    (none' : ∀ batch ∈ batches, batch.commissions = [] ∧
      ∀ execution ∈ batch.executions, execution.commissionMicros = none)
    (none'' : ∀ batch ∈ batches', batch.commissions = [] ∧
      ∀ execution ∈ batch.executions, execution.commissionMicros = none) :
    SameReports batches batches' := by
  constructor
  · intro execution
    exact (perm.map BrokerExecution.plain).mem_iff
  · intro execId amount
    exact iff_of_false (not_told none' execId amount) (not_told none'' execId amount)

theorem sameBooks_sample : ∃ fold fold', foldLedger (ledgerOf sampleSchedule) = .ok fold ∧
    foldLedger (ledgerOf sampleSchedule') = .ok fold' ∧ fold.lots.Perm fold'.lots ∧
      ∀ key, realizedTo key fold.realizations = realizedTo key fold'.realizations := by
  have ingested : ingestAll sampleIndex sampleSchedule = .ok (ledgerOf sampleSchedule) := by
    decide
  have ingested' : ingestAll sampleIndex sampleSchedule' = .ok (ledgerOf sampleSchedule') := by
    decide
  have untied : Untied sampleSchedule := by
    unfold Untied
    decide
  have same : SameReports sampleSchedule sampleSchedule' :=
    sameReports_of_perm (by decide) (by decide) (by decide)
  have order : SameOrder sampleIndex sampleSchedule sampleSchedule' := by
    unfold SameOrder
    decide
  obtain ⟨fold, folded⟩ : ∃ fold, foldLedger (ledgerOf sampleSchedule) = .ok fold := ⟨_, rfl⟩
  obtain ⟨fold', folded', agree⟩ :=
    sameBooks_of_sameOrder ingested ingested' ⟨_, rfl⟩ untied same order folded
  exact ⟨fold, fold', folded, folded', agree⟩

/-! ## What depends on the order of arrival -/

/-- The lots and the realized P&L of one contract as two schedules leave them. -/
def LeaveBooks (batches : List Batch) (lots : List Lot) (realized : ℤ) : Prop :=
  ∃ ledger fold, ingestAll sampleIndex batches = .ok ledger ∧ foldLedger ledger = .ok fold ∧
    fold.lots = lots ∧ realizedTo ("DU1", 7, outside) fold.realizations = realized

/-- A correction that arrives before its fill roots the fill at its own broker time, and a
commission that comes alone is not held against its fill. -/
theorem foldLedger_depends_on_arrival :
    (SameReports sampleSchedule sampleScheduleLate ∧
      LeaveBooks sampleSchedule [⟨"DU1", 7, .opt, outside, 1, 15, 0⟩] (-3) ∧
      LeaveBooks sampleScheduleLate [⟨"DU1", 7, .opt, outside, 1, 10, 0⟩] (-8)) ∧
    LeaveBooks [⟨[sampleLate], [⟨"a.02", 9⟩], 5⟩] [⟨"DU1", 7, .opt, outside, 1, 10, 9⟩] 0 ∧
    LeaveBooks [⟨[sampleLate], [], 5⟩, ⟨[], [⟨"a.02", 9⟩], 6⟩]
      [⟨"DU1", 7, .opt, outside, 1, 10, 0⟩] 0 := by
  refine ⟨⟨?_, ?_, ?_⟩, ?_, ?_⟩
  · exact sameReports_of_perm (by decide) (by decide) (by decide)
  all_goals exact ⟨_, _, rfl, rfl, rfl, rfl⟩

end TreeOptions.Books
