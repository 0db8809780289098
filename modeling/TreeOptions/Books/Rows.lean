import Mathlib.Algebra.Group.Prod
import TreeOptions.Books.Booking

/-!
# The rows of a fill

What the rows that `fillEvents` adds say of the execution they book (`RowOf`). The rows
of a chain telescope: with what was booked before, they sum to the figures of the last
version that they book (`chain_ok`). The rows that are appended are those whose id is
new (`appendEvents_ok`).
-/

set_option autoImplicit false

namespace TreeOptions.Books

open Checked

/-! ## One row -/

structure RowOf (owner : Owner) (booking : LedgerKind) (execution : BrokerExecution)
    (event : LedgerEvent) : Prop where
  booked : execution.secType ≠ .bag
  kind : event.kind = booking
  eventId : event.eventId = booking.value ++ ":" ++ execution.execId
  execId : event.execId = some execution.execId
  baseExecId : event.baseExecId = some execution.baseExecId
  accountId : event.accountId = execution.accountId
  conId : event.conId = some execution.conId
  attribution : event.attribution = owner.attribution
  detail : event.detail = owner.detail
  at' : event.at' = execution.time
  secType : ∃ typed, secTypeOf execution = .ok typed ∧ event.secType = some typed

/-- What a row moves: quantity and cash. -/
def LedgerEvent.moved (event : LedgerEvent) : ℤ × ℤ :=
  (event.quantityDelta, event.cashDeltaMicros)

/-- What a chain of rows moves in all. -/
def moved (rows : List LedgerEvent) : ℤ × ℤ :=
  (rows.map LedgerEvent.moved).sum

theorem moved_eq_sums (rows : List LedgerEvent) :
    moved rows = ((rows.map fun event => event.quantityDelta).sum,
      (rows.map fun event => event.cashDeltaMicros).sum) := by
  induction rows with
  | nil => rfl
  | cons first rest ih =>
    rw [moved] at ih
    rw [moved, List.map_cons, List.sum_cons, ih]
    rfl

/-- The quantity and the cash of a version. -/
def figures (version : BrokerExecution) : ℤ × ℤ :=
  (signedQuantity version, cashMicros version)

variable {owner : Owner} {recordedAt : ℤ}

theorem event_ok {execution : BrokerExecution} {kind : LedgerKind} {quantity cash : ℤ}
    {supersedes : Option String} {row : LedgerEvent}
    (succeeded : event execution kind quantity cash owner recordedAt supersedes = .ok row) :
    RowOf owner kind execution row ∧ row.moved = (quantity, cash) ∧
      row.supersedesEventId = supersedes := by
  obtain ⟨secType, typed, validated⟩ := bind_eq_ok.mp succeeded
  have booked : execution.secType ≠ .bag := by
    intro bag
    rw [secTypeOf, bag] at typed
    cases typed
  have fields : row.toEventFields =
      eventFields execution kind quantity cash owner recordedAt supersedes secType :=
    LedgerEvent.toEventFields_of_validate (mapError_eq_ok.mp validated)
  refine ⟨?_, ?_, ?_⟩
  · constructor
    · exact booked
    case secType =>
      refine ⟨secType, typed, ?_⟩
      rw [fields]
      rfl
    all_goals rw [fields]; rfl
  · rw [LedgerEvent.moved, fields]
    rfl
  · rw [fields]
    rfl

/-! ## The rows of a chain -/

/-- Rows that book versions one for one. -/
def RowsOf (owner : Owner) (kind : LedgerKind) (versions : List BrokerExecution)
    (rows : List LedgerEvent) : Prop :=
  List.Forall₂ (RowOf owner kind) versions rows

variable {versions : List BrokerExecution} {rows : List LedgerEvent}

/-- **The corrections telescope to the figures of the last version.** -/
theorem corrections_ok {quantity cash : ℤ} {previous : String}
    (succeeded : corrections owner recordedAt quantity cash previous versions = .ok rows) :
    RowsOf owner .correction versions rows ∧
      (quantity, cash) + moved rows =
        (versions.getLast?.map figures).getD (quantity, cash) ∧
      ∀ row ∈ rows, row.supersedesEventId = some previous ∨
        ∃ other ∈ rows, row.supersedesEventId = some other.eventId := by
  induction versions generalizing quantity cash previous rows with
  | nil =>
    cases succeeded
    refine ⟨.nil, add_zero _, ?_⟩
    intro row member
    cases member
  | cons version rest ih =>
    simp only [corrections, bind_eq_ok] at succeeded
    obtain ⟨row, corrected, others, succeeded, done⟩ := succeeded
    cases done
    obtain ⟨rowOf, difference, supersedes⟩ := event_ok corrected
    obtain ⟨rowsOf, telescopes, linked⟩ := ih succeeded
    have next : (quantity, cash) + row.moved = figures version := by
      rw [difference, figures, Prod.mk_add_mk, add_sub_cancel, add_sub_cancel]
    refine ⟨.cons rowOf rowsOf, ?_, ?_⟩
    · rw [moved, List.map_cons, List.sum_cons, ← add_assoc, next, List.getLast?_cons]
      refine telescopes.trans ?_
      cases rest.getLast? with
      | none => rfl
      | some last => rfl
    · intro row' member
      rcases List.mem_cons.mp member with rfl | later
      · exact .inl supersedes
      · rcases linked row' later with first | ⟨other, inside, target⟩
        · exact .inr ⟨row, List.mem_cons_self, first⟩
        · exact .inr ⟨other, List.mem_cons_of_mem _ inside, target⟩

/-- The versions of a fill that a booked chain does not hold: those after its head. -/
def newerVersions (booked : List LedgerEvent) (fill : Fill) : List BrokerExecution :=
  match booked.argmax eventKey with
  | some head => fill.versions.filter fun version => eventKey head < versionKey version.execId
  | none => fill.versions

/-- The rows a chain lacks: a fill and its corrections, or corrections alone. -/
def ChainRows (owner : Owner) (booked : List LedgerEvent) (fill : Fill)
    (rows : List LedgerEvent) : Prop :=
  (booked = [] ∧ ∃ opened later, rows = opened :: later ∧ RowOf owner .fill fill.first opened ∧
      RowsOf owner .correction fill.versions.tail later) ∨
    (booked ≠ [] ∧ RowsOf owner .correction (newerVersions booked fill) rows)

/-- What the rows supersede is held. -/
def Linked (rows held : List LedgerEvent) : Prop :=
  ∀ row ∈ rows, ∀ target, row.supersedesEventId = some target →
    ∃ other ∈ held, other.eventId = target

theorem linked_of_corrections {held : List LedgerEvent} {previous : String}
    (first : ∃ other ∈ held, other.eventId = previous) (inside : ∀ row ∈ rows, row ∈ held)
    (linked : ∀ row ∈ rows, row.supersedesEventId = some previous ∨
      ∃ other ∈ rows, row.supersedesEventId = some other.eventId) : Linked rows held := by
  intro row member target supersedes
  rcases linked row member with isPrevious | ⟨other, inRows, isOther⟩
  · cases supersedes.symm.trans isPrevious
    exact first
  · exact ⟨other, inside other inRows, Option.some.inj (isOther.symm.trans supersedes)⟩

variable {booked : List LedgerEvent} {fill : Fill}

/-- **A chain and the rows it lacked sum to the figures of the last version booked.** -/
theorem chain_ok (succeeded : chain fill booked owner recordedAt = .ok rows) :
    ChainRows owner booked fill rows ∧ moved booked + moved rows =
        ((newerVersions booked fill).getLast?.map figures).getD (moved booked) ∧
      Linked rows (booked ++ rows) := by
  have sums := moved_eq_sums booked
  rw [chain] at succeeded
  cases latest : booked.argmax eventKey with
  | some head =>
    rw [latest] at succeeded
    obtain ⟨rowsOf, telescopes, linked⟩ := corrections_ok succeeded
    have some' : booked ≠ [] := by
      rintro rfl
      cases latest
    have newer : newerVersions booked fill = fill.versions.filter fun version =>
        eventKey head < versionKey version.execId := by
      rw [newerVersions, latest]
    rw [ChainRows, newer, sums]
    refine ⟨.inr ⟨some', rowsOf⟩, telescopes, ?_⟩
    exact linked_of_corrections
      ⟨head, List.mem_append_left _ (List.argmax_mem latest), rfl⟩
      (fun row member => List.mem_append_right _ member) linked
  | none =>
    rw [latest] at succeeded
    obtain ⟨opened, opens, succeeded⟩ := bind_eq_ok.mp succeeded
    obtain ⟨later, corrected, done⟩ := bind_eq_ok.mp succeeded
    cases done
    obtain ⟨rowOf, opening, unlinked⟩ := event_ok opens
    obtain ⟨rowsOf, telescopes, linked⟩ := corrections_ok corrected
    have newer : newerVersions booked fill = fill.versions := by
      rw [newerVersions, latest]
    obtain rfl := List.argmax_eq_none.mp latest
    refine ⟨.inl ⟨rfl, opened, later, rfl, rowOf, rowsOf⟩, ?_, ?_⟩
    · rw [newer, moved, List.map_nil, List.sum_nil, zero_add, moved, List.map_cons,
        List.sum_cons, opening]
      refine telescopes.trans ?_
      have last : fill.versions.getLast? =
          some (fill.versions.tail.getLast?.getD fill.first) := by
        conv_lhs => rw [← List.cons_head_tail fill.reported]
        exact List.getLast?_cons
      rw [last]
      cases fill.versions.tail.getLast? with
      | none => rfl
      | some version => rfl
    · intro row member target supersedes
      rcases List.mem_cons.mp member with rfl | inLater
      · rw [unlinked] at supersedes
        cases supersedes
      · exact linked_of_corrections ⟨opened, List.mem_cons_self, rfl⟩
          (fun row member => List.mem_cons_of_mem _ member) linked row inLater target supersedes

theorem ChainRows.of_mem (chainRows : ChainRows owner booked fill rows) {row : LedgerEvent}
    (member : row ∈ rows) :
    row.kind.Moves ∧ ∃ version ∈ newerVersions booked fill, RowOf owner row.kind version row := by
  rcases chainRows with ⟨rfl, opened, later, rfl, opens, corrects⟩ | ⟨-, corrects⟩
  · rcases List.mem_cons.mp member with rfl | inLater
    · have kind := opens.kind
      rw [kind]
      exact ⟨trivial, fill.first, List.head_mem fill.reported, opens⟩
    · obtain ⟨version, inside, rowOf⟩ := exists_left_of_forall₂ corrects inLater
      have kind := rowOf.kind
      rw [kind]
      exact ⟨trivial, version, List.mem_of_mem_tail inside, rowOf⟩
  · obtain ⟨version, inside, rowOf⟩ := exists_left_of_forall₂ corrects member
    have kind := rowOf.kind
    rw [kind]
    exact ⟨trivial, version, inside, rowOf⟩

theorem map_execId_of_rowsOf {kind : LedgerKind} (rowsOf : RowsOf owner kind versions rows) :
    (rows.map fun row => row.execId) = versions.map fun version => some version.execId := by
  induction rowsOf with
  | nil => rfl
  | cons rowOf _ ih => rw [List.map_cons, List.map_cons, rowOf.execId, ih]

theorem ChainRows.map_execId (chainRows : ChainRows owner booked fill rows) :
    (rows.map fun row => row.execId) =
      (newerVersions booked fill).map fun version => some version.execId := by
  rcases chainRows with ⟨rfl, opened, later, rfl, opens, corrects⟩ | ⟨-, corrects⟩
  · have newer : newerVersions [] fill = fill.first :: fill.versions.tail :=
      (List.cons_head_tail fill.reported).symm
    rw [newer, List.map_cons, List.map_cons, opens.execId, map_execId_of_rowsOf corrects]
  · exact map_execId_of_rowsOf corrects

/-! ## The rows of a fill -/

/-- The row of a commission. -/
def FeeRow (owner : Owner) (version : BrokerExecution) (row : LedgerEvent) : Prop :=
  RowOf owner .commission version row ∧ row.moved = (0, -version.commissionMicros.getD 0) ∧
    row.supersedesEventId = none

/-- The versions of a fill whose commission is known. -/
def chargedVersions (fill : Fill) : List BrokerExecution :=
  fill.versions.filter fun version => version.commissionMicros.isSome

theorem commissionEvents_ok (succeeded : commissionEvents fill owner recordedAt = .ok rows) :
    List.Forall₂ (FeeRow owner) (chargedVersions fill) rows :=
  (mapM_eq_ok.mp succeeded).imp fun _ _ => event_ok

/-- The rows of a fill: those its chain lacks, and its commissions. -/
structure FillRows (index : AttributionIndex) (existing : List LedgerEvent) (fill : Fill)
    (rows moves fees : List LedgerEvent) : Prop where
  split : rows = moves ++ fees
  chain : ChainRows (ownerOf index fill (chainOf fill.baseExecId existing))
    (chainOf fill.baseExecId existing) fill moves
  linked : Linked moves (chainOf fill.baseExecId existing ++ moves)
  sums : moved (chainOf fill.baseExecId existing) + moved moves =
    ((newerVersions (chainOf fill.baseExecId existing) fill).getLast?.map figures).getD
      (moved (chainOf fill.baseExecId existing))
  charged : List.Forall₂ (FeeRow (ownerOf index fill (chainOf fill.baseExecId existing)))
    (chargedVersions fill) fees

variable {index : AttributionIndex} {existing : List LedgerEvent}

theorem eventsOf_ok (succeeded : eventsOf index recordedAt existing fill = .ok rows) :
    ∃ moves fees, FillRows index existing fill rows moves fees := by
  simp only [eventsOf, bind_eq_ok] at succeeded
  obtain ⟨moves, chained, fees, charged, done⟩ := succeeded
  cases done
  obtain ⟨chainRows, sums, linked⟩ := chain_ok chained
  exact ⟨moves, fees, rfl, chainRows, linked, sums, commissionEvents_ok charged⟩

variable {version : BrokerExecution}

theorem mem_newerVersions (member : version ∈ newerVersions booked fill) :
    version ∈ fill.versions ∧ ∀ event ∈ booked, eventKey event < versionKey version.execId := by
  rw [newerVersions] at member
  split at member
  case h_1 head latest =>
    obtain ⟨inside, later⟩ := List.mem_filter.mp member
    refine ⟨inside, ?_⟩
    intro event held
    exact lt_of_le_of_lt (List.le_of_mem_argmax held latest) (of_decide_eq_true later)
  case h_2 latest =>
    refine ⟨member, ?_⟩
    rw [List.argmax_eq_none.mp latest]
    intro event held
    cases held

theorem newerVersions_sublist (booked : List LedgerEvent) (fill : Fill) :
    (newerVersions booked fill).Sublist fill.versions := by
  rw [newerVersions]
  split
  case h_1 => exact List.filter_sublist
  case h_2 => exact .refl _

theorem mem_newerVersions_or (member : version ∈ fill.versions) :
    version ∈ newerVersions booked fill ∨
      ∃ row ∈ booked, versionKey version.execId ≤ eventKey row := by
  rw [newerVersions]
  split
  case h_1 head latest =>
    by_cases later : eventKey head < versionKey version.execId
    · exact .inl (List.mem_filter.mpr ⟨member, decide_eq_true later⟩)
    · exact .inr ⟨head, List.argmax_mem latest, not_lt.mp later⟩
  case h_2 => exact .inl member

variable {fees : List LedgerEvent}

theorem FillRows.of_mem {moves : List LedgerEvent}
    (fillRows : FillRows index existing fill rows moves fees) {row : LedgerEvent}
    (member : row ∈ rows) : row.kind.OfExecution ∧ ∃ version ∈ fill.versions,
      RowOf (ownerOf index fill (chainOf fill.baseExecId existing)) row.kind version row := by
  rw [fillRows.split] at member
  rcases List.mem_append.mp member with inMoves | inFees
  · obtain ⟨movesPosition, version, newer, rowOf⟩ := fillRows.chain.of_mem inMoves
    exact ⟨movesPosition.ofExecution, version, (mem_newerVersions newer).1, rowOf⟩
  · obtain ⟨version, inside, rowOf, -⟩ := exists_left_of_forall₂ fillRows.charged inFees
    have kind := rowOf.kind
    rw [kind]
    exact ⟨trivial, version, (List.mem_filter.mp inside).1, rowOf⟩

/-! ## Row ids -/

theorem takeWhile_value (kind : LedgerKind) (execId : String) :
    ((kind.value ++ ":" ++ execId).toList.takeWhile fun c => c ≠ ':') = kind.value.toList := by
  have none' : (kind.value.toList.all fun c => c ≠ ':') = true := by
    cases kind <;> rfl
  rw [String.toList_append, String.toList_append, List.append_assoc,
    List.takeWhile_append_of_pos (List.all_eq_true.mp none')]
  exact List.append_nil _

theorem eventId_injective {first second : LedgerKind} {execId execId' : String}
    (same : first.value ++ ":" ++ execId = second.value ++ ":" ++ execId') :
    first = second ∧ execId = execId' := by
  have values : first.value = second.value := by
    rw [← String.toList_inj, ← takeWhile_value first execId, same, takeWhile_value]
  have kinds : first = second := by
    revert values
    cases first <;> cases second <;> decide
  subst kinds
  have chars := congrArg String.toList same
  simp only [String.toList_append, List.append_cancel_left_eq, String.toList_inj] at chars
  exact ⟨rfl, chars⟩

/-- Rows of executions with different ids have different ids. -/
theorem execId_of_eventId_eq {first second : LedgerEvent} (first' : first.kind.OfExecution)
    (second' : second.kind.OfExecution) (same : first.eventId = second.eventId) :
    first.kind = second.kind ∧ first.execId = second.execId := by
  obtain ⟨execId, present, -, named⟩ := first.names first'
  obtain ⟨execId', present', -, named'⟩ := second.names second'
  rw [named, named'] at same
  obtain ⟨kinds, execIds⟩ := eventId_injective same
  exact ⟨kinds, by rw [present, present', execIds]⟩

theorem baseExecId_of_execId_eq {first second : LedgerEvent} (first' : first.kind.OfExecution)
    (second' : second.kind.OfExecution) (same : first.execId = second.execId) :
    first.baseExecId = second.baseExecId := by
  obtain ⟨execId, present, base, -⟩ := first.names first'
  obtain ⟨execId', present', base', -⟩ := second.names second'
  rw [present, present'] at same
  rw [base, base', Option.some.inj same]

theorem nodup_eventId (ofExecution : ∀ row ∈ rows, row.kind.OfExecution)
    (distinct : (rows.map fun row => row.execId).Nodup) :
    (rows.map fun row => row.eventId).Nodup := by
  rw [List.Nodup, List.pairwise_map] at distinct ⊢
  refine distinct.imp_of_mem ?_
  intro first second inFirst inSecond apart same
  exact apart (execId_of_eventId_eq (ofExecution first inFirst) (ofExecution second inSecond)
    same).2

theorem FillRows.nodup {moves : List LedgerEvent}
    (fillRows : FillRows index existing fill rows moves fees)
    (distinct : (fill.versions.map fun version => version.execId).Nodup) :
    (rows.map fun row => row.eventId).Nodup := by
  have each : ∀ versions : List BrokerExecution, versions.Sublist fill.versions →
      (versions.map fun version => some version.execId).Nodup := by
    intro versions sub
    have mapped := (sub.map fun version => version.execId).nodup distinct
    have := mapped.map (Option.some_injective String)
    rwa [List.map_map] at this
  have fees : (fees.map fun row => row.execId) =
      (chargedVersions fill).map fun version => some version.execId :=
    map_execId_of_rowsOf (fillRows.charged.imp fun _ _ feeRow => feeRow.1)
  rw [fillRows.split, List.map_append]
  refine List.Nodup.append ?_ ?_ ?_
  · refine nodup_eventId (fun row member => (fillRows.chain.of_mem member).1.ofExecution) ?_
    rw [fillRows.chain.map_execId]
    exact each _ (newerVersions_sublist _ _)
  · refine nodup_eventId ?_ ?_
    · intro row member
      obtain ⟨_, _, rowOf, -⟩ := exists_left_of_forall₂ fillRows.charged member
      rw [rowOf.kind]
      trivial
    · rw [fees]
      exact each _ List.filter_sublist
  · -- a row of the chain moves a position, a commission does not
    intro eventId inMoves inFees
    obtain ⟨row, member, rfl⟩ := List.mem_map.mp inMoves
    obtain ⟨row', member', same⟩ := List.mem_map.mp inFees
    obtain ⟨_, _, rowOf, -⟩ := exists_left_of_forall₂ fillRows.charged member'
    have movesPosition := (fillRows.chain.of_mem member).1
    have kind := (execId_of_eventId_eq (by rw [rowOf.kind]; trivial)
      movesPosition.ofExecution same).1
    rw [← kind, rowOf.kind] at movesPosition
    exact movesPosition

/-! ## What is new -/

variable {known : List String}

theorem freshOf_eq_filter (distinct : (rows.map fun row => row.eventId).Nodup) :
    freshOf known rows = rows.filter fun row => row.eventId ∉ known := by
  induction rows generalizing known with
  | nil => rfl
  | cons first rest ih =>
    rw [List.map_cons, List.nodup_cons] at distinct
    obtain ⟨apart, distinct⟩ := distinct
    rw [freshOf]
    split
    case isTrue old => rw [List.filter_cons_of_neg (by simpa using old), ih distinct]
    case isFalse new =>
      rw [List.filter_cons_of_pos (by simpa using new), ih distinct]
      refine congrArg (first :: ·) (List.filter_congr ?_)
      intro row member
      have other : row.eventId ≠ first.eventId := by
        intro same
        rw [← same] at apart
        exact apart (List.mem_map_of_mem member)
      simp [other]

/-- New rows are new. -/
theorem freshOf_freshOf (distinct : (rows.map fun row => row.eventId).Nodup) :
    freshOf known (freshOf known rows) = freshOf known rows := by
  have sub : (rows.filter fun row => row.eventId ∉ known).Sublist rows := List.filter_sublist
  rw [freshOf_eq_filter distinct,
    freshOf_eq_filter ((sub.map fun row => row.eventId).nodup distinct), List.filter_filter]
  simp

/-- The ids that are held. -/
def Admitted.Knows (admitted : Admitted) (known : List String) : Prop :=
  ∀ id, admitted.byId.find? id = none ↔ id ∉ known

theorem Holds.knows {events : List LedgerEvent} {admitted : Admitted}
    (holds : Holds events admitted) :
    admitted.Knows (events.map fun event => event.eventId) := by
  intro id
  constructor
  · intro free inside
    obtain ⟨event, member, rfl⟩ := List.mem_map.mp inside
    obtain ⟨row, held, same⟩ := holds.content event member
    have ids : row.content.eventId = event.content.eventId := by rw [same]
    change row.eventId = event.eventId at ids
    rw [← ids, Table.find?_key held] at free
    cases free
  · intro fresh
    cases found : admitted.byId.find? id with
    | none => rfl
    | some row =>
      obtain ⟨held, rfl⟩ := Table.find?_eq_some_iff.mp found
      exact absurd (List.mem_map_of_mem (holds.mem row held)) fresh

theorem appendOne_ok {state next : Appending} {event : LedgerEvent}
    (succeeded : appendOne state event = .ok next) :
    ∃ admitted new, admitEvent state.admitted event = .ok (admitted, new) ∧
      next.admitted = admitted ∧
      next.appended = state.appended ++ if new then [event] else [] := by
  obtain ⟨⟨admitted, new⟩, admits, done⟩ := bind_eq_ok.mp succeeded
  refine ⟨admitted, new, admits, ?_⟩
  cases new with
  | true =>
    cases done
    exact ⟨rfl, rfl⟩
  | false =>
    cases done
    exact ⟨rfl, (List.append_nil _).symm⟩

theorem foldlM_appendOne_ok {new : List LedgerEvent} {state last : Appending}
    (knows : state.admitted.Knows known) (succeeded : new.foldlM appendOne state = .ok last) :
    last.appended = state.appended ++ freshOf known new := by
  induction new generalizing state known with
  | nil =>
    cases succeeded
    exact (List.append_nil _).symm
  | cons event rest ih =>
    obtain ⟨next, appended, succeeded⟩ := bind_eq_ok.mp succeeded
    obtain ⟨admitted, isNew, admits, same, appended⟩ := appendOne_ok appended
    rcases admit_ok admits with ⟨rfl, unchanged, held, found, -⟩ | ⟨rfl, free, put⟩
    · have old : event.eventId ∈ known := by
        by_contra fresh
        rw [(knows _).mpr fresh] at found
        cases found
      rw [ih (by rw [same, unchanged]; exact knows) succeeded, appended, freshOf, if_pos old,
        if_neg Bool.false_ne_true, List.append_nil]
    · have fresh : event.eventId ∉ known := (knows _).mp free
      have knows' : next.admitted.Knows (event.eventId :: known) := by
        intro id
        rw [same, put, Table.find?_put, List.mem_cons, not_or, ← knows id]
        by_cases isId : event.eventId = id
        · simp [isId]
        · simp [isId, Ne.symm isId]
      rw [ih knows' succeeded, appended, freshOf, if_neg fresh, if_pos rfl, List.append_assoc,
        List.singleton_append]

/-- **What is appended are the rows whose id is new.** -/
theorem appendEvents_ok {new : List LedgerEvent} {result : AppendResult}
    (succeeded : appendEvents existing new = .ok result) :
    result.events = existing ++ result.appended ∧
      result.appended = freshOf (existing.map fun event => event.eventId) new := by
  simp only [appendEvents, bind_eq_ok] at succeeded
  obtain ⟨admitted, holds, state, appended, ⟨⟩, -, done⟩ := succeeded
  cases done
  exact ⟨rfl, foldlM_appendOne_ok (holds_admitAll holds).knows appended⟩

end TreeOptions.Books
