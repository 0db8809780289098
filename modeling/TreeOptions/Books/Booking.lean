import TreeOptions.Books.Fills

/-!
# Ledger events from fills

`fillEvents` turns a fill book into the ledger rows that are missing: one `fill` for a
base execution id, one `correction` for each later version with the difference to what
is booked, and one `commission` for each execution id whose commission is known. Given
the rows already booked, a late older version books nothing.

`appendEvents` appends rows under deterministic ids. A row that is already there is a
duplicate, another fact under its id is refused, and a base execution id is filled once.
-/

set_option autoImplicit false

namespace TreeOptions.Books

open Checked

/-- Why a row cannot enter the books. -/
inductive BooksError where
  | fillConflict (conflict : FillConflict)
  | schema (text : String)
  | notBooked (execId : String) (secType : ExecSecType)
  | differentFact (eventId : String)
  | bookedTwice (baseExecId other eventId : String)
  | supersedesMissing (eventId target : String)
  | supersedesElsewhere (eventId target : String)
  | rootMissing (baseExecId : String)
  | contractMissing (eventId : String)
  | correctsElsewhere (eventId root : String)
  | bothSecTypes (conId : ℕ)
  deriving DecidableEq

/-! ## Attribution -/

/-- An untagged or foreign order. -/
def outside : Attribution where
  intentId := none
  strategyVersion := none
  programId := none
  oursOrOutside := ⟨rfl, rfl⟩

def unattributedPrefix : String :=
  "unattributed:"

structure AttributionIndex where
  intents : String → Option Attribution
  structures : String → Option String

/-- None for a tag of ours that the index cannot explain. -/
def AttributionIndex.resolve (index : AttributionIndex) (orderRef : String) :
    Option Attribution :=
  match parseOrderRef orderRef with
  | none => some outside
  | some (.sup ident) => index.intents ident
  | some (.desk ident) => index.intents ((index.structures ident).getD ident)

/-- The attribution an execution books under, with its unattributed note. -/
structure Owner where
  attribution : Attribution
  detail : String := ""

/-- A tag's owner, outside when the index cannot explain it. -/
def AttributionIndex.owner (index : AttributionIndex) (orderRef : String) : Owner :=
  match index.resolve orderRef with
  | some attribution => { attribution }
  | none => { attribution := outside, detail := unattributedPrefix ++ orderRef }

/-- A booked chain keeps the owner it was booked under. -/
def ownerOf (index : AttributionIndex) (fill : Fill) (booked : List LedgerEvent) : Owner :=
  match booked.find? fun event => event.kind = .fill with
  | some event => ⟨event.attribution, event.detail⟩
  | none => index.owner fill.first.orderRef

/-! ## Broker facts to events -/

def secTypeOf (execution : BrokerExecution) : Except BooksError PositionSecType :=
  match execution.secType with
  | .opt => .ok .opt
  | .stk => .ok .stk
  | .bag => .error (.notBooked execution.execId .bag)

/-- The members of the row of an execution. -/
def eventFields (execution : BrokerExecution) (kind : LedgerKind)
    (quantityDelta cashDeltaMicros : ℤ) (owner : Owner) (recordedAt : ℤ)
    (supersedes : Option String) (secType : PositionSecType) : EventFields where
  eventId := kind.value ++ ":" ++ execution.execId
  kind := kind
  accountId := execution.accountId
  at' := execution.time
  recordedAt := recordedAt
  attribution := owner.attribution
  quantityDelta := quantityDelta
  cashDeltaMicros := cashDeltaMicros
  conId := some execution.conId
  secType := some secType
  execId := some execution.execId
  baseExecId := some execution.baseExecId
  permId := some execution.permId
  orderRef := if execution.orderRef = "" then none else some execution.orderRef
  supersedesEventId := supersedes
  detail := owner.detail

def event (execution : BrokerExecution) (kind : LedgerKind) (quantityDelta cashDeltaMicros : ℤ)
    (owner : Owner) (recordedAt : ℤ) (supersedes : Option String) :
    Except BooksError LedgerEvent := do
  let secType ← secTypeOf execution
  (LedgerEvent.validate
    (eventFields execution kind quantityDelta cashDeltaMicros owner recordedAt supersedes
      secType)).mapError .schema

/-- One correction for each version, with its difference to the figures before it. -/
def corrections (owner : Owner) (recordedAt : ℤ) :
    ℤ → ℤ → String → List BrokerExecution → Except BooksError (List LedgerEvent)
  | _, _, _, [] => .ok []
  | quantity, cash, previous, version :: rest => do
      let corrected ← event version .correction (signedQuantity version - quantity)
        (cashMicros version - cash) owner recordedAt (some previous)
      let others ← corrections owner recordedAt (signedQuantity version) (cashMicros version)
        corrected.eventId rest
      return corrected :: others

def eventKey (event : LedgerEvent) : ℕ ×ₗ String :=
  versionKey (event.execId.getD "")

/-- The rows that move the position of one base execution id. -/
def chainOf (baseExecId : String) (events : List LedgerEvent) : List LedgerEvent :=
  events.filter fun event => event.kind.Moves ∧ event.baseExecId = some baseExecId

/-- The fill and correction rows still missing for a fill. -/
def chain (fill : Fill) (booked : List LedgerEvent) (owner : Owner) (recordedAt : ℤ) :
    Except BooksError (List LedgerEvent) :=
  match booked.argmax eventKey with
  | some head =>
    corrections owner recordedAt (booked.map fun event => event.quantityDelta).sum
      (booked.map fun event => event.cashDeltaMicros).sum head.eventId
      (fill.versions.filter fun version => eventKey head < versionKey version.execId)
  | none => do
      let opened ← event fill.first .fill (signedQuantity fill.first) (cashMicros fill.first)
        owner recordedAt none
      let later ← corrections owner recordedAt (signedQuantity fill.first)
        (cashMicros fill.first) opened.eventId fill.versions.tail
      return opened :: later

/-- One commission row for each version whose commission is known. -/
def commissionEvents (fill : Fill) (owner : Owner) (recordedAt : ℤ) :
    Except BooksError (List LedgerEvent) :=
  (fill.versions.filter fun version => version.commissionMicros.isSome).mapM fun version =>
    event version .commission 0 (-version.commissionMicros.getD 0) owner recordedAt none

/-- Every row of a fill that its chain does not hold yet. -/
def eventsOf (index : AttributionIndex) (recordedAt : ℤ) (existing : List LedgerEvent)
    (fill : Fill) : Except BooksError (List LedgerEvent) := do
  let booked := chainOf fill.baseExecId existing
  let owner := ownerOf index fill booked
  let moves ← chain fill booked owner recordedAt
  let fees ← commissionEvents fill owner recordedAt
  return moves ++ fees

/-- The rows whose id is not known yet. -/
def freshOf : List String → List LedgerEvent → List LedgerEvent
  | _, [] => []
  | known, event :: rest =>
    if event.eventId ∈ known then freshOf known rest
    else event :: freshOf (event.eventId :: known) rest

/-- The rows a fill book adds to the ledger. -/
def fillEvents (book : FillBook) (index : AttributionIndex) (recordedAt : ℤ)
    (existing : List LedgerEvent) : Except BooksError (List LedgerEvent) := do
  let out ← book.fills.mapM (eventsOf index recordedAt existing)
  return freshOf (existing.map fun event => event.eventId) out.flatten

/-! ## Appending -/

/-- The fact a row records. When it was recorded is not the fact. -/
def LedgerEvent.content (event : LedgerEvent) : EventFields :=
  { event.toEventFields with recordedAt := 0 }

/-- The rows held by id, and the fill that booked each base execution id. -/
structure Admitted where
  byId : Table fun event : LedgerEvent => event.eventId
  fills : Table fun booked : String × String => booked.1

def Admitted.empty : Admitted :=
  ⟨Table.empty, Table.empty⟩

/-- The fills with one more row. A base execution id is filled once. -/
def admitFill (fills : Table fun booked : String × String => booked.1) (event : LedgerEvent) :
    Except BooksError (Table fun booked : String × String => booked.1) :=
  match event.kind, event.baseExecId with
  | .fill, some base => do
      let after := fills.insertOrIgnore (base, event.eventId)
      let other := ((after.find? base).map Prod.snd).getD event.eventId
      refuse (other ≠ event.eventId) (.bookedTwice base other event.eventId)
      return after
  | _, _ => .ok fills

/-- Hold a row. The flag says whether it is new. -/
def admitEvent (state : Admitted) (event : LedgerEvent) : Except BooksError (Admitted × Bool) :=
  match state.byId.find? event.eventId with
  | some held => do
      refuse (held.content ≠ event.content) (.differentFact event.eventId)
      return (state, false)
  | none => do
      let fills ← admitFill state.fills event
      return (⟨state.byId.put event, fills⟩, true)

structure AppendResult where
  events : List LedgerEvent
  appended : List LedgerEvent
  duplicates : List String

/-- The rows admitted so far, those that were new, and the ids of those that were not. -/
structure Appending where
  admitted : Admitted
  appended : List LedgerEvent := []
  duplicates : List String := []

def appendOne (state : Appending) (event : LedgerEvent) : Except BooksError Appending := do
  let (admitted, new) ← admitEvent state.admitted event
  if new then
    return { state with admitted, appended := state.appended ++ [event] }
  else
    return { state with admitted, duplicates := state.duplicates ++ [event.eventId] }

/-- A row that supersedes another needs it in the ledger. -/
def checkSupersedes (admitted : Admitted) (event : LedgerEvent) : Except BooksError Unit :=
  match event.supersedesEventId with
  | none => .ok ()
  | some target =>
    refuse (admitted.byId.find? target = none) (.supersedesMissing event.eventId target)

/-- The rows held, without regard to which were new. -/
def admitAll (events : List LedgerEvent) : Except BooksError Admitted :=
  events.foldlM (fun state event => Prod.fst <$> admitEvent state event) Admitted.empty

def appendEvents (existing new : List LedgerEvent) : Except BooksError AppendResult := do
  let admitted ← admitAll existing
  let state ← new.foldlM appendOne { admitted }
  state.appended.forM (checkSupersedes state.admitted)
  return {
    events := existing ++ state.appended
    appended := state.appended
    duplicates := state.duplicates }

/-! ## What is admitted -/

/-- The facts that a list of rows records, each once. -/
def facts (events : List LedgerEvent) : List EventFields :=
  (events.map LedgerEvent.content).dedup

theorem admit_ok {state next : Admitted} {event : LedgerEvent} {new : Bool}
    (admitted : admitEvent state event = .ok (next, new)) :
    (new = false ∧ next = state ∧ ∃ held, state.byId.find? event.eventId = some held ∧
        held.content = event.content) ∨
      (new = true ∧ state.byId.find? event.eventId = none ∧
        next.byId = state.byId.put event) := by
  rw [admitEvent] at admitted
  cases found : state.byId.find? event.eventId with
  | some held =>
    rw [found] at admitted
    obtain ⟨same, done⟩ := refuse_bind_eq_ok.mp admitted
    cases done
    exact .inl ⟨rfl, rfl, held, rfl, not_not.mp same⟩
  | none =>
    rw [found] at admitted
    obtain ⟨fills, -, done⟩ := bind_eq_ok.mp admitted
    cases done
    exact .inr ⟨rfl, rfl, rfl⟩

/-- The rows held, against the rows that were to be held: each of them, and the fact of
each. -/
structure Holds (events : List LedgerEvent) (admitted : Admitted) : Prop where
  mem : ∀ row ∈ admitted.byId.rows, row ∈ events
  content : ∀ event ∈ events, ∃ row ∈ admitted.byId.rows, row.content = event.content

theorem holds_empty : Holds [] Admitted.empty := by
  constructor
  · intro row member
    cases member
  · intro event member
    cases member

theorem Holds.admitEvent {done : List LedgerEvent} {state next : Admitted} {event : LedgerEvent}
    {new : Bool} (holds : Holds done state)
    (admitted : Books.admitEvent state event = .ok (next, new)) :
    Holds (done ++ [event]) next := by
  rcases admit_ok admitted with ⟨-, rfl, held, found, same⟩ | ⟨-, free, put⟩
  · constructor
    · intro row member
      exact List.mem_append_left _ (holds.mem row member)
    · exact List.forall_mem_append.mpr ⟨holds.content,
        List.forall_mem_singleton.mpr ⟨held, (Table.find?_eq_some_iff.mp found).1, same⟩⟩
  · constructor
    · intro row member
      rw [put] at member
      rcases Table.mem_rows_put.mp member with rfl | ⟨inside, -⟩
      · exact List.mem_concat_self
      · exact List.mem_append_left _ (holds.mem row inside)
    · intro other member
      rw [put]
      rcases List.mem_append.mp member with old | last
      · obtain ⟨row, inside, same⟩ := holds.content other old
        refine ⟨row, Table.mem_rows_put.mpr (.inr ⟨inside, ?_⟩), same⟩
        intro taken
        rw [← taken, Table.find?_key inside] at free
        cases free
      · rw [List.mem_singleton.mp last]
        exact ⟨event, Table.mem_rows_put.mpr (.inl rfl), rfl⟩

theorem holds_admitAll {events : List LedgerEvent} {admitted : Admitted}
    (succeeded : admitAll events = .ok admitted) : Holds events admitted := by
  refine foldlM_invariant Holds ?_ holds_empty succeeded
  intro done event state next holds stepped
  obtain ⟨⟨next', new⟩, admitted', rfl⟩ := map_eq_ok.mp stepped
  exact holds.admitEvent admitted'

/-- **The rows held are the facts, each once.** -/
theorem Holds.perm {events : List LedgerEvent} {admitted : Admitted}
    (holds : Holds events admitted) :
    (admitted.byId.rows.map LedgerEvent.content).Perm (facts events) := by
  have ids : (admitted.byId.rows.map LedgerEvent.content).map EventFields.eventId =
      admitted.byId.rows.map fun event => event.eventId := by
    rw [List.map_map]
    rfl
  have nodup : (admitted.byId.rows.map LedgerEvent.content).Nodup := by
    refine List.Nodup.of_map EventFields.eventId ?_
    rw [ids]
    exact admitted.byId.unique
  rw [facts, List.perm_ext_iff_of_nodup nodup (List.nodup_dedup _)]
  intro fact
  rw [List.mem_dedup, List.mem_map, List.mem_map]
  constructor
  · rintro ⟨row, member, rfl⟩
    exact ⟨row, holds.mem row member, rfl⟩
  · rintro ⟨event, member, rfl⟩
    exact holds.content event member

end TreeOptions.Books
