import TreeOptions.Options.Phases

/-!
# What falls due

At the close of a session each contract falls due at most once, for all that is held of it unless it
was elected. An open contract that expires with the session falls due. What follows a session's
settlements, the mark and the decision, touches neither the book nor the positions.
-/

set_option autoImplicit false

namespace TreeOptions.Options

open Backtest Checked Decimal Ledger

variable {Snapshot : Type} {input : OptionsInput Snapshot} {session instant : ℤ}
  {state next : OptionsState}

/-! ## Dues -/

/-- What is due is due for a contract that is known, and for all of it unless it was elected. -/
structure DueFor (input : OptionsInput Snapshot) (state : OptionsState) (due : Due) : Prop where
  known : Known input due.contractId
  whole : due.kind ≠ .earlyExercise → due.quantity = state.ledger.quantity due.contractId

structure DuesOf (input : OptionsInput Snapshot) (session : ℤ) (state : OptionsState)
    (dues : List Due) : Prop where
  distinct : (dues.map Due.contractId).Nodup
  each : ∀ due ∈ dues, DueFor input state due
  expiring : ∀ position ∈ state.openPositions, position.contractExpiration = session →
    1 ≤ state.ledger.quantity position.contractId →
      position.contractId ∈ dues.map Due.contractId

theorem sublist_filterMap {Item : Type} {items : List Item} {key : Item → String}
    {select : Item → Option Due}
    (keyed : ∀ item due, select item = some due → due.contractId = key item) :
    ((items.filterMap select).map Due.contractId).Sublist (items.map key) := by
  induction items with
  | nil => exact List.Sublist.refl _
  | cons item rest ih =>
    cases selected : select item with
    | none =>
      rw [List.filterMap_cons_none selected]
      exact ih.cons _
    | some due =>
      rw [List.filterMap_cons_some selected, List.map_cons, List.map_cons,
        keyed item due selected]
      exact ih.cons_cons _

theorem Ready.nodup_openIds (ready : Ready input state) : state.openIds.Nodup :=
  (sortedBy_perm _ _).nodup_iff.mpr ready.distinct

variable {select : String → Option Due}

theorem Ready.nodup_select (ready : Ready input state)
    (keyed : ∀ contractId due, select contractId = some due → due.contractId = contractId) :
    ((state.openIds.filterMap select).map Due.contractId).Nodup := by
  have sublist : ((state.openIds.filterMap select).map Due.contractId).Sublist
      (state.openIds.map id) := sublist_filterMap keyed
  rw [List.map_id] at sublist
  exact ready.nodup_openIds.sublist sublist

theorem mem_openIds {contractId : String} :
    contractId ∈ state.openIds ↔ contractId ∈ state.openPositions.map OpenPosition.contractId :=
  mem_sortedBy

theorem Ready.known_of_mem (ready : Ready input state) {contractId : String}
    (isOpen : contractId ∈ state.openIds) : Known input contractId := by
  obtain ⟨position, isMember, rfl⟩ := List.mem_map.mp (mem_openIds.mp isOpen)
  obtain ⟨contract, isContract, named, -⟩ := ready.known position isMember
  exact ⟨contract, isContract, named⟩

theorem dueFor_of_select (ready : Ready input state)
    (whole : ∀ contractId due, select contractId = some due → due.contractId = contractId ∧
      due.quantity = state.ledger.quantity contractId) :
    ∀ due ∈ state.openIds.filterMap select, DueFor input state due := by
  intro due isMember
  obtain ⟨contractId, isOpen, selected⟩ := List.mem_filterMap.mp isMember
  obtain ⟨rfl, quantity⟩ := whole contractId due selected
  exact ⟨ready.known_of_mem isOpen, fun _ => quantity⟩

variable {due : Due}

theorem terminal_select {horizon : ℤ} {contractId : String}
    (selected : ((state.position? contractId).bind fun position =>
      (terminalAction input session horizon position.underlyingId).map fun action =>
        ({ kind := .terminal, contractId, quantity := state.ledger.quantity contractId
           action := some action } : Due)) = some due) :
    due.contractId = contractId ∧ due.quantity = state.ledger.quantity contractId := by
  obtain ⟨position, -, selected⟩ := Option.bind_eq_some_iff.mp selected
  obtain ⟨action, -, rfl⟩ := Option.map_eq_some_iff.mp selected
  exact ⟨rfl, rfl⟩

theorem silent_select {claimed : List String} {contractId : String}
    (selected : ((state.position? contractId).bind fun position =>
      if DiedSilently input session position.underlyingId ∧ contractId ∉ claimed then
        some ({ kind := .terminalSilent, contractId
                quantity := state.ledger.quantity contractId, action := none } : Due)
      else none) = some due) :
    (due.contractId = contractId ∧ due.quantity = state.ledger.quantity contractId) ∧
      contractId ∉ claimed := by
  obtain ⟨position, -, selected⟩ := Option.bind_eq_some_iff.mp selected
  split at selected
  case isTrue died =>
    cases selected
    exact ⟨⟨rfl, rfl⟩, died.2⟩
  case isFalse => cases selected

theorem elected_select {claimed : List String} {election : String × ℕ}
    (selected : (if election.1 ∈ claimed ∨ election.2 < 1 ∨
        state.ledger.quantity election.1 < 1 then none
      else
        some ({ kind := .earlyExercise, contractId := election.1
                quantity := min election.2 (state.ledger.quantity election.1)
                action := none } : Due)) = some due) :
    (due.contractId = election.1 ∧ due.kind = .earlyExercise) ∧ election.1 ∉ claimed := by
  split at selected
  case isTrue => cases selected
  case isFalse unclaimed =>
    cases selected
    exact ⟨⟨rfl, rfl⟩, fun isClaimed => unclaimed (.inl isClaimed)⟩

variable {elected : List (String × ℕ)}

theorem dues_before_expiries (ready : Ready input state) (once : (elected.map Prod.fst).Nodup)
    (known : ∀ election ∈ elected, Known input election.1) (horizon : ℤ)
    {terminal silent exercised : List Due}
    (isTerminal : terminal = terminalDues input session horizon state)
    (isSilent : silent = silentDues input session state (terminal.map Due.contractId))
    (isExercised : exercised = electedDues state ((terminal ++ silent).map Due.contractId)
      elected) : ((terminal ++ silent ++ exercised).map Due.contractId).Nodup ∧
      ∀ due ∈ terminal ++ silent ++ exercised, DueFor input state due := by
  have terminalOnce : (terminal.map Due.contractId).Nodup := by
    rw [isTerminal]
    exact ready.nodup_select fun contractId due selected => (terminal_select selected).1
  have silentOnce : (silent.map Due.contractId).Nodup := by
    rw [isSilent]
    exact ready.nodup_select fun contractId due selected => (silent_select selected).1.1
  have exercisedOnce : (exercised.map Due.contractId).Nodup := by
    rw [isExercised, electedDues]
    exact once.sublist (sublist_filterMap fun election due selected =>
      (elected_select selected).1.1)
  have silentFresh : ∀ due ∈ silent, due.contractId ∉ terminal.map Due.contractId := by
    intro due isMember
    rw [isSilent, silentDues] at isMember
    obtain ⟨contractId, -, selected⟩ := List.mem_filterMap.mp isMember
    obtain ⟨⟨rfl, -⟩, fresh⟩ := silent_select selected
    exact fresh
  have exercisedFresh : ∀ due ∈ exercised,
      due.contractId ∉ (terminal ++ silent).map Due.contractId := by
    intro due isMember
    rw [isExercised, electedDues] at isMember
    obtain ⟨election, -, selected⟩ := List.mem_filterMap.mp isMember
    obtain ⟨⟨same, -⟩, fresh⟩ := elected_select selected
    exact same ▸ fresh
  constructor
  · rw [List.map_append]
    refine List.nodup_append.mpr ⟨?_, exercisedOnce, ?_⟩
    · rw [List.map_append]
      refine List.nodup_append.mpr ⟨terminalOnce, silentOnce, ?_⟩
      rintro a isFirst b isSecond rfl
      obtain ⟨due, isMember, rfl⟩ := List.mem_map.mp isSecond
      exact silentFresh due isMember isFirst
    · rintro a isFirst b isSecond rfl
      obtain ⟨due, isMember, rfl⟩ := List.mem_map.mp isSecond
      exact exercisedFresh due isMember isFirst
  · intro due isMember
    rcases List.mem_append.mp isMember with isEarlier | isMember
    · rcases List.mem_append.mp isEarlier with isMember | isMember
      · rw [isTerminal] at isMember
        exact dueFor_of_select ready (fun _ _ => terminal_select) due isMember
      · rw [isSilent] at isMember
        exact dueFor_of_select ready (fun _ _ selected => (silent_select selected).1) due isMember
    · rw [isExercised] at isMember
      obtain ⟨election, isElected, selected⟩ := List.mem_filterMap.mp isMember
      obtain ⟨⟨same, kind⟩, -⟩ := elected_select selected
      exact ⟨same ▸ known election isElected, fun other => absurd kind other⟩

/-- What falls due by expiry joins what is due before. -/
structure Expiring (input : OptionsInput Snapshot) (session : ℤ) (state : OptionsState)
    (before : List Due) (done : List String) (dues : List Due) : Prop where
  added : ∃ expired, dues = before ++ expired ∧ (expired.map Due.contractId).Sublist done ∧
    ∀ due ∈ expired, due.contractId ∉ before.map Due.contractId
  each : ∀ due ∈ dues, DueFor input state due
  covers : ∀ contractId ∈ done, ∀ contract, input.surface.contract contractId = .ok contract →
    contract.expiration = session → 1 ≤ state.ledger.quantity contractId →
      contractId ∈ dues.map Due.contractId

variable {dues : List Due}

theorem Expiring.step (ready : Ready input state) {before after : List Due} {done : List String}
    {contractId : String} (expiring : Expiring input session state before done dues)
    (isOpen : contractId ∈ state.openIds)
    (stepped : expiryDue input session state (before.map Due.contractId) dues contractId =
      .ok after) : Expiring input session state before (done ++ [contractId]) after := by
  obtain ⟨⟨expired, rfl, sublist, fresh⟩, each, covers⟩ := expiring
  rw [expiryDue] at stepped
  obtain ⟨contract, isContract, stepped⟩ := bind_eq_ok.mp stepped
  cases stepped
  split
  case isTrue falls =>
    obtain ⟨expires, held, unclaimed⟩ := falls
    refine ⟨⟨_, List.append_assoc _ _ _, ?_, ?_⟩, ?_, ?_⟩
    · rw [List.map_append, List.map_singleton]
      exact sublist.append (List.Sublist.refl _)
    · exact List.forall_mem_append.mpr ⟨fresh, List.forall_mem_singleton.mpr unclaimed⟩
    · exact List.forall_mem_append.mpr
        ⟨each, List.forall_mem_singleton.mpr ⟨ready.known_of_mem isOpen, fun _ => rfl⟩⟩
    · intro other isMember contract' isContract' expires' held'
      rw [List.map_append]
      rcases List.mem_append.mp isMember with isEarlier | isNew
      · exact List.mem_append_left _ (covers other isEarlier contract' isContract' expires' held')
      · obtain rfl := List.mem_singleton.mp isNew
        exact List.mem_concat_self
  case isFalse stays =>
    refine ⟨⟨expired, rfl, sublist.trans (List.sublist_append_left _ _), fresh⟩, each, ?_⟩
    intro other isMember contract' isContract' expires' held'
    rcases List.mem_append.mp isMember with isEarlier | isNew
    · exact covers other isEarlier contract' isContract' expires' held'
    · obtain rfl := List.mem_singleton.mp isNew
      cases isContract'.symm.trans isContract
      -- it expires and is held, so something before it has claimed it
      have claimed : other ∈ before.map Due.contractId := by
        by_contra unclaimed
        exact stays ⟨expires', held', unclaimed⟩
      rw [List.map_append]
      exact List.mem_append_left _ claimed

/-- **A session settles each contract once**, and what expires with it. -/
theorem settlementsDue_eq_ok (ready : Ready input state) (once : (elected.map Prod.fst).Nodup)
    (known : ∀ election ∈ elected, Known input election.1)
    (due : settlementsDue input session state elected = .ok dues) :
    DuesOf input session state dues := by
  rw [settlementsDue] at due
  obtain ⟨horizon, -, due⟩ := bind_eq_ok.mp due
  dsimp only at due
  obtain ⟨all, ran, same⟩ := bind_eq_ok.mp due
  obtain ⟨distinct, each⟩ := dues_before_expiries ready once known horizon rfl rfl rfl
  generalize terminalDues input session horizon state ++
    silentDues input session state
      ((terminalDues input session horizon state).map Due.contractId) ++ electedDues state _ _ =
    before at ran distinct each
  have started : Expiring input session state before [] before :=
    ⟨⟨[], (List.append_nil _).symm, List.Sublist.refl _, by simp⟩, each, by simp⟩
  have ended : Expiring input session state before ([] ++ state.openIds) all :=
    foldlM_invariant_of_mem (Expiring input session state before)
      (fun done contractId isOpen dues after expiring stepped =>
        expiring.step ready isOpen stepped) started ran
  rw [List.nil_append] at ended
  cases same
  obtain ⟨⟨expired, rfl, sublist, fresh⟩, each', covers⟩ := ended
  have unsorted := sortedBy_perm
    (fun due => toLex (due.kind.rank, toLex (due.contractId.toList, due.quantity)))
    (before ++ expired)
  refine ⟨(unsorted.map Due.contractId).nodup_iff.mpr ?_, ?_, ?_⟩
  · rw [List.map_append]
    refine List.nodup_append.mpr ⟨distinct, ready.nodup_openIds.sublist sublist, ?_⟩
    rintro a isFirst b isSecond rfl
    obtain ⟨due, isMember, rfl⟩ := List.mem_map.mp isSecond
    exact fresh due isMember isFirst
  · intro due isMember
    exact each' due (mem_sortedBy.mp isMember)
  · intro position isMember expires held
    obtain ⟨contract, isContract, -, expiration⟩ := ready.known position isMember
    refine (unsorted.map Due.contractId).mem_iff.mpr ?_
    exact covers position.contractId
      (mem_openIds.mpr (List.mem_map.mpr ⟨position, isMember, rfl⟩)) contract isContract
      (expiration.symm.trans expires) held

/-! ## Settling -/

/-- What is due is settled one after another. -/
inductive Settled (input : OptionsInput Snapshot) (session instant : ℤ) :
    List Due → OptionsState → OptionsState → Prop where
  | nil (state : OptionsState) : Settled input session instant [] state state
  | cons {due : Due} {dues : List Due} {state middle next : OptionsState}
      (settles : Settles input session instant due state middle)
      (rest : Settled input session instant dues middle next) :
      Settled input session instant (due :: dues) state next

theorem Settles.ready (settles : Settles input session instant due state next)
    (ready : Ready input state) : Ready input next := by
  obtain ⟨settlement, -, -, -, closes⟩ := settles.settled
  exact closes.ready ready

theorem Settled.ready (settled : Settled input session instant dues state next)
    (ready : Ready input state) : Ready input next := by
  induction settled with
  | nil => exact ready
  | cons settles rest ih => exact ih (settles.ready ready)

/-- A settlement in the middle is refused for its order. -/
def RaisesAt (input : OptionsInput Snapshot) (session instant : ℤ) (dues : List Due)
    (state : OptionsState) (error : OptionsError) : Prop :=
  error.OutOfOrder → ∃ before due after middle stamp, dues = before ++ due :: after ∧
    Settled input session instant before state middle ∧
    settlementStamp input session instant due = .ok stamp ∧ middle.ledger.Precedes stamp

/-- **What is due is settled in order**, or one of it is refused. -/
theorem ensures_settled (ready : Ready input state)
    (known : ∀ due ∈ dues, Known input due.contractId) :
    Ensures (RaisesAt input session instant dues state)
      (Settled input session instant dues state)
      (dues.foldlM (settleDue input session instant) state) := by
  induction dues generalizing state with
  | nil => exact .nil state
  | cons due dues ih =>
    rw [List.foldlM_cons]
    refine Ensures.bind ((ensures_settleDue ready (known due List.mem_cons_self)).mono ?_
      fun _ => id) ?_
    · intro error raised outOfOrder
      obtain ⟨stamp, stamped, before⟩ := raised outOfOrder
      exact ⟨[], due, dues, state, stamp, rfl, .nil state, stamped, before⟩
    · intro middle _ settles
      refine (ih (settles.ready ready)
        (List.forall_mem_cons.mp known).2).mono ?_
          fun next rest => .cons settles rest
      intro error raised outOfOrder
      obtain ⟨before, refused, after, last, stamp, rfl, settled, stamped, isBefore⟩ :=
        raised outOfOrder
      exact ⟨due :: before, refused, after, last, stamp, rfl, .cons settles settled, stamped,
        isBefore⟩

/-! ## After the settlements -/

theorem markOne_eq_ok {closeAt previous : ℤ} {mark marked : ℚ × OptionsState} {contractId : String}
    (orders : OrdersKept mark.2) (ran : markOne input closeAt previous mark contractId = .ok marked) :
    Quiet mark.2 marked.2 := by
  rw [markOne] at ran
  obtain ⟨position, -, ran⟩ := bind_eq_ok.mp ran
  dsimp only at ran
  split at ran
  case isTrue =>
    cases ran
    exact ⟨rfl, rfl, rfl, rfl, orders.engine, orders.buys, orders.sells⟩
  case isFalse =>
    obtain ⟨entry, -, ran⟩ := bind_eq_ok.mp ran
    cases entry with
    | none =>
      cases ran
      exact ⟨rfl, rfl, rfl, rfl, orders.engine, orders.buys, orders.sells⟩
    | some entry =>
      obtain ⟨value, -, ran⟩ := bind_eq_ok.mp ran
      cases ran
      exact ⟨rfl, rfl, rfl, rfl, orders⟩

theorem Quiet.trans {middle : OptionsState} (first : Quiet state middle)
    (second : Quiet middle next) : Quiet state next :=
  ⟨second.ledger.trans first.ledger, second.openPositions.trans first.openPositions,
    second.closedRows.trans first.closedRows, second.notes.trans first.notes, second.orders⟩

theorem equityOf_eq_ok {equity : ℚ} (orders : OrdersKept state)
    (ran : equityOf input session state = .ok (next, equity)) : Quiet state next := by
  rw [equityOf] at ran
  simp only [bind_eq_ok] at ran
  obtain ⟨closeAt, -, previous, -, ⟨value, marked⟩, folded, equity', -, ran⟩ := ran
  cases ran
  exact foldlM_keeps (fun mark => Quiet state mark.2)
    (fun contractId _ mark after same stepped => same.trans (markOne_eq_ok same.orders stepped))
    (by exact ⟨rfl, rfl, rfl, rfl, orders⟩) folded

/-- **The mark of a session changes neither the book nor the positions.** -/
theorem ensures_markSession (ready : Ready input state) :
    Ensures (fun error => ¬ error.OutOfOrder) (fun marked => Quiet state marked.1)
      (markSession input session instant state) := by
  rw [markSession]
  refine Ensures.bind (ensures_lift (fun _ inOrder => inOrder) fun marked isMarked => isMarked) ?_
  rintro ⟨marked, equity⟩ - isMarked
  have same := equityOf_eq_ok ready.orders isMarked
  refine Ensures.bind (ensures_lift (fun _ inOrder => inOrder) fun _ _ => trivial) ?_
  intro row _ _
  have sound : marked.ledger.Sound := same.ledger ▸ ready.sound
  rw [sound.assertConservation]
  exact ⟨same.ledger, same.openPositions, same.closedRows, same.notes, same.orders.engine,
    same.orders.buys, same.orders.sells⟩

theorem foldl_noteCandidate {candidates : List OptionCandidate} (orders : OrdersKept state) :
    Quiet state (candidates.foldl noteCandidate state) := by
  induction candidates generalizing state with
  | nil => exact ⟨rfl, rfl, rfl, rfl, orders⟩
  | cons candidate rest ih =>
    have noted : Quiet state (noteCandidate state candidate) :=
      ⟨rfl, rfl, rfl, rfl, orders.engine, orders.buys, orders.sells⟩
    exact noted.trans (ih noted.orders)

/-- **A decision changes neither the book nor the positions.** -/
theorem scheduleEntries_eq_ok {decision : ℤ} (orders : OrdersKept state)
    (ran : scheduleEntries input decision state = .ok next) : Quiet state next := by
  rw [scheduleEntries] at ran
  dsimp only at ran
  split at ran
  case isTrue =>
    cases ran
    exact ⟨rfl, rfl, rfl, rfl, orders⟩
  case isFalse =>
    obtain ⟨⟨audit, candidates⟩, -, ran⟩ := bind_eq_ok.mp ran
    obtain ⟨planned, isPlanned, ran⟩ := bind_eq_ok.mp ran
    have audited : Quiet state { state with audit } :=
      ⟨rfl, rfl, rfl, rfl, orders.engine, orders.buys, orders.sells⟩
    have noted : Quiet state (candidates.foldl noteCandidate { state with audit }) :=
      audited.trans (foldl_noteCandidate audited.orders)
    dsimp only at ran isPlanned
    split at ran
    case isTrue =>
      cases ran
      exact ⟨noted.ledger, noted.openPositions, noted.closedRows, noted.notes,
        noted.orders.engine, noted.orders.buys, noted.orders.sells⟩
    case isFalse =>
      obtain ⟨following, -, ran⟩ := bind_eq_ok.mp ran
      cases ran
      exact ⟨noted.ledger, noted.openPositions, noted.closedRows, noted.notes,
        noted.orders.engine, forall_update noted.orders.buys (planOrders_buy isPlanned),
        noted.orders.sells⟩

end TreeOptions.Options
