import TreeOptions.Runstate.Journal
import TreeOptions.Runstate.Lease

/-!
# The run store

A handle on a run reads the journal, decides from what it read, and appends one
record. Between the two another handle may append, and the only thing that stands
against a decision on a stale view is that the record names the tail of that view.

A run of any number of handles is a system on the journal's bytes and on the
records the handles are about to append. Every reachable journal replays to a
legal history (`legalHistory_of_reachable`): the records are numbered without gap
or repeat, every transition starts where the one before it ended and is legal,
nothing targets `UNKNOWN`, `SEALED_RUNNING` is entered at most once, and all
pinned manifests are the same.

The argument is that a tail pins down the records before it. So a record that is
appended was built from the very history it is appended to (`history_appendRecord`),
and what has to be shown is about one view and one record
(`legalHistory_concat`).
-/

set_option autoImplicit false

namespace TreeOptions.Runstate

/-! ## What a handle decides -/

/-- The target of the last record that has one. -/
def lastState (records : List JournalRecord) : Option RunState :=
  records.reverse.findSome? JournalRecord.toState

def isPin (record : JournalRecord) : Bool :=
  record.kind = "MANIFEST_PINNED"

/-- The manifest of the last pin, or the one of the run's identity. -/
def pinnedManifestSha256 (captureManifestSha256 : Option String)
    (records : List JournalRecord) : Option String :=
  match records.reverse.find? isPin with
  | some record => record.manifestSha256
  | none => captureManifestSha256

/-- The number of the next record. -/
def nextSeq (records : List JournalRecord) : ℤ :=
  match records.getLast? with
  | some record => record.seq + 1
  | none => 1

inductive IllegalTransitionError where
  | noState
  | bootMismatch (leaseBoot actorBoot : String)
  | unknownTarget
  | notAnEdge (source target : RunState)
  | skipsOrRegresses (source target : RunState)

/-- The record of a transition from what was read. -/
def transitionRecord (view : JournalView) (toState : RunState) (reason : String)
    (nowEpoch actorPid : ℤ) (actorBootId : String) (owner : Option LeaseOwner) :
    Except IllegalTransitionError JournalRecord :=
  match lastState view.records with
  | none => .error .noState
  | some source =>
    match owner.filter fun owner => owner.bootId ≠ actorBootId with
    | some owner => .error (.bootMismatch owner.bootId actorBootId)
    | none =>
      if isLegal source toState = false then
        if source = .unknown ∨ toState = .unknown then .error .unknownTarget
        else if toState ∉ legalEdges source then .error (.notAnEdge source toState)
        else .error (.skipsOrRegresses source toState)
      else .ok {
        seq := nextSeq view.records
        kind := "TRANSITION"
        fromState := some source
        toState := some toState
        reason := reason
        actorPid := actorPid
        actorBootId := actorBootId
        atEpoch := nowEpoch
        manifestSha256 := none
        prevRecordSha256 := view.tailHash
        recordSha256 := "" }

/-- What pinning a manifest comes to: a refusal, the pin that exists, or a record. -/
inductive PinOutcome where
  | alreadyBound (existing requested : String)
  | existing (recordSha256 : String)
  | append (record : JournalRecord)

/-- Pin a manifest from what was read. -/
def pinOutcome (captureManifestSha256 : Option String) (view : JournalView)
    (manifestSha256 : String) (nowEpoch actorPid : ℤ) (actorBootId : String) : PinOutcome :=
  let record : JournalRecord := {
    seq := nextSeq view.records
    kind := "MANIFEST_PINNED"
    fromState := none
    toState := none
    reason := "capture manifest pinned"
    actorPid := actorPid
    actorBootId := actorBootId
    atEpoch := nowEpoch
    manifestSha256 := some manifestSha256
    prevRecordSha256 := view.tailHash
    recordSha256 := "" }
  match pinnedManifestSha256 captureManifestSha256 view.records with
  | none => .append record
  | some existing =>
    if existing ≠ manifestSha256 then .alreadyBound existing manifestSha256
    else match view.records.reverse.find? isPin with
      | some prior => .existing prior.recordSha256
      | none => .append record

/-- The first record of a run. -/
def creationRecord (nowEpoch pid : ℤ) (bootId : String) : JournalRecord where
  seq := 1
  kind := "GENESIS"
  fromState := none
  toState := some .planned
  reason := "store created"
  actorPid := pid
  actorBootId := bootId
  atEpoch := nowEpoch
  manifestSha256 := none
  prevRecordSha256 := genesisPrev
  recordSha256 := ""

/-! ## Handles on one run -/

inductive StoreCall where
  | transition (toState : RunState) (reason : String) (nowEpoch actorPid : ℤ)
      (actorBootId : String) (owner : Option LeaseOwner)
  | pinManifest (manifestSha256 : String) (nowEpoch actorPid : ℤ) (actorBootId : String)

/-- The record a call goes on to append, if it appends one. -/
def StoreCall.record (captureManifestSha256 : Option String) (view : JournalView) :
    StoreCall → Option JournalRecord
  | .transition toState reason nowEpoch actorPid actorBootId owner =>
    (transitionRecord view toState reason nowEpoch actorPid actorBootId owner).toOption
  | .pinManifest manifestSha256 nowEpoch actorPid actorBootId =>
    match pinOutcome captureManifestSha256 view manifestSha256 nowEpoch actorPid
      actorBootId with
    | .append record => some record
    | .alreadyBound _ _ | .existing _ => none

/-- The journal, and the records the handles are about to append. -/
structure Handles where
  store : JournalStore
  pending : ℕ → Option JournalRecord

/-- The steps of the calls: the creation of the run, the replay of a call with the
decision after it, and its append. -/
inductive StoreAction where
  | create (nowEpoch pid : ℤ) (bootId : String)
  | replay (handle : ℕ) (call : StoreCall)
  | append (handle : ℕ)

def Handles.step (env : Environment) (captureManifestSha256 : Option String)
    (handles : Handles) : StoreAction → Option Handles
  | .create nowEpoch pid bootId =>
    some { handles with
      store := (appendRecord env handles.store (creationRecord nowEpoch pid bootId)).1 }
  | .replay handle call =>
    match handles.pending handle with
    | some _ => none
    | none =>
      match Runstate.replay env handles.store with
      | .error _ => some handles
      | .ok view =>
        some { handles with
          pending := Function.update handles.pending handle
            (call.record captureManifestSha256 view) }
  | .append handle =>
    match handles.pending handle with
    | none => none
    | some record =>
      some {
        store := (appendRecord env handles.store record).1
        pending := Function.update handles.pending handle none }

/-- The handles on one run, whose identity may name a capture manifest. -/
def storeSystem (env : Environment) (captureManifestSha256 : Option String) :
    System Handles StoreAction where
  Initial handles := handles.store = .empty ∧ ∀ handle, handles.pending handle = none
  step := Handles.step env captureManifestSha256

/-! ## Legal histories -/

/-- What the journal of a run is meant to be. -/
structure LegalHistory (records : List JournalRecord) : Prop where
  seq : ∀ before record after, records = before ++ record :: after →
    record.seq = (before.length : ℤ) + 1
  legal : ∀ before record after, records = before ++ record :: after →
    record.kind = "TRANSITION" → ∃ source target, record.fromState = some source ∧
      record.toState = some target ∧ lastState before = some source ∧
      isLegal source target = true
  known : ∀ record ∈ records, record.toState ≠ some .unknown
  sealedOnce : (records.countP fun record => record.toState = some .sealedRunning) ≤ 1
  pins : ∀ first ∈ records, ∀ second ∈ records, isPin first = true → isPin second = true →
    first.manifestSha256 = second.manifestSha256

/-- A legal history, with what the next record's legality rests on. -/
structure History (records : List JournalRecord) : Prop extends LegalHistory records where
  entered : (∃ record ∈ records, record.toState = some .sealedRunning) →
    ∃ state, lastState records = some state ∧ Sealed state
  pinned : ∀ record ∈ records, isPin record = true → record.manifestSha256 ≠ none

theorem forall_split_concat {holds : List JournalRecord → JournalRecord → Prop}
    {records : List JournalRecord} {last : JournalRecord}
    (all : ∀ before record after, records = before ++ record :: after → holds before record)
    (new : holds records last) (before : List JournalRecord) (record : JournalRecord)
    (after : List JournalRecord) (split : records ++ [last] = before ++ record :: after) :
    holds before record := by
  rcases List.eq_nil_or_concat after with rfl | ⟨middle, final, rfl⟩
  · obtain ⟨rfl, same⟩ := List.append_inj' split rfl
    obtain rfl : last = record := by simpa using same
    exact new
  · rw [List.concat_eq_append, ← List.cons_append, ← List.append_assoc] at split
    obtain ⟨rfl, -⟩ := List.append_inj' split rfl
    exact all before record middle rfl

theorem lastState_concat (records : List JournalRecord) (record : JournalRecord) :
    lastState (records ++ [record]) = (record.toState).or (lastState records) := by
  rw [lastState, List.reverse_append, List.reverse_singleton, List.singleton_append,
    List.findSome?_cons]
  cases record.toState <;> rfl

theorem nextSeq_eq {records : List JournalRecord} (history : LegalHistory records) :
    nextSeq records = (records.length : ℤ) + 1 := by
  rcases List.eq_nil_or_concat records with rfl | ⟨rest, last, rfl⟩
  · rfl
  · have number := history.seq rest last [] (by simp)
    simp [nextSeq, number]

/-- **What a record must be to continue a legal history.** -/
structure Extends (records : List JournalRecord) (record : JournalRecord) : Prop where
  seq : record.seq = (records.length : ℤ) + 1
  legal : record.kind = "TRANSITION" → ∃ source target, record.fromState = some source ∧
    record.toState = some target ∧ lastState records = some source ∧
    isLegal source target = true
  moves : ∀ target, record.toState = some target → records = [] ∧ target = .planned ∨
    ∃ source, lastState records = some source ∧ isLegal source target = true
  pin : isPin record = true → record.manifestSha256 ≠ none ∧
    ∀ other ∈ records, isPin other = false

theorem history_concat {records : List JournalRecord} {record : JournalRecord}
    (history : History records) (extends' : Extends records record) :
    History (records ++ [record]) := by
  have known : ∀ target, record.toState = some target → target ≠ .unknown := by
    intro target targets
    rcases extends'.moves target targets with ⟨-, rfl⟩ | ⟨source, -, legal⟩
    · decide
    · exact ne_unknown_of_isLegal legal
  -- a record into the sealed lane has none before it
  have fresh : record.toState = some .sealedRunning →
      ∀ other ∈ records, other.toState ≠ some .sealedRunning := by
    intro targets other member entered
    obtain ⟨state, last, isSealed⟩ := history.entered ⟨other, member, entered⟩
    rcases extends'.moves _ targets with ⟨-, impossible⟩ | ⟨source, last', legal⟩
    · exact absurd impossible (by decide)
    · cases last'.symm.trans last
      rw [not_isLegal_of_sealed isSealed] at legal
      exact absurd legal (by decide)
  refine ⟨⟨?_, ?_, ?_, ?_, ?_⟩, ?_, ?_⟩
  · exact forall_split_concat history.seq extends'.seq
  · exact forall_split_concat history.legal extends'.legal
  · simp only [List.forall_mem_append, List.forall_mem_singleton]
    exact ⟨history.known, fun targets => known _ targets rfl⟩
  · rw [List.countP_append]
    by_cases targets : record.toState = some .sealedRunning
    · have none' : (records.countP fun record => record.toState = some .sealedRunning) = 0 := by
        rw [List.countP_eq_zero]
        simpa using fresh targets
      simp [none', targets]
    · simpa [targets] using history.sealedOnce
  · simp only [List.forall_mem_append, List.forall_mem_singleton]
    refine ⟨fun first firstMember => ⟨history.pins first firstMember, ?_⟩,
      ?_, fun _ _ => trivial⟩
    · intro isFirst isLast
      rw [(extends'.pin isLast).2 first firstMember] at isFirst
      exact absurd isFirst (by decide)
    · intro second secondMember isLast isSecond
      rw [(extends'.pin isLast).2 second secondMember] at isSecond
      exact absurd isSecond (by decide)
  · rintro ⟨other, member, targets⟩
    rw [lastState_concat]
    rcases List.mem_append.mp member with earlier | new
    · obtain ⟨state, last, isSealed⟩ := history.entered ⟨other, earlier, targets⟩
      cases target : record.toState with
      | none => exact ⟨state, by simp [last], isSealed⟩
      | some target' =>
        rcases extends'.moves target' target with ⟨rfl, -⟩ | ⟨source, last', legal⟩
        · exact absurd earlier (by simp)
        · cases last'.symm.trans last
          exact ⟨target', rfl, sealed_of_isLegal isSealed legal⟩
    · obtain rfl : other = record := by simpa using new
      exact ⟨.sealedRunning, by simp [targets], .inl rfl⟩
  · simp only [List.forall_mem_append, List.forall_mem_singleton]
    exact ⟨history.pinned, fun isLast => (extends'.pin isLast).1⟩

/-! ## Decisions extend the view -/

/-- The hash a record is written with does not matter. -/
theorem Extends.signed {env : Environment} {records : List JournalRecord}
    {record : JournalRecord} (extends' : Extends records record) :
    Extends records (signed env record) :=
  ⟨extends'.seq, extends'.legal, extends'.moves, extends'.pin⟩

theorem extends_creationRecord (nowEpoch pid : ℤ) (bootId : String) :
    Extends [] (creationRecord nowEpoch pid bootId) where
  seq := rfl
  legal transition := absurd transition (by simp [creationRecord])
  moves target targets := .inl ⟨rfl, (Option.some.inj targets).symm⟩
  pin isPin' := absurd isPin' (by simp [isPin, creationRecord])

theorem extends_transitionRecord {view : JournalView} {toState : RunState} {reason : String}
    {nowEpoch actorPid : ℤ} {actorBootId : String} {owner : Option LeaseOwner}
    {record : JournalRecord} (history : History view.records)
    (decided : transitionRecord view toState reason nowEpoch actorPid actorBootId owner =
      .ok record) :
    Extends view.records record ∧ record.prevRecordSha256 = view.tailHash := by
  unfold transitionRecord at decided
  split at decided
  case h_1 => cases decided
  case h_2 source last =>
    split at decided
    case h_1 => cases decided
    case h_2 =>
      split at decided
      case isTrue =>
        split at decided
        · cases decided
        · split at decided <;> cases decided
      case isFalse allowed =>
        cases decided
        have legal : isLegal source toState = true := by simpa using allowed
        refine ⟨⟨nextSeq_eq history.toLegalHistory, ?_, ?_, ?_⟩, rfl⟩
        · intro _
          exact ⟨source, toState, rfl, rfl, last, legal⟩
        · rintro target targets
          cases targets
          exact .inr ⟨source, last, legal⟩
        · intro isPin'
          exact absurd isPin' (by simp [isPin])

theorem isPin_eq_false {records : List JournalRecord}
    (search : records.reverse.find? isPin = none) : ∀ other ∈ records, isPin other = false := by
  intro other member
  have := List.find?_eq_none.mp search other (List.mem_reverse.mpr member)
  simpa using this

theorem extends_pinOutcome {captureManifestSha256 : Option String} {view : JournalView}
    {manifestSha256 : String} {nowEpoch actorPid : ℤ} {actorBootId : String}
    {record : JournalRecord} (history : History view.records)
    (decided : pinOutcome captureManifestSha256 view manifestSha256 nowEpoch actorPid
      actorBootId = .append record) :
    Extends view.records record ∧ record.prevRecordSha256 = view.tailHash := by
  have unpinned : view.records.reverse.find? isPin = none := by
    cases search : view.records.reverse.find? isPin with
    | none => rfl
    | some prior =>
      have member : prior ∈ view.records :=
        List.mem_reverse.mp (List.mem_of_find?_eq_some search)
      have pinned := history.pinned prior member (List.find?_some search)
      obtain ⟨manifest, names⟩ := Option.ne_none_iff_exists'.mp pinned
      simp only [pinOutcome, pinnedManifestSha256, search, names] at decided
      split at decided <;> cases decided
  have new : record = { record with prevRecordSha256 := view.tailHash } ∧
      record.seq = nextSeq view.records ∧ record.kind = "MANIFEST_PINNED" ∧
      record.toState = none ∧ record.manifestSha256 = some manifestSha256 := by
    simp only [pinOutcome, unpinned] at decided
    split at decided
    · obtain rfl := PinOutcome.append.inj decided
      exact ⟨rfl, rfl, rfl, rfl, rfl⟩
    · split at decided
      · cases decided
      · obtain rfl := PinOutcome.append.inj decided
        exact ⟨rfl, rfl, rfl, rfl, rfl⟩
  obtain ⟨prev, seq, kind, target, manifest⟩ := new
  refine ⟨⟨?_, ?_, ?_, ?_⟩, by rw [prev]⟩
  · rw [seq, nextSeq_eq history.toLegalHistory]
  · intro transition
    rw [kind] at transition
    exact absurd transition (by decide)
  · intro other targets
    rw [target] at targets
    cases targets
  · intro _
    exact ⟨by simp [manifest], isPin_eq_false unpinned⟩

/-- **A call appends, if anything, a record that extends what it read.** -/
theorem extends_of_call {captureManifestSha256 : Option String} {view : JournalView}
    {call : StoreCall} {record : JournalRecord} (history : History view.records)
    (decided : call.record captureManifestSha256 view = some record) :
    Extends view.records record ∧ record.prevRecordSha256 = view.tailHash := by
  cases call with
  | transition toState reason nowEpoch actorPid actorBootId owner =>
    rw [StoreCall.record] at decided
    exact extends_transitionRecord history (Checked.mem_toOption.mp decided)
  | pinManifest manifestSha256 nowEpoch actorPid actorBootId =>
    rw [StoreCall.record] at decided
    split at decided
    case h_1 record' outcome =>
      cases decided
      exact extends_pinOutcome history outcome
    case h_2 => cases decided
    case h_3 => cases decided

/-! ## Every reachable journal is a legal history -/

/-- What every state of the handles satisfies: the journal is committed and its
records are a legal history, and every record about to be appended extends the
chain it names. -/
structure Sound (env : Environment) (handles : Handles) (records : List JournalRecord) :
    Prop where
  committed : Committed env handles.store records
  history : History records
  pending : ∀ handle record, handles.pending handle = some record →
    (journalFormat env).Offered Extends record

variable {env : Environment} {captureManifestSha256 : Option String}

theorem history_nil : History [] where
  seq _ _ _ split := by simp at split
  legal _ _ _ split := by simp at split
  known := by simp
  sealedOnce := by simp
  pins := by simp
  entered := by simp
  pinned := by simp

/-- **A record is appended to the very chain it was built from, or not at all.** -/
theorem history_appendRecord (lawful : env.Lawful) (free : (journalFormat env).CollisionFree)
    {store : JournalStore} {records : List JournalRecord} {record : JournalRecord}
    (committed : Committed env store records) (history : History records)
    (offered : (journalFormat env).Offered Extends record) :
    ∃ after, Committed env (appendRecord env store record).1 after ∧ History after := by
  by_cases named : record.prevRecordSha256 = (journalFormat env).tail records
  · have extends' := offered.continues free committed.reads.chained named
    exact ⟨_, committed.next lawful named, history_concat history extends'.signed⟩
  · exact ⟨records, committed.stale named, history⟩

theorem sound_step (lawful : env.Lawful) (free : (journalFormat env).CollisionFree)
    {handles next : Handles} {action : StoreAction}
    (sound : ∃ records, Sound env handles records)
    (taken : handles.step env captureManifestSha256 action = some next) :
    ∃ records, Sound env next records := by
  obtain ⟨records, sound⟩ := sound
  cases action with
  | create nowEpoch pid bootId =>
    cases taken
    obtain ⟨after, committed, history⟩ := history_appendRecord lawful free sound.committed
      sound.history ⟨[], Linking.chained_nil, rfl, extends_creationRecord nowEpoch pid bootId⟩
    exact ⟨after, committed, history, sound.pending⟩
  | replay handle call =>
    rw [Handles.step] at taken
    split at taken
    case h_1 => cases taken
    case h_2 =>
      rw [sound.committed.replay_eq] at taken
      cases taken
      refine ⟨records, sound.committed, sound.history, ?_⟩
      intro other record waits
      by_cases same : other = handle
      · subst same
        simp only [Function.update_self] at waits
        obtain ⟨extends', prev⟩ := extends_of_call sound.history waits
        exact ⟨records, sound.committed.reads.chained, prev, extends'⟩
      · simp only [Function.update_of_ne same] at waits
        exact sound.pending other record waits
  | append handle =>
    rw [Handles.step] at taken
    split at taken
    case h_1 => cases taken
    case h_2 record waits =>
      cases taken
      obtain ⟨after, committed, history⟩ := history_appendRecord lawful free sound.committed
        sound.history (sound.pending handle record waits)
      refine ⟨after, committed, history, ?_⟩
      intro other record' waits'
      by_cases same : other = handle
      · subst same
        simp at waits'
      · simp only [Function.update_of_ne same] at waits'
        exact sound.pending other record' waits'

/-- **The journal of a run is a legal history, whatever the handles on it do.** -/
theorem legalHistory_of_reachable (lawful : env.Lawful)
    (free : (journalFormat env).CollisionFree) {handles : Handles}
    (reached : (storeSystem env captureManifestSha256).Reachable handles) :
    ∃ records, replay env handles.store =
        .ok ⟨records, (journalFormat env).tail records, false⟩ ∧ LegalHistory records := by
  have initially : ∀ handles, (storeSystem env captureManifestSha256).Initial handles →
      ∃ records, Sound env handles records := by
    rintro handles ⟨empty, idle⟩
    refine ⟨[], by rw [empty]; exact committed_empty, history_nil, ?_⟩
    intro handle record waits
    rw [idle handle] at waits
    cases waits
  obtain ⟨records, sound⟩ := System.Reachable.invariant initially
    (fun _ _ _ => sound_step lawful free) reached
  exact ⟨records, sound.committed.replay_eq, sound.history.toLegalHistory⟩

theorem legalHistory_of_created :
    ∃ records, replay plainEnvironment
        (appendRecord plainEnvironment .empty (creationRecord 1756000000 4242 "boot-a")).1 =
        .ok ⟨records, (journalFormat plainEnvironment).tail records, false⟩ ∧
      LegalHistory records := by
  obtain ⟨store, created⟩ : ∃ store, (appendRecord plainEnvironment .empty
      (creationRecord 1756000000 4242 "boot-a")).1 = store := ⟨_, rfl⟩
  have starts : (storeSystem plainEnvironment none).Reachable ⟨.empty, fun _ => none⟩ :=
    .initial ⟨rfl, fun _ => rfl⟩
  have taken : (storeSystem plainEnvironment none).step ⟨.empty, fun _ => none⟩
      (.create 1756000000 4242 "boot-a") = some ⟨store, fun _ => none⟩ := by
    simp only [storeSystem, Handles.step, created]
  rw [created]
  exact legalHistory_of_reachable lawful_plainEnvironment collisionFree_plainEnvironment
    (starts.next taken)

end TreeOptions.Runstate
