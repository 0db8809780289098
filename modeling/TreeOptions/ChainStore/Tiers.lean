import TreeOptions.ChainStore.Recording
import TreeOptions.Foundations.TransitionSystem

/-!
# Tiers of the chain store

Recorders of all tiers share one store, and take their steps in any order. A tier other than the
settled one is kept apart when its recorders touch none but its own chains and manifest, when that
manifest holds what its own runs reported, and when a recorder that lost the race for a chain
compares with the chain that won it.

A recorder reads the recorded chain and the manifest of the settled tier, whatever tier it
records. So a tier is kept apart in runs in which what it reads there is what it would have read
of its own, and in which no payload leads it to write beside a settled chain
(`tiers_kept_apart`). An evening run after a settled one that reported another symbol ends with
that symbol in its own manifest (`evening_manifest_takes_eod_entries`).
-/

set_option autoImplicit false

namespace TreeOptions.ChainStore

variable (feed : Feed) (times : SessionTimes) (calendar : Splitting.SessionCalendar ℤ)

/-! ## Recorders on one store -/

/-- The store, the calls on their way, and what the runs of each tier reported of a session. -/
structure World where
  store : Store
  recorders : ℕ → Option Recorder
  reported : Tier → ℤ → Symbols

inductive Action
  | start (id : ℕ) (run : Run)
  | advance (id : ℕ) (input : Input)
  | die (id : ℕ)

/-- What is reported after a step of a recorder: its own results, when it writes its manifest. -/
def World.report (world : World) (recorder : Recorder) : Tier → ℤ → Symbols :=
  match recorder.phase with
  | .merging _ now => fun tier session =>
    if tier = recorder.run.tier ∧ session = recorder.run.session then
      mergeSymbols (world.reported tier session) recorder.results now
    else world.reported tier session
  | _ => world.reported

def World.step (world : World) : Action → Option World
  | .start id run =>
    if (world.recorders id).isSome then none
    else some { world with recorders := Function.update world.recorders id (some run.begin) }
  | .advance id input =>
    (world.recorders id).map fun recorder =>
      let advanced := recorder.advance feed times calendar world.store input
      { store := world.store.applyOptional advanced.2
        recorders := Function.update world.recorders id (some advanced.1)
        reported := world.report recorder }
  | .die id => some { world with recorders := Function.update world.recorders id none }

def recording : System World Action where
  Initial world := world.store = Store.empty ∧ (∀ id, world.recorders id = none) ∧
    ∀ tier session, world.reported tier session = DefaultDict.empty
  step := World.step feed times calendar

/-! ## A tier that is kept apart -/

/-- The files of a tier. -/
def StorePath.Of (tier : Tier) : StorePath → Prop
  | .chain owner _ _ => owner = tier
  | .manifest owner _ => owner = tier
  | _ => False

def Store.entry (store : Store) (tier : Tier) (session : ℤ) (sym : String) :
    Option ManifestEntry :=
  (store.manifestAt tier session).bind fun doc => doc.symbols.get sym

/-- The manifest of every other tier holds what its own runs reported. -/
def World.ManifestsAsReported (world : World) : Prop :=
  ∀ tier session sym, tier ≠ .eod →
    world.store.entry tier session sym = (world.reported tier session).get sym

/-- A recorder of another tier leaves all files but its own. -/
def World.OwnFilesOnly (world next : World) (recorder : Recorder) : Prop :=
  recorder.run.tier ≠ .eod →
    next.store.gaps = world.store.gaps ∧
      ∀ path : StorePath, ¬ path.Of recorder.run.tier →
        next.store.files.get path = world.store.files.get path

/-- A recorded chain stays as it is. -/
def World.ChainsKept (world next : World) : Prop :=
  ∀ tier session sym doc, world.store.chainAt tier session sym = some doc →
    next.store.chainAt tier session sym = some doc

/-- A recorder that finds another was first compares with the chain of its own tier. -/
def World.ComparesOwn (world next : World) (id : ℕ) (recorder : Recorder) : Prop :=
  ∀ sym payload recorded, recorder.phase = .publishing sym [] payload →
    world.store.chainAt recorder.run.tier recorder.run.session sym = some recorded →
    ∃ later, next.recorders id = some later ∧
      later.phase = recorder.run.compare sym recorded false payload

/-- What is asked of one step. -/
def World.KeptApart (world next : World) : Action → Prop
  | .advance id input =>
    world.ChainsKept next ∧
      ∀ recorder, world.recorders id = some recorder →
        world.OwnFilesOnly next recorder ∧
          (input.writeFails = false → world.ComparesOwn next id recorder)
  | _ => next.store = world.store

/-! ## When it is -/

/-- The entry that a manifest of the settled tier brought along. -/
def seeded (seed : Option Manifest) (sym : String) : Option ManifestEntry :=
  seed.bind fun doc => doc.symbols.get sym

/-- Nothing is written beside the chain that is already recorded. -/
def Run.LeavesBeside (run : Run) (known : ChainDoc) (repair : Bool) (payload : Payload) : Prop :=
  run.dryRun = true ∨
    if payload.rawSha256 = known.rawSha256 then repair = false else payload.verdict.status ≠ .ok

/-- What a recorder reads of the settled tier is as good as its own: of a chain that is already
recorded, of the one that won the race, and of the manifest. -/
def Recorder.ReadsOwn (recorder : Recorder) (store : Store) (input : Input) : Prop :=
  let run := recorder.run
  match recorder.phase with
  | .fetching sym (some known) repair =>
    ∀ raw fetchedAt payload, input.fetched = .received raw fetchedAt →
      run.judge feed times sym raw fetchedAt = .ok payload → run.LeavesBeside known repair payload
  | .publishing sym [] payload =>
    ∀ recorded, store.chainAt run.tier run.session sym = some recorded →
      payload.rawSha256 = recorded.rawSha256 ∧
        ∃ known, store.existing run.session sym = some known ∧
          known.rawSha256 = recorded.rawSha256 ∧ known.n = recorded.n
  | .merging seed _ =>
    ∀ sym,
      let own := store.entry run.tier run.session sym
      match recorder.results.get sym with
      | none => seeded seed sym = own
      | some result => result.status = .existed →
          ((seeded seed sym).any fun entry => entry.result.status.recorded) ∨
            (own.any fun entry => entry.result.status.recorded) → seeded seed sym = own
  | _ => True

/-- Every recorder of another tier reads what is as good as its own. -/
def World.ReadsOwn (world : World) : Action → Prop
  | .advance id input =>
    ∀ recorder, world.recorders id = some recorder → recorder.run.tier ≠ .eod →
      recorder.ReadsOwn feed times world.store input
  | _ => True

/-! ## What a step writes -/

/-- The writes a phase has still to make. -/
def Phase.pending : Phase → List Write
  | .publishing _ evidence _ => evidence
  | .writing _ pending _ => pending
  | .finalizing _ pending _ => pending
  | _ => []

/-- The writes that only the settled tier makes. -/
def Write.Settled : Write → Prop
  | .chain _ _ _ _ => False
  | .manifest tier _ _ => tier = .eod
  | _ => True

def Write.Touches : Write → StorePath → Prop
  | .chain tier session sym _, path => path = .chain tier session sym
  | .conflict session sym _, path => path = .conflict session sym
  | .raw session sym sha256 _, path => path = .raw session sym sha256
  | .manifest tier session _, path => path = .manifest tier session
  | .gaps _, _ => False
  | .pruneRaw, path => ∃ session sym sha256, path = .raw session sym sha256

variable {feed times calendar}
variable {recorder : Recorder} {store : Store} {input : Input}

theorem get_pruned {path : StorePath}
    (other : ∀ session sym sha256, path ≠ .raw session sym sha256) :
    store.pruned.get path = store.files.get path := by
  rw [Store.pruned]
  generalize store.files.names = names
  generalize store.files = files
  induction names generalizing files with
  | nil => rfl
  | cons name names ih =>
    rw [List.foldl_cons, ih]
    split
    case h_1 session sym sha256 =>
      split
      case isTrue => rw [Directory.get_remove, if_neg (other session sym sha256)]
      case isFalse => rfl
    case h_2 => rfl

/-- **A write leaves what it does not touch.** -/
theorem get_apply {write : Write} {path : StorePath} (untouched : ¬ write.Touches path) :
    (store.apply write).files.get path = store.files.get path := by
  cases write with
  | chain tier session sym doc => exact (Directory.get_write ..).trans (if_neg untouched)
  | conflict session sym doc => exact (Directory.get_write ..).trans (if_neg untouched)
  | raw session sym sha256 content => exact (Directory.get_write ..).trans (if_neg untouched)
  | manifest tier session doc => exact (Directory.get_write ..).trans (if_neg untouched)
  | gaps lines => rfl
  | pruneRaw =>
    refine get_pruned ?_
    intro session sym sha256 same
    exact untouched ⟨session, sym, sha256, same⟩

variable {tier : Tier} {session : ℤ} {sym : String}

theorem chainAt_apply {write : Write} (untouched : ¬ write.Touches (.chain tier session sym)) :
    (store.apply write).chainAt tier session sym = store.chainAt tier session sym := by
  rw [Store.chainAt, Store.chainAt, get_apply untouched]

theorem entry_apply {write : Write} (untouched : ¬ write.Touches (.manifest tier session)) :
    (store.apply write).entry tier session sym = store.entry tier session sym := by
  rw [Store.entry, Store.entry, Store.manifestAt, Store.manifestAt, get_apply untouched]

theorem entry_apply_manifest {doc : Manifest} (sym : String) :
    (store.apply (.manifest tier session doc)).entry tier session sym = doc.symbols.get sym := by
  have written : (store.apply (.manifest tier session doc)).files.get (.manifest tier session) =
      some (.manifest doc) := Directory.get_write_self ..
  rw [Store.entry, Store.manifestAt, written]
  rfl

/-- What one step of a recorder can write. -/
inductive Wrote (recorder : Recorder) (store : Store) : Option Write → Prop
  | nothing : Wrote recorder store none
  | pending {write : Write} (member : write ∈ recorder.phase.pending) :
      Wrote recorder store (some write)
  | chain {sym : String} {payload : Payload} (phase : recorder.phase = .publishing sym [] payload)
      (absent : store.chainAt recorder.run.tier recorder.run.session sym = none) :
      Wrote recorder store (some (.chain recorder.run.tier recorder.run.session sym
        (payload.document recorder.run.session recorder.run.tier)))
  | manifest {seed : Option Manifest} {now : ℤ} (phase : recorder.phase = .merging seed now) :
      Wrote recorder store (some (.manifest recorder.run.tier recorder.run.session
        (updateManifest seed recorder.run.session recorder.results now recorder.run.tier)))
  | gaps {now : ℤ} {lines : List GapLine} (phase : recorder.phase = .appending now) :
      Wrote recorder store (some (.gaps lines))
  | pruneRaw (phase : recorder.phase = .pruning) : Wrote recorder store (some .pruneRaw)

theorem wrote_advance :
    Wrote recorder store (recorder.advance feed times calendar store input).2 := by
  have next {write : Write} {rest : List Write} (pending : recorder.phase.pending = write :: rest) :
      Wrote recorder store (some write) :=
    .pending (pending ▸ List.mem_cons_self)
  fun_cases Recorder.advance feed times calendar recorder store input with
  | case5 sym payload _ write evidence phase => exact next (congrArg Phase.pending phase)
  | case6 run sym payload _ linked phase =>
    change Wrote recorder store (recorder.run.link store sym payload).2
    fun_cases Run.link recorder.run store sym payload with
    | case1 absent => exact .chain phase absent
    | _ => exact .nothing
  | case9 sym result write pending _ phase => exact next (congrArg Phase.pending phase)
  | case11 made now write pending phase => exact next (congrArg Phase.pending phase)
  | case12 run seed now phase => exact .manifest phase
  | case13 run now phase =>
    rw [appendGaps]
    split
    case isTrue => exact .nothing
    case isFalse => exact .gaps phase
  | case14 phase => exact .pruneRaw phase
  | _ => exact .nothing

/-! ## What a recorder has still to write -/

/-- Evidence beside a chain: raw bytes, or a conflicting payload. -/
def Write.Beside : Write → Prop
  | .raw _ _ _ _ => True
  | .conflict _ _ _ => True
  | _ => False

theorem Write.Beside.settled {write : Write} (beside : write.Beside) : write.Settled := by
  cases write with
  | raw => trivial
  | conflict => trivial
  | _ => exact beside.elim

/-- A phase about a symbol, before the bookkeeping. -/
def Phase.About (sym : String) : Phase → Prop
  | .fetching other _ _ => other = sym
  | .publishing other evidence _ => other = sym ∧ ∀ write ∈ evidence, write.Beside
  | .writing other pending _ => other = sym ∧ ∀ write ∈ pending, write.Beside
  | _ => False

theorem about_writing (sym : String) (result : SymbolResult) :
    (Phase.writing sym [] result).About sym :=
  ⟨rfl, List.forall_mem_nil _⟩

variable {sym : String} {payload : Payload} {repair : Bool}

theorem about_compare {run : Run} {known : ChainDoc} :
    (run.compare sym known repair payload).About sym := by
  fun_cases Run.compare run sym known repair payload with
  | case1 => exact ⟨rfl, List.forall_mem_singleton.mpr trivial⟩
  | case4 lost raw =>
    refine ⟨rfl, ?_⟩
    split <;> simp [Write.Beside, raw]
  | _ => exact about_writing ..

theorem about_publish {run : Run} : (run.publish sym payload).About sym := by
  rw [Run.publish]
  split
  case isTrue =>
    refine ⟨rfl, ?_⟩
    split <;> simp [Write.Beside]
  case isFalse => exact about_writing ..

/-- A look at the store is either fetched or answered. -/
theorem look_cases (run : Run) (store : Store) (sym : String) :
    (∃ existing repair, run.look store sym = .fetching sym existing repair) ∨
      ∃ result, run.look store sym = .writing sym [] result := by
  fun_cases Run.look run store sym with
  | case1 | case3 => exact .inl ⟨_, _, rfl⟩
  | _ => exact .inr ⟨_, rfl⟩

theorem about_look {run : Run} : (run.look store sym).About sym := by
  rcases look_cases run store sym with ⟨existing, repair, isLook⟩ | ⟨result, isLook⟩
  · rw [isLook]
    rfl
  · rw [isLook]
    exact about_writing ..

theorem about_receive {run : Run} {existing : Option ChainDoc} {fetched : Fetched} :
    (run.receive feed times sym existing repair fetched).About sym := by
  fun_cases Run.receive feed times run sym existing repair fetched with
  | case4 => exact about_compare
  | case5 => exact about_publish
  | _ => exact about_writing ..

theorem about_link {run : Run} : (run.link store sym payload).1.About sym := by
  fun_cases Run.link run store sym payload with
  | case3 => exact about_compare
  | _ => exact about_writing ..

theorem Phase.About.beside {phase : Phase} (about : phase.About sym) :
    ∀ write ∈ phase.pending, write.Beside := by
  cases phase with
  | publishing => exact about.2
  | writing => exact about.2
  | fetching => exact List.forall_mem_nil _
  | _ => exact about.elim

theorem eq_of_mem_appendGaps {lines : List GapLine} {write : Write}
    (member : write ∈ appendGaps lines) : write = .gaps lines := by
  rw [appendGaps] at member
  split at member
  case isTrue => cases member
  case isFalse => exact List.mem_singleton.mp member

variable {now : ℤ}

theorem eq_of_mem_closeLast {last : ℤ} {write : Write} (member : write ∈ closeLast store last now) :
    ∃ doc, store.readManifest last = some doc ∧
      write = .manifest .eod last (store.closedManifest last now doc) := by
  rw [closeLast] at member
  split at member
  case h_1 => cases member
  case h_2 doc found =>
    split at member
    case isTrue => cases member
    case isFalse => exact ⟨doc, found, List.mem_singleton.mp member⟩

theorem cases_of_mem_closeFrom {last : ℤ} {write : Write}
    (member : write ∈ closeFrom store calendar last session now) :
    (∃ skipped ∈ skippedSessions calendar last session,
        write = .manifest .eod skipped (placeholder skipped now)) ∨
      (∃ doc, store.readManifest last = some doc ∧
        write = .manifest .eod last (store.closedManifest last now doc)) ∨
      write = .gaps (closingLines store (skippedSessions calendar last session) last now) := by
  simp only [closeFrom, List.mem_append, or_assoc] at member
  rcases member with isPlaceholder | isClosed | isLine
  · obtain ⟨skipped, isSkipped, rfl⟩ := List.mem_map.mp isPlaceholder
    exact .inl ⟨skipped, isSkipped, rfl⟩
  · exact .inr (.inl (eq_of_mem_closeLast isClosed))
  · exact .inr (.inr (eq_of_mem_appendGaps isLine))

theorem settled_of_mem_finalizePrior {write : Write}
    (member : write ∈ finalizePrior store calendar session now) : write.Settled := by
  rw [finalizePrior] at member
  split at member
  case h_1 => cases member
  case h_2 last latest =>
    rcases cases_of_mem_closeFrom member with ⟨skipped, -, rfl⟩ | ⟨doc, -, rfl⟩ | rfl
    · rfl
    · rfl
    · trivial

/-- Every write a recorder has still to make is one of the settled tier. -/
def Recorder.Tidy (recorder : Recorder) : Prop :=
  ∀ write ∈ recorder.phase.pending, write.Settled

theorem Phase.About.settled {phase : Phase} (about : phase.About sym) {write : Write}
    (member : write ∈ phase.pending) : write.Settled :=
  (about.beside write member).settled

theorem tidy_advance (tidy : recorder.Tidy) :
    (recorder.advance feed times calendar store input).1.Tidy := by
  intro write member
  have later {first : Write} {rest : List Write} (pending : recorder.phase.pending = first :: rest)
      (member : write ∈ rest) : write.Settled :=
    tidy write (pending ▸ List.mem_cons_of_mem first member)
  revert member
  fun_cases Recorder.advance feed times calendar recorder store input with
  | case1 =>
    fun_cases Recorder.afterSweep calendar recorder store input.now with
    | case1 => exact tidy write
    | case3 => exact settled_of_mem_finalizePrior
    | _ => exact nofun
  | case2 => exact about_look.settled
  | case3 => exact about_receive.settled
  | case5 sym payload _ write evidence phase => exact later (congrArg Phase.pending phase)
  | case6 => exact about_link.settled
  | case9 sym result write pending _ phase => exact later (congrArg Phase.pending phase)
  | case11 made now write pending phase => exact later (congrArg Phase.pending phase)
  | case12 =>
    dsimp only
    split <;> exact nofun
  | case15 => exact tidy write
  | _ => exact nofun

/-- A phase in which nothing is written but a chain or a manifest. -/
def Phase.Quiet : Phase → Prop
  | .publishing _ evidence _ => evidence = []
  | .writing _ pending _ => pending = []
  | .finalizing _ _ _ => False
  | .appending _ => False
  | .pruning => False
  | _ => True

theorem quiet_compare {run : Run} {known : ChainDoc} {repair : Bool} {payload : Payload}
    (leaves : run.LeavesBeside known repair payload) :
    (run.compare sym known repair payload).Quiet := by
  simp only [Run.compare]
  split
  case isTrue same =>
    rw [Run.LeavesBeside, if_pos same] at leaves
    rw [if_neg]
    · rfl
    · rintro ⟨repairs, live⟩
      rcases leaves with dry | unrepaired
      · exact live dry
      · rw [unrepaired] at repairs
        cases repairs
  case isFalse differs =>
    rw [Run.LeavesBeside, if_neg differs] at leaves
    split
    case isTrue => rfl
    case isFalse accepted =>
      rcases leaves with dry | refused
      · exact if_pos dry
      · exact absurd refused accepted

/-- **A recorder of another tier that reads what is as good as its own writes nothing but its
chains and its manifest.** -/
theorem quiet_advance (other : recorder.run.tier ≠ .eod) (quiet : recorder.phase.Quiet)
    (reads : recorder.ReadsOwn feed times store input) :
    (recorder.advance feed times calendar store input).1.phase.Quiet := by
  rw [Recorder.ReadsOwn] at reads
  fun_cases Recorder.advance feed times calendar recorder store input with
  | case1 sweeping =>
    fun_cases Recorder.afterSweep calendar recorder store input.now with
    | case1 => exact quiet
    | case3 _ _ isEod => exact absurd isEod other
    | _ => trivial
  | case2 run _ sym left =>
    rcases look_cases run store sym with ⟨existing, repair, isLook⟩ | ⟨result, isLook⟩
    · rw [isLook]
      trivial
    · rw [isLook]
      rfl
  | case3 run sym existing repair phase =>
    rw [phase] at reads
    generalize fetched : input.fetched = answer at reads ⊢
    fun_cases Run.receive feed times run sym existing repair answer with
    | case4 raw fetchedAt payload judged known =>
      exact quiet_compare (reads raw fetchedAt payload rfl judged)
    | case5 =>
      rw [Run.publish]
      split <;> rfl
    | _ => rfl
  | case5 sym payload _ write evidence phase =>
    rw [phase] at quiet
    cases quiet
  | case6 run sym payload _ linked phase =>
    rw [phase] at reads
    change (run.link store sym payload).1.Quiet
    fun_cases Run.link run store sym payload with
    | case3 recorded found known isKnown =>
      obtain ⟨same, known', existing, sameSha, -⟩ := reads recorded found
      cases existing.symm.trans isKnown
      refine quiet_compare (Or.inr ?_)
      rw [if_pos (same.trans sameSha.symm)]
    | _ => rfl
  | case9 sym result write pending _ phase =>
    rw [phase] at quiet
    cases quiet
  | case11 made now write pending phase =>
    rw [phase] at quiet
    cases quiet
  | case12 =>
    dsimp only
    rw [if_neg other]
    trivial
  | case13 run now phase =>
    rw [phase] at quiet
    cases quiet
  | case15 => exact quiet
  | _ => trivial

theorem pending_of_quiet {phase : Phase} (quiet : phase.Quiet) : phase.pending = [] := by
  cases phase with
  | publishing sym evidence payload => exact quiet
  | writing sym pending result => exact quiet
  | finalizing made pending now => exact quiet.elim
  | _ => rfl

/-! ## What a manifest comes to hold -/

section

variable {results : Directory String SymbolResult} {now : ℤ}

theorem get_mergeSymbol_self (symbols : Symbols) (sym : String) :
    (mergeSymbol results now symbols sym).get sym =
      (results.get sym).elim (symbols.get sym) fun result =>
        mergeEntry result now (symbols.get sym) := by
  rw [mergeSymbol]
  cases results.get sym with
  | none => rfl
  | some result => exact DefaultDict.get_set_self ..

theorem get_mergeSymbol_of_ne (symbols : Symbols) {sym other : String} (differs : other ≠ sym) :
    (mergeSymbol results now symbols sym).get other = symbols.get other := by
  rw [mergeSymbol]
  cases results.get sym with
  | none => rfl
  | some result => exact DefaultDict.get_set_of_ne _ differs _

theorem get_foldl_mergeSymbol (sym : String) {names : List String} (unique : names.Nodup)
    (symbols : Symbols) :
    (names.foldl (mergeSymbol results now) symbols).get sym =
      if sym ∈ names then
        (results.get sym).elim (symbols.get sym) fun result =>
          mergeEntry result now (symbols.get sym)
      else symbols.get sym := by
  induction names generalizing symbols with
  | nil => rfl
  | cons name names ih =>
    obtain ⟨notMember, unique⟩ := List.nodup_cons.mp unique
    rw [List.foldl_cons, ih unique]
    by_cases same : sym = name
    · subst same
      rw [if_neg notMember, if_pos List.mem_cons_self, get_mergeSymbol_self]
    · simp [get_mergeSymbol_of_ne symbols same, same]

/-- **Every symbol of the results is merged with what was there.** -/
theorem get_mergeSymbols (symbols : Symbols) (sym : String) :
    (mergeSymbols symbols results now).get sym =
      (results.get sym).elim (symbols.get sym) fun result =>
        mergeEntry result now (symbols.get sym) := by
  rw [mergeSymbols, get_foldl_mergeSymbol sym results.nodup_names]
  split
  case isTrue => rfl
  case isFalse absent =>
    have none : results.get sym = none := by
      by_contra present
      exact absent (Directory.mem_names.mpr (Option.isSome_iff_ne_none.mpr present))
    rw [none]
    rfl

end

theorem mergeEntry_eq {result : SymbolResult} {first second : Option ManifestEntry}
    (same : result.status = .existed →
      (first.any fun entry => entry.result.status.recorded) ∨
        (second.any fun entry => entry.result.status.recorded) → first = second) :
    mergeEntry result now first = mergeEntry result now second := by
  rw [mergeEntry, mergeEntry]
  split
  case isTrue both =>
    rw [same both.1 (.inl both.2)]
    rw [same both.1 (.inl both.2)] at both
    rw [if_pos both]
  case isFalse either =>
    rw [if_neg]
    rintro ⟨existed, recorded⟩
    rw [same existed (.inr recorded)] at either
    exact either ⟨existed, recorded⟩

theorem get_seed (seed : Option Manifest) (sym : String) :
    ((seed.map Manifest.symbols).getD DefaultDict.empty).get sym = seeded seed sym := by
  cases seed with
  | none => rfl
  | some doc => rfl

variable {seed : Option Manifest} {world : World}

/-- **A manifest that is merged from what is as good as the tier's own is the tier's own.** -/
theorem entry_merging (phase : recorder.phase = .merging seed now)
    (reads : recorder.ReadsOwn feed times store input)
    (reported : ∀ sym, store.entry recorder.run.tier recorder.run.session sym =
      (world.reported recorder.run.tier recorder.run.session).get sym) (sym : String) :
    (mergeSymbols ((seed.map Manifest.symbols).getD DefaultDict.empty) recorder.results now).get
        sym =
      (mergeSymbols (world.reported recorder.run.tier recorder.run.session) recorder.results
        now).get sym := by
  rw [Recorder.ReadsOwn, phase] at reads
  have here := reads sym
  rw [get_mergeSymbols, get_mergeSymbols, get_seed, ← reported sym]
  cases result : recorder.results.get sym with
  | none =>
    rw [result] at here
    exact here
  | some result' =>
    rw [result] at here
    exact mergeEntry_eq here

/-! ## Runs of all tiers -/

/-- A recorder that has only writes of the settled tier to make, and none for another tier. -/
structure Recorder.Apart (recorder : Recorder) : Prop where
  tidy : recorder.Tidy
  quiet : recorder.run.tier ≠ .eod → recorder.phase.Quiet

structure World.Apart (world : World) : Prop where
  recorders : ∀ id recorder, world.recorders id = some recorder → recorder.Apart
  reported : world.ManifestsAsReported

theorem apart_of_initial (starts : (recording feed times calendar).Initial world) :
    world.Apart := by
  obtain ⟨empty, idle, unreported⟩ := starts
  refine ⟨?_, ?_⟩
  · intro id recorder here
    rw [idle] at here
    cases here
  · intro tier session sym _
    rw [empty, unreported]
    rfl

theorem apart_begin (run : Run) : run.begin.Apart := by
  refine ⟨?_, fun _ => trivial⟩
  intro write member
  cases member

theorem forall_update {holds : Recorder → Prop} {recorders : ℕ → Option Recorder} {id : ℕ}
    {changed : Option Recorder}
    (before : ∀ other recorder, recorders other = some recorder → holds recorder)
    (here : ∀ recorder, changed = some recorder → holds recorder) (other : ℕ) (recorder : Recorder)
    (found : Function.update recorders id changed other = some recorder) : holds recorder := by
  rcases eq_or_ne other id with rfl | differs
  · rw [Function.update_self] at found
    exact here recorder found
  · rw [Function.update_of_ne differs] at found
    exact before other recorder found

theorem run_advance : (recorder.advance feed times calendar store input).1.run = recorder.run := by
  fun_cases Recorder.advance feed times calendar recorder store input with
  | case1 => fun_cases Recorder.afterSweep calendar recorder store input.now <;> rfl
  | _ => rfl

section

variable {world next : World} {id : ℕ}

theorem not_touches_chain {write : Write} (settled : write.Settled) (tier : Tier) (session : ℤ)
    (sym : String) : ¬ write.Touches (.chain tier session sym) := by
  intro touches
  cases write with
  | chain => exact settled
  | conflict => cases touches
  | raw => cases touches
  | manifest => cases touches
  | gaps => exact touches
  | pruneRaw =>
    obtain ⟨_, _, _, isRaw⟩ := touches
    cases isRaw

variable {tier : Tier}

theorem not_touches_manifest {write : Write} (settled : write.Settled) (session : ℤ)
    (other : tier ≠ .eod) : ¬ write.Touches (.manifest tier session) := by
  intro touches
  cases write with
  | chain => exact settled
  | conflict => cases touches
  | raw => cases touches
  | manifest owner session' doc =>
    cases touches
    exact other settled
  | gaps => exact touches
  | pruneRaw =>
    obtain ⟨_, _, _, isRaw⟩ := touches
    cases isRaw

variable {sym : String}

/-- **No step changes a recorded chain.** -/
theorem chainAt_advance (tidy : recorder.Tidy) {session : ℤ} {doc : ChainDoc}
    (recorded : store.chainAt tier session sym = some doc) :
    (store.applyOptional (recorder.advance feed times calendar store input).2).chainAt tier session
      sym = some doc := by
  have wrote : Wrote recorder store (recorder.advance feed times calendar store input).2 :=
    wrote_advance
  generalize (recorder.advance feed times calendar store input).2 = write at wrote
  cases wrote with
  | nothing => exact recorded
  | pending member =>
    exact (chainAt_apply (not_touches_chain (tidy _ member) tier session sym)).trans recorded
  | chain phase absent =>
    refine (chainAt_apply ?_).trans recorded
    intro same
    cases same
    rw [absent] at recorded
    cases recorded
  | manifest phase => exact (chainAt_apply (by rintro ⟨⟩)).trans recorded
  | gaps phase => exact recorded
  | pruneRaw phase =>
    have settled : Write.pruneRaw.Settled := trivial
    exact (chainAt_apply (not_touches_chain settled tier session sym)).trans recorded

/-- **A recorder of another tier writes its own files only.** -/
theorem own_advance (quiet : recorder.phase.Quiet) :
    (store.applyOptional (recorder.advance feed times calendar store input).2).gaps = store.gaps ∧
      ∀ path : StorePath, ¬ path.Of recorder.run.tier →
        (store.applyOptional (recorder.advance feed times calendar store input).2).files.get path =
          store.files.get path := by
  have wrote : Wrote recorder store (recorder.advance feed times calendar store input).2 :=
    wrote_advance
  generalize (recorder.advance feed times calendar store input).2 = write at wrote
  cases wrote with
  | nothing => exact ⟨rfl, fun _ _ => rfl⟩
  | pending member =>
    rw [pending_of_quiet quiet] at member
    cases member
  | chain phase absent =>
    refine ⟨rfl, ?_⟩
    intro path foreign
    refine get_apply ?_
    rintro rfl
    exact foreign rfl
  | manifest phase =>
    refine ⟨rfl, ?_⟩
    intro path foreign
    refine get_apply ?_
    rintro rfl
    exact foreign rfl
  | gaps phase =>
    rw [phase] at quiet
    exact quiet.elim
  | pruneRaw phase =>
    rw [phase] at quiet
    exact quiet.elim

theorem entry_advance_of_ne (tidy : recorder.Tidy) {session : ℤ} (sym : String)
    (other : tier ≠ .eod) (elsewhere : ∀ seed now, recorder.phase = .merging seed now →
      ¬ (tier = recorder.run.tier ∧ session = recorder.run.session)) :
    (store.applyOptional (recorder.advance feed times calendar store input).2).entry tier session
      sym = store.entry tier session sym := by
  have wrote : Wrote recorder store (recorder.advance feed times calendar store input).2 :=
    wrote_advance
  generalize (recorder.advance feed times calendar store input).2 = write at wrote
  cases wrote with
  | nothing => rfl
  | pending member => exact entry_apply (not_touches_manifest (tidy _ member) session other)
  | chain phase absent => exact entry_apply (by rintro ⟨⟩)
  | manifest phase =>
    refine entry_apply ?_
    intro same
    cases same
    exact elsewhere _ _ phase ⟨rfl, rfl⟩
  | gaps phase => rfl
  | pruneRaw phase =>
    have settled : Write.pruneRaw.Settled := trivial
    exact entry_apply (not_touches_manifest settled session other)

theorem reported_advance {recorders : ℕ → Option Recorder} (tidy : recorder.Tidy)
    (reported : world.ManifestsAsReported)
    (reads : recorder.run.tier ≠ .eod → recorder.ReadsOwn feed times world.store input) :
    World.ManifestsAsReported
      { store := world.store.applyOptional
          (recorder.advance feed times calendar world.store input).2
        recorders := recorders
        reported := world.report recorder } := by
  intro tier session sym other
  by_cases merges : ∃ seed now, recorder.phase = .merging seed now ∧
      tier = recorder.run.tier ∧ session = recorder.run.session
  · obtain ⟨seed, now, phase, rfl, rfl⟩ := merges
    have merged := entry_merging phase (reads other) (fun sym => reported _ _ sym other) sym
    simp only [World.report, phase, and_self, if_true]
    rw [← merged]
    simp only [Recorder.advance, phase]
    exact entry_apply_manifest sym
  · have elsewhere : ∀ seed now, recorder.phase = .merging seed now →
        ¬ (tier = recorder.run.tier ∧ session = recorder.run.session) :=
      fun seed now phase here => merges ⟨seed, now, phase, here⟩
    change (world.store.applyOptional _).entry tier session sym = _
    rw [entry_advance_of_ne tidy sym other elsewhere, reported tier session sym other]
    cases phase : recorder.phase with
    | merging seed now =>
      simp only [World.report, phase]
      rw [if_neg (elsewhere seed now phase)]
    | _ => simp only [World.report, phase]

theorem apart_advance (apart : recorder.Apart)
    (reads : recorder.run.tier ≠ .eod → recorder.ReadsOwn feed times store input) :
    (recorder.advance feed times calendar store input).1.Apart := by
  refine ⟨tidy_advance apart.tidy, ?_⟩
  rw [run_advance]
  intro other
  exact quiet_advance other (apart.quiet other) (reads other)

theorem apart_step {action : Action} (apart : world.Apart)
    (reads : world.ReadsOwn feed times action)
    (taken : world.step feed times calendar action = some next) : next.Apart := by
  cases action with
  | start id run =>
    simp only [World.step] at taken
    split at taken
    case isTrue => cases taken
    case isFalse =>
      cases taken
      refine ⟨forall_update apart.recorders ?_, apart.reported⟩
      rintro recorder ⟨⟩
      exact apart_begin run
  | advance id input =>
    obtain ⟨recorder, here, rfl⟩ := Option.map_eq_some_iff.mp taken
    have before : recorder.Apart := apart.recorders id recorder here
    refine ⟨forall_update apart.recorders ?_,
      reported_advance before.tidy apart.reported (reads recorder here)⟩
    rintro later ⟨⟩
    exact apart_advance before (reads recorder here)
  | die id =>
    cases taken
    refine ⟨forall_update apart.recorders ?_, apart.reported⟩
    rintro recorder ⟨⟩

theorem compare_congr {run : Run} {known recorded : ChainDoc} {repair : Bool} {payload : Payload}
    (sameSha : known.rawSha256 = recorded.rawSha256) (sameSize : known.n = recorded.n) :
    run.compare sym known repair payload = run.compare sym recorded repair payload := by
  simp only [Run.compare, sameSha, sameSize]

theorem compares_advance {payload : Payload} {recorded : ChainDoc}
    (works : input.writeFails = false) (phase : recorder.phase = .publishing sym [] payload)
    (found : store.chainAt recorder.run.tier recorder.run.session sym = some recorded)
    (reads : recorder.run.tier ≠ .eod → recorder.ReadsOwn feed times store input) :
    (recorder.advance feed times calendar store input).1.phase =
      recorder.run.compare sym recorded false payload := by
  have existing : ∃ known, store.existing recorder.run.session sym = some known ∧
      known.rawSha256 = recorded.rawSha256 ∧ known.n = recorded.n := by
    by_cases settled : recorder.run.tier = .eod
    · rw [settled] at found
      exact ⟨recorded, found, rfl, rfl⟩
    · have own := reads settled
      rw [Recorder.ReadsOwn, phase] at own
      exact (own recorded found).2
  obtain ⟨known, isKnown, sameSha, sameSize⟩ := existing
  simp only [Recorder.advance, phase, works, Run.link, found, isKnown]
  exact compare_congr sameSha sameSize

theorem keptApart_step {action : Action} (apart : world.Apart)
    (reads : world.ReadsOwn feed times action)
    (taken : world.step feed times calendar action = some next) : world.KeptApart next action := by
  cases action with
  | start id run =>
    simp only [World.step] at taken
    split at taken
    case isTrue => cases taken
    case isFalse =>
      cases taken
      rfl
  | advance id input =>
    obtain ⟨recorder, here, rfl⟩ := Option.map_eq_some_iff.mp taken
    refine ⟨?_, ?_⟩
    · intro tier session sym doc recorded
      exact chainAt_advance (apart.recorders id recorder here).tidy recorded
    · intro recorder' here'
      cases here'.symm.trans here
      refine ⟨?_, ?_⟩
      · intro foreign
        exact own_advance ((apart.recorders id recorder here).quiet foreign)
      · intro works sym payload recorded phase found
        refine ⟨_, Function.update_self .., ?_⟩
        exact compares_advance works phase found (reads recorder here)
  | die id =>
    cases taken
    rfl

/-- **Recorders that read what is as good as their own keep their tiers apart.** -/
theorem tiers_kept_apart
    (reached : (recording feed times calendar).ReachableUnder (World.ReadsOwn feed times) world) :
    world.ManifestsAsReported ∧
      ∀ action next, world.ReadsOwn feed times action →
        world.step feed times calendar action = some next → world.KeptApart next action := by
  have apart : world.Apart := reached.invariant (fun _ => apart_of_initial)
    fun state action next before reads taken => apart_step before reads taken
  exact ⟨apart.reported, fun action next => keptApart_step apart⟩

end

/-! ## Two runs of one session -/

/-- A feed whose payloads are no chains. -/
def silentFeed : Feed where
  sha256 raw := toString raw.length
  parse _ _ := .error "body is not JSON"

def sampleTimes : SessionTimes where
  close session := 86400 * session + 72000
  clockInstant session hour minute := 86400 * session + 3600 * hour + 60 * minute
  regularClose := []

theorem sampleSessions_ne_nil : ([1, 2, 3, 4] : List ℤ) ≠ [] := by simp

theorem sampleSessions_increasing : ([1, 2, 3, 4] : List ℤ).Pairwise (· < ·) := by decide

def sampleCalendar : Splitting.SessionCalendar ℤ :=
  ⟨[1, 2, 3, 4], sampleSessions_ne_nil, sampleSessions_increasing⟩

def emptyWorld : World :=
  ⟨Store.empty, fun _ => none, fun _ _ => DefaultDict.empty⟩

theorem initial_emptyWorld : (recording silentFeed sampleTimes sampleCalendar).Initial emptyWorld :=
  ⟨rfl, fun _ => rfl, fun _ _ => rfl⟩

/-- The vendor does not answer. -/
def noAnswer : Input :=
  ⟨.failed, false, 5⟩

def runOf (tier : Tier) (sym : String) : Run :=
  ⟨1, [sym], tier, false, false⟩

theorem readsOwn_of_same (phase : recorder.phase = .merging seed now)
    (same : ∀ sym, seeded seed sym = store.entry recorder.run.tier recorder.run.session sym) :
    recorder.ReadsOwn feed times store input := by
  rw [Recorder.ReadsOwn, phase]
  intro sym
  cases recorder.results.get sym with
  | none => exact same sym
  | some result => exact fun _ _ => same sym

theorem reached_next {next : World} (action : Action)
    (reached : (recording silentFeed sampleTimes sampleCalendar).ReachableUnder
      (World.ReadsOwn silentFeed sampleTimes) world)
    (taken : world.step silentFeed sampleTimes sampleCalendar action = some next)
    (reads : world.ReadsOwn silentFeed sampleTimes action) :
    (recording silentFeed sampleTimes sampleCalendar).ReachableUnder
      (World.ReadsOwn silentFeed sampleTimes) next :=
  .step reached reads taken

/-- An evening run of one symbol on an empty store, until its manifest is written. -/
theorem exists_eveningRun : ∃ world,
    (recording silentFeed sampleTimes sampleCalendar).ReachableUnder
        (World.ReadsOwn silentFeed sampleTimes) world ∧
      world.store.entry .evening 1 "A" = some ⟨⟨.error, 0, none, .fetchFailed⟩, 5⟩ := by
  have started := reached_next (.start 0 (runOf .evening "A")) (.initial initial_emptyWorld) rfl
    trivial
  have looked := reached_next (.advance 0 noAnswer) started rfl (by rintro recorder ⟨⟩ _; trivial)
  have fetched := reached_next (.advance 0 noAnswer) looked rfl (by rintro recorder ⟨⟩ _; trivial)
  have noted := reached_next (.advance 0 noAnswer) fetched rfl (by rintro recorder ⟨⟩ _; trivial)
  have read := reached_next (.advance 0 noAnswer) noted rfl (by rintro recorder ⟨⟩ _; trivial)
  refine ⟨_, reached_next (.advance 0 noAnswer) read rfl ?_, rfl⟩
  rintro recorder ⟨⟩ _
  exact readsOwn_of_same rfl fun _ => rfl

/-- The runs of one symbol, one step after another. -/
def runToEnd (id : ℕ) (run : Run) : List Action :=
  .start id run :: List.replicate 9 (.advance id noAnswer)

theorem eod_then_evening :
    ((recording silentFeed sampleTimes sampleCalendar).run emptyWorld
      (runToEnd 0 (runOf .eod "A") ++ runToEnd 1 (runOf .evening "B"))).map (fun world =>
        (world.store.entry .evening 1 "A", (world.reported .evening 1).get "A")) =
      some (some ⟨⟨.error, 0, none, .fetchFailed⟩, 5⟩, none) := by
  decide +kernel

theorem tiers_kept_apart_sample : ∃ world : World,
    world.store.entry .evening 1 "A" = some ⟨⟨.error, 0, none, .fetchFailed⟩, 5⟩ ∧
      world.ManifestsAsReported := by
  obtain ⟨world, reached, shown⟩ := exists_eveningRun
  exact ⟨world, shown, (tiers_kept_apart reached).1⟩

/-- **An evening run after a settled one ends with a symbol in its manifest that no evening run
reported.** -/
theorem evening_manifest_takes_eod_entries : ∃ world,
    (recording silentFeed sampleTimes sampleCalendar).Reachable world ∧
      ¬ world.ManifestsAsReported := by
  obtain ⟨world, ran, shown⟩ := Option.map_eq_some_iff.mp eod_then_evening
  refine ⟨world, .run (.initial initial_emptyWorld) (fun _ _ _ => trivial) ran, ?_⟩
  intro reported
  have same := reported .evening 1 "A" (by decide)
  rw [(Prod.mk.inj shown).1, (Prod.mk.inj shown).2] at same
  cases same

end TreeOptions.ChainStore
