import TreeOptions.ChainStore.Evidence
import TreeOptions.Foundations.Directory
import TreeOptions.Splitting.Splitter

/-!
# Recording chains

The store holds one file for each session, symbol and tier, conflicting payloads and raw bytes
beside the settled tier's, a manifest for each session and tier, and one list of gaps. A file
appears or is replaced as a whole, and a recorded chain is only ever created.

A recorder is one call that records a session. It takes one step at a time, and each step reads
the store and makes at most one write (`Recorder.advance`), so that another recorder may act, or
the process may die, between any two writes.
-/

set_option autoImplicit false

namespace TreeOptions.ChainStore

abbrev Bytes :=
  List UInt8

/-! ## The store -/

inductive StorePath
  | chain (tier : Tier) (session : ℤ) (sym : String)
  | conflict (session : ℤ) (sym : String)
  | raw (session : ℤ) (sym sha256 : String)
  | manifest (tier : Tier) (session : ℤ)
deriving DecidableEq

structure ChainDoc where
  session : ℤ
  clock : Tier
  fetchedAt : ℤ
  rawSha256 : String
  parsed : ParsedChain

def ChainDoc.n (doc : ChainDoc) : ℕ :=
  doc.parsed.n

/-- What a run reports of a symbol, and a manifest with the time of it. -/
structure SymbolResult where
  status : Status
  n : ℕ
  rawSha256 : Option String
  detail : Detail
deriving DecidableEq

structure ManifestEntry where
  result : SymbolResult
  recordedAt : ℤ
deriving DecidableEq

abbrev Symbols :=
  Directory String ManifestEntry

structure Manifest where
  session : ℤ
  clock : Tier
  symbols : Symbols
  noRun : Bool
  updatedAt : ℤ

inductive StoreFile
  | chain (doc : ChainDoc)
  | raw (content : Bytes)
  | manifest (doc : Manifest)

/-- A gap of one symbol, or of a whole session where there is none. -/
structure GapLine where
  recordedAt : ℤ
  session : ℤ
  sym : Option String
  status : Status
  detail : Detail

structure Store where
  files : Directory StorePath StoreFile
  gaps : List GapLine

def Store.empty : Store :=
  ⟨DefaultDict.empty, []⟩

namespace Store

variable (store : Store)

def chainAt (tier : Tier) (session : ℤ) (sym : String) : Option ChainDoc :=
  match store.files.get (.chain tier session sym) with
  | some (.chain doc) => some doc
  | _ => none

def manifestAt (tier : Tier) (session : ℤ) : Option Manifest :=
  match store.files.get (.manifest tier session) with
  | some (.manifest doc) => some doc
  | _ => none

/-- Of whatever tier the reader is, the manifest of the settled tier. -/
def readManifest (session : ℤ) : Option Manifest :=
  store.manifestAt .eod session

/-- Of whatever tier the reader is, the recorded chain of the settled tier. -/
def existing (session : ℤ) (sym : String) : Option ChainDoc :=
  store.chainAt .eod session sym

def manifestSessions : List ℤ :=
  store.files.names.filterMap fun path =>
    match path with
    | .manifest .eod session => some session
    | _ => none

def rawSessions : List ℤ :=
  (store.files.names.filterMap fun path =>
    match path with
    | .raw session _ _ => some session
    | _ => none).dedup

def rawKeepSessions : ℕ := 20

/-- Fewer sessions than are kept are newer. -/
def rawRetained (session : ℤ) : Bool :=
  store.rawSessions.countP (fun newer => session < newer) < rawKeepSessions

end Store

inductive Write
  | chain (tier : Tier) (session : ℤ) (sym : String) (doc : ChainDoc)
  | conflict (session : ℤ) (sym : String) (doc : ChainDoc)
  | raw (session : ℤ) (sym sha256 : String) (content : Bytes)
  | manifest (tier : Tier) (session : ℤ) (doc : Manifest)
  | gaps (lines : List GapLine)
  | pruneRaw

/-- Only the newest sessions keep their raw bytes. -/
def Store.pruned (store : Store) : Directory StorePath StoreFile :=
  let dated := sortedBy id store.rawSessions
  let old := dated.take (dated.length - Store.rawKeepSessions)
  store.files.names.foldl (fun files path =>
    match path with
    | .raw session _ _ => if session ∈ old then files.remove path else files
    | _ => files) store.files

def Store.apply (store : Store) : Write → Store
  | .chain tier session sym doc =>
    { store with files := store.files.write (.chain tier session sym) (.chain doc) }
  | .conflict session sym doc =>
    { store with files := store.files.write (.conflict session sym) (.chain doc) }
  | .raw session sym sha256 content =>
    { store with files := store.files.write (.raw session sym sha256) (.raw content) }
  | .manifest tier session doc =>
    { store with files := store.files.write (.manifest tier session) (.manifest doc) }
  | .gaps lines => { store with gaps := store.gaps ++ lines }
  | .pruneRaw => { store with files := store.pruned }

def Store.applyOptional (store : Store) : Option Write → Store
  | none => store
  | some write => store.apply write

/-! ## Bookkeeping -/

/-- `existed` never downgrades the run that recorded the symbol. -/
def mergeEntry (result : SymbolResult) (now : ℤ) (old : Option ManifestEntry) :
    Option ManifestEntry :=
  if result.status = .existed ∧ (old.any fun entry => entry.result.status.recorded) then old
  else some ⟨result, now⟩

def mergeSymbol (results : Directory String SymbolResult) (now : ℤ) (symbols : Symbols)
    (sym : String) : Symbols :=
  match results.get sym with
  | none => symbols
  | some result => symbols.set sym (mergeEntry result now (symbols.get sym))

def mergeSymbols (symbols : Symbols) (results : Directory String SymbolResult) (now : ℤ) :
    Symbols :=
  results.names.foldl (mergeSymbol results now) symbols

/-- The manifest of a run, from one that was read. -/
def updateManifest (seed : Option Manifest) (session : ℤ) (results : Directory String SymbolResult)
    (now : ℤ) (tier : Tier) : Manifest where
  session := session
  clock := tier
  symbols := mergeSymbols ((seed.map Manifest.symbols).getD DefaultDict.empty) results now
  noRun := (seed.map Manifest.noRun).getD false
  updatedAt := now

def gapLines (session : ℤ) (results : Directory String SymbolResult) (now : ℤ) : List GapLine :=
  results.names.filterMap fun sym =>
    (results.get sym).bind fun result =>
      if result.status.isGap then some ⟨now, session, some sym, result.status, result.detail⟩
      else none

def neverRecorded (entry : ManifestEntry) : SymbolResult :=
  ⟨.missing, 0, none, .neverRecorded entry.result.status⟩

def placeholder (session now : ℤ) : Manifest :=
  ⟨session, .eod, DefaultDict.empty, true, now⟩

/-- The symbols of the manifest of a session. -/
def Store.symbolsAt (store : Store) (session : ℤ) : Symbols :=
  ((store.readManifest session).map Manifest.symbols).getD DefaultDict.empty

/-- The entry of a symbol that no run recorded, and that is not yet closed as missing. -/
def Store.unclosedEntry (store : Store) (session : ℤ) (sym : String) :
    Option (String × ManifestEntry) :=
  ((store.symbolsAt session).get sym).bind fun entry =>
    if (store.chainAt .eod session sym).isSome ∨ entry.result.status = .missing then none
    else some (sym, entry)

def Store.unclosed (store : Store) (session : ℤ) : List (String × ManifestEntry) :=
  (sortedBy String.toList (store.symbolsAt session).names).filterMap (store.unclosedEntry session)

/-- The sessions after one, up to another. -/
def sessionsAfter (calendar : Splitting.SessionCalendar ℤ) (after through : ℤ) : List ℤ :=
  calendar.sessions.filter fun session => after < session ∧ session ≤ through

/-- The sessions between the latest manifest and a session. -/
def skippedSessions (calendar : Splitting.SessionCalendar ℤ) (last session : ℤ) : List ℤ :=
  (sessionsAfter calendar last session).takeWhile fun skipped => skipped < session

def closeSymbol (now : ℤ) (symbols : Symbols) (lost : String × ManifestEntry) : Symbols :=
  symbols.write lost.1 ⟨neverRecorded lost.2, now⟩

/-- A manifest with what was never recorded as missing. -/
def Store.closedManifest (store : Store) (last now : ℤ) (doc : Manifest) : Manifest :=
  { doc with
    symbols := (store.unclosed last).foldl (closeSymbol now) doc.symbols
    updatedAt := now }

def closeLast (store : Store) (last now : ℤ) : List Write :=
  match store.readManifest last with
  | none => []
  | some doc =>
    if store.unclosed last = [] then []
    else [.manifest .eod last (store.closedManifest last now doc)]

def closingLines (store : Store) (skipped : List ℤ) (last now : ℤ) : List GapLine :=
  (skipped.map fun session => ⟨now, session, none, .missing, .noRun⟩) ++
    (store.unclosed last).map fun lost =>
      ⟨now, last, some lost.1, .missing, (neverRecorded lost.2).detail⟩

def appendGaps (lines : List GapLine) : List Write :=
  if lines = [] then [] else [.gaps lines]

/-- The sessions after the latest manifest get a placeholder, and the symbols of that manifest that
were never recorded become missing. The lines of all of them are appended last. -/
def closeFrom (store : Store) (calendar : Splitting.SessionCalendar ℤ) (last session now : ℤ) :
    List Write :=
  let skipped := skippedSessions calendar last session
  (skipped.map fun s => .manifest .eod s (placeholder s now)) ++ closeLast store last now ++
    appendGaps (closingLines store skipped last now)

/-- Close the books on earlier sessions. -/
def finalizePrior (store : Store) (calendar : Splitting.SessionCalendar ℤ) (session now : ℤ) :
    List Write :=
  match (store.manifestSessions.filter fun prior => prior < session).max? with
  | none => []
  | some last => closeFrom store calendar last session now

/-! ## A recorder -/

/-- The arguments of a call. -/
structure Run where
  session : ℤ
  symbols : List String
  tier : Tier
  dryRun : Bool
  recheck : Bool

/-- The vendor's answer to a request, and when it came. -/
inductive Fetched
  | failed
  | received (raw : Bytes) (fetchedAt : ℤ)

/-- A payload of the session, as it was received and judged. -/
structure Payload where
  raw : Bytes
  rawSha256 : String
  fetchedAt : ℤ
  parsed : ParsedChain
  verdict : Verdict

def Payload.document (payload : Payload) (session : ℤ) (clock : Tier) : ChainDoc :=
  ⟨session, clock, payload.fetchedAt, payload.rawSha256, payload.parsed⟩

/-- What a call is at. Closing earlier sessions, it has made some of the writes it planned. -/
inductive Phase
  | sweeping
  | fetching (sym : String) (existing : Option ChainDoc) (repair : Bool)
  | publishing (sym : String) (evidence : List Write) (payload : Payload)
  | writing (sym : String) (pending : List Write) (result : SymbolResult)
  | finalizing (made pending : List Write) (now : ℤ)
  | merging (seed : Option Manifest) (now : ℤ)
  | appending (now : ℤ)
  | pruning
  | finished

/-- A call on its way: the symbols left of this sweep, and the sweeps left for stale ones. -/
structure Recorder where
  run : Run
  left : List String
  passes : ℕ
  results : Directory String SymbolResult
  phase : Phase

/-- What the world answers to a step: the vendor, the disk and the clock. -/
structure Input where
  fetched : Fetched
  writeFails : Bool
  now : ℤ

/-- The hash of a payload and the parser of a chain. -/
structure Feed where
  sha256 : Bytes → String
  parse : Bytes → String → Except String ParsedChain

def clockRetryPasses : ℕ := 2

def Run.passes (run : Run) : ℕ :=
  match run.tier with
  | .at _ _ => if run.dryRun then 0 else clockRetryPasses
  | _ => 0

def Run.begin (run : Run) : Recorder where
  run := run
  left := run.symbols
  passes := run.passes
  results := DefaultDict.empty
  phase := .sweeping

/-- What is done with a payload beside a recorded chain. -/
def Run.compare (run : Run) (sym : String) (known : ChainDoc) (repair : Bool) (payload : Payload) :
    Phase :=
  let lost := repair && payload.rawSha256 ≠ known.rawSha256
  let raw := Write.raw run.session sym payload.rawSha256 payload.raw
  let kept detail : SymbolResult := ⟨.existed, known.n, some known.rawSha256, detail⟩
  if payload.rawSha256 = known.rawSha256 then
    if repair ∧ ¬ run.dryRun then .writing sym [raw] (kept .repaired)
    else .writing sym [] (kept .identical)
  else if payload.verdict.status ≠ .ok then
    .writing sym [] (kept (.recheckPayload payload.verdict.status lost))
  else
    .writing sym
      (if run.dryRun then []
       else [raw, .conflict run.session sym (payload.document run.session .eod)])
      ⟨.conflict, payload.parsed.n, some payload.rawSha256, .differs known.rawSha256 lost⟩

section Steps

variable (feed : Feed) (times : SessionTimes) (calendar : Splitting.SessionCalendar ℤ)

/-- Look for a recorded chain before anything is fetched. -/
def Run.look (run : Run) (store : Store) (sym : String) : Phase :=
  match store.chainAt run.tier run.session sym with
  | none => .fetching sym none false
  | some _ =>
    match store.existing run.session sym with
    | none => .writing sym [] ⟨.error, 0, none, .unreadable⟩
    | some known =>
      let repair := store.rawRetained run.session &&
        (store.files.get (.raw run.session sym known.rawSha256)).isNone
      if run.recheck ∨ repair then .fetching sym (some known) repair
      else .writing sym [] ⟨.existed, known.n, some known.rawSha256, .none⟩

/-- A first payload: the raw bytes of the settled tier, then the chain. -/
def Run.publish (run : Run) (sym : String) (payload : Payload) : Phase :=
  if payload.verdict.status = .ok ∧ ¬ run.dryRun then
    .publishing sym
      (if run.tier = .eod then [.raw run.session sym payload.rawSha256 payload.raw] else []) payload
  else
    .writing sym []
      ⟨payload.verdict.status, payload.parsed.n, some payload.rawSha256,
        if payload.verdict.detail = .none ∧ run.dryRun then .dryRun else payload.verdict.detail⟩

/-- The payload in what the vendor sent. -/
def Run.judge (run : Run) (sym : String) (raw : Bytes) (fetchedAt : ℤ) : Except String Payload :=
  (feed.parse raw sym).map fun parsed =>
    ⟨raw, feed.sha256 raw, fetchedAt, parsed, validate times parsed run.session run.tier⟩

def Run.receive (run : Run) (sym : String) (existing : Option ChainDoc) (repair : Bool) :
    Fetched → Phase
  | .failed =>
    match existing with
    | some known =>
      .writing sym [] ⟨.existed, known.n, some known.rawSha256,
        if repair then .repairFetchFailed else .recheckFetchFailed⟩
    | none => .writing sym [] ⟨.error, 0, none, .fetchFailed⟩
  | .received raw fetchedAt =>
    match run.judge feed times sym raw fetchedAt with
    | .error reason => .writing sym [] ⟨.invalid, 0, some (feed.sha256 raw), .notAChain reason⟩
    | .ok payload =>
      match existing with
      | some known => run.compare sym known repair payload
      | none => run.publish sym payload

def writeError : SymbolResult :=
  ⟨.error, 0, none, .writeFailed⟩

/-- Create the chain, unless another recorder was first: then compare with what is recorded. -/
def Run.link (run : Run) (store : Store) (sym : String) (payload : Payload) :
    Phase × Option Write :=
  match store.chainAt run.tier run.session sym with
  | none =>
    (.writing sym [] ⟨.ok, payload.parsed.n, some payload.rawSha256, .none⟩,
      some (.chain run.tier run.session sym (payload.document run.session run.tier)))
  | some _ =>
    match store.existing run.session sym with
    | none => (.writing sym [] writeError, none)
    | some known => (run.compare sym known false payload, none)

/-- The names of this run that are stale. -/
def Recorder.stale (recorder : Recorder) : List String :=
  recorder.results.names.filter fun sym =>
    (recorder.results.get sym).any fun result => result.status = .stale

/-- After the last symbol: another sweep of the stale ones, or the bookkeeping. -/
def Recorder.afterSweep (recorder : Recorder) (store : Store) (now : ℤ) : Recorder :=
  if recorder.passes ≠ 0 ∧ recorder.stale ≠ [] then
    { recorder with left := recorder.stale, passes := recorder.passes - 1 }
  else if recorder.run.dryRun then { recorder with phase := .finished }
  else if recorder.run.tier = .eod then
    { recorder with
      phase := .finalizing [] (finalizePrior store calendar recorder.run.session now) now }
  else { recorder with phase := .merging (store.readManifest recorder.run.session) now }

/-- One step of a recorder, and its write. -/
def Recorder.advance (recorder : Recorder) (store : Store) (input : Input) :
    Recorder × Option Write :=
  let run := recorder.run
  match recorder.phase with
  | .sweeping =>
    match recorder.left with
    | [] => (recorder.afterSweep calendar store input.now, none)
    | sym :: left => ({ recorder with left, phase := run.look store sym }, none)
  | .fetching sym existing repair =>
    ({ recorder with phase := run.receive feed times sym existing repair input.fetched }, none)
  | .publishing sym evidence payload =>
    if input.writeFails then ({ recorder with phase := .writing sym [] writeError }, none)
    else
      match evidence with
      | write :: evidence =>
        ({ recorder with phase := .publishing sym evidence payload }, some write)
      | [] =>
        let linked := run.link store sym payload
        ({ recorder with phase := linked.1 }, linked.2)
  | .writing sym pending result =>
    match pending with
    | [] =>
      ({ recorder with
        results := recorder.results.write sym result
        phase := .sweeping }, none)
    | write :: pending =>
      if input.writeFails then ({ recorder with phase := .writing sym [] writeError }, none)
      else ({ recorder with phase := .writing sym pending result }, some write)
  | .finalizing made pending now =>
    match pending with
    | [] => ({ recorder with phase := .merging (store.readManifest run.session) now }, none)
    | write :: pending =>
      ({ recorder with phase := .finalizing (made ++ [write]) pending now }, some write)
  | .merging seed now =>
    ({ recorder with phase := if run.tier = .eod then .appending now else .finished },
      some (.manifest run.tier run.session
        (updateManifest seed run.session recorder.results now run.tier)))
  | .appending now =>
    ({ recorder with phase := .pruning },
      (appendGaps (gapLines run.session recorder.results now)).head?)
  | .pruning => ({ recorder with phase := .finished }, some .pruneRaw)
  | .finished => (recorder, none)

end Steps

end TreeOptions.ChainStore
