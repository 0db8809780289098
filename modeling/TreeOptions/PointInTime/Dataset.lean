import Mathlib.Data.Char
import Mathlib.Data.List.Lex
import Mathlib.Data.Prod.Lex
import TreeOptions.Foundations.DecimalContext
import TreeOptions.Foundations.Grouping
import TreeOptions.Splitting.Splitter

/-!
# The point-in-time dataset

A snapshot holds a security master, bars and corporate actions, with a manifest that is bound to
all of them. A dataset is a snapshot that was verified, and answers what was knowable at a
decision: the universe, the bars of a security, and the features of every security in the
universe.

Floats are those of a machine that is given (`Floats`): the features are Decimals up to the last
step.
-/

set_option autoImplicit false

namespace TreeOptions.PointInTime

open Checked Decimal

/-! ## Instants -/

/-- An instant in microseconds, as it is written down at an offset from UTC. -/
structure Moment where
  instant : ℤ
  offset : ℤ

def dayLength : ℤ := 86400 * 1000000

/-- The date on the clock that the moment is written down for. -/
def Moment.date (moment : Moment) : ℤ :=
  (moment.instant + moment.offset) / dayLength

/-! ## Records -/

structure DelistingRecord where
  delistingSession : ℤ
  reason : String
  finalPriceAvailable : Bool
  availableAt : ℤ

/-- What a record needs beside its fields: a listing ends after it starts, and where a delisting
ends it. -/
def ListingConsistent (listingStart : ℤ) (listingEnd : Option ℤ)
    (delisting : Option DelistingRecord) : Prop :=
  (∀ last, listingEnd = some last → listingStart ≤ last) ∧
    ∀ event, delisting = some event → listingEnd = some event.delistingSession

structure SecurityMasterRecord where
  securityId : String
  listingStart : ℤ
  listingEnd : Option ℤ
  availableAt : ℤ
  delisting : Option DelistingRecord
  consistent : ListingConsistent listingStart listingEnd delisting

structure BarRecord where
  securityId : String
  session : ℤ
  high : ℚ
  low : ℚ
  opening : ℚ
  close : ℚ
  volume : ℕ
  source : String
  sourceRecordId : String
  sourceRowHash : String
  snapshotId : String
  availableAt : ℤ

inductive ActionKind
  | split
  | reverseSplit
  | cashDividend
  | stockDividend
  | merger
  | spinoff
  | symbolChange
  | delisting
deriving DecidableEq

structure CorporateActionRecord where
  securityId : String
  kind : ActionKind
  effectiveSession : ℤ
  ratioNumerator : Option ℕ
  ratioDenominator : Option ℕ
  source : String
  sourceRecordId : String
  sourceRowHash : String
  snapshotId : String
deriving DecidableEq

structure DatasetManifest where
  provider : String
  snapshotId : String
  schemaVersion : String
  sourceRowCount : ℕ
  barCount : ℕ
  actionCount : ℕ
  securityCount : ℕ
  sessionCoverage : Option (ℤ × ℤ)
  sourceRowHashes : List String
  contentSha256 : String

structure DatasetSnapshot where
  snapshotId : String
  master : List SecurityMasterRecord
  bars : List BarRecord
  actions : List CorporateActionRecord
  manifest : DatasetManifest

structure DatasetCalendar extends Splitting.SessionCalendar ℤ where
  sessionClose : ℤ → ℤ

/-! ## Verification -/

inductive DataQualityError
  | duplicateBar (securityId : String) (session : ℤ) (sourceRecordId : String)
  | unknownSecurity (securityId sourceRecordId : String)
  | barOffSession (sourceRecordId : String) (session : ℤ)
  | publishedBeforeClose (sourceRecordId : String) (availableAt close : ℤ)
  | actionOffSession (sourceRecordId : String) (session : ℤ)
  | undeclaredDiscontinuity (securityId : String) (previous session : ℤ)
  | ratioMismatch (sourceRecordId : String)
  | noPriceTransition (sourceRecordId : String) (session : ℤ)
  | identityMismatch (snapshotId : String)
  | contentMismatch (snapshotId : String)
  | schemaMismatch (snapshotId : String)
  | countMismatch (snapshotId : String)
  | sourceRowCountMismatch (snapshotId : String)
  | securityCountMismatch (snapshotId : String)
  | providerMismatch (snapshotId : String)
  | rowHashMismatch (snapshotId : String)
  | coverageMismatch (snapshotId : String)
  | divisionByZero
deriving DecidableEq

def splitFactorBound : ℚ := 2

def splitFactorInverse : ℚ := 1 / 2

def splitRatioTolerance : ℚ := 2 / 100

def manifestSchemaVersion : String :=
  "m2/1"

def BarRecord.key (bar : BarRecord) : List Char ×ₗ ℤ :=
  toLex (bar.securityId.toList, bar.session)

def checkBar (calendar : DatasetCalendar) (known : List String) (seen : List (String × ℤ))
    (bar : BarRecord) : Except DataQualityError (List (String × ℤ)) := do
  refuse (seen.any fun other => other = (bar.securityId, bar.session))
    (.duplicateBar bar.securityId bar.session bar.sourceRecordId)
  refuse (bar.securityId ∉ known) (.unknownSecurity bar.securityId bar.sourceRecordId)
  refuse (bar.session ∉ calendar.sessions) (.barOffSession bar.sourceRecordId bar.session)
  refuse (bar.availableAt < calendar.sessionClose bar.session)
    (.publishedBeforeClose bar.sourceRecordId bar.availableAt (calendar.sessionClose bar.session))
  return seen ++ [(bar.securityId, bar.session)]

def checkAction (calendar : DatasetCalendar) (known : List String)
    (action : CorporateActionRecord) : Except DataQualityError Unit := do
  refuse (action.securityId ∉ known) (.unknownSecurity action.securityId action.sourceRecordId)
  refuse (action.effectiveSession ∉ calendar.sessions)
    (.actionOffSession action.sourceRecordId action.effectiveSession)

def divide (x y : ℚ) : Except DataQualityError ℚ :=
  match div? x y with
  | some quotient => .ok quotient
  | none => .error .divisionByZero

/-- A declared ratio has the effect on the price that it says. -/
def requireRatioMatch (action : CorporateActionRecord) (factor : ℚ) :
    Except DataQualityError Unit :=
  match action.ratioNumerator, action.ratioDenominator with
  | some numerator, some denominator => do
      let ratio ← divide numerator denominator
      let relative ← divide factor ratio
      refuse (splitRatioTolerance < |sub relative 1|) (.ratioMismatch action.sourceRecordId)
  | _, _ => .error (.ratioMismatch action.sourceRecordId)

/-- The last split or reverse split of a security into a session. -/
def ratioAction (actions : List CorporateActionRecord) (securityId : String) (session : ℤ) :
    Option CorporateActionRecord :=
  (actions.filter fun action =>
    (action.kind = .split || action.kind = .reverseSplit) &&
      action.securityId = securityId && action.effectiveSession = session).getLast?

def barsBySession (bars : List BarRecord) (securityId : String) : List BarRecord :=
  sortedBy BarRecord.session (bars.filter fun bar => bar.securityId = securityId)

/-- What a jump of the price into a session needs: a split that covers it. -/
def requireCovered (actions : List CorporateActionRecord) (factor : ℚ) (previous bar : BarRecord) :
    Except DataQualityError Unit :=
  match ratioAction actions bar.securityId bar.session with
  | none => .error (.undeclaredDiscontinuity bar.securityId previous.session bar.session)
  | some covering => requireRatioMatch covering factor

def checkTransition (actions : List CorporateActionRecord) (pair : BarRecord × BarRecord) :
    Except DataQualityError Unit := do
  let factor ← divide pair.1.close pair.2.close
  if factor ≤ splitFactorInverse ∨ splitFactorBound ≤ factor then
    requireCovered actions factor pair.1 pair.2
  else return ⟨⟩

/-- A declared split has a price before it and one on its session. -/
def checkRatioAction (bars : List BarRecord) (action : CorporateActionRecord) :
    Except DataQualityError Unit :=
  let ofSecurity := barsBySession bars action.securityId
  let before := ofSecurity.filter fun bar => bar.session < action.effectiveSession
  let effective := ofSecurity.filter fun bar => bar.session = action.effectiveSession
  match before.getLast?, effective.head? with
  | some previous, some bar => do
      let factor ← divide previous.close bar.close
      requireRatioMatch action factor
  | _, _ => .error (.noPriceTransition action.sourceRecordId action.effectiveSession)

def validateSnapshot (snapshot : DatasetSnapshot) (calendar : DatasetCalendar) :
    Except DataQualityError Unit := do
  let known := snapshot.master.map SecurityMasterRecord.securityId
  let _ ← (sortedBy BarRecord.key snapshot.bars).foldlM (checkBar calendar known) []
  snapshot.actions.forM (checkAction calendar known)
  let securities := firstSeen (snapshot.bars.map BarRecord.securityId)
  securities.forM fun securityId =>
    let bars := barsBySession snapshot.bars securityId
    (bars.zip bars.tail).forM (checkTransition snapshot.actions)
  (snapshot.actions.filter fun action =>
    ratioAction snapshot.actions action.securityId action.effectiveSession = some action).forM
      (checkRatioAction snapshot.bars)

/-- The first and the last session of the bars. -/
def sessionCoverage (bars : List BarRecord) : Option (ℤ × ℤ) :=
  let sessions := bars.map BarRecord.session
  match sessions.min?, sessions.max? with
  | some first, some last => some (first, last)
  | _, _ => none

section Hashed

variable (contentSha256 :
  List SecurityMasterRecord → List BarRecord → List CorporateActionRecord → String)

/-- The manifest is bound to the content, and to what it says of itself. -/
def verifyManifest (snapshot : DatasetSnapshot) (calendar : DatasetCalendar) :
    Except DataQualityError Unit := do
  let manifest := snapshot.manifest
  let id := snapshot.snapshotId
  refuse (id ≠ manifest.snapshotId ∨
      (snapshot.bars.any fun bar => bar.snapshotId ≠ manifest.snapshotId) ∨
      (snapshot.actions.any fun action => action.snapshotId ≠ manifest.snapshotId))
    (.identityMismatch id)
  refuse (contentSha256 snapshot.master snapshot.bars snapshot.actions ≠ manifest.contentSha256)
    (.contentMismatch id)
  refuse (manifest.schemaVersion ≠ manifestSchemaVersion) (.schemaMismatch id)
  refuse (manifest.barCount ≠ snapshot.bars.length ∨
    manifest.actionCount ≠ snapshot.actions.length) (.countMismatch id)
  refuse (manifest.sourceRowCount ≠ snapshot.bars.length + snapshot.actions.length)
    (.sourceRowCountMismatch id)
  refuse (manifest.securityCount ≠
    (firstSeen (snapshot.bars.map BarRecord.securityId)).length) (.securityCountMismatch id)
  refuse ((snapshot.bars.any fun bar => bar.source ≠ manifest.provider) ∨
    (snapshot.actions.any fun action => action.source ≠ manifest.provider)) (.providerMismatch id)
  refuse (sortedBy String.toList (snapshot.bars.map BarRecord.sourceRowHash ++
    snapshot.actions.map CorporateActionRecord.sourceRowHash) ≠ manifest.sourceRowHashes)
    (.rowHashMismatch id)
  refuse (sessionCoverage snapshot.bars ≠ manifest.sessionCoverage) (.coverageMismatch id)
  validateSnapshot snapshot calendar

structure PointInTimeDataset where
  snapshot : DatasetSnapshot
  calendar : DatasetCalendar
  universeId : String
  verified : verifyManifest contentSha256 snapshot calendar = .ok ⟨⟩

end Hashed

/-! ## The universe -/

/-- Membership on a date given what is known at an instant. The end of a listing is known when its
delisting is, or when it has passed. -/
def SecurityMasterRecord.listedOn (record : SecurityMasterRecord) (date : ℤ) (asOf : Moment) :
    Bool :=
  if asOf.instant < record.availableAt then false
  else if date < record.listingStart then false
  else
    let endKnown := (record.delisting.any fun event => event.availableAt ≤ asOf.instant) ||
      record.listingEnd.any fun last => last < asOf.date
    let effectiveEnd := if endKnown then record.listingEnd else none
    effectiveEnd.all fun last => date ≤ last

def universeAsOf (master : List SecurityMasterRecord) (decisionAt : Moment) : List String :=
  sortedBy String.toList
    ((master.filter fun record => record.listedOn decisionAt.date decisionAt).map
      SecurityMasterRecord.securityId)

/-! ## Visible bars -/

/-- The bars of a security, by session. -/
def barsOf (bars : List BarRecord) (securityId : String) : List BarRecord :=
  (sortedBy BarRecord.key bars).filter fun bar => bar.securityId = securityId

/-- Each instant is at or before the next one. -/
def monotone (available : List ℤ) : Bool :=
  (available.zip available.tail).all fun pair => pair.1 ≤ pair.2

/-- Where an instant belongs among sorted ones, after those that are equal to it. -/
def bisectRight (available : List ℤ) (instant : ℤ) : ℕ :=
  (available.takeWhile fun other => other ≤ instant).length

/-- The bars that are knowable at the decision: a part at the start where they were published in
the order of their sessions, and else those whose publication is not after it. -/
def visibleBars (bars : List BarRecord) (securityId : String) (decisionAt : Moment) :
    List BarRecord :=
  let ofSecurity := barsOf bars securityId
  let available := ofSecurity.map BarRecord.availableAt
  if monotone available then ofSecurity.take (bisectRight available decisionAt.instant)
  else ofSecurity.filter fun bar => bar.availableAt ≤ decisionAt.instant

/-! ## Features -/

/-- The floats of a machine. -/
structure Floats where
  Value : Type
  ofDecimal : ℚ → Value
  log : Value → Option Value
  isFinite : Value → Bool

inductive FeatureName
  | ret1
  | mom1
  | dolVol
  | mom (horizon : ℕ)
  | dolVol20

inductive AuthorityError
  | snapshotMismatch (given own : String)
  | universeMismatch (given own : String)
  | divisionByZero
  | logarithm
  | notFinite (name : FeatureName)

structure FeatureEvent (Value : Type) where
  securityId : String
  name : FeatureName
  value : Value
  observedAt : ℤ
  availableAt : ℤ
  decisionAt : ℤ
  source : String
  sourceRecordId : String
  revisionId : String

structure PanelRow (Value : Type) where
  securityId : String
  decisionSession : ℤ
  features : List (FeatureEvent Value)

def revisionZero : String :=
  "r0"

def momentumHorizons : List ℕ :=
  [5, 20]

def dolVolWindow : ℕ := 20

/-- The last bars, where they are of as many sessions in a row. -/
def contiguousTail (sessions : List ℤ) (bars : List BarRecord) (count : ℕ) :
    Option (List BarRecord) :=
  if bars.length < count then none
  else
    let last := bars.drop (bars.length - count)
    let positions := last.map fun bar => sessions.idxOf bar.session
    if (positions.zip positions.tail).all fun pair => pair.2 = pair.1 + 1 then some last else none

section Features

variable (floats : Floats) (decisionAt : Moment) (provider : String)

/-- A feature of the bar it is bound to, which must be finite. -/
def feature (bar : BarRecord) (name : FeatureName) (value : floats.Value) :
    Except AuthorityError (FeatureEvent floats.Value) :=
  if floats.isFinite value then
    .ok ⟨bar.securityId, name, value, bar.availableAt, bar.availableAt, decisionAt.instant, provider,
      bar.sourceRecordId, revisionZero⟩
  else .error (.notFinite name)

def quotient (x y : ℚ) : Except AuthorityError ℚ :=
  match div? x y with
  | some value => .ok value
  | none => .error .divisionByZero

/-- The simple return between two bars. -/
def returnFeature (name : FeatureName) (last previous : BarRecord) :
    Except AuthorityError (FeatureEvent floats.Value) := do
  let ratio ← quotient last.close previous.close
  feature floats decisionAt provider last name (floats.ofDecimal (sub ratio 1))

/-- The logarithm of the return over a tail of bars. -/
def momentumFeature (horizon : ℕ) (first last : BarRecord) :
    Except AuthorityError (FeatureEvent floats.Value) := do
  let ratio ← quotient last.close first.close
  match floats.log (floats.ofDecimal ratio) with
  | some value => feature floats decisionAt provider last (.mom horizon) value
  | none => .error .logarithm

def dollarVolume (bar : BarRecord) : ℚ :=
  mul bar.close bar.volume

def dolVolFeature (last : BarRecord) : Except AuthorityError (FeatureEvent floats.Value) :=
  feature floats decisionAt provider last .dolVol (floats.ofDecimal (dollarVolume last))

/-- The mean dollar volume over a window of bars. -/
def dolVol20Feature (window : List BarRecord) (last : BarRecord) :
    Except AuthorityError (FeatureEvent floats.Value) := do
  let total := (window.map dollarVolume).foldl add 0
  let mean ← quotient total dolVolWindow
  feature floats decisionAt provider last .dolVol20 (floats.ofDecimal mean)

/-- The features of a security, from the bars that are visible. -/
def v2Features (sessions : List ℤ) (bars : List BarRecord) :
    Except AuthorityError (List (FeatureEvent floats.Value)) := do
  let returns := match bars.reverse with
    | last :: previous :: _ =>
      returnFeature floats decisionAt provider .ret1 last previous ::
        if (contiguousTail sessions bars 2).isSome then
          [returnFeature floats decisionAt provider .mom1 last previous]
        else []
    | _ => []
  let momentum := momentumHorizons.filterMap fun horizon =>
    (contiguousTail sessions bars (horizon + 1)).bind fun last =>
      match last.head?, last.getLast? with
      | some first, some last => some (momentumFeature floats decisionAt provider horizon first last)
      | _, _ => none
  let volumes := match bars.getLast? with
    | some last =>
      dolVolFeature floats decisionAt provider last :: momentum ++
        match contiguousTail sessions bars dolVolWindow with
        | some window => [dolVol20Feature floats decisionAt provider window last]
        | none => []
    | none => []
  (returns ++ volumes).mapM id

/-- The row of a security, unless it has no feature. -/
def panelRow (bars : List BarRecord) (sessions : List ℤ) (securityId : String) :
    Except AuthorityError (Option (PanelRow floats.Value)) := do
  let features ← v2Features floats decisionAt provider sessions
    (visibleBars bars securityId decisionAt)
  return if features.isEmpty then none else some ⟨securityId, decisionAt.date, features⟩

end Features

namespace PointInTimeDataset

variable {contentSha256 :
  List SecurityMasterRecord → List BarRecord → List CorporateActionRecord → String}

def provider (dataset : PointInTimeDataset contentSha256) : String :=
  dataset.snapshot.manifest.provider

def universeAsOf (dataset : PointInTimeDataset contentSha256) (decisionAt : Moment) :
    List String :=
  PointInTime.universeAsOf dataset.snapshot.master decisionAt

def visibleBars (dataset : PointInTimeDataset contentSha256) (securityId : String)
    (decisionAt : Moment) : List BarRecord :=
  PointInTime.visibleBars dataset.snapshot.bars securityId decisionAt

/-- The rows of the universe at the decision. -/
def featuresAsOf (dataset : PointInTimeDataset contentSha256) (floats : Floats)
    (decisionAt : Moment) (universeId datasetSnapshotId : String) :
    Except AuthorityError (List (PanelRow floats.Value)) := do
  refuse (datasetSnapshotId ≠ dataset.snapshot.snapshotId)
    (.snapshotMismatch datasetSnapshotId dataset.snapshot.snapshotId)
  refuse (universeId ≠ dataset.universeId) (.universeMismatch universeId dataset.universeId)
  let rows ← (dataset.universeAsOf decisionAt).mapM
    (panelRow floats decisionAt dataset.provider dataset.snapshot.bars dataset.calendar.sessions)
  return rows.reduceOption

end PointInTimeDataset

end TreeOptions.PointInTime
