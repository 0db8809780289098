import Mathlib.Data.Char
import Mathlib.Data.List.Lex
import Mathlib.Data.Prod.Lex
import TreeOptions.Foundations.Checked
import TreeOptions.Foundations.DecimalContext
import TreeOptions.Foundations.Grouping
import TreeOptions.Foundations.IsoDate

/-!
# The work manifest of the bars

The captured masters list the contracts of an underlying as of a date. The selection goes through
the masters in order and picks for each expiry the strikes that are nearest to the spot of the date,
every contract once (`selectAtmGridBars`). The picks become the entries of the work manifest, with
the rank of the strike in its grid taken from the order of the picks (`entriesFromPicks`).

Dates stand for their ISO texts, and strikes for the texts that are written of them.
-/

set_option autoImplicit false

namespace TreeOptions.BarsManifest

open Checked Decimal

/-! ## Masters -/

/-- A number of the vendor: an integer, or a decimal with a fraction or an exponent. -/
inductive NumberToken
  | int (n : ℤ)
  | decimal (amount : ℚ)

namespace NumberToken

def value : NumberToken → ℚ
  | .int n => n
  | .decimal amount => amount

/-- What the text of the token says. A decimal is normalized in the decimal context first. -/
def written : NumberToken → ℚ
  | .int n => n
  | .decimal amount => roundContext amount

end NumberToken

structure MasterRow where
  ticker : String
  expiration : String
  kind : String
  strike : NumberToken

/-- The contracts of an underlying as of a date. -/
structure MasterCapture where
  underlying : String
  asOf : ℤ
  rows : List MasterRow

def MasterCapture.order (capture : MasterCapture) : List Char ×ₗ ℤ :=
  toLex (capture.underlying.toList, capture.asOf)

/-- What a ticker is of. -/
structure RowMeta where
  underlying : String
  expiration : String
  strike : ℚ
  kind : String

/-- The last row of a ticker, over all masters in the order of their files. -/
def tickerIndex (captures : List MasterCapture) (ticker : String) : Option RowMeta :=
  ((captures.flatMap fun capture => capture.rows.map fun row => (capture.underlying, row)).filter
    fun listed => listed.2.ticker = ticker).getLast?.map fun listed =>
      ⟨listed.1, listed.2.expiration, listed.2.strike.written, listed.2.kind⟩

/-! ## The profile -/

inductive ExpiryFilter
  | all
  | monthly

inductive SideFilter
  | call
  | both

structure SelectionProfile where
  wanted : ℕ
  dteMin : ℕ
  dteMax : ℕ
  strikeBand : ℕ
  expiries : ExpiryFilter
  sides : SideFilter
  positive : 1 ≤ wanted
  ordered : dteMin ≤ dteMax

/-- The third Friday of its month. -/
def isMonthlyExpiry (date : ℤ) : Bool :=
  weekday date = 4 && 15 ≤ (civilDate date).2.2 && (civilDate date).2.2 ≤ 21

def SelectionProfile.kinds (profile : SelectionProfile) : List String :=
  match profile.sides with
  | .call => ["call"]
  | .both => ["call", "put"]

def SelectionProfile.wantedExpiry (profile : SelectionProfile) (date : ℤ) : Bool :=
  match profile.expiries with
  | .all => true
  | .monthly => isMonthlyExpiry date

/-! ## Selection -/

def bandExpirations (profile : SelectionProfile) (rows : List MasterRow) (asOf : ℤ) :
    List ℤ × ℕ :=
  (sortedBy id ((firstSeen (rows.filterMap fun row => dateFromIso row.expiration)).filter fun date =>
      profile.dteMin ≤ date - asOf && date - asOf ≤ profile.dteMax),
    (rows.filter fun row => dateFromIso row.expiration = none).length)

/-- The rows of an expiration on the wanted sides. -/
def ladderOf (profile : SelectionProfile) (rows : List MasterRow) (expiration : ℤ) :
    List MasterRow :=
  rows.filter fun row =>
    dateFromIso row.expiration = some expiration && row.kind ∈ profile.kinds

/-- Strikes are ranked by their distance from the spot, and then by themselves. -/
def strikeKey (anchor strike : ℚ) : ℚ ×ₗ ℚ :=
  toLex (|sub strike anchor|, strike)

def rankedStrikes (anchor : ℚ) (ladder : List MasterRow) : List ℚ :=
  sortedBy (strikeKey anchor) (firstSeen (ladder.map fun row => row.strike.value))

/-- The rows of a strike, calls before puts and then by ticker. -/
def strikeRows (ladder : List MasterRow) (strike : ℚ) : List MasterRow :=
  sortedBy (fun row => (toLex (row.kind.toList, row.ticker.toList) : List Char ×ₗ List Char))
    (ladder.filter fun row => row.strike.value = strike)

/-- A contract that a master selects. -/
structure Candidate where
  ticker : String
  underlying : String
  asOf : ℤ
  expiration : ℤ
  strike : ℚ
deriving DecidableEq

section Profile

variable (profile : SelectionProfile) (spot : String → ℤ → Option ℚ)

/-- The contracts of an expiration in the grid around the spot. -/
def expiryCandidates (capture : MasterCapture) (anchor : ℚ) (expiration : ℤ) : List Candidate :=
  let ladder := ladderOf profile capture.rows expiration
  ((rankedStrikes anchor ladder).take (2 * profile.strikeBand + 1)).flatMap fun strike =>
    (strikeRows ladder strike).map fun row =>
      ⟨row.ticker, capture.underlying, capture.asOf, expiration, strike⟩

def gridExpirations (capture : MasterCapture) : List ℤ :=
  (bandExpirations profile capture.rows capture.asOf).1.filter profile.wantedExpiry

/-- The contracts that a master selects, in the order of the selection. A master without a spot
selects none. -/
def captureCandidates (capture : MasterCapture) : List Candidate :=
  match spot capture.underlying capture.asOf with
  | some anchor => (gridExpirations profile capture).flatMap (expiryCandidates profile capture anchor)
  | none => []

inductive SelectionNote
  | malformed (underlying : String) (count : ℕ)
  | noExpiry (underlying : String) (asOf : ℤ)
  | noMonthly (underlying : String) (asOf : ℤ)
  | noSpot (underlying : String) (asOf : ℤ)
  | malformedAt (underlying : String) (expiration : ℤ) (count : ℕ)
  | duplicates (count : ℕ)
  | capped (wanted found : ℕ)
deriving DecidableEq

/-- What is said of a master. -/
def captureNotes (capture : MasterCapture) : List SelectionNote :=
  let (band, malformed) := bandExpirations profile capture.rows capture.asOf
  let expirations := gridExpirations profile capture
  (if malformed = 0 then [] else [.malformed capture.underlying malformed]) ++
    if band = [] then [.noExpiry capture.underlying capture.asOf]
    else if expirations = [] then [.noMonthly capture.underlying capture.asOf]
    else if spot capture.underlying capture.asOf = none then
      [.noSpot capture.underlying capture.asOf]
    else if malformed = 0 then []
    else expirations.map fun expiration => .malformedAt capture.underlying expiration malformed

/-- A series that is to be fetched. -/
structure Pick where
  ticker : String
  asOf : ℤ
  expiration : ℤ

structure Selecting where
  picks : List Pick
  seen : List String
  duplicates : ℕ

/-- A contract that was picked for another master is not picked again. -/
def takeCandidate (state : Selecting) (candidate : Candidate) : Selecting :=
  if candidate.ticker ∈ state.seen then { state with duplicates := state.duplicates + 1 }
  else
    { state with
      picks := state.picks ++ [⟨candidate.ticker, candidate.asOf, candidate.expiration⟩]
      seen := state.seen ++ [candidate.ticker] }

/-- The candidates of all masters, the masters by underlying and date. -/
def candidates (captures : List MasterCapture) : List Candidate :=
  (sortedBy MasterCapture.order captures).flatMap (captureCandidates profile spot)

def selectAtmGridBars (captures : List MasterCapture) : List Pick × List SelectionNote :=
  let selected := (candidates profile spot captures).foldl takeCandidate ⟨[], [], 0⟩
  (selected.picks.take profile.wanted,
    (sortedBy MasterCapture.order captures).flatMap (captureNotes profile spot) ++
      (if selected.duplicates = 0 then [] else [.duplicates selected.duplicates]) ++
      (if selected.picks.length ≤ profile.wanted then []
        else [.capped profile.wanted selected.picks.length]))

end Profile

/-! ## Entries -/

inductive Side
  | call
  | put
deriving DecidableEq

def Side.order : Side → ℕ
  | .call => 0
  | .put => 1

structure BarsWorkEntry where
  underlying : String
  asOf : ℤ
  expiry : ℤ
  strike : ℚ
  strikeRank : ℕ
  side : Side
  ticker : String
deriving DecidableEq

def BarsWorkEntry.order (entry : BarsWorkEntry) :
    List Char ×ₗ ℤ ×ₗ ℤ ×ₗ ℕ ×ₗ ℕ ×ₗ List Char :=
  toLex (entry.underlying.toList, toLex (entry.asOf, toLex (entry.expiry,
    toLex (entry.strikeRank, toLex (entry.side.order, entry.ticker.toList)))))

inductive BarsManifestError
  | keyError (ticker : String)
  | expiryMismatch (ticker : String) (expiration : ℤ) (listed : String)
  | notCallOrPut (ticker kind : String)
  | emptyWindow (asOfMin : ℤ)
  | emptySelection
deriving DecidableEq

def sideOf (ticker kind : String) : Except BarsManifestError Side :=
  if kind = "call" then .ok .call
  else if kind = "put" then .ok .put
  else .error (.notCallOrPut ticker kind)

def metaOf (captures : List MasterCapture) (ticker : String) :
    Except BarsManifestError RowMeta :=
  match tickerIndex captures ticker with
  | some listed => .ok listed
  | none => .error (.keyError ticker)

/-- The strikes of each grid in the order of their first pick, and the entries. -/
structure Ranking where
  ranks : String × ℤ × ℤ → List ℚ
  entries : List BarsWorkEntry

/-- The ladder of a grid with a strike that was picked. -/
def withStrike (ladder : List ℚ) (strike : ℚ) : List ℚ :=
  if strike ∈ ladder then ladder else ladder ++ [strike]

def enterPick (captures : List MasterCapture) (state : Ranking) (pick : Pick) :
    Except BarsManifestError Ranking := do
  let listed ← metaOf captures pick.ticker
  refuse (listed.expiration ≠ isoDate pick.expiration)
    (.expiryMismatch pick.ticker pick.expiration listed.expiration)
  let side ← sideOf pick.ticker listed.kind
  let key := (listed.underlying, pick.asOf, pick.expiration)
  let ladder := withStrike (state.ranks key) listed.strike
  return ⟨Function.update state.ranks key ladder,
    state.entries ++ [⟨listed.underlying, pick.asOf, pick.expiration, listed.strike,
      ladder.idxOf listed.strike, side, pick.ticker⟩]⟩

def entriesFromPicks (captures : List MasterCapture) (picks : List Pick) :
    Except BarsManifestError (List BarsWorkEntry) := do
  let ranking ← picks.foldlM (enterPick captures) ⟨fun _ => [], []⟩
  return ranking.entries

/-! ## The manifest -/

structure BarsWorkManifest where
  asOfMin : Option ℤ
  entries : List BarsWorkEntry
  selectionNotes : List SelectionNote
deriving DecidableEq

/-- The masters of a continuation. -/
def windowed (asOfMin : Option ℤ) (captures : List MasterCapture) : List MasterCapture :=
  captures.filter fun capture => asOfMin.all fun floor => floor ≤ capture.asOf

def buildBarsWorkManifest (profile : SelectionProfile) (spot : String → ℤ → Option ℚ)
    (captures : List MasterCapture) (asOfMin : Option ℤ) :
    Except BarsManifestError BarsWorkManifest := do
  refuse (asOfMin.isSome ∧ windowed asOfMin captures = []) (.emptyWindow (asOfMin.getD 0))
  let (picks, notes) := selectAtmGridBars profile spot (windowed asOfMin captures)
  let entries ← entriesFromPicks captures picks
  refuse (entries = []) .emptySelection
  return ⟨asOfMin, sortedBy BarsWorkEntry.order entries, notes⟩

end TreeOptions.BarsManifest
