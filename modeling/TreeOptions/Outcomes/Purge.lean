import TreeOptions.Outcomes.Engine

/-!
# The purged selection

A decision of a training board counts in the selection only if its exit is on or before the cutoff
session. A decision that crosses the cutoff scores zero and is counted, and the expectation of the
random null is purged in the same way.
-/

set_option autoImplicit false

namespace TreeOptions.Outcomes

open Checked

/-! ## Boards and values -/

/-- The name of a board, by its session and its clock. -/
structure Snapshot where
  day : ℤ
  minute : ℕ

structure Board where
  session : ℤ
  minute : ℕ
  ids : List String

def Board.snapshot (board : Board) : Snapshot :=
  ⟨board.session, board.minute⟩

/-- The floats that scores are in. -/
structure Scores where
  Value : Type
  ofDecimal : ℚ → Value
  zero : Value
  add : Value → Value → Value
  mul : Value → Value → Value
  mean : List Value → Value

abbrev ExitFn := Snapshot → String → Option ExitMode → Option ℤ

/-- The gross and the net of a row, none where it has no fill. -/
abbrev ValueFn (scores : Scores) :=
  Snapshot → String → Option ExitMode → Option (scores.Value × scores.Value)

/-- A row of a board and a mode, or no choice. -/
abbrev Decision := Option String × Option ExitMode

inductive PurgeError
  | unknownSession (session : ℤ)
  | lengthMismatch
  | noValue (board : ℕ)

/-! ## Crossing the cutoff -/

/-- How many sessions later a mode is taken to exit, where that can be told. -/
def horizonOffset : Option ExitMode → Option ℕ
  | none | some .intraday | some .eod => some 0
  | some (.hold days) => some days.count
  | some .expiry => none

/-- The exit falls after the cutoff session, and whether it was estimated. -/
def crosses (zone : MarketZone) (exitAt : Option ℤ) (horizon : Option ExitMode)
    (session cutoff : ℤ) (sessions : List ℤ) : Except PurgeError (Bool × Bool) :=
  match exitAt with
  | some instant => .ok (cutoff < zone.dateOf instant, false)
  | none =>
    match horizonOffset horizon with
    | none => .ok (true, true)
    | some offset =>
      match sessions.idxOf? session with
      | none => .error (.unknownSession session)
      | some position =>
        .ok (sessions[position + offset]?.all fun later => cutoff < later, true)

section Purge

variable (zone : MarketZone) (scores : Scores) (value : ValueFn scores) (exitOf : ExitFn)
  (cutoff : ℤ)

structure PurgeCounts where
  trainEntered : ℕ
  purged : ℕ
  estimatedExits : ℕ

def purgeStep (sessions : List ℤ) (state : List scores.Value × PurgeCounts)
    (item : (Board × Decision) × ℕ) : Except PurgeError (List scores.Value × PurgeCounts) :=
  let board := item.1.1
  let horizon := item.1.2.2
  match item.1.2.1 with
  | none => .ok state
  | some choice =>
    if cutoff < board.session then .ok state
    else
      let counts := { state.2 with trainEntered := state.2.trainEntered + 1 }
      match value board.snapshot choice horizon with
      | none => .ok (state.1, counts)
      | some _ => do
          let crossed ← crosses zone (exitOf board.snapshot choice horizon) horizon
            board.session cutoff sessions
          let counts :=
            { counts with estimatedExits := counts.estimatedExits + crossed.2.toNat }
          if crossed.1 then do
            refuse (state.1.length ≤ item.2) (.noValue item.2)
            return (state.1.set item.2 scores.zero, { counts with purged := counts.purged + 1 })
          else return (state.1, counts)

/-- The values that the selection is made by: a purged decision scores zero. -/
def purgeDecisions (boards : List Board) (decisions : List Decision) (nets : List scores.Value)
    (sessions : List ℤ) : Except PurgeError (List scores.Value × PurgeCounts) := do
  refuse (boards.length ≠ decisions.length) .lengthMismatch
  (boards.zip decisions).zipIdx.foldlM (purgeStep zone scores value exitOf cutoff sessions)
    (nets, ⟨0, 0, 0⟩)

structure NullCounts where
  trainOptions : ℕ
  purgedOptions : ℕ

def NullCounts.plus (first second : NullCounts) : NullCounts :=
  ⟨first.trainOptions + second.trainOptions, first.purgedOptions + second.purgedOptions⟩

/-- What a row of a board is worth to the null, at one horizon. -/
def nullOption (window : List ℤ) (board : Board) (option : String × Option ExitMode) :
    Except PurgeError (scores.Value × NullCounts) :=
  match value board.snapshot option.1 option.2 with
  | none => .ok (scores.zero, ⟨0, 0⟩)
  | some got =>
    if board.session ≤ cutoff then do
      let crossed ← crosses zone (exitOf board.snapshot option.1 option.2) option.2
        board.session cutoff window
      return if crossed.1 then (scores.zero, ⟨1, 1⟩) else (got.2, ⟨1, 0⟩)
    else .ok (got.2, ⟨0, 0⟩)

def nullStep (sessions : List ℤ) (horizons : List (Option ExitMode)) (pEnter : scores.Value)
    (window : List ℤ) (state : (ℤ → scores.Value) × NullCounts) (board : Board) :
    Except PurgeError ((ℤ → scores.Value) × NullCounts) := do
  let options ← (board.ids.product horizons).mapM
    (nullOption zone scores value exitOf cutoff window board)
  let counts := (options.map Prod.snd).foldl NullCounts.plus state.2
  if options.isEmpty then return (state.1, counts)
  else do
    refuse (board.session ∉ sessions) (.unknownSession board.session)
    return (Function.update state.1 board.session (scores.add (state.1 board.session)
      (scores.mul pEnter (scores.mean (options.map Prod.fst)))), counts)

/-- What the null expects of each session. -/
def purgedNull (boards : List Board) (sessions : List ℤ) (horizons : List (Option ExitMode))
    (pEnter : scores.Value) (window : List ℤ) :
    Except PurgeError (List scores.Value × NullCounts) := do
  let last ← boards.foldlM
    (nullStep zone scores value exitOf cutoff sessions horizons pEnter window)
    (fun _ => scores.zero, ⟨0, 0⟩)
  return (sessions.map last.1, last.2)

/-- The nets of the decisions: zero where there is no choice or no fill. -/
def netsOf (boards : List Board) (decisions : List Decision) : List scores.Value :=
  (boards.zip decisions).map fun item =>
    ((item.2.1.bind fun choice => value item.1.snapshot choice item.2.2).map Prod.snd).getD
      scores.zero

end Purge

/-! ## The values of the engine -/

section Engine

variable (scores : Scores) (window : Window) (key : CandidateKey) (bars : MinuteBars)
  (costs : Costs) (sync : Option ℤ)

def filledOf (snapshot : Snapshot) (row : String) (horizon : Option ExitMode) : Option Filled :=
  horizon.bind fun mode =>
    match candidateOutcome window key bars costs sync snapshot.day snapshot.minute row mode with
    | .ok (some (.filled outcome)) => some outcome
    | _ => none

def engineValue : ValueFn scores := fun snapshot row horizon =>
  (filledOf window key bars costs sync snapshot row horizon).map fun outcome =>
    (scores.ofDecimal outcome.gross, scores.ofDecimal outcome.net)

def engineExit : ExitFn := fun snapshot row horizon =>
  (filledOf window key bars costs sync snapshot row horizon).map Filled.exitAt

/-- The selection values of the decisions, from the prints of a bundle. -/
def selectedValues (cutoff : ℤ) (boards : List Board) (decisions : List Decision)
    (sessions : List ℤ) : Except PurgeError (List scores.Value × PurgeCounts) :=
  purgeDecisions window.zone scores (engineValue scores window key bars costs sync)
    (engineExit window key bars costs sync) cutoff boards decisions
    (netsOf scores (engineValue scores window key bars costs sync) boards decisions) sessions

/-- The expectations of the null, from the prints of a bundle. -/
def nullValues (cutoff : ℤ) (boards : List Board) (sessions : List ℤ)
    (horizons : List (Option ExitMode)) (pEnter : scores.Value) (purgeWindow : List ℤ) :
    Except PurgeError (List scores.Value × NullCounts) :=
  purgedNull window.zone scores (engineValue scores window key bars costs sync)
    (engineExit window key bars costs sync) cutoff boards sessions horizons pEnter purgeWindow

end Engine

end TreeOptions.Outcomes
