import Mathlib.Tactic.Common

/-!
# Programs that do not see a difference

Two states may differ in ways that nothing depends on. A program is blind to the difference when
it ends alike from any two related states: with the same value or the same error, and in states
that are related again (`Blind`). What is put together from blind programs is blind, so that two
related states answer every list of requests alike (`Blind.answers_eq`).
-/

set_option autoImplicit false

namespace TreeOptions

variable {Error Error' State Value Result Item : Type}

inductive Alike (related : State → State → Prop) :
    EStateM.Result Error State Value → EStateM.Result Error State Value → Prop where
  | ok {value : Value} {state other : State} (states : related state other) :
      Alike related (.ok value state) (.ok value other)
  | error {error : Error} {state other : State} (states : related state other) :
      Alike related (.error error state) (.error error other)

/-- A program that ends alike from related states. -/
def Blind (related : State → State → Prop) (program : EStateM Error State Value) : Prop :=
  ∀ state other, related state other → Alike related (program.run state) (program.run other)

namespace Blind

variable {related : State → State → Prop}

theorem pure (value : Value) : Blind related (Pure.pure value : EStateM Error State Value) :=
  fun _ _ states => .ok states

theorem throw (error : Error) :
    Blind related (MonadExcept.throw error : EStateM Error State Value) :=
  fun _ _ states => .error states

variable {program : EStateM Error State Value}

theorem bind {next : Value → EStateM Error State Result} (first : Blind related program)
    (second : ∀ value, Blind related (next value)) : Blind related (program >>= next) := by
  intro state other states
  have alike := first state other states
  rw [EStateM.run_bind, EStateM.run_bind]
  generalize program.run state = one, program.run other = two at alike ⊢
  cases alike with
  | ok afterwards => exact second _ _ _ afterwards
  | error afterwards => exact .error afterwards

theorem get {next : State → EStateM Error State Result}
    (same : ∀ state other, related state other → next state = next other)
    (second : ∀ state, Blind related (next state)) : Blind related (get >>= next) := by
  intro state other states
  rw [EStateM.run_bind, EStateM.run_bind, EStateM.run_get, EStateM.run_get]
  dsimp only
  rw [same state other states]
  exact second other state other states

theorem modify {change : State → State}
    (kept : ∀ state other, related state other → related (change state) (change other)) :
    Blind related (modify change : EStateM Error State Unit) :=
  fun state other states => .ok (kept state other states)

theorem ofExcept (checked : Except Error Value) :
    Blind related (MonadExcept.ofExcept checked : EStateM Error State Value) := by
  cases checked with
  | ok value => exact pure value
  | error error => exact throw error

theorem ite {condition : Prop} [Decidable condition] {first second : EStateM Error State Value}
    (yes : condition → Blind related first) (no : ¬ condition → Blind related second) :
    Blind related (if condition then first else second) := by
  split
  case isTrue met => exact yes met
  case isFalse unmet => exact no unmet

theorem forM {items : List Item} {program : Item → EStateM Error State PUnit}
    (each : ∀ item, Blind related (program item)) : Blind related (items.forM program) := by
  induction items with
  | nil => exact pure _
  | cons item rest ih => exact (each item).bind fun _ => ih

theorem adaptExcept (rename : Error → Error') (blind : Blind related program) :
    Blind related (program.adaptExcept rename) := by
  intro state other states
  have alike := blind state other states
  simp only [EStateM.run, EStateM.adaptExcept] at alike ⊢
  generalize program state = one, program other = two at alike ⊢
  cases alike with
  | ok afterwards => exact .ok afterwards
  | error afterwards => exact .error afterwards

end Blind

/-! ## Requests one after another -/

section Requests

variable {Request : Type}

/-- A state after a program has run, whether or not the program raised an error. -/
def left : EStateM.Result Error State Value → State
  | .ok _ state => state
  | .error _ state => state

/-- What a program returned or raised. -/
def outcome : EStateM.Result Error State Value → Except Error Value
  | .ok value _ => .ok value
  | .error error _ => .error error

/-- What each request returns or raises, one after another. -/
def answers (perform : Request → EStateM Error State Value) :
    State → List Request → List (Except Error Value)
  | _, [] => []
  | state, request :: later =>
    let result := (perform request).run state
    outcome result :: answers perform (left result) later

def afterRequests (perform : Request → EStateM Error State Value) (state : State)
    (requests : List Request) : State :=
  requests.foldl (fun state request => left ((perform request).run state)) state

variable {related : State → State → Prop} {perform : Request → EStateM Error State Value}
  {state other : State}

/-- **Related states answer all requests alike,** and the requests leave related states. -/
theorem Blind.answers_eq (blind : ∀ request, Blind related (perform request))
    (states : related state other) (requests : List Request) :
    answers perform state requests = answers perform other requests ∧
      related (afterRequests perform state requests) (afterRequests perform other requests) := by
  induction requests generalizing state other with
  | nil => exact ⟨rfl, states⟩
  | cons request later ih =>
    have alike := blind request state other states
    simp only [answers, afterRequests, List.foldl_cons]
    generalize (perform request).run state = one, (perform request).run other = two at alike ⊢
    cases alike with
    | ok afterwards => exact ⟨congrArg _ (ih afterwards).1, (ih afterwards).2⟩
    | error afterwards => exact ⟨congrArg _ (ih afterwards).1, (ih afterwards).2⟩

end Requests

end TreeOptions
