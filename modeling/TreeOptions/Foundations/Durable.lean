import Mathlib.Tactic.Common

/-!
# Programs of durable operations

A program works on a world by single operations, each of which takes effect as a whole,
fails with an error and no effect, or is where the process dies. What becomes of each
operation is an argument of the run, a fate for every operation by its name, so a program
is a function, and what holds of it for all fates holds wherever it fails or dies. The fate
of an operation that a run does not come to has no part in it.

A program ends by returning a value, by raising an error, or by dying. An error can be
handled (`attempt`), a death cannot. How a run ends is put together from the parts of a
program (`ends_bind`, `ends_attempt`, `ends_operate`), under the fates given, and so is what
it leaves as it was, under all fates (`leaves_bind`, `leaves_attempt`, `leaves_operate`).
-/

set_option autoImplicit false

namespace TreeOptions

/-- What becomes of one operation. -/
inductive Fate
  | done
  | fails
  | dies

/-- How a program ends. -/
inductive Ending (Error Value : Type)
  | returned (value : Value)
  | raised (error : Error)
  | died

/-- A program over a world, whose operations have names. -/
def Durable (Op World Error Value : Type) : Type :=
  World → (Op → Fate) → Ending Error Value × World

namespace Durable

variable {Op World Error Value Result : Type}

def ret (value : Value) : Durable Op World Error Value :=
  fun world _ => (.returned value, world)

def andThen (first : Durable Op World Error Value)
    (next : Value → Durable Op World Error Result) : Durable Op World Error Result :=
  fun world fates =>
    match first world fates with
    | (.returned value, world') => next value world' fates
    | (.raised error, world') => (.raised error, world')
    | (.died, world') => (.died, world')

instance : Monad (Durable Op World Error) where
  pure := ret
  bind := andThen

/-- Read the world. -/
def observe : Durable Op World Error World :=
  fun world _ => (.returned world, world)

def raise (error : Error) : Durable Op World Error Value :=
  fun world _ => (.raised error, world)

/-- One operation: its effect as a whole, or none. -/
def operate (op : Op) (error : Error) (effect : World → World) : Durable Op World Error Unit :=
  fun world fates =>
    match fates op with
    | .done => (.returned ⟨⟩, effect world)
    | .fails => (.raised error, world)
    | .dies => (.died, world)

/-- An operation on another party, who may have acted although it fails. -/
def contact (op : Op) (error : Error) (effect : World → World) : Durable Op World Error Unit :=
  fun world fates =>
    match fates op with
    | .done => (.returned ⟨⟩, effect world)
    | .fails => (.raised error, effect world)
    | .dies => (.died, world)

/-- Raise the error of a failed check, or return its value. -/
def check : Except Error Value → Durable Op World Error Value
  | .ok value => pure value
  | .error error => raise error

/-- Raise an error where a condition is met. -/
def refuseIf (bad : Prop) [Decidable bad] (error : Error) : Durable Op World Error Unit :=
  if bad then raise error else pure ⟨⟩

/-- Run a program, and a handler where it raises. -/
def attempt (first : Durable Op World Error Value)
    (handler : Error → Durable Op World Error Value) : Durable Op World Error Value :=
  fun world fates =>
    match first world fates with
    | (.returned value, world') => (.returned value, world')
    | (.raised error, world') => handler error world' fates
    | (.died, world') => (.died, world')

/-! ## How a run ends -/

/-- The run from a world under the fates ends as the condition says. -/
def Ends (program : Durable Op World Error Value) (world : World) (fates : Op → Fate)
    (after : Ending Error Value → World → Prop) : Prop :=
  after (program world fates).1 (program world fates).2

/-- A condition on the end of a program, as a condition on the end of its first part. -/
def Then (fates : Op → Fate) (next : Value → Durable Op World Error Result)
    (after : Ending Error Result → World → Prop) : Ending Error Value → World → Prop
  | .returned value, world => Ends (next value) world fates after
  | .raised error, world => after (.raised error) world
  | .died, world => after .died world

/-- A condition on the end of a program with a handler. -/
def Handled (fates : Op → Fate) (handler : Error → Durable Op World Error Value)
    (after : Ending Error Value → World → Prop) : Ending Error Value → World → Prop
  | .returned value, world => after (.returned value) world
  | .raised error, world => Ends (handler error) world fates after
  | .died, world => after .died world

variable {world : World} {fates : Op → Fate} {after after' : Ending Error Value → World → Prop}

/-- Where the first part returned, the second goes on. -/
theorem Ends.next {value : Value} {next : Value → Durable Op World Error Result}
    {after : Ending Error Result → World → Prop} (ended : Ends (next value) world fates after) :
    Then fates next after (.returned value) world :=
  ended

variable {error : Error} {handler : Error → Durable Op World Error Value}

theorem Ends.handles (ended : Ends (handler error) world fates after) :
    Handled fates handler after (.raised error) world :=
  ended

theorem ends_pure {value : Value} (holds : after (.returned value) world) :
    Ends (pure value : Durable Op World Error Value) world fates after :=
  holds

theorem ends_observe {after : Ending Error World → World → Prop}
    (holds : after (.returned world) world) :
    Ends (observe : Durable Op World Error World) world fates after :=
  holds

theorem ends_raise (holds : after (.raised error) world) :
    Ends (raise error : Durable Op World Error Value) world fates after :=
  holds

variable {effect : World → World}

theorem ends_operate {op : Op} {after : Ending Error Unit → World → Prop}
    (done : fates op = .done → after (.returned ⟨⟩) (effect world))
    (fails : fates op = .fails → after (.raised error) world)
    (dies : fates op = .dies → after .died world) :
    Ends (operate op error effect) world fates after := by
  rw [Ends, operate]
  cases fate : fates op with
  | done => exact done fate
  | fails => exact fails fate
  | dies => exact dies fate

theorem ends_contact {op : Op} {after : Ending Error Unit → World → Prop}
    (done : after (.returned ⟨⟩) (effect world)) (fails : after (.raised error) (effect world))
    (dies : after .died world) : Ends (contact op error effect) world fates after := by
  rw [Ends, contact]
  cases fates op with
  | done => exact done
  | fails => exact fails
  | dies => exact dies

theorem ends_check {result : Except Error Value}
    (ok : ∀ value, result = .ok value → after (.returned value) world)
    (failed : ∀ error, result = .error error → after (.raised error) world) :
    Ends (check result) world fates after := by
  cases result with
  | ok value => exact ok value rfl
  | error error => exact failed error rfl

theorem ends_refuseIf {bad : Prop} [Decidable bad] {after : Ending Error Unit → World → Prop}
    (met : bad → after (.raised error) world) (unmet : ¬ bad → after (.returned ⟨⟩) world) :
    Ends (refuseIf bad error) world fates after := by
  rw [refuseIf]
  split
  case isTrue isBad => exact met isBad
  case isFalse isGood => exact unmet isGood

/-- **A sequence ends as its second part does after the first.** -/
theorem ends_bind {first : Durable Op World Error Value}
    {next : Value → Durable Op World Error Result} {after : Ending Error Result → World → Prop}
    (ended : Ends first world fates (Then fates next after)) :
    Ends (first >>= next) world fates after := by
  change after (andThen first next world fates).1 (andThen first next world fates).2
  rw [Ends] at ended
  rw [andThen]
  rcases ran : first world fates with ⟨ending, world'⟩
  rw [ran] at ended
  cases ending with
  | returned value => exact ended
  | raised error => exact ended
  | died => exact ended

/-- **A handler takes over where the program raises.** -/
theorem ends_attempt {first : Durable Op World Error Value}
    (ended : Ends first world fates (Handled fates handler after)) :
    Ends (attempt first handler) world fates after := by
  rw [Ends, attempt]
  rw [Ends] at ended
  rcases ran : first world fates with ⟨ending, world'⟩
  rw [ran] at ended
  cases ending with
  | returned value => exact ended
  | raised error => exact ended
  | died => exact ended

theorem Ends.mono {program : Durable Op World Error Value}
    (ended : Ends program world fates after)
    (weaker : ∀ ending world', after ending world' → after' ending world') :
    Ends program world fates after' :=
  weaker _ _ ended

/-! ## What a run leaves as it was -/

/-- No run changes the view of the world. -/
def Leaves {View : Type} (view : World → View) (program : Durable Op World Error Value) : Prop :=
  ∀ world fates, view (program world fates).2 = view world

section

variable {View : Type} {view : World → View}

theorem Leaves.ends {program : Durable Op World Error Value} (leaves : Leaves view program)
    (world : World) (fates : Op → Fate) :
    Ends program world fates fun _ later => view later = view world :=
  leaves world fates

variable {first : Durable Op World Error Value}

/-- After a part that changes nothing. -/
theorem ends_bind_of_leaves {next : Value → Durable Op World Error Result}
    {after : Ending Error Result → World → Prop} (unchanged : Leaves id first)
    (raised : ∀ error, after (.raised error) world) (died : after .died world)
    (ended : ∀ value, Ends (next value) world fates after) :
    Ends (first >>= next) world fates after := by
  refine ends_bind ((unchanged.ends world fates).mono ?_)
  intro ending later same
  obtain rfl : later = world := same
  cases ending with
  | returned value => exact Ends.next (ended value)
  | raised error => exact raised error
  | died => exact died

theorem leaves_pure (value : Value) :
    Leaves view (pure value : Durable Op World Error Value) :=
  fun _ _ => rfl

theorem leaves_observe : Leaves view (observe : Durable Op World Error World) :=
  fun _ _ => rfl

theorem leaves_raise (error : Error) :
    Leaves view (raise error : Durable Op World Error Value) :=
  fun _ _ => rfl

theorem leaves_check (result : Except Error Value) :
    Leaves view (check result : Durable Op World Error Value) := by
  cases result with
  | ok value => exact leaves_pure value
  | error error => exact leaves_raise error

theorem leaves_refuseIf (bad : Prop) [Decidable bad] (error : Error) :
    Leaves view (refuseIf bad error : Durable Op World Error Unit) := by
  rw [refuseIf]
  split
  · exact leaves_raise error
  · exact leaves_pure ()

theorem leaves_operate {op : Op} {error : Error} {effect : World → World}
    (kept : ∀ world, view (effect world) = view world) :
    Leaves view (operate op error effect) := by
  intro world fates
  rw [operate]
  cases fates op with
  | done => exact kept world
  | fails => rfl
  | dies => rfl

theorem leaves_bind {next : Value → Durable Op World Error Result} (leaves : Leaves view first)
    (leavesNext : ∀ value, Leaves view (next value)) : Leaves view (first >>= next) := by
  intro world fates
  have here := leaves world fates
  change view (andThen first next world fates).2 = view world
  rw [andThen]
  rcases ran : first world fates with ⟨ending, world'⟩
  rw [ran] at here
  cases ending with
  | returned value => exact (leavesNext value world' fates).trans here
  | raised error => exact here
  | died => exact here

theorem leaves_attempt {handler : Error → Durable Op World Error Value} (leaves : Leaves view first)
    (leavesHandler : ∀ error, Leaves view (handler error)) :
    Leaves view (attempt first handler) := by
  intro world fates
  have here := leaves world fates
  rw [attempt]
  rcases ran : first world fates with ⟨ending, world'⟩
  rw [ran] at here
  cases ending with
  | returned value => exact here
  | raised error => exact (leavesHandler error world' fates).trans here
  | died => exact here

end

/-! ## A property that holds however a run ends -/

/-- The world has a property wherever the program raises or dies, and what it returns has
another. -/
def Safely (holds : World → Prop) (returns : Value → World → Prop) :
    Ending Error Value → World → Prop
  | .returned value, world => returns value world
  | .raised _, world => holds world
  | .died, world => holds world

/-- The world has a property however the program ends. -/
abbrev Throughout (holds : World → Prop) : Ending Error Value → World → Prop :=
  Safely holds fun _ => holds

section

variable {holds held : World → Prop} {returns returned : Value → World → Prop}
  {program : Durable Op World Error Value}

theorem Ends.weaken (ended : Ends program world fates (Safely held returned))
    (keeps : ∀ later, held later → holds later)
    (results : ∀ value later, returned value later → returns value later) :
    Ends program world fates (Safely holds returns) := by
  refine ended.mono ?_
  intro ending later after
  cases ending with
  | returned value => exact results value later after
  | raised error => exact keeps later after
  | died => exact keeps later after

theorem Ends.always (ended : Ends program world fates (Throughout holds)) :
    holds (program world fates).2 := by
  rw [Ends] at ended
  rcases ran : program world fates with ⟨ending, later⟩
  rw [ran] at ended
  cases ending with
  | returned value => exact ended
  | raised error => exact ended
  | died => exact ended

variable {results : Result → World → Prop}

/-- **A sequence keeps what each of its parts keeps, which it goes on from.** -/
theorem ends_bind_safely {first : Durable Op World Error Value}
    {next : Value → Durable Op World Error Result}
    (ended : Ends first world fates (Safely holds returns))
    (goesOn : ∀ value later, returns value later →
      Ends (next value) later fates (Safely holds results)) :
    Ends (first >>= next) world fates (Safely holds results) := by
  refine ends_bind (ended.mono ?_)
  intro ending later after
  cases ending with
  | returned value => exact Ends.next (goesOn value later after)
  | raised error => exact after
  | died => exact after

/-- After a part that changes nothing. -/
theorem ends_bind_unchanged {first : Durable Op World Error Value}
    {next : Value → Durable Op World Error Result} (unchanged : Leaves id first)
    (here : holds world) (goesOn : ∀ value, Ends (next value) world fates (Safely holds results)) :
    Ends (first >>= next) world fates (Safely holds results) :=
  ends_bind_of_leaves unchanged (fun _ => here) here goesOn

theorem ends_refuse {bad : Prop} [Decidable bad] {next : Unit → Durable Op World Error Result}
    (here : holds world) (goesOn : ¬ bad → Ends (next ⟨⟩) world fates (Safely holds results)) :
    Ends (refuseIf bad error >>= next) world fates (Safely holds results) :=
  ends_bind (ends_refuseIf (fun _ => here) goesOn)

theorem ends_checked {result : Except Error Value} {next : Value → Durable Op World Error Result}
    (here : holds world)
    (goesOn : ∀ value, result = .ok value → Ends (next value) world fates (Safely holds results)) :
    Ends (check result >>= next) world fates (Safely holds results) :=
  ends_bind (ends_check goesOn fun _ _ => here)

end

end Durable

end TreeOptions
