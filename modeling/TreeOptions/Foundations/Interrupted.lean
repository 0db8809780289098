import Mathlib.Logic.Relation
import TreeOptions.Foundations.TransitionSystem

/-!
# Programs that are interrupted

A program reads and changes a world in atomic steps. Between any two of them the environment may
change the world, and the process that runs the program may die and lose what it had in memory.
A process that is down boots, and one whose program is done runs its cycle again.

`Safe` says of a program and the world it starts in that a condition holds before every step,
whatever the environment does meanwhile, and what holds where the program is done and where it
fails. Programs are built by sequence, choice, loops and failure handlers, and there is one rule
for each (`Safe.bind`, `Safe.attempt`, `Safe.each`). What the environment cannot break may be
assumed at a step (`Safe.step`). A machine that is safe from its boot and through every cycle keeps
the condition in every state it reaches (`Machine.always_of_safe`), the states in which the process
is down among them.
-/

set_option autoImplicit false

namespace TreeOptions

/-- A step changes the world, and what follows depends on the world it found. -/
inductive Program (World Value : Type) where
  | done (value : Value)
  | fail
  | step (change : World → World) (next : World → Program World Value)

namespace Program

variable {World Value Result Item : Type}

def bind (program : Program World Value) (next : Value → Program World Result) :
    Program World Result :=
  match program with
  | done value => next value
  | fail => fail
  | step change rest => step change fun world => bind (rest world) next

instance monad : Monad (Program World) where
  pure := done
  bind := bind

/-- What handles a failure starts in the world the failure left. -/
def attempt (program handler : Program World Value) : Program World Value :=
  match program with
  | done value => done value
  | fail => handler
  | step change rest => step change fun world => attempt (rest world) handler

def read (look : World → Value) : Program World Value :=
  step id fun world => done (look world)

def modify (change : World → World) : Program World Unit :=
  step change fun _ => done ()

def modifyOrFail (change : World → Option World) : Program World Unit :=
  step (fun world => (change world).getD world) fun world =>
    if (change world).isSome then done () else fail

/-- Change the world and return what the change gives. -/
def act (change : World → World × Value) : Program World Value :=
  step (fun world => (change world).1) fun world => done (change world).2

def readOrFail (look : World → Option Value) : Program World Value :=
  step id fun world => (look world).elim fail done

/-- Nothing is done where the condition does not hold. -/
def when (condition : Prop) [Decidable condition] (program : Program World Unit) :
    Program World Unit :=
  if condition then program else done ()

def each (items : List Item) (body : Item → Program World Unit) : Program World Unit :=
  match items with
  | [] => done ()
  | item :: rest => bind (body item) fun _ => each rest body

/-- A loop that carries a value. -/
def fold (items : List Item) (start : Value) (body : Value → Item → Program World Value) :
    Program World Value :=
  match items with
  | [] => done start
  | item :: rest => bind (body start item) fun value => fold rest value body

/-! ### Programs that keep a condition -/

/-- Every step of a program keeps a condition, whatever it read before. -/
def Keeps (holds : World → Prop) : Program World Value → Prop
  | done _ => True
  | fail => True
  | step change next =>
    ∀ world, holds world → holds (change world) ∧ Keeps holds (next world)

namespace Keeps

variable {holds : World → Prop}

@[simp]
theorem done {value : Value} : Keeps holds (.done value) :=
  trivial

@[simp]
theorem fail : Keeps holds (.fail : Program World Value) :=
  trivial

@[simp]
theorem read {look : World → Value} : Keeps holds (.read look) :=
  fun _ before => ⟨before, trivial⟩

@[simp]
theorem readOrFail {look : World → Option Value} : Keeps holds (.readOrFail look) := by
  intro world before
  refine ⟨before, ?_⟩
  show Keeps holds ((look world).elim .fail .done)
  cases look world with
  | none => exact fail
  | some value => exact done

theorem modify {change : World → World} (kept : ∀ world, holds world → holds (change world)) :
    Keeps holds (.modify change) :=
  fun world before => ⟨kept world before, trivial⟩

theorem act {change : World → World × Value}
    (kept : ∀ world, holds world → holds (change world).1) : Keeps holds (.act change) :=
  fun world before => ⟨kept world before, trivial⟩

theorem modifyOrFail {change : World → Option World}
    (kept : ∀ world next, holds world → change world = some next → holds next) :
    Keeps holds (.modifyOrFail change) := by
  intro world before
  show holds ((change world).getD world) ∧
    Keeps holds (if (change world).isSome then .done () else .fail)
  cases changed : change world with
  | none => exact ⟨before, fail⟩
  | some next => exact ⟨kept world next before changed, done⟩

theorem bind {program : Program World Result} {next : Result → Program World Value}
    (first : Keeps holds program) (second : ∀ value, Keeps holds (next value)) :
    Keeps holds (program >>= next) := by
  induction program with
  | done value => exact second value
  | fail => exact fail
  | step change rest ih =>
    intro world before
    exact ⟨(first world before).1, ih world (first world before).2⟩

theorem ite {condition : Prop} [Decidable condition] {yes no : Program World Value}
    (met : Keeps holds yes) (unmet : Keeps holds no) :
    Keeps holds (if condition then yes else no) := by
  split
  case isTrue => exact met
  case isFalse => exact unmet

theorem when {condition : Prop} [Decidable condition] {program : Program World Unit}
    (met : Keeps holds program) : Keeps holds (.when condition program) :=
  ite met done

end Keeps

/-- What a program returns, whatever it reads. -/
def Returns (holds : Value → Prop) : Program World Value → Prop
  | done value => holds value
  | fail => True
  | step _ next => ∀ world, Returns holds (next world)

theorem Returns.bind {holds : Value → Prop} {program : Program World Result}
    {next : Result → Program World Value} (each : ∀ value, Returns holds (next value)) :
    Returns holds (program >>= next) := by
  induction program with
  | done value => exact each value
  | fail => exact trivial
  | step change rest ih => exact ih

theorem Returns.ite {holds : Value → Prop} {condition : Prop} [Decidable condition]
    {yes no : Program World Value} (met : Returns holds yes) (unmet : Returns holds no) :
    Returns holds (if condition then yes else no) := by
  split
  case isTrue => exact met
  case isFalse => exact unmet

end Program

/-! ## Safe programs -/

section Safe

variable {World Event Value Result Item : Type}

/-- What the environment cannot break. -/
def Stable (environment : World → Event → Option World) (holds : World → Prop) : Prop :=
  ∀ world event next, holds world → environment world event = some next → holds next

def Drifts (environment : World → Event → Option World) : World → World → Prop :=
  Relation.ReflTransGen fun world next => ∃ event, environment world event = some next

variable {environment : World → Event → Option World}

theorem Stable.of_drifts {holds : World → Prop} (stable : Stable environment holds)
    {world next : World} (drifts : Drifts environment world next) (before : holds world) :
    holds next := by
  induction drifts with
  | refl => exact before
  | tail _ last ih =>
    obtain ⟨event, moved⟩ := last
    exact stable _ event _ ih moved

/-- The condition holds before every step, and the program ends or fails as said. -/
def Safe (environment : World → Event → Option World) (always : World → Prop)
    (ends : Value → World → Prop) (fails : World → Prop) : Program World Value → World → Prop
  | .done value, world => ends value world
  | .fail, world => fails world
  | .step change next, world => ∀ now, Drifts environment world now →
      always now ∧ Safe environment always ends fails (next now) (change now)

variable {always fails : World → Prop} {ends : Value → World → Prop}

namespace Safe

/-- **A step may assume what holds when it is reached and the environment cannot break.** -/
theorem step {holds : World → Prop} {change : World → World} {next : World → Program World Value}
    {world : World} (stable : Stable environment holds) (before : holds world)
    (kept : ∀ now, holds now → always now)
    (goesOn : ∀ now, holds now → Safe environment always ends fails (next now) (change now)) :
    Safe environment always ends fails (.step change next) world := by
  intro now drifts
  have met : holds now := stable.of_drifts drifts before
  exact ⟨kept now met, goesOn now met⟩

variable {holds : World → Prop} {world : World}

section

variable (stable : Stable environment holds)

include stable

section

variable (before : holds world)

include before

section

variable (kept : ∀ now, holds now → always now)

include kept

theorem read {look : World → Value} (ended : ∀ now, holds now → ends (look now) now) :
    Safe environment always ends fails (.read look) world :=
  step stable before kept ended

theorem modify {change : World → World} {ends : Unit → World → Prop}
    (ended : ∀ now, holds now → ends () (change now)) :
    Safe environment always ends fails (.modify change) world :=
  step stable before kept ended

theorem act {change : World → World × Value}
    (ended : ∀ now, holds now → ends (change now).2 (change now).1) :
    Safe environment always ends fails (.act change) world :=
  step stable before kept ended

theorem modifyOrFail {change : World → Option World} {ends : Unit → World → Prop}
    (ended : ∀ now next, holds now → change now = some next → ends () next)
    (failed : ∀ now, holds now → change now = none → fails now) :
    Safe environment always ends fails (.modifyOrFail change) world := by
  refine step stable before kept ?_
  intro now met
  cases changed : change now with
  | none => exact failed now met changed
  | some next => exact ended now next met changed

theorem readOrFail {look : World → Option Value}
    (ended : ∀ now value, holds now → look now = some value → ends value now)
    (failed : ∀ now, holds now → look now = none → fails now) :
    Safe environment always ends fails (.readOrFail look) world := by
  refine step stable before kept ?_
  intro now met
  cases found : look now with
  | none => exact failed now met found
  | some value => exact ended now value met found

end

end

end

variable {program : Program World Value}

/-- **A program whose every step keeps a condition keeps it.** -/
theorem of_keeps (keeps : program.Keeps holds) (stable : Stable environment holds)
    (before : holds world) (kept : ∀ now, holds now → always now) :
    Safe environment always (fun _ => holds) holds program world := by
  induction program generalizing world with
  | done value => exact before
  | fail => exact before
  | step change next ih =>
    intro now drifts
    have met : holds now := stable.of_drifts drifts before
    exact ⟨kept now met, ih now (keeps now met).2 (keeps now met).1⟩

theorem and_returns {holds : Value → Prop} (safe : Safe environment always ends fails program world)
    (returns : program.Returns holds) :
    Safe environment always (fun value now => ends value now ∧ holds value) fails program
      world := by
  induction program generalizing world with
  | done value => exact ⟨safe, returns⟩
  | fail => exact safe
  | step change next ih =>
    intro now drifts
    exact ⟨(safe now drifts).1, ih now (safe now drifts).2 (returns now)⟩

theorem weaken {ends' : Value → World → Prop} {fails' : World → Prop}
    (safe : Safe environment always ends fails program world)
    (ended : ∀ value now, ends value now → ends' value now)
    (failed : ∀ now, fails now → fails' now) :
    Safe environment always ends' fails' program world := by
  induction program generalizing world with
  | done value => exact ended value world safe
  | fail => exact failed world safe
  | step change next ih =>
    intro now drifts
    exact ⟨(safe now drifts).1, ih now (safe now drifts).2⟩

/-- **A sequence is safe where its second part is, from every end of the first.** -/
theorem bind {middle : Result → World → Prop} {program : Program World Result}
    {next : Result → Program World Value}
    (first : Safe environment always middle fails program world)
    (second : ∀ value now, middle value now →
      Safe environment always ends fails (next value) now) :
    Safe environment always ends fails (program >>= next) world := by
  induction program generalizing world with
  | done value => exact second value world first
  | fail => exact first
  | step change rest ih =>
    intro now drifts
    exact ⟨(first now drifts).1, ih now (first now drifts).2⟩

/-- A sequence, with what holds in the middle said. -/
theorem via (middle : Result → World → Prop) {program : Program World Result}
    {next : Result → Program World Value}
    (first : Safe environment always middle fails program world)
    (second : ∀ value now, middle value now →
      Safe environment always ends fails (next value) now) :
    Safe environment always ends fails (program >>= next) world :=
  bind first second

theorem attempt {middle : World → Prop} {handler : Program World Value}
    (first : Safe environment always ends middle program world)
    (second : ∀ now, middle now → Safe environment always ends fails handler now) :
    Safe environment always ends fails (program.attempt handler) world := by
  induction program generalizing world with
  | done value => exact first
  | fail => exact second world first
  | step change rest ih =>
    intro now drifts
    exact ⟨(first now drifts).1, ih now (first now drifts).2⟩

theorem ite {condition : Prop} [Decidable condition] {yes no : Program World Value}
    (met : condition → Safe environment always ends fails yes world)
    (unmet : ¬ condition → Safe environment always ends fails no world) :
    Safe environment always ends fails (if condition then yes else no) world := by
  by_cases holds : condition
  · rw [if_pos holds]
    exact met holds
  · rw [if_neg holds]
    exact unmet holds

theorem when {condition : Prop} [Decidable condition] {program : Program World Unit}
    {ends : Unit → World → Prop}
    (met : condition → Safe environment always ends fails program world)
    (unmet : ¬ condition → ends () world) :
    Safe environment always ends fails (.when condition program) world :=
  ite met unmet

variable {body : Item → Program World Unit} {items : List Item}

/-- **A loop over a list keeps what each turn keeps**, said with the items that are left. -/
theorem each {holds : List Item → World → Prop} (before : holds items world)
    (turn : ∀ item rest now, item ∈ items → holds (item :: rest) now →
      Safe environment always (fun _ => holds rest) fails (body item) now) :
    Safe environment always (fun _ => holds []) fails (Program.each items body) world := by
  induction items generalizing world with
  | nil => exact before
  | cons item rest ih =>
    refine bind (turn item rest world List.mem_cons_self before) ?_
    intro _ now after
    refine ih after ?_
    intro other later next isMember
    exact turn other later next (List.mem_cons_of_mem item isMember)

theorem eachOf (before : holds world) (turn : ∀ item now, item ∈ items → holds now →
      Safe environment always (fun _ => holds) fails (body item) now) :
    Safe environment always (fun _ => holds) fails (Program.each items body) world := by
  induction items generalizing world with
  | nil => exact before
  | cons item rest ih =>
    refine bind (turn item world List.mem_cons_self before) ?_
    intro _ now after
    exact ih after fun other next isMember => turn other next (List.mem_cons_of_mem item isMember)

theorem fold {holds : Value → World → Prop} {body : Value → Item → Program World Value}
    {start : Value} (before : holds start world)
    (turn : ∀ item value now, item ∈ items → holds value now →
      Safe environment always holds fails (body value item) now) :
    Safe environment always holds fails (Program.fold items start body) world := by
  induction items generalizing start world with
  | nil => exact before
  | cons item rest ih =>
    refine bind (turn item start world List.mem_cons_self before) ?_
    intro value now after
    refine ih after ?_
    intro other value next isMember
    exact turn other value next (List.mem_cons_of_mem item isMember)

end Safe

end Safe

/-! ## Machines -/

/-- What a death loses, and what a process runs when it starts and again while it goes on. -/
structure Machine (World Event : Type) where
  environment : World → Event → Option World
  forget : World → World
  boot : Program World Bool
  cycle : Program World Bool

inductive Activity (World : Type) where
  | down
  | running (program : Program World Bool)

inductive Move (Event : Type) where
  | event (event : Event)
  | advance
  | again
  | death
  | boot

namespace Machine

variable {World Event : Type} (machine : Machine World Event)

/-- One step of the program that runs. -/
def advance (world : World) : Activity World → Option (World × Activity World)
  | .running (.step change next) => some (change world, .running (next world))
  | .running (.done _) | .running .fail | .down => none

/-- A program that says so runs again. -/
def again (world : World) : Activity World → Option (World × Activity World)
  | .running (.done true) => some (world, .running machine.cycle)
  | .running (.done false) | .running .fail | .running (.step _ _) | .down => none

def start (world : World) : Activity World → Option (World × Activity World)
  | .down => some (world, .running machine.boot)
  | .running _ => none

def move (state : World × Activity World) : Move Event → Option (World × Activity World)
  | .event event => (machine.environment state.1 event).map fun world => (world, state.2)
  | .advance => advance state.1 state.2
  | .again => machine.again state.1 state.2
  | .death => some (machine.forget state.1, .down)
  | .boot => machine.start state.1 state.2

def system (initial : World → Prop) : System (World × Activity World) (Move Event) where
  Initial state := initial state.1 ∧ state.2 = .down
  step := machine.move

/-- The condition of a state: that of its world, and that what runs is safe. -/
def Keeps (always loop : World → Prop) (state : World × Activity World) : Prop :=
  always state.1 ∧ ∀ program, state.2 = .running program →
    Safe machine.environment always (fun _ => loop) always program state.1

variable {machine} {always loop : World → Prop} {program : Program World Bool}

theorem safe_of_event (alwaysStable : Stable machine.environment always)
    (loopStable : Stable machine.environment loop) {world next : World} {event : Event}
    (moved : machine.environment world event = some next)
    (safe : Safe machine.environment always (fun _ => loop) always program world) :
    Safe machine.environment always (fun _ => loop) always program next := by
  cases program with
  | done value => exact loopStable world event next safe moved
  | fail => exact alwaysStable world event next safe moved
  | step change rest =>
    intro now drifts
    exact safe now (Relation.ReflTransGen.head ⟨event, moved⟩ drifts)

theorem always_of_safeProgram (loopAlways : ∀ world, loop world → always world) {world : World}
    (safe : Safe machine.environment always (fun _ => loop) always program world) :
    always world := by
  cases program with
  | done value => exact loopAlways world safe
  | fail => exact safe
  | step change rest => exact (safe world Relation.ReflTransGen.refl).1

variable {state : World × Activity World}

theorem keeps_of_initial {initial : World → Prop}
    (initially : ∀ world, initial world → always world)
    (begins : (machine.system initial).Initial state) : machine.Keeps always loop state := by
  refine ⟨initially state.1 begins.1, ?_⟩
  intro program runs
  rw [begins.2] at runs
  cases runs

theorem keeps_of_move {ready : World → Prop} (alwaysStable : Stable machine.environment always)
    (loopStable : Stable machine.environment loop) (loopAlways : ∀ world, loop world → always world)
    (forgets : ∀ world, always world → always (machine.forget world))
    (boots : ∀ world, always world → ready world →
      Safe machine.environment always (fun _ => loop) always machine.boot world)
    (cycles : ∀ world, loop world →
      Safe machine.environment always (fun _ => loop) always machine.cycle world)
    {next : World × Activity World} {move : Move Event} (keeps : machine.Keeps always loop state)
    (allowed : move = .boot → ready state.1) (moved : machine.move state move = some next) :
    machine.Keeps always loop next := by
  obtain ⟨world, activity⟩ := state
  cases move with
  | event event =>
    obtain ⟨after, changed, rfl⟩ := Option.map_eq_some_iff.mp moved
    refine ⟨alwaysStable world event after keeps.1 changed, ?_⟩
    intro program runs
    exact safe_of_event alwaysStable loopStable changed (keeps.2 program runs)
  | advance =>
    rcases activity with - | program
    · cases moved
    cases program with
    | done value => cases moved
    | fail => cases moved
    | step change rest =>
      cases moved
      have safe := (keeps.2 _ rfl world Relation.ReflTransGen.refl).2
      refine ⟨always_of_safeProgram loopAlways safe, ?_⟩
      intro program runs
      obtain rfl := Activity.running.inj runs
      exact safe
  | again =>
    rcases activity with - | program
    · cases moved
    cases program with
    | done value =>
      cases value with
      | false => cases moved
      | true =>
        cases moved
        refine ⟨keeps.1, ?_⟩
        intro program runs
        obtain rfl := Activity.running.inj runs
        exact cycles world (keeps.2 _ rfl)
    | fail => cases moved
    | step change rest => cases moved
  | death =>
    cases moved
    exact ⟨forgets world keeps.1, fun program runs => nomatch runs⟩
  | boot =>
    rcases activity with - | program
    · cases moved
      refine ⟨keeps.1, ?_⟩
      intro program runs
      obtain rfl := Activity.running.inj runs
      exact boots world keeps.1 (allowed rfl)
    · cases moved

/-- With nothing assumed of the worlds the process boots in, of every run. -/
theorem always_of_safe_boot {initial : World → Prop}
    (initially : ∀ world, initial world → always world)
    (alwaysStable : Stable machine.environment always)
    (loopStable : Stable machine.environment loop) (loopAlways : ∀ world, loop world → always world)
    (forgets : ∀ world, always world → always (machine.forget world))
    (boots : ∀ world, always world →
      Safe machine.environment always (fun _ => loop) always machine.boot world)
    (cycles : ∀ world, loop world →
      Safe machine.environment always (fun _ => loop) always machine.cycle world)
    (reached : (machine.system initial).Reachable state) : always state.1 := by
  have keeps : machine.Keeps always loop state := by
    refine reached.invariant ?_ ?_
    · intro first begins
      exact keeps_of_initial initially begins
    · intro before move after kept taken
      exact keeps_of_move alwaysStable loopStable loopAlways forgets
        (fun world holds (_ : True) => boots world holds) cycles kept (fun _ => trivial) taken
  exact keeps.1

end Machine

end TreeOptions
