import TreeOptions.Foundations.Checked

/-!
# What a checked program ensures

A condition on the value that a program returns together with one on the error that it raises
(`Ensures`). A sequence ensures what its second part does from whatever its first part returns
(`Ensures.bind`), and a fold ensures what each of its steps does (`Ensures.foldlM`).
-/

set_option autoImplicit false

namespace TreeOptions.Checked

universe u v w

variable {Error : Type w} {Value Result : Type u}

/-- A condition on what a program returns, if it returns, is decided by running it. -/
instance decidableForallOk {holds : Value → Prop} [DecidablePred holds] :
    (result : Except Error Value) → Decidable (∀ value, result = .ok value → holds value)
  | .ok value =>
    decidable_of_iff (holds value)
      ⟨fun met _ same => Except.ok.inj same ▸ met, fun met => met value rfl⟩
  | .error _ => .isTrue fun _ same => nomatch same

/-- What is returned meets the one condition, and what is raised the other. -/
def Ensures (raises : Error → Prop) (returns : Value → Prop) : Except Error Value → Prop
  | .ok value => returns value
  | .error error => raises error

namespace Ensures

variable {raises : Error → Prop} {returns : Value → Prop} {program : Except Error Value}

section

variable (ensures : Ensures raises returns program)

include ensures

theorem of_ok {value : Value} (ran : program = .ok value) : returns value := by
  rw [ran] at ensures
  exact ensures

theorem of_error {error : Error} (failed : program = .error error) : raises error := by
  rw [failed] at ensures
  exact ensures

/-- Weaker conditions. -/
theorem mono {raises' : Error → Prop} {returns' : Value → Prop}
    (errors : ∀ error, raises error → raises' error)
    (values : ∀ value, returns value → returns' value) : Ensures raises' returns' program := by
  cases program with
  | ok value => exact values value ensures
  | error error => exact errors error ensures

end

/-- **A sequence ensures what its second part does** from whatever its first part returns. -/
theorem bind {middle : Value → Prop} {finally' : Result → Prop} {next : Value → Except Error Result}
    (first : Ensures raises middle program)
    (second : ∀ value, program = .ok value → middle value → Ensures raises finally' (next value)) :
    Ensures raises finally' (program >>= next) := by
  cases program with
  | ok value => exact second value rfl first
  | error error => exact first

theorem ite {condition : Prop} [Decidable condition] {yes no : Except Error Value}
    (met : condition → Ensures raises returns yes)
    (unmet : ¬ condition → Ensures raises returns no) :
    Ensures raises returns (if condition then yes else no) := by
  by_cases holds : condition
  · rw [if_pos holds]
    exact met holds
  · rw [if_neg holds]
    exact unmet holds

/-- **A fold keeps what each of its steps keeps.** -/
theorem foldlM {State : Type u} {Item : Type v} {step : State → Item → Except Error State}
    (holds : State → Prop) {items : List Item} {start : State} (initially : holds start)
    (each : ∀ item ∈ items, ∀ state, holds state → Ensures raises holds (step state item)) :
    Ensures raises holds (items.foldlM step start) := by
  induction items generalizing start with
  | nil => exact initially
  | cons item rest ih =>
    rw [List.foldlM_cons]
    refine bind (each item List.mem_cons_self start initially) fun next _ reached => ?_
    exact ih reached (List.forall_mem_cons.mp each).2

end Ensures

end TreeOptions.Checked
