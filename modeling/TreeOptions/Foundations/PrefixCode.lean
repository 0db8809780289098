import TreeOptions.Foundations.JsonRoundTrip

/-!
# Prefix codes

Texts of which none goes on from another one may be written side by side and told apart again
(`PrefixFree.flatMap_injective`). The texts of JSON objects are such a code
(`prefixFree_text`).
-/

set_option autoImplicit false

namespace TreeOptions

universe u v w

/-- A text at the start of another one says which item it is the text of. -/
def PrefixFree {Item : Type u} {Symbol : Type v} (code : Item → List Symbol) : Prop :=
  ∀ first second rest rest', code first ++ rest = code second ++ rest' →
    first = second ∧ rest = rest'

namespace PrefixFree

variable {Item : Type u} {Symbol : Type v} {code : Item → List Symbol}

theorem comp {Part : Type w} (free : PrefixFree code) {part : Part → Item}
    (injective : Function.Injective part) : PrefixFree fun item => code (part item) := by
  intro first second rest rest' same
  obtain ⟨equal, others⟩ := free _ _ _ _ same
  exact ⟨injective equal, others⟩

/-- **Items are told apart in their texts side by side.** -/
theorem flatMap_injective (free : PrefixFree code) (visible : ∀ item, code item ≠ []) :
    Function.Injective (List.flatMap code) := by
  intro first
  induction first with
  | nil =>
    intro second same
    cases second with
    | nil => rfl
    | cons item rest =>
      rw [List.flatMap_nil, List.flatMap_cons] at same
      exact absurd (List.append_eq_nil_iff.mp same.symm).1 (visible item)
  | cons item rest ih =>
    intro second same
    cases second with
    | nil =>
      rw [List.flatMap_nil, List.flatMap_cons] at same
      exact absurd (List.append_eq_nil_iff.mp same).1 (visible item)
    | cons item' rest' =>
      rw [List.flatMap_cons, List.flatMap_cons] at same
      obtain ⟨rfl, others⟩ := free _ _ _ _ same
      rw [ih others]

end PrefixFree

namespace Json

/-- An object without floats. -/
@[ext] structure PlainObject where
  members : List (String × Value)
  plain : Plain (.obj members)

def PlainObject.text (object : PlainObject) : List Char :=
  dumps (.obj object.members)

theorem PlainObject.text_append {first second : PlainObject} {rest : List Char}
    (longer : first.text ++ rest = second.text) : rest = [] := by
  by_contra more
  have refused := loads_take_dumps_obj second.plain longer more
  rw [PlainObject.text, loads_dumps first.plain] at refused
  cases refused

/-- **The texts of objects are a prefix code.** -/
theorem prefixFree_text : PrefixFree PlainObject.text := by
  intro first second rest rest' same
  have texts : first.text = second.text := by
    rcases List.append_eq_append_iff.mp same with ⟨more, longer, -⟩ | ⟨more, longer, -⟩
    · rw [PlainObject.text_append longer.symm, List.append_nil] at longer
      exact longer.symm
    · rw [PlainObject.text_append longer.symm, List.append_nil] at longer
      exact longer
  have members := dumps_injOn first.plain second.plain texts
  injection members with members
  refine ⟨PlainObject.ext members, ?_⟩
  rw [texts] at same
  exact List.append_cancel_left same

theorem PlainObject.text_ne_nil (object : PlainObject) : object.text ≠ [] := by
  rw [PlainObject.text, dumps]
  exact List.cons_ne_nil _ _

end Json

end TreeOptions
