import Mathlib.Data.List.Infix

/-!
# The final run of a list

The final run of a list is the longest part at its end of which every item is good. There is
exactly one (`exists_finalRun`, `FinalRun.unique`), a counter that starts again at each item that
is not good counts it (`FinalRun.counted`), and it grows with what is good (`FinalRun.mono`).
-/

set_option autoImplicit false

namespace TreeOptions

universe u

variable {Item : Type u}

/-- The items at the end of a list that are all good, up to one that is not. -/
structure FinalRun (good : Item → Prop) (items run : List Item) : Prop where
  isSuffix : run <:+ items
  all_good : ∀ item ∈ run, good item
  longest : ∀ longer, longer <:+ items → (∀ item ∈ longer, good item) → longer <:+ run

variable {good : Item → Prop} {items run : List Item} {item : Item}

theorem finalRun_nil (good : Item → Prop) : FinalRun good [] [] :=
  ⟨List.suffix_rfl, List.forall_mem_nil _, fun _ isSuffix _ => isSuffix⟩

theorem suffix_concat_iff {longer : List Item} :
    longer <:+ items ++ [item] ↔ longer = [] ∨ ∃ rest, rest <:+ items ∧ longer = rest ++ [item] := by
  constructor
  · rintro ⟨before, same⟩
    rcases longer.eq_nil_or_concat with rfl | ⟨rest, last, rfl⟩
    · exact Or.inl rfl
    · rw [List.concat_eq_append, ← List.append_assoc] at same
      obtain ⟨sameItems, sameLast⟩ := List.append_inj' same rfl
      refine Or.inr ⟨rest, ⟨before, sameItems⟩, ?_⟩
      rw [List.concat_eq_append, sameLast]
  · rintro (rfl | ⟨rest, ⟨before, rfl⟩, rfl⟩)
    · exact List.nil_suffix
    · exact ⟨before, by rw [List.append_assoc]⟩

theorem FinalRun.concat_of_good (final : FinalRun good items run) (isGood : good item) :
    FinalRun good (items ++ [item]) (run ++ [item]) := by
  refine ⟨suffix_concat_iff.mpr (Or.inr ⟨run, final.isSuffix, rfl⟩), ?_, ?_⟩
  · exact List.forall_mem_append.mpr ⟨final.all_good, List.forall_mem_singleton.mpr isGood⟩
  · intro longer isSuffix allGood
    rcases suffix_concat_iff.mp isSuffix with rfl | ⟨rest, restSuffix, rfl⟩
    · exact List.nil_suffix
    · have restGood : ∀ other ∈ rest, good other := by
        intro other inside
        exact allGood other (List.mem_append_left _ inside)
      obtain ⟨before, same⟩ := final.longest rest restSuffix restGood
      exact ⟨before, by rw [← List.append_assoc, same]⟩

theorem finalRun_concat_of_bad (isBad : ¬ good item) : FinalRun good (items ++ [item]) [] := by
  refine ⟨List.nil_suffix, List.forall_mem_nil _, ?_⟩
  intro longer isSuffix allGood
  rcases suffix_concat_iff.mp isSuffix with rfl | ⟨rest, -, rfl⟩
  · exact List.suffix_rfl
  · exact absurd (allGood item (List.mem_append_right _ (List.mem_singleton_self item))) isBad

theorem exists_finalRun (good : Item → Prop) (items : List Item) :
    ∃ run, FinalRun good items run := by
  induction items using List.reverseRecOn with
  | nil => exact ⟨[], finalRun_nil good⟩
  | append_singleton items item ih =>
    obtain ⟨run, final⟩ := ih
    by_cases isGood : good item
    · exact ⟨_, final.concat_of_good isGood⟩
    · exact ⟨_, finalRun_concat_of_bad isGood⟩

theorem FinalRun.unique {other : List Item} (final : FinalRun good items run)
    (final' : FinalRun good items other) : run = other := by
  have within := final'.longest run final.isSuffix final.all_good
  have within' := final.longest other final'.isSuffix final'.all_good
  exact within.eq_of_length (le_antisymm within.length_le within'.length_le)

/-- **A counter that starts again at each item that is not good counts the final run.** -/
theorem FinalRun.counted {count : ℕ → Item → ℕ} (up : ∀ run item, good item →
      count run item = run + 1) (back : ∀ run item, ¬ good item → count run item = 0)
    (final : FinalRun good items run) : items.foldl count 0 = run.length := by
  induction items using List.reverseRecOn generalizing run with
  | nil =>
    rw [final.unique (finalRun_nil good)]
    rfl
  | append_singleton items item ih =>
    obtain ⟨shorter, finalShorter⟩ := exists_finalRun good items
    rw [List.foldl_append, List.foldl_cons, List.foldl_nil, ih finalShorter]
    by_cases isGood : good item
    · rw [up _ _ isGood, final.unique (finalShorter.concat_of_good isGood), List.length_append,
        List.length_singleton]
    · rw [back _ _ isGood, final.unique (finalRun_concat_of_bad isGood), List.length_nil]

theorem FinalRun.mono {better : Item → Prop} {run' : List Item} (final : FinalRun good items run)
    (final' : FinalRun better items run') (implies : ∀ item ∈ run, good item → better item) :
    run <:+ run' := by
  apply final'.longest run final.isSuffix
  intro item member
  exact implies item member (final.all_good item member)

theorem FinalRun.of_append {before : List Item} (final : FinalRun good (before ++ items) run)
    (bad : ∀ item ∈ before, ¬ good item) : FinalRun good items run := by
  have inside : run <:+ items := by
    rcases List.suffix_or_suffix_of_suffix final.isSuffix (List.suffix_append before items) with
      inside | around
    · exact inside
    · obtain ⟨more, rfl⟩ := around
      obtain ⟨first, same⟩ := final.isSuffix
      rw [← List.append_assoc] at same
      have fronts : first ++ more = before := List.append_cancel_right same
      rcases more with - | ⟨item, rest⟩
      · exact List.suffix_rfl
      · have member : item ∈ before := by
          rw [← fronts]
          exact List.mem_append_right _ List.mem_cons_self
        exact absurd (final.all_good item (List.mem_append_left _ List.mem_cons_self))
          (bad item member)
  refine ⟨inside, final.all_good, ?_⟩
  intro longer isSuffix allGood
  exact final.longest longer (isSuffix.trans (List.suffix_append before items)) allGood

end TreeOptions
