import Mathlib.Algebra.Order.BigOperators.Group.List
import Mathlib.Order.Interval.Finset.Nat
import TreeOptions.Foundations.Grouping

/-!
# Half-open intervals

A list of half-open intervals, sorted by where they start, is merged into one that
covers the same points (`covers_merge`). Intervals no two of which overlap have as many
points as they cover (`sum_length`).
-/

set_option autoImplicit false

namespace TreeOptions.Intervals

universe u

variable {Point : Type u} [LinearOrder Point]

/-! ## Merging -/

def Covers (intervals : List (Point × Point)) (point : Point) : Prop :=
  ∃ interval ∈ intervals, interval.1 ≤ point ∧ point < interval.2

variable {rest : List (Point × Point)} {point : Point}

theorem covers_cons {interval : Point × Point} : Covers (interval :: rest) point ↔
      (interval.1 ≤ point ∧ point < interval.2) ∨ Covers rest point := by
  simp [Covers]

/-- The interval that still grows, and the intervals after it. -/
def mergeFrom (last : Point × Point) : List (Point × Point) → List (Point × Point)
  | [] => [last]
  | (first, stop) :: rest =>
    if last.2 < first then last :: mergeFrom (first, stop) rest
    else mergeFrom (last.1, max last.2 stop) rest

/-- Merge intervals in the order of their starts. -/
def merge : List (Point × Point) → List (Point × Point)
  | [] => []
  | first :: rest => mergeFrom first rest

theorem covers_mergeFrom {last : Point × Point}
    (sorted : (last :: rest).Pairwise fun first second => first.1 ≤ second.1) :
    Covers (mergeFrom last rest) point ↔ Covers (last :: rest) point := by
  induction rest generalizing last with
  | nil => rfl
  | cons interval rest ih =>
    obtain ⟨first, stop⟩ := interval
    obtain ⟨least, sorted'⟩ := List.pairwise_cons.mp sorted
    have later : last.1 ≤ first := least _ List.mem_cons_self
    rw [mergeFrom]
    split
    case isTrue => rw [covers_cons, ih sorted', ← covers_cons]
    case isFalse joined =>
      have grown : ((last.1, max last.2 stop) :: rest).Pairwise
          fun first second => first.1 ≤ second.1 := by
        refine List.pairwise_cons.mpr ⟨?_, (List.pairwise_cons.mp sorted').2⟩
        intro other member
        exact least other (List.mem_cons_of_mem _ member)
      rw [ih grown, covers_cons, covers_cons, covers_cons, ← or_assoc]
      refine or_congr ?_ Iff.rfl
      simp only [lt_max_iff]
      constructor
      · rintro ⟨above, below | below⟩
        · exact .inl ⟨above, below⟩
        · rcases lt_or_ge point last.2 with inside | outside
          · exact .inl ⟨above, inside⟩
          · exact .inr ⟨(not_lt.mp joined).trans outside, below⟩
      · rintro (⟨above, below⟩ | ⟨above, below⟩)
        · exact ⟨above, .inl below⟩
        · exact ⟨later.trans above, .inr below⟩

/-- **Merging keeps the points that are covered.** -/
theorem covers_merge {intervals : List (Point × Point)}
    (sorted : intervals.Pairwise fun first second => first.1 ≤ second.1) :
    Covers (merge intervals) point ↔ Covers intervals point := by
  cases intervals with
  | nil => rfl
  | cons first rest => exact covers_mergeFrom sorted

/-! ## Overlaps -/

/-- Two intervals share more than an end. -/
def Overlap (first second : Point × Point) : Prop :=
  first.1 < second.2 ∧ second.1 < first.2

instance (first second : Point × Point) : Decidable (Overlap first second) :=
  inferInstanceAs (Decidable (_ ∧ _))

theorem Overlap.symm {first second : Point × Point} (overlap : Overlap first second) :
    Overlap second first :=
  ⟨overlap.2, overlap.1⟩

/-- Intervals that do not overlap share no point. -/
theorem disjoint_of_not_overlap {first second : ℕ × ℕ} (apart : ¬ Overlap first second) :
    Disjoint (Finset.Ico first.1 first.2) (Finset.Ico second.1 second.2) := by
  rw [Finset.disjoint_left]
  intro point inFirst inSecond
  rw [Finset.mem_Ico] at inFirst inSecond
  exact apart ⟨by omega, by omega⟩

/-- **Intervals no two of which overlap have as many points as they cover.** -/
theorem sum_length {intervals : List (ℕ × ℕ)} {points : Finset ℕ}
    (apart : intervals.Pairwise fun first second => ¬ Overlap first second)
    (covered : ∀ point, point ∈ points ↔ Covers intervals point) :
    (intervals.map fun interval => interval.2 - interval.1).sum = points.card := by
  induction intervals generalizing points with
  | nil =>
    have nothing : points = ∅ := by
      ext point
      simp [covered, Covers]
    rw [nothing]
    rfl
  | cons interval rest ih =>
    obtain ⟨fromRest, apart'⟩ := List.pairwise_cons.mp apart
    have split : points =
        Finset.Ico interval.1 interval.2 ∪ (points \ Finset.Ico interval.1 interval.2) := by
      refine (Finset.union_sdiff_of_subset ?_).symm
      intro point inside
      rw [covered, covers_cons]
      exact .inl (Finset.mem_Ico.mp inside)
    have others : ∀ point,
        point ∈ points \ Finset.Ico interval.1 interval.2 ↔ Covers rest point := by
      intro point
      rw [Finset.mem_sdiff, covered, covers_cons, Finset.mem_Ico]
      constructor
      · rintro ⟨inside | inside, outside⟩
        · exact absurd inside outside
        · exact inside
      · intro inside
        refine ⟨.inr inside, ?_⟩
        obtain ⟨other, member, within⟩ := inside
        intro within'
        have disjoint := disjoint_of_not_overlap (fromRest other member)
        exact Finset.disjoint_left.mp disjoint (Finset.mem_Ico.mpr within')
          (Finset.mem_Ico.mpr within)
    rw [List.map_cons, List.sum_cons, ih apart' others, split,
      Finset.card_union_of_disjoint Finset.disjoint_sdiff, Nat.card_Ico]
    rw [← split]

end TreeOptions.Intervals
