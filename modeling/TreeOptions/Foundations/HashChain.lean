import Mathlib.Data.List.Induction

/-!
# Hash-chained records

Every record names the digest of the record before it and stores its own digest.
The first record names a fixed genesis value. `Chained` says that both hold all
along a list, and `tail` is the digest the next record has to name.

When no two records share a digest and no record has the genesis value for its
digest (`CollisionFree`), the tail pins down the whole history
(`eq_of_tail_eq`): two chains with one tail are one chain. So a record that was
built from a view and is accepted because it names the tail extends that very view
(`Offered.continues`), whatever happened in between.
-/

set_option autoImplicit false

namespace TreeOptions

universe u v

structure Linking (Record : Type u) (Digest : Type v) where
  genesis : Digest
  prev : Record → Digest
  stored : Record → Digest
  digest : Record → Digest

namespace Linking

variable {Record : Type u} {Digest : Type v} (linking : Linking Record Digest)

/-- The record names the tail and stores its own digest. -/
def Follows (tail : Digest) (record : Record) : Prop :=
  linking.prev record = tail ∧ linking.stored record = linking.digest record

instance [DecidableEq Digest] (tail : Digest) (record : Record) :
    Decidable (linking.Follows tail record) :=
  inferInstanceAs (Decidable (_ ∧ _))

def tailFrom (start : Digest) : List Record → Digest
  | [] => start
  | record :: rest => tailFrom (linking.stored record) rest

/-- The tail of a whole history. -/
def tail (records : List Record) : Digest :=
  linking.tailFrom linking.genesis records

/-- Every record follows the ones before it. -/
def ChainedFrom (start : Digest) : List Record → Prop
  | [] => True
  | record :: rest => linking.Follows start record ∧ ChainedFrom (linking.stored record) rest

def Chained (records : List Record) : Prop :=
  linking.ChainedFrom linking.genesis records

/-- No record shares its digest with another record or with the genesis value.
The stored digest is not part of what is digested. -/
structure CollisionFree : Prop where
  injective : ∀ first second, linking.digest first = linking.digest second →
    linking.stored first = linking.stored second → first = second
  fresh : ∀ record, linking.digest record ≠ linking.genesis

variable {linking}

theorem tailFrom_append (start : Digest) (first second : List Record) :
    linking.tailFrom start (first ++ second) =
      linking.tailFrom (linking.tailFrom start first) second := by
  induction first generalizing start with
  | nil => rfl
  | cons record rest ih => exact ih _

theorem chainedFrom_append {start : Digest} {first second : List Record} :
    linking.ChainedFrom start (first ++ second) ↔
      linking.ChainedFrom start first ∧
        linking.ChainedFrom (linking.tailFrom start first) second := by
  induction first generalizing start with
  | nil => simp [ChainedFrom, tailFrom]
  | cons record rest ih => simp [ChainedFrom, tailFrom, ih, and_assoc]

@[simp] theorem tail_nil : linking.tail [] = linking.genesis := rfl

@[simp] theorem chained_nil : linking.Chained [] := trivial

@[simp] theorem tail_concat (records : List Record) (record : Record) :
    linking.tail (records ++ [record]) = linking.stored record := by
  rw [tail, tailFrom_append]
  rfl

theorem chained_concat {records : List Record} {record : Record} :
    linking.Chained (records ++ [record]) ↔
      linking.Chained records ∧ linking.Follows (linking.tail records) record := by
  rw [Chained, chainedFrom_append]
  simp [ChainedFrom, Chained, tail]

/-- **The tail pins down the whole history.** -/
theorem eq_of_tail_eq (free : linking.CollisionFree) {first second : List Record}
    (chained : linking.Chained first) (chained' : linking.Chained second)
    (same : linking.tail first = linking.tail second) : first = second := by
  induction first using List.reverseRecOn generalizing second with
  | nil =>
    rcases List.eq_nil_or_concat second with rfl | ⟨rest, record, rfl⟩
    · rfl
    · rw [List.concat_eq_append] at *
      have follows := (chained_concat.mp chained').2
      rw [tail_nil, tail_concat, follows.2] at same
      exact absurd same.symm (free.fresh record)
  | append_singleton rest record ih =>
    have follows := (chained_concat.mp chained).2
    rcases List.eq_nil_or_concat second with rfl | ⟨rest', record', rfl⟩
    · rw [tail_nil, tail_concat, follows.2] at same
      exact absurd same (free.fresh record)
    · rw [List.concat_eq_append] at *
      have follows' := (chained_concat.mp chained').2
      rw [tail_concat, tail_concat] at same
      have equal : record = record' := by
        refine free.injective record record' ?_ same
        rw [← follows.2, ← follows'.2, same]
      have before : linking.tail rest = linking.tail rest' := by
        rw [← follows.1, ← follows'.1, equal]
      rw [ih (chained_concat.mp chained).1 (chained_concat.mp chained').1 before, equal]

/-! ## Offers -/

/-- A record that was built from a view whose tail it names. -/
def Offered (linking : Linking Record Digest) (continues : List Record → Record → Prop)
    (record : Record) : Prop :=
  ∃ view, linking.Chained view ∧ linking.prev record = linking.tail view ∧ continues view record

/-- **An offer that names the tail of a history was built from that history.** -/
theorem Offered.continues (free : linking.CollisionFree)
    {continues' : List Record → Record → Prop} {record : Record}
    (offered : linking.Offered continues' record) {records : List Record}
    (chained : linking.Chained records) (named : linking.prev record = linking.tail records) :
    continues' records record := by
  obtain ⟨view, viewChained, viewNamed, built⟩ := offered
  obtain rfl : view = records := eq_of_tail_eq free viewChained chained (viewNamed.symm.trans named)
  exact built

end Linking

end TreeOptions
