import Mathlib.Algebra.BigOperators.Group.List.Basic
import Mathlib.Algebra.GroupWithZero.Nat
import Mathlib.Algebra.Ring.Int.Defs
import Mathlib.Data.List.Dedup
import Mathlib.Data.List.MinMax
import Mathlib.Data.List.Sort

/-!
# Lists sorted and grouped by a key

A stable sort by a key (`sortedBy`), the distinct keys of a list in the order of their
first use (`firstSeen`), and the groups of a list by key (`groupBy`).

Sorting gives one result for every order of the same items as long as no two of them
share a key (`sortedBy_eq_of_perm`), and a sum over the groups is a sum over the items
(`sum_groupBy`).
-/

set_option autoImplicit false

namespace TreeOptions

universe u v w

variable {Item : Type u} {Key : Type v}

/-! ## Sorting -/

section Sorting

variable [LinearOrder Key]

/-- The items in ascending order of their keys. Items of one key keep their order. -/
def sortedBy (key : Item → Key) (items : List Item) : List Item :=
  items.insertionSort fun first second => key first ≤ key second

theorem sortedBy_perm (key : Item → Key) (items : List Item) :
    (sortedBy key items).Perm items :=
  List.perm_insertionSort _ items

@[simp] theorem mem_sortedBy {key : Item → Key} {items : List Item} {item : Item} :
    item ∈ sortedBy key items ↔ item ∈ items :=
  (sortedBy_perm key items).mem_iff

theorem sortedBy_eq_nil {key : Item → Key} {items : List Item} :
    sortedBy key items = [] ↔ items = [] := by
  constructor
  · intro nothing
    exact List.Perm.eq_nil (nothing ▸ (sortedBy_perm key items).symm)
  · rintro rfl
    rfl

theorem pairwise_sortedBy (key : Item → Key) (items : List Item) :
    (sortedBy key items).Pairwise fun first second => key first ≤ key second := by
  have total : Std.Total fun first second : Item => key first ≤ key second :=
    ⟨fun first second => le_total (key first) (key second)⟩
  have trans : IsTrans Item fun first second => key first ≤ key second :=
    ⟨fun _ _ _ => le_trans⟩
  exact List.pairwise_insertionSort _ items

/-- One item is put at its place among items that are sorted. -/
theorem filter_orderedInsert (key : Item → Key) (condition : Item → Bool) (item : Item)
    {others : List Item}
    (ordered : others.Pairwise fun first second => key first ≤ key second) :
    (others.orderedInsert (fun first second => key first ≤ key second) item).filter condition =
      if condition item then
        (others.filter condition).orderedInsert (fun first second => key first ≤ key second) item
      else others.filter condition := by
  induction others with
  | nil => by_cases selected : condition item <;> simp [selected]
  | cons other later ih =>
    obtain ⟨below, ordered'⟩ := List.pairwise_cons.mp ordered
    rw [List.orderedInsert_cons]
    by_cases le : key item ≤ key other
    · rw [if_pos le]
      split
      case isTrue selected =>
        rw [List.filter_cons_of_pos selected]
        cases first : (other :: later).filter condition with
        | nil => rfl
        | cons next others =>
          have isMember : next ∈ other :: later := by
            refine List.mem_of_mem_filter (p := condition) ?_
            rw [first]
            exact List.mem_cons_self
          have atLeast : key item ≤ key next := by
            rcases List.mem_cons.mp isMember with rfl | isLater
            · exact le
            · exact le.trans (below next isLater)
          rw [List.orderedInsert_cons, if_pos atLeast]
      case isFalse dropped => rw [List.filter_cons_of_neg dropped]
    · rw [if_neg le]
      by_cases keeps : condition other
      · rw [List.filter_cons_of_pos keeps, ih ordered', List.filter_cons_of_pos keeps]
        split
        case isTrue => rw [List.orderedInsert_cons, if_neg le]
        case isFalse => rfl
      · rw [List.filter_cons_of_neg keeps, ih ordered', List.filter_cons_of_neg keeps]

/-- **Sorting what a condition selects is selecting from what is sorted.** -/
theorem filter_sortedBy (key : Item → Key) (condition : Item → Bool) (items : List Item) :
    (sortedBy key items).filter condition = sortedBy key (items.filter condition) := by
  induction items with
  | nil => rfl
  | cons item rest ih =>
    change ((sortedBy key rest).orderedInsert _ item).filter condition = _
    rw [filter_orderedInsert key condition item (pairwise_sortedBy key rest), ih]
    by_cases selected : condition item
    · rw [if_pos selected, List.filter_cons_of_pos selected]
      rfl
    · rw [if_neg selected, List.filter_cons_of_neg selected]

/-- **Items with distinct keys are sorted alike in whatever order they come.** -/
theorem sortedBy_eq_of_perm {key : Item → Key} {first second : List Item}
    (same : first.Perm second)
    (distinct : ∀ a ∈ first, ∀ b ∈ first, key a = key b → a = b) :
    sortedBy key first = sortedBy key second := by
  have perm : (sortedBy key first).Perm (sortedBy key second) :=
    ((sortedBy_perm key first).trans same).trans (sortedBy_perm key second).symm
  refine perm.eq_of_pairwise ?_ (pairwise_sortedBy key first) (pairwise_sortedBy key second)
  intro a b memberA memberB below above
  rw [mem_sortedBy] at memberA memberB
  exact distinct a memberA b (same.mem_iff.mpr memberB) (le_antisymm below above)

theorem sortedBy_of_same {key : Item → Key} {items : List Item}
    (same : ∀ a ∈ items, ∀ b ∈ items, key a = key b) : sortedBy key items = items := by
  refine List.Pairwise.insertionSort_eq (List.pairwise_of_forall_mem_list ?_)
  intro a memberA b memberB
  exact (same a memberA b memberB).le

/-- **Sorting does not depend on the order of the items just where their keys are distinct.** -/
theorem sortedBy_perm_iff {key : Item → Key} {items : List Item} :
    (∀ others : List Item, others.Perm items → sortedBy key others = sortedBy key items) ↔
      ∀ a ∈ items, ∀ b ∈ items, key a = key b → a = b := by
  constructor
  · intro alike a memberA b memberB sameKey
    -- with one of them at the front it is also the first of its key when sorted
    have first : ∀ item ∈ items, key item = key a →
        ((sortedBy key items).filter fun other => key other = key a).head? = some item := by
      intro item member isKey
      obtain ⟨front, back, split⟩ := List.append_of_mem member
      have perm : (item :: (front ++ back)).Perm items := by
        rw [split]
        exact List.perm_middle.symm
      rw [← alike _ perm, filter_sortedBy, sortedBy_of_same, List.filter_cons_of_pos]
      · rfl
      · exact decide_eq_true isKey
      · intro other isOther other' isOther'
        rw [of_decide_eq_true (List.mem_filter.mp isOther).2,
          of_decide_eq_true (List.mem_filter.mp isOther').2]
    exact Option.some.inj ((first a memberA rfl).symm.trans (first b memberB sameKey.symm))
  · intro distinct others perm
    exact (sortedBy_eq_of_perm perm.symm distinct).symm

theorem exists_append_of_sorted {key : Item → Key} {items : List Item}
    (sorted : items.Pairwise fun first second => key first ≤ key second) (bound : Key) :
    ∃ back, items = (items.filter fun item => key item < bound) ++ back := by
  induction items with
  | nil => exact ⟨[], rfl⟩
  | cons item rest ih =>
    obtain ⟨atLeast, sorted⟩ := List.pairwise_cons.mp sorted
    by_cases below : key item < bound
    · obtain ⟨back, isRest⟩ := ih sorted
      refine ⟨back, ?_⟩
      rw [List.filter_cons_of_pos (by simpa using below), List.cons_append, ← isRest]
    · have nothing : (item :: rest).filter (fun item => key item < bound) = [] := by
        rw [List.filter_eq_nil_iff]
        intro other member
        have least : key item ≤ key other := by
          rcases List.mem_cons.mp member with rfl | later
          · exact le_refl _
          · exact atLeast other later
        simpa using (not_lt.mp below).trans least
      exact ⟨item :: rest, by rw [nothing, List.nil_append]⟩

section Rank

variable [DecidableEq Item] {key : Item → Key} {items all : List Item} {item : Item}

theorem idxOf_of_strict
    (sorted : items.Pairwise fun earlier later => key earlier < key later) (member : item ∈ items) :
    items.idxOf item = (items.filter fun other => key other < key item).length := by
  induction items with
  | nil => cases member
  | cons head rest ih =>
    obtain ⟨above, sorted⟩ := List.pairwise_cons.mp sorted
    by_cases same : head = item
    · have nothing : rest.filter (fun other => key other < key item) = [] := by
        rw [List.filter_eq_nil_iff]
        intro other inRest
        rw [← same]
        simpa using (above other inRest).le
      rw [same, List.idxOf_cons_self, List.filter_cons_of_neg (by simp), nothing,
        List.length_nil]
    · have later : item ∈ rest := by
        rcases List.mem_cons.mp member with isHead | inRest
        · exact absurd isHead.symm same
        · exact inRest
      rw [List.idxOf_cons_ne _ same, ih sorted later,
        List.filter_cons_of_pos (by simpa using above item later), List.length_cons]

/-- **An item has the same place in a part of a list just where the part has all items before
it.** -/
theorem idxOf_eq_iff (sorted : items.Pairwise fun earlier later => key earlier < key later)
    (sortedAll : all.Pairwise fun earlier later => key earlier < key later)
    (inside : items ⊆ all) (member : item ∈ items) :
    items.idxOf item = all.idxOf item ↔
      ∀ other ∈ all, key other < key item → other ∈ items := by
  have unique : ∀ {list : List Item},
      (list.Pairwise fun earlier later => key earlier < key later) → list.Nodup := by
    intro list strict
    refine strict.imp ?_
    rintro earlier later less rfl
    exact lt_irrefl _ less
  rw [idxOf_of_strict sorted member, idxOf_of_strict sortedAll (inside member)]
  have below : (items.filter fun other => key other < key item) ⊆
      all.filter fun other => key other < key item := by
    intro other isBelow
    rw [List.mem_filter] at isBelow ⊢
    exact ⟨inside isBelow.1, isBelow.2⟩
  have part := List.subperm_of_subset ((unique sorted).filter _) below
  constructor
  · intro same other inAll less
    have perm := part.perm_of_length_le same.ge
    have isBelow : other ∈ all.filter fun other => key other < key item :=
      List.mem_filter.mpr ⟨inAll, decide_eq_true less⟩
    exact List.mem_of_mem_filter (perm.mem_iff.mpr isBelow)
  · intro complete
    have back : (all.filter fun other => key other < key item) ⊆
        items.filter fun other => key other < key item := by
      intro other isBelow
      obtain ⟨inAll, less⟩ := List.mem_filter.mp isBelow
      exact List.mem_filter.mpr ⟨complete other inAll (of_decide_eq_true less), less⟩
    have whole := List.subperm_of_subset ((unique sortedAll).filter _) back
    exact le_antisymm part.length_le whole.length_le

end Rank

/-- **The neighbours of a list in strict order** are two items with nothing between them. -/
theorem mem_zip_tail {key : Item → Key} {items : List Item} {first second : Item}
    (sorted : items.Pairwise fun earlier later => key earlier < key later) :
    (first, second) ∈ items.zip items.tail ↔ first ∈ items ∧ second ∈ items ∧
      key first < key second ∧
        ∀ other ∈ items, ¬ (key first < key other ∧ key other < key second) := by
  induction items with
  | nil => simp
  | cons head rest ih =>
    obtain ⟨below, sorted⟩ := List.pairwise_cons.mp sorted
    cases rest with
    | nil =>
      constructor
      · intro member
        cases member
      · rintro ⟨isFirst, isSecond, less, -⟩
        rw [List.mem_singleton.mp isFirst, List.mem_singleton.mp isSecond] at less
        exact (lt_irrefl _ less).elim
    | cons next more =>
      have above := (List.pairwise_cons.mp sorted).1
      have pairs : (head :: next :: more).zip (head :: next :: more).tail =
          (head, next) :: (next :: more).zip (next :: more).tail := rfl
      rw [pairs, List.mem_cons, Prod.mk.injEq, ih sorted]
      constructor
      · rintro (⟨rfl, rfl⟩ | ⟨inFirst, inSecond, less, apart⟩)
        · refine ⟨List.mem_cons_self, List.mem_cons_of_mem _ List.mem_cons_self,
            below _ List.mem_cons_self, ?_⟩
          rintro other member ⟨low, high⟩
          rcases List.mem_cons.mp member with rfl | member
          · exact lt_irrefl _ low
          rcases List.mem_cons.mp member with rfl | member
          · exact lt_irrefl _ high
          · exact lt_asymm high (above other member)
        · refine ⟨List.mem_cons_of_mem _ inFirst, List.mem_cons_of_mem _ inSecond, less, ?_⟩
          rintro other member ⟨low, high⟩
          rcases List.mem_cons.mp member with rfl | member
          · exact lt_asymm low (below first inFirst)
          · exact apart other member ⟨low, high⟩
      · rintro ⟨inFirst, inSecond, less, apart⟩
        rcases List.mem_cons.mp inFirst with rfl | inRest
        · rcases List.mem_cons.mp inSecond with rfl | inSecond
          · exact (lt_irrefl _ less).elim
          rcases List.mem_cons.mp inSecond with rfl | later
          · exact .inl ⟨rfl, rfl⟩
          · exact (apart next (List.mem_cons_of_mem _ List.mem_cons_self)
              ⟨below _ List.mem_cons_self, above second later⟩).elim
        · refine .inr ⟨inRest, ?_, less,
            (List.forall_mem_cons.mp apart).2⟩
          rcases List.mem_cons.mp inSecond with rfl | inSecond'
          · exact (lt_asymm less (below first inRest)).elim
          · exact inSecond'

theorem find?_reverse_sortedBy {condition : Key → Bool} {keys : List Key} {key : Key} :
    (sortedBy id keys).reverse.find? condition = some key ↔
      key ∈ keys ∧ condition key = true ∧ ∀ other ∈ keys, condition other = true → other ≤ key := by
  have descending : (sortedBy id keys).reverse.Pairwise fun first second => second ≤ first :=
    List.pairwise_reverse.mpr (pairwise_sortedBy id keys)
  have greatest : ∀ {key}, (sortedBy id keys).reverse.find? condition = some key →
      ∀ other ∈ keys, condition other = true → other ≤ key := by
    intro key found other member meets
    obtain ⟨_, before, after, split, skipped⟩ := List.find?_eq_some_iff_append.mp found
    have inside : other ∈ before ++ key :: after := by
      rw [← split, List.mem_reverse, mem_sortedBy]
      exact member
    rw [split] at descending
    rcases List.mem_append.mp inside with early | late
    · have refused := skipped other early
      rw [meets] at refused
      cases refused
    · rcases List.mem_cons.mp late with rfl | later
      · exact le_rfl
      · exact (List.pairwise_cons.mp (List.pairwise_append.mp descending).2.1).1 other later
  constructor
  · intro found
    have member := List.mem_of_find?_eq_some found
    rw [List.mem_reverse, mem_sortedBy] at member
    exact ⟨member, List.find?_some found, greatest found⟩
  · rintro ⟨member, meets, latest⟩
    have present : ((sortedBy id keys).reverse.find? condition).isSome := by
      rw [List.find?_isSome]
      exact ⟨key, by rwa [List.mem_reverse, mem_sortedBy], meets⟩
    obtain ⟨other, found⟩ := Option.isSome_iff_exists.mp present
    have member' := List.mem_of_find?_eq_some found
    rw [List.mem_reverse, mem_sortedBy] at member'
    rw [found, le_antisymm (latest other member' (List.find?_some found))
      (greatest found key member meets)]

/-- **Lists that two keys sort alike have the same parts in the same order.** -/
theorem map_eq_of_sorted {Part : Type w} {key key' : Item → Key} {part : Item → Part}
    {first second : List Item} (sorted : first.Pairwise fun a b => key a ≤ key b)
    (sorted' : second.Pairwise fun a b => key' a ≤ key' b) (parts : (first.map part).Nodup)
    (perm : (first.map part).Perm (second.map part))
    (distinct : ∀ a ∈ first, ∀ b ∈ first, key a = key b → a = b)
    (order : ∀ a ∈ first, ∀ b ∈ first, ∀ a' ∈ second, ∀ b' ∈ second, part a' = part a →
      part b' = part b → key' a' ≤ key' b' → key a ≤ key b) :
    first.map part = second.map part := by
  let below : Part → Part → Prop := fun p q =>
    ∃ a ∈ first, ∃ b ∈ first, part a = p ∧ part b = q ∧ key a ≤ key b
  have member : ∀ {item}, item ∈ second → ∃ other ∈ first, part other = part item := by
    intro item inside
    exact List.mem_map.mp (perm.mem_iff.mpr (List.mem_map_of_mem inside))
  refine @List.Perm.eq_of_pairwise _ below _ _ ?_ ?_ ?_ perm
  · rintro p q - - ⟨a, inA, b, inB, rfl, rfl, le⟩ ⟨b', inB', a', inA', same, same', le'⟩
    obtain rfl : b' = b := List.inj_on_of_nodup_map parts inB' inB same
    obtain rfl : a' = a := List.inj_on_of_nodup_map parts inA' inA same'
    rw [distinct a' inA b' inB (le_antisymm le le')]
  · rw [List.pairwise_map]
    refine sorted.imp_of_mem ?_
    intro a b inA inB le
    exact ⟨a, inA, b, inB, rfl, rfl, le⟩
  · rw [List.pairwise_map]
    refine sorted'.imp_of_mem ?_
    intro a' b' inA' inB' le
    obtain ⟨a, inA, same⟩ := member inA'
    obtain ⟨b, inB, same'⟩ := member inB'
    exact ⟨a, inA, b, inB, same, same',
      order a inA b inB a' inA' b' inB' same.symm same'.symm le⟩

theorem exists_greatest (key : Item → Key) {items : List Item} {item : Item}
    (member : item ∈ items) : ∃ greatest ∈ items, ∀ other ∈ items, key other ≤ key greatest := by
  cases latest : items.argmax key with
  | none =>
    rw [List.argmax_eq_none.mp latest] at member
    cases member
  | some greatest =>
    refine ⟨greatest, List.argmax_mem latest, ?_⟩
    intro other inside
    exact List.le_of_mem_argmax inside latest

/-- The item with the greatest key, the first of them. The order is that of the keys as a
linear order, whichever other orders they have. -/
def greatestBy (key : Item → Key) (items : List Item) : Option Item :=
  items.argmax key

def leastBy (key : Item → Key) (items : List Item) : Option Item :=
  items.argmin key

theorem mem_of_greatestBy {key : Item → Key} {items : List Item} {item : Item}
    (greatest : greatestBy key items = some item) : item ∈ items :=
  List.argmax_mem greatest

/-- **The item with the greatest key does not depend on the order of the items.** -/
theorem greatestBy_eq_of_perm {key : Item → Key} {first second : List Item}
    (same : first.Perm second)
    (distinct : ∀ a ∈ first, ∀ b ∈ first, key a = key b → a = b) :
    greatestBy key first = greatestBy key second := by
  change first.argmax key = second.argmax key
  cases greatest : first.argmax key with
  | none =>
    rw [List.argmax_eq_none.mp greatest] at same
    rw [List.nil_perm.mp same]
    rfl
  | some a =>
    cases greatest' : second.argmax key with
    | none =>
      rw [List.argmax_eq_none.mp greatest'] at same
      rw [List.perm_nil.mp same] at greatest
      cases greatest
    | some b =>
      have inA := List.argmax_mem greatest
      have inB := same.mem_iff.mpr (List.argmax_mem greatest')
      rw [distinct a inA b inB]
      exact le_antisymm (List.le_of_mem_argmax (same.mem_iff.mp inA) greatest')
        (List.le_of_mem_argmax inB greatest)

theorem max?_eq_of_perm {first second : List Key} (same : first.Perm second) :
    first.max? = second.max? := by
  ext greatest
  rw [List.max?_eq_some_iff, List.max?_eq_some_iff, same.mem_iff]
  simp only [same.mem_iff]

theorem le_of_getLast? {key : Item → Key} {items : List Item}
    (sorted : items.Pairwise fun first second => key first ≤ key second) {last : Item}
    (isLast : items.getLast? = some last) {item : Item} (member : item ∈ items) :
    key item ≤ key last := by
  obtain ⟨before, rfl⟩ := List.getLast?_eq_some_iff.mp isLast
  rcases List.mem_append.mp member with earlier | same
  · exact (List.pairwise_append.mp sorted).2.2 item earlier last List.mem_cons_self
  · rw [List.mem_singleton.mp same]

theorem le_of_head? {key : Item → Key} {items : List Item}
    (sorted : items.Pairwise fun first second => key first ≤ key second) {first : Item}
    (isFirst : items.head? = some first) {item : Item} (member : item ∈ items) :
    key first ≤ key item := by
  obtain ⟨rest, rfl⟩ := List.head?_eq_some_iff.mp isFirst
  rcases List.mem_cons.mp member with rfl | later
  · exact le_refl _
  · exact (List.pairwise_cons.mp sorted).1 item later

end Sorting

/-! ## Grouping -/

section Grouping

variable [DecidableEq Key]

/-- The distinct keys of a list in the order of their first use. -/
def firstSeen (keys : List Key) : List Key :=
  keys.reverse.dedup.reverse

@[simp] theorem mem_firstSeen {keys : List Key} {key : Key} :
    key ∈ firstSeen keys ↔ key ∈ keys := by
  rw [firstSeen, List.mem_reverse, List.mem_dedup, List.mem_reverse]

theorem nodup_firstSeen (keys : List Key) : (firstSeen keys).Nodup :=
  List.nodup_reverse.mpr (List.nodup_dedup _)

theorem firstSeen_sublist (keys : List Key) : (firstSeen keys).Sublist keys := by
  have reversed := (List.dedup_sublist keys.reverse).reverse
  rwa [List.reverse_reverse] at reversed

theorem firstSeen_append_singleton (keys : List Key) (key : Key) :
    firstSeen (keys ++ [key]) =
      if key ∈ firstSeen keys then firstSeen keys else firstSeen keys ++ [key] := by
  rw [firstSeen, List.reverse_append, List.reverse_singleton, List.singleton_append]
  by_cases seen : key ∈ firstSeen keys
  · have inside : key ∈ keys.reverse := List.mem_reverse.mpr (mem_firstSeen.mp seen)
    rw [if_pos seen, List.dedup_cons_of_mem inside, firstSeen]
  · have outside : key ∉ keys.reverse := by
      rw [List.mem_reverse, ← mem_firstSeen]
      exact seen
    rw [if_neg seen, List.dedup_cons_of_notMem outside, List.reverse_cons, firstSeen]

/-- The items of each key, the keys in the order of their first use. -/
def groupBy (key : Item → Key) (items : List Item) : List (Key × List Item) :=
  (firstSeen (items.map key)).map fun k => (k, items.filter fun item => key item = k)

variable {items : List Item} {group : Key × List Item}

theorem mem_groupBy {key : Item → Key} :
    group ∈ groupBy key items ↔
      group.1 ∈ items.map key ∧ group.2 = items.filter fun item => key item = group.1 := by
  obtain ⟨k, members⟩ := group
  simp only [groupBy, List.mem_map, mem_firstSeen, Prod.mk.injEq]
  constructor
  · rintro ⟨k', used, rfl, rfl⟩
    exact ⟨used, rfl⟩
  · rintro ⟨used, same⟩
    exact ⟨k, used, rfl, same.symm⟩

theorem keys_groupBy (key : Item → Key) (items : List Item) :
    (groupBy key items).map Prod.fst = firstSeen (items.map key) := by
  rw [groupBy, List.map_map]
  exact List.map_id _

theorem key_of_mem_groupBy {key : Item → Key} (member : group ∈ groupBy key items) {item : Item}
    (inside : item ∈ group.2) : item ∈ items ∧ key item = group.1 := by
  rw [(mem_groupBy.mp member).2, List.mem_filter] at inside
  exact ⟨inside.1, of_decide_eq_true inside.2⟩

theorem ne_nil_of_mem_groupBy {key : Item → Key} (member : group ∈ groupBy key items) :
    group.2 ≠ [] := by
  obtain ⟨used, members⟩ := mem_groupBy.mp member
  obtain ⟨item, inside, same⟩ := List.mem_map.mp used
  intro nothing
  have kept : item ∈ group.2 := by
    rw [members, List.mem_filter]
    exact ⟨inside, decide_eq_true same⟩
  rw [nothing] at kept
  cases kept

theorem flatMap_filter_perm {keys : List Key} (unique : keys.Nodup) (key : Item → Key)
    (covered : ∀ item ∈ items, key item ∈ keys) :
    (keys.flatMap fun k => items.filter fun item => key item = k).Perm items := by
  induction keys generalizing items with
  | nil =>
    have nothing : items = [] := by
      rw [List.eq_nil_iff_forall_not_mem]
      intro item member
      cases covered item member
    rw [nothing]
    exact .refl _
  | cons k rest ih =>
    obtain ⟨fresh, unique'⟩ := List.nodup_cons.mp unique
    have covered' : ∀ item ∈ items.filter fun item => ¬ key item = k, key item ∈ rest := by
      intro item member
      obtain ⟨inside, other⟩ := List.mem_filter.mp member
      exact (List.mem_cons.mp (covered item inside)).resolve_left (by simpa using other)
    have others := ih unique' covered'
    have same : (rest.flatMap fun k' =>
        (items.filter fun item => ¬ key item = k).filter fun item => key item = k') =
          rest.flatMap fun k' => items.filter fun item => key item = k' := by
      refine List.flatMap_congr ?_
      intro k' member
      rw [List.filter_filter]
      refine List.filter_congr ?_
      intro item _
      by_cases selects : key item = k'
      · have ne : k' ≠ k := by
          rintro rfl
          exact fresh member
        simp [selects, ne]
      · simp [selects]
    rw [same] at others
    rw [List.flatMap_cons]
    refine (List.Perm.append_left _ others).trans ?_
    simpa using List.filter_append_perm (fun item => decide (key item = k)) items

/-- **The groups hold the items.** -/
theorem flatMap_groupBy_perm (key : Item → Key) (items : List Item) :
    ((groupBy key items).flatMap Prod.snd).Perm items := by
  rw [groupBy, List.flatMap_map]
  refine flatMap_filter_perm (nodup_firstSeen _) key ?_
  intro item member
  exact mem_firstSeen.mpr (List.mem_map_of_mem member)

/-! ## Sums -/

variable {Amount : Type w} [AddCommMonoid Amount]

theorem sum_map_filter (condition : Item → Bool) (items : List Item) (amount : Item → Amount) :
    ((items.filter condition).map amount).sum =
      (items.map fun item => if condition item then amount item else 0).sum := by
  induction items with
  | nil => rfl
  | cons first rest ih =>
    by_cases met : condition first = true
    · rw [List.filter_cons_of_pos met, List.map_cons, List.sum_cons, List.map_cons,
        List.sum_cons, if_pos met, ih]
    · rw [List.filter_cons_of_neg met, List.map_cons, List.sum_cons, if_neg met, zero_add, ih]

theorem ite_sum {condition : Prop} [Decidable condition] {meets : Item → Prop} [DecidablePred meets]
    (same : ∀ item ∈ items, meets item ↔ condition) (amount : Item → Amount) :
    (if condition then (items.map amount).sum else 0) =
      (items.map fun item => if meets item then amount item else 0).sum := by
  split
  case isTrue met =>
    refine congrArg List.sum (List.map_congr_left ?_)
    intro item member
    exact (if_pos ((same item member).mpr met)).symm
  case isFalse unmet =>
    rw [List.sum_eq_zero]
    intro summand member
    obtain ⟨item, inside, rfl⟩ := List.mem_map.mp member
    exact if_neg fun met => unmet ((same item inside).mp met)

theorem sum_filter_keys {keys : List Key} (unique : keys.Nodup) (key : Item → Key)
    (covered : ∀ item ∈ items, key item ∈ keys) (amount : Item → Amount) :
    (keys.map fun k => ((items.filter fun item => key item = k).map amount).sum).sum =
      (items.map amount).sum := by
  rw [← ((flatMap_filter_perm unique key covered).map amount).sum_eq, List.map_flatMap,
    List.flatMap, List.sum_flatten, List.map_map]
  rfl

/-- **A sum over the groups is a sum over the items.** -/
theorem sum_groupBy (key : Item → Key) (items : List Item) (amount : Item → Amount) :
    ((groupBy key items).map fun group => (group.2.map amount).sum).sum =
      (items.map amount).sum := by
  rw [groupBy, List.map_map]
  refine sum_filter_keys (nodup_firstSeen _) key ?_ amount
  intro item member
  exact mem_firstSeen.mpr (List.mem_map_of_mem member)

/-- **Sums are equal when they are for every key.** -/
theorem sum_eq_of_keys (key : Item → Key) {first second : List Item} (amount : Item → Amount)
    (same : ∀ k, ((first.filter fun item => key item = k).map amount).sum =
      ((second.filter fun item => key item = k).map amount).sum) :
    (first.map amount).sum = (second.map amount).sum := by
  have unique := nodup_firstSeen ((first ++ second).map key)
  have covered : ∀ item ∈ first ++ second, key item ∈ firstSeen ((first ++ second).map key) := by
    intro item member
    exact mem_firstSeen.mpr (List.mem_map_of_mem member)
  rw [← sum_filter_keys unique key (fun item member =>
      covered item (List.mem_append_left _ member)) amount,
    ← sum_filter_keys unique key (fun item member =>
      covered item (List.mem_append_right _ member)) amount]
  exact congrArg List.sum (List.map_congr_left fun k _ => same k)

end Grouping

end TreeOptions
