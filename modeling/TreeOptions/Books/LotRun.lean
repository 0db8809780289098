import TreeOptions.Books.Money

/-!
# Lots apart

A book of lots is one run for each account, contract and attribution (`runLot`): what a
lot holds and what it realized depends on the fills of its own key, in their order
(`separate_foldlM`). The fills are taken as long as a contract keeps its kind
(`exists_lotBook`).
-/

set_option autoImplicit false

namespace TreeOptions.Books

open Checked

/-- What the realizations of a key sum to. -/
def realizedTo (key : LotKey) (realizations : List Realization) : ℤ :=
  (realizations.map fun realization =>
    if (realization.accountId, realization.conId, realization.attribution) =
        (key.1, some key.2.1, key.2.2) then realization.realizedMicros else 0).sum

/-- One more fill of a lot, and what it realized so far. -/
def stepLot (state : LotState × ℤ) (fill : Effective) : LotState × ℤ :=
  ((applyFill state.1 fill).1, state.2 + (applyFill state.1 fill).2.getD 0)

def runLot (fills : List Effective) : LotState × ℤ :=
  fills.foldl stepLot ({}, 0)

theorem runLot_concat (fills : List Effective) (fill : Effective) :
    runLot (fills ++ [fill]) = stepLot (runLot fills) fill := by
  rw [runLot, List.foldl_append]
  rfl

/-- What of a fill its lot depends on. -/
def Effective.figures (fill : Effective) : ℤ × ℤ × ℤ :=
  (fill.quantity, fill.cash, fill.fee)

theorem applyFill_congr {lot : LotState} {first second : Effective}
    (same : first.figures = second.figures) : applyFill lot first = applyFill lot second := by
  obtain ⟨quantity, cash, fee⟩ : first.quantity = second.quantity ∧ first.cash = second.cash ∧
      first.fee = second.fee := by
    simpa [Effective.figures] using same
  rw [applyFill, applyFill, quantity, cash, fee]

theorem runLot_congr {first second : List Effective}
    (same : first.map Effective.figures = second.map Effective.figures) :
    runLot first = runLot second := by
  rw [runLot, runLot]
  generalize (({}, 0) : LotState × ℤ) = start
  induction first generalizing second start with
  | nil =>
    rw [List.map_nil, eq_comm, List.map_eq_nil_iff] at same
    rw [same]
  | cons fill rest ih =>
    obtain ⟨fill', rest', rfl, figures, same⟩ := List.map_eq_cons_iff.mp same.symm
    rw [List.foldl_cons, List.foldl_cons, stepLot, stepLot, applyFill_congr figures,
      ih same.symm]

/-- A book of lots against the fills applied to it, lot by lot. -/
structure Separate (done : List Effective) (book : LotBook) : Prop where
  lot : ∀ key, book.lots.get key = (runLot (done.filter fun fill => fill.lotKey = key)).1
  realized : ∀ key, realizedTo key book.realizations =
    (runLot (done.filter fun fill => fill.lotKey = key)).2
  keys : ∀ key, key ∈ book.lots.keys ↔ key ∈ done.map Effective.lotKey
  typed : ∀ fill ∈ done, book.secTypes.find? (fill.accountId, fill.conId) =
    some ((fill.accountId, fill.conId), fill.secType)
  known : ∀ contract typed, book.secTypes.find? contract = some typed →
    ∃ fill ∈ done, typed = ((fill.accountId, fill.conId), fill.secType)

theorem separate_empty : Separate [] {} := by
  constructor
  · intro key
    rfl
  · intro key
    rfl
  · intro key
    exact Iff.rfl
  · intro fill member
    cases member
  · intro contract typed found
    cases found

theorem realizedTo_append (key : LotKey) (first second : List Realization) :
    realizedTo key (first ++ second) = realizedTo key first + realizedTo key second := by
  rw [realizedTo, List.map_append, List.sum_append, realizedTo, realizedTo]

theorem realizedTo_of_fill (key : LotKey) (fill : Effective) (realized : Option ℤ) :
    realizedTo key (realized.map (realizationOf fill)).toList =
      if fill.lotKey = key then realized.getD 0 else 0 := by
  cases realized with
  | none => simp [realizedTo]
  | some amount => simp [realizedTo, realizationOf, Effective.lotKey, Prod.ext_iff]

/-- **One fill changes the lot of its key.** -/
theorem Separate.applyEffective {done : List Effective} {book next : LotBook} {fill : Effective}
    (separate : Separate done book) (succeeded : Books.applyEffective book fill = .ok next) :
    Separate (done ++ [fill]) next := by
  obtain ⟨lots, realizations, secTypes, typed⟩ := applyEffective_ok succeeded
  have apart : ∀ key, ((done ++ [fill]).filter fun fill => fill.lotKey = key) =
      (done.filter fun fill => fill.lotKey = key) ++ if fill.lotKey = key then [fill] else [] := by
    intro key
    rw [List.filter_append, List.filter_singleton]
    by_cases same : fill.lotKey = key <;> simp [same]
  constructor
  · intro key
    rw [lots, apart]
    by_cases same : fill.lotKey = key
    · subst same
      rw [if_pos rfl, runLot_concat, DefaultDict.get_set_self, separate.lot, stepLot]
    · rw [if_neg same, List.append_nil, DefaultDict.get_set_of_ne _ (Ne.symm same),
        separate.lot]
  · intro key
    rw [realizations, apart, realizedTo_append, realizedTo_of_fill, separate.realized]
    by_cases same : fill.lotKey = key
    · subst same
      rw [if_pos rfl, if_pos rfl, runLot_concat, separate.lot, stepLot]
    · rw [if_neg same, if_neg same, List.append_nil, add_zero]
  · intro key
    rw [lots, DefaultDict.mem_keys_set, separate.keys, List.map_append, List.mem_append,
      List.map_singleton, List.mem_singleton, or_comm]
  · intro other member
    rcases List.mem_append.mp member with earlier | now
    · rw [secTypes, Table.find?_insertOrIgnore, separate.typed other earlier]
      rfl
    · rw [List.mem_singleton.mp now]
      exact typed
  · intro contract held found
    rw [secTypes, Table.find?_insertOrIgnore] at found
    rcases Option.or_eq_some_iff.mp found with earlier | ⟨-, now⟩
    · obtain ⟨other, member, same⟩ := separate.known contract held earlier
      exact ⟨other, List.mem_append_left _ member, same⟩
    · split_ifs at now
      exact ⟨fill, List.mem_concat_self, (Option.some.inj now).symm⟩

/-- **A book of lots is one run for each key.** -/
theorem separate_foldlM {fills : List Effective} {book : LotBook}
    (succeeded : fills.foldlM Books.applyEffective {} = .ok book) : Separate fills book :=
  foldlM_invariant Separate (fun _ _ _ _ => Separate.applyEffective) separate_empty succeeded

/-- Fills of one contract have one kind. -/
def TypedAlike (fills : List Effective) : Prop :=
  ∀ first ∈ fills, ∀ second ∈ fills, first.accountId = second.accountId →
    first.conId = second.conId → first.secType = second.secType

theorem typedAlike_of_foldlM {fills : List Effective} {book : LotBook}
    (succeeded : fills.foldlM Books.applyEffective {} = .ok book) : TypedAlike fills := by
  have separate := separate_foldlM succeeded
  intro first inFirst second inSecond account contract
  have found := separate.typed first inFirst
  rw [account, contract, separate.typed second inSecond] at found
  exact (congrArg Prod.snd (Option.some.inj found)).symm

/-- **Fills of which no contract is of two kinds are taken.** -/
theorem exists_lotBook {fills : List Effective} (alike : TypedAlike fills) :
    ∃ book, fills.foldlM Books.applyEffective {} = .ok book := by
  have taken : ∃ book, fills.foldlM Books.applyEffective {} = .ok book ∧ Separate fills book := by
    refine exists_foldlM Separate ?_ (List.nil_append fills) separate_empty
    rintro done fill rest book rfl separate
    have typed : (book.secTypes.insertOrIgnore
        ((fill.accountId, fill.conId), fill.secType)).find? (fill.accountId, fill.conId) =
          some ((fill.accountId, fill.conId), fill.secType) := by
      rw [Table.find?_insertOrIgnore, if_pos rfl]
      cases found : book.secTypes.find? (fill.accountId, fill.conId) with
      | none => rfl
      | some held =>
        obtain ⟨other, member, rfl⟩ := separate.known _ held found
        have contract := Table.key_of_find? found
        obtain ⟨account, conId⟩ := Prod.mk.inj contract
        have kinds := alike other (List.mem_append_left _ member) fill
          (List.mem_append_right _ List.mem_cons_self) account conId
        rw [account, conId, kinds]
        rfl
    have succeeded : ∃ next, Books.applyEffective book fill = .ok next :=
      ⟨_, refuse_bind_eq_ok.mpr ⟨not_not.mpr typed, rfl⟩⟩
    obtain ⟨next, succeeded⟩ := succeeded
    exact ⟨next, succeeded, separate.applyEffective succeeded⟩
  obtain ⟨book, succeeded, -⟩ := taken
  exact ⟨book, succeeded⟩

end TreeOptions.Books
