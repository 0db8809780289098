import TreeOptions.Ledger.Conservation

/-!
# What a book shows

The figures of a book are its cash, its fees, the parcels it holds of each contract and what
it realized. A fill changes them by its own figures alone: which names and instants the fills
carry, and which entries were written, does not matter (`SameFigures.apply`).
-/

set_option autoImplicit false

namespace TreeOptions.Ledger

open Decimal

/-- What a fill says apart from its names and its instant. -/
def Fill.figures (fill : Fill) : String × Side × ℕ × ℚ × ℕ × ℚ :=
  (fill.contractId, fill.side, fill.quantity, fill.price.value, fill.multiplier, fill.fees.value)

structure LedgerBook.SameFigures (book other : LedgerBook) : Prop where
  cash : book.cash = other.cash
  totalFees : book.totalFees = other.totalFees
  parcels : ∀ contractId, book.parcels contractId = other.parcels contractId
  realized : ∀ contractId, book.realized.get contractId = other.realized.get contractId

namespace LedgerBook.SameFigures

variable {book other next next' : LedgerBook}

theorem refl (book : LedgerBook) : book.SameFigures book :=
  ⟨rfl, rfl, fun _ => rfl, fun _ => rfl⟩

theorem quantity (same : book.SameFigures other) (contractId : String) :
    book.quantity contractId = other.quantity contractId := by
  rw [← units_parcels, ← units_parcels, same.parcels]

variable {fill fill' : Fill}

section

variable (same : book.SameFigures other)

include same

theorem addFill (figures : fill.figures = fill'.figures) (staged staged' : List LedgerEntry) :
    (book.addFill fill staged).SameFigures (other.addFill fill' staged') := by
  simp only [Fill.figures, Prod.mk.injEq] at figures
  obtain ⟨-, side, quantity, price, multiplier, fees⟩ := figures
  have cash : primitiveCash fill = primitiveCash fill' := by
    rw [primitiveCash, primitiveCash, side, quantity, price, multiplier]
  refine ⟨?_, ?_, same.parcels, same.realized⟩
  · rw [LedgerBook.addFill, LedgerBook.addFill, same.cash, cash, fees]
  · rw [LedgerBook.addFill, LedgerBook.addFill, same.totalFees, fees]

theorem buy (figures : fill.figures = fill'.figures) :
    (book.buy fill).SameFigures (other.buy fill') := by
  simp only [Fill.figures, Prod.mk.injEq] at figures
  obtain ⟨contract, -, quantity, price, multiplier, -⟩ := figures
  refine ⟨same.cash, same.totalFees, ?_, same.realized⟩
  intro contractId
  have before := same.parcels contractId
  simp only [LedgerBook.parcels] at before ⊢
  simp only [LedgerBook.buy, ← contract]
  by_cases bought : contractId = fill.contractId
  · subst bought
    rw [DefaultDict.get_set_self, DefaultDict.get_set_self, List.map_append, List.map_append,
      before]
    simp [Lot.parcel, Lot.ofFill, quantity, price, multiplier]
  · rw [DefaultDict.get_set_of_ne _ bought, DefaultDict.get_set_of_ne _ bought]
    exact before

theorem closed {contractId : String} {quantity : ℕ} {proceeds : ℚ}
    (how : book.Closed contractId quantity proceeds next)
    (how' : other.Closed contractId quantity proceeds next') : next.SameFigures next' := by
  obtain ⟨left, isLeft, -, rfl⟩ := how
  obtain ⟨left', isLeft', -, rfl⟩ := how'
  refine ⟨same.cash, same.totalFees, ?_, ?_⟩
  · intro contract
    by_cases sold : contract = contractId
    · subst sold
      simp only [LedgerBook.parcels, addRealized, DefaultDict.get_set_self]
      rw [isLeft, isLeft', same.parcels]
    · have before := same.parcels contract
      simp only [LedgerBook.parcels] at before ⊢
      simp only [addRealized]
      rw [DefaultDict.get_set_of_ne _ sold, DefaultDict.get_set_of_ne _ sold]
      exact before
  · intro contract
    simp only [addRealized]
    by_cases sold : contract = contractId
    · subst sold
      rw [DefaultDict.get_set_self, DefaultDict.get_set_self, same.realized, same.parcels]
    · rw [DefaultDict.get_set_of_ne _ sold, DefaultDict.get_set_of_ne _ sold]
      exact same.realized contract

/-- **Fills of the same figures leave the same figures.** -/
theorem apply (exact : book.Exact) (exact' : other.Exact) (figures : fill.figures = fill'.figures)
    (ran : (Ledger.apply fill).run book = .ok () next)
    (ran' : (Ledger.apply fill').run other = .ok () next') : next.SameFigures next' := by
  have parts := figures
  simp only [Fill.figures, Prod.mk.injEq] at parts
  obtain ⟨contract, side, quantity, price, multiplier, -⟩ := parts
  have cash : primitiveCash fill = primitiveCash fill' := by
    rw [primitiveCash, primitiveCash, side, quantity, price, multiplier]
  rcases apply_cases exact fill with ⟨error, -, refused⟩ | ⟨staged, lotted, -, how, isNext⟩
  · rw [ran] at refused
    cases refused
  rcases apply_cases exact' fill' with ⟨error, -, refused⟩ | ⟨staged', lotted', -, how', isNext'⟩
  · rw [ran'] at refused
    cases refused
  rw [ran] at isNext
  cases isNext
  rw [ran'] at isNext'
  cases isNext'
  suffices lots : lotted.SameFigures lotted' from lots.addFill figures staged staged'
  rcases how with ⟨buys, rfl⟩ | ⟨sells, sold⟩
  · rcases how' with ⟨-, rfl⟩ | ⟨sells', -⟩
    · exact same.buy figures
    · rw [side, sells'] at buys
      cases buys
  · rcases how' with ⟨buys', -⟩ | ⟨-, sold'⟩
    · rw [side, buys'] at sells
      cases sells
    · rw [← contract, ← quantity, ← cash] at sold'
      exact same.closed sold sold'

end

end LedgerBook.SameFigures

end TreeOptions.Ledger
