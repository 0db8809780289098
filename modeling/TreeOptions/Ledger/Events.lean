import TreeOptions.Foundations.Decimal

/-!
# Fills, settlements and ledger entries

What a book is told, and what it writes down. Every value carries the checks of its
schema: a price is positive, a quantity is at least one, and the cash of an exercise
settlement is its intrinsic value. Instants and sessions are numbers in their order.
The identifiers were checked when the event was built, so that a check of the same
text in an entry cannot fail.
-/

set_option autoImplicit false

namespace TreeOptions.Ledger

open Decimal

/-! ## Amounts -/

/-- A positive price, with ten digits before the point at most. -/
structure Price where
  value : ℚ
  positive : 0 < value
  whole : value ∈ cents
  small : value < 10 ^ 10

theorem Price.mul_mem (price : Price) (quantity multiplier : ℕ) :
    price.value * quantity * multiplier ∈ cents :=
  mul_natCast_mem (mul_natCast_mem price.whole quantity) multiplier

/-- A signed amount, with sixteen digits before the point at most. -/
structure Money where
  value : ℚ
  whole : value ∈ cents
  small : |value| < 10 ^ 16

/-- An amount as the schema checks it. -/
def Money.ofRat? (amount : ℚ) : Option Money :=
  if checked : amount ∈ cents ∧ |amount| < 10 ^ 16 then
    some ⟨amount, checked.1, checked.2⟩
  else
    none

theorem Money.value_of_ofRat? {amount : ℚ} {money : Money}
    (checked : Money.ofRat? amount = some money) : money.value = amount := by
  rw [Money.ofRat?] at checked
  split at checked
  case isTrue => rw [← Option.some.inj checked]
  case isFalse => exact nomatch checked

/-! ## Events -/

inductive Side where
  | buy
  | sell
  deriving DecidableEq

structure Fill where
  fillId : String
  orderId : String
  contractId : String
  side : Side
  quantity : ℕ
  quantity_pos : 1 ≤ quantity
  price : Price
  multiplier : ℕ
  multiplier_pos : 1 ≤ multiplier
  fees : Money
  fees_nonneg : 0 ≤ fees.value
  executionAt : ℤ
  executionSession : ℤ

inductive CallPut where
  | call
  | put
  deriving DecidableEq

def intrinsicValue (callPut : CallPut) (strike underlying : ℚ) : ℚ :=
  match callPut with
  | .call => max (underlying - strike) 0
  | .put => max (strike - underlying) 0

structure ExerciseSettlement where
  settlementId : String
  contractId : String
  quantity : ℕ
  quantity_pos : 1 ≤ quantity
  strike : Price
  callPut : CallPut
  multiplier : ℕ
  multiplier_pos : 1 ≤ multiplier
  settlementPrice : Price
  cash : Money
  cash_nonneg : 0 ≤ cash.value
  session : ℤ
  ts : ℤ
  cash_matches_intrinsic : cash.value =
    quantize (intrinsicValue callPut strike.value settlementPrice.value * quantity * multiplier)

/-- An event that a book has accepted. -/
inductive Event where
  | fill (fill : Fill)
  | settlement (settlement : ExerciseSettlement)

/-- What a fill pays or earns, without its fees. -/
def primitiveCash (fill : Fill) : ℚ :=
  let magnitude := quantize (fill.price.value * fill.quantity * fill.multiplier)
  match fill.side with
  | .buy => -magnitude
  | .sell => magnitude

theorem primitiveCash_mem (fill : Fill) : primitiveCash fill ∈ cents := by
  rw [primitiveCash]
  cases fill.side with
  | buy => exact neg_mem (quantize_mem _)
  | sell => exact quantize_mem _

/-! ## Entries -/

inductive EntryKind where
  | fillNotional
  | fee
  | exerciseSettlement

structure LedgerEntry where
  entryId : String
  ts : ℤ
  session : ℤ
  kind : EntryKind
  amount : Money
  contractId : Option String
  refId : String

/-- The name of an entry: its number, in six digits at least. -/
def entryName (number : ℕ) : String :=
  "ENT-" ++ String.ofList ((Nat.toDigits 10 number).leftpad 6 '0')

end TreeOptions.Ledger
