import TreeOptions.Options.Strategy

/-!
# Exercise settlements

`mintSettlement` is the one door to a settlement. It strikes at the close of a reference bar, which
is of the session and of the underlying of the contract. It is stamped with the publication of the
bar, the first instant at which the intrinsic value is known. A terminal settlement may be detected
later than its bar; then it is stamped with the detection.
-/

set_option autoImplicit false

namespace TreeOptions.Options

open Checked Decimal Ledger

inductive SettlementKind where
  | expiry
  | earlyExercise
  | terminal
  deriving DecidableEq

def checkKind (contract : OptionContract) (kind : SettlementKind) (session : ℤ) :
    Except StrategyError Unit :=
  match kind with
  | .expiry => refuse (session ≠ contract.expiration) (.settlementMint contract.contractId)
  | .terminal => refuse (contract.expiration < session) (.settlementMint contract.contractId)
  | .earlyExercise => do
      refuse (contract.exerciseStyle ≠ .american) (.settlementMint contract.contractId)
      refuse (contract.expiration ≤ session) (.settlementMint contract.contractId)

def checkReference (contract : OptionContract) (kind : SettlementKind) (session : ℤ)
    (bar : PublishedBar) (detectAt : Option ℤ) : Except StrategyError Unit :=
  match detectAt with
  | some detectAt => do
      refuse (kind ≠ .terminal) (.settlementMint contract.contractId)
      refuse (session < bar.session) (.settlementMint contract.contractId)
      refuse (detectAt < bar.availableAt) (.settlementMint contract.contractId)
  | none => refuse (bar.session ≠ session) (.settlementMint contract.contractId)

/-- The settlement of a contract at a price, as its schema checks it. -/
def settlementOf (contract : OptionContract) (settlementId : String) (quantity : ℕ)
    (session ts : ℤ) (price : Price) : Except StrategyError ExerciseSettlement :=
  let amount := quantize (intrinsicValue contract.callPut contract.strike.value price.value *
    quantity * contract.multiplier.toNat)
  if quantity_pos : 1 ≤ quantity then
    if multiplier_pos : 1 ≤ contract.multiplier.toNat then
      if cash : amount ∈ cents ∧ |amount| < 10 ^ 16 then
        if cash_nonneg : 0 ≤ amount then
          .ok {
            settlementId
            contractId := contract.contractId
            quantity, quantity_pos
            strike := contract.strike
            callPut := contract.callPut
            multiplier := contract.multiplier.toNat
            multiplier_pos
            settlementPrice := price
            cash := ⟨amount, cash.1, cash.2⟩
            cash_nonneg, session, ts
            cash_matches_intrinsic := rfl }
        else .error (.validation "cash")
      else .error (.validation "cash")
    else .error (.validation "multiplier")
  else .error (.validation "quantity")

def mintSettlement (contract : OptionContract) (settlementId : String) (kind : SettlementKind)
    (quantity : ℕ) (session : ℤ) (bar : PublishedBar) (detectAt : Option ℤ) :
    Except StrategyError ExerciseSettlement := do
  refuse (quantity < 1) (.settlementMint contract.contractId)
  refuse (session < contract.listingStart) (.settlementMint contract.contractId)
  checkKind contract kind session
  checkReference contract kind session bar detectAt
  refuse (bar.securityId ≠ contract.underlyingSecurityId) (.settlementMint contract.contractId)
  settlementOf contract settlementId quantity session (detectAt.getD bar.availableAt)
    bar.closePrice

/-! ## What a settlement says -/

/-- What a minted settlement says. -/
structure SettlementOf (settlement : ExerciseSettlement) (contract : OptionContract)
    (quantity : ℕ) (session ts : ℤ) : Prop where
  contractId_eq : settlement.contractId = contract.contractId
  quantity_eq : settlement.quantity = quantity
  session_eq : settlement.session = session
  ts_eq : settlement.ts = ts

theorem settlementOf_eq_ok {contract : OptionContract} {settlementId : String} {quantity : ℕ}
    {session ts : ℤ} {price : Price} {settlement : ExerciseSettlement}
    (valid : settlementOf contract settlementId quantity session ts price = .ok settlement) :
    SettlementOf settlement contract quantity session ts := by
  revert valid
  fun_cases settlementOf contract settlementId quantity session ts price with
  | case1 =>
    rintro ⟨⟩
    exact ⟨rfl, rfl, rfl, rfl⟩
  | _ => nofun

/-- **A minted settlement closes the quantity asked for**, and comes no later than the expiration. -/
theorem mintSettlement_eq_ok {contract : OptionContract} {settlementId : String}
    {kind : SettlementKind} {quantity : ℕ} {session : ℤ} {bar : PublishedBar}
    {detectAt : Option ℤ} {settlement : ExerciseSettlement}
    (minted : mintSettlement contract settlementId kind quantity session bar detectAt =
      .ok settlement) :
    SettlementOf settlement contract quantity session (detectAt.getD bar.availableAt) ∧
      session ≤ contract.expiration := by
  rw [mintSettlement] at minted
  simp only [bind_eq_ok] at minted
  obtain ⟨_, -, _, -, _, isKind, _, -, _, -, minted⟩ := minted
  refine ⟨settlementOf_eq_ok minted, ?_⟩
  cases kind with
  | expiry => exact (not_not.mp (refuse_eq_ok.mp isKind)).le
  | terminal => exact not_lt.mp (refuse_eq_ok.mp isKind)
  | earlyExercise =>
    obtain ⟨_, -, isKind⟩ := bind_eq_ok.mp isKind
    exact (not_le.mp (refuse_eq_ok.mp isKind)).le

end TreeOptions.Options
