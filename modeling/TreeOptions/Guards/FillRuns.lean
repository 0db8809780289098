import TreeOptions.Guards.FillEngine

/-!
# Whole runs of the fill engine

A run is any list of calls, and its log keeps each call with what came of it. The state of
the engine is an account of the fills in the log (`Accounts`): what was filled of an order
and what was taken from a bar are sums over them. One minted fill keeps the account
(`accounts_commit`), a call that raises leaves everything, and so the account holds after
every run (`accounts_runAll`).

From it the promises of the engine follow: an order is never overfilled and never bound
again, ids do not repeat, and the fills from one bar stay within the part of its volume
that may be filled (`fillsWithinCaps`). That part is the product of two decimals and is
rounded to 28 digits, so it can be more than the exact product (`fills_beyond_volume`).
-/

set_option autoImplicit false

namespace TreeOptions.Guards

open Decimal

/-! ## Runs -/

/-- A call and what came of it. -/
structure Entry where
  call : Call
  result : Except EngineError Fill

def runAll (engine : FillEngine) : EngineState → List Call → List Entry × EngineState
  | state, [] => ([], state)
  | state, call :: rest =>
    (⟨call, (outcome engine state call).1⟩ :: (runAll engine (outcome engine state call).2 rest).1,
      (runAll engine (outcome engine state call).2 rest).2)

def Entry.minted (entry : Entry) : Option (Call × Fill) :=
  match entry.result with
  | .error _ => none
  | .ok fill => some (entry.call, fill)

/-- The fills of a log, in order. -/
def mintedOf (entries : List Entry) : List (Call × Fill) :=
  entries.filterMap Entry.minted

/-! ## Sums over fills -/

/-- The contracts of the fills a condition selects. -/
def totalOf (condition : Call × Fill → Bool) (fills : List (Call × Fill)) : ℤ :=
  ((fills.filter condition).map fun minted => minted.2.quantity).sum

def OfOrder (orderId : String) (minted : Call × Fill) : Bool :=
  minted.2.orderId = orderId

/-- The fills from the bars of one contract and session. -/
def OfBar (key : String × ℤ) (minted : Call × Fill) : Bool :=
  minted.1.selectedBar.map participationKey = some key

def barVolume (minted : Call × Fill) : ℕ :=
  (minted.1.selectedBar.map VwapQuoteEvent.volume).getD 0

/-- The largest volume of the bars of one contract and session. -/
def largestVolume (key : String × ℤ) (fills : List (Call × Fill)) : ℕ :=
  ((fills.filter (OfBar key)).map barVolume).foldl max 0

theorem totalOf_concat (condition : Call × Fill → Bool) (fills : List (Call × Fill))
    (minted : Call × Fill) :
    totalOf condition (fills ++ [minted]) =
      totalOf condition fills + if condition minted then minted.2.quantity else 0 := by
  rw [totalOf, totalOf, List.filter_append, List.map_append, List.sum_append]
  by_cases selected : condition minted
  · simp [selected]
  · simp [selected]

theorem largestVolume_concat (key : String × ℤ) (fills : List (Call × Fill))
    (minted : Call × Fill) :
    largestVolume key (fills ++ [minted]) =
      if OfBar key minted then max (largestVolume key fills) (barVolume minted)
      else largestVolume key fills := by
  rw [largestVolume, largestVolume, List.filter_append, List.map_append, List.foldl_append]
  by_cases selected : OfBar key minted
  · simp [selected]
  · simp [selected]

variable {engine : FillEngine}

theorem participation_mono {size size' : ℕ} (le : size ≤ size') :
    participation engine size ≤ participation engine size' := by
  apply Int.floor_le_floor
  apply roundContext_mono
  · exact mul_nonneg engine.fraction_pos.le (Nat.cast_nonneg _)
  · exact mul_le_mul_of_nonneg_left (Nat.cast_le.mpr le) engine.fraction_pos.le

theorem participation_nonneg (engine : FillEngine) (size : ℕ) : 0 ≤ participation engine size := by
  have zero : participation engine 0 = 0 := by
    rw [participation, mul, Nat.cast_zero, mul_zero, roundContext_zero, Int.floor_zero]
  rw [← zero]
  exact participation_mono (Nat.zero_le _)

/-! ## Ids -/

theorem fillId_number {orderId orderId' : String} {number number' : ℕ}
    (same : fillId orderId number = fillId orderId' number') : number = number' := by
  have reversed : ∀ (orderId : String) (number : ℕ),
      ((fillId orderId number).toList.reverse.takeWhile fun c => c.isDigit) =
        (Nat.toDigits 10 number).reverse := by
    intro orderId number
    have text : (fillId orderId number).toList =
        orderId.toList ++ ['-', 'F'] ++ Nat.toDigits 10 number := by
      simp [fillId, Nat.repr]
    rw [text, List.reverse_append, List.reverse_append, List.takeWhile_append_of_pos]
    · simp
    · intro c member
      exact Nat.isDigit_of_mem_toDigits (by decide) (by decide) (List.mem_reverse.mp member)
  have digits := reversed orderId' number'
  rw [← same, reversed orderId number, List.reverse_inj] at digits
  rw [← Nat.ofDigitChars_ten_toDigits (n := number), digits, Nat.ofDigitChars_ten_toDigits]

/-! ## The account -/

structure Accounts (engine : FillEngine) (state : EngineState) (fills : List (Call × Fill)) :
    Prop where
  bound : ∀ minted ∈ fills, minted.2.orderId = minted.1.order.orderId ∧
    state.orders minted.2.orderId = some minted.1.order
  filled : ∀ orderId, state.filledQty orderId = totalOf (OfOrder orderId) fills
  within : ∀ orderId order, state.orders orderId = some order →
    state.filledQty orderId ≤ order.quantity
  consumed : ∀ key, state.vwapConsumed key = totalOf (OfBar key) fills
  capped : ∀ key, state.vwapConsumed key ≤ participation engine (largestVolume key fills)
  numbered : ∀ minted ∈ fills, ∃ number ≤ state.fillSeq,
    minted.2.fillId = fillId minted.2.orderId number
  distinct : (fills.map fun minted => minted.2.fillId).Nodup

theorem accounts_initial (engine : FillEngine) : Accounts engine EngineState.initial [] where
  bound _ member := by cases member
  filled _ := rfl
  within _ _ isBound := by cases isBound
  consumed _ := rfl
  capped _ := participation_nonneg engine _
  numbered _ member := by cases member
  distinct := List.nodup_nil

section

variable {engine : FillEngine} {state : EngineState} {call : Call} {minted : Minted}

theorem commit_orders (orderId : String) :
    (commit state call minted).orders orderId =
      if orderId = call.order.orderId then some call.order else state.orders orderId := by
  rw [commit]
  cases minted.tradable <;> exact Function.update_apply _ _ _ _

theorem commit_filledQty (orderId : String) :
    (commit state call minted).filledQty orderId =
      state.filledQty orderId +
        if orderId = call.order.orderId then minted.fill.quantity else 0 := by
  have updated : (commit state call minted).filledQty orderId =
      if orderId = call.order.orderId then
        state.filledQty call.order.orderId + minted.fill.quantity
      else state.filledQty orderId := by
    rw [commit]
    cases minted.tradable <;> exact Function.update_apply _ _ _ _
  rw [updated]
  split
  case isTrue same => rw [same]
  case isFalse => rw [add_zero]

theorem commit_fillSeq : (commit state call minted).fillSeq = state.fillSeq + 1 := by
  rw [commit]
  cases minted.tradable <;> rfl

theorem commit_vwapConsumed (key : String × ℤ) :
    (commit state call minted).vwapConsumed key =
      state.vwapConsumed key +
        if minted.tradable.bar.map participationKey = some key then minted.fill.quantity
        else 0 := by
  rw [commit]
  cases minted.tradable with
  | twoSided quote => exact (add_zero _).symm
  | vwap quote =>
    change Function.update state.vwapConsumed _ _ key = _
    rw [Function.update_apply]
    by_cases same : key = participationKey quote.quote
    · subst same
      simp [Tradable.bar]
    · have other : ¬ some (participationKey quote.quote) = some key :=
        fun equal => same (Option.some.inj equal).symm
      rw [if_neg same]
      change _ = _ + if some (participationKey quote.quote) = some key then _ else _
      rw [if_neg other, add_zero]

theorem ofOrder_eq (sound : Sound engine state call minted) (orderId : String) :
    OfOrder orderId (call, minted.fill) = decide (orderId = call.order.orderId) := by
  rw [OfOrder, sound.orderId]
  exact decide_eq_decide.mpr eq_comm

theorem ofBar_eq (sound : Sound engine state call minted) (key : String × ℤ) :
    OfBar key (call, minted.fill) =
      decide (minted.tradable.bar.map participationKey = some key) := by
  rw [OfBar, sound.bar]

/-- **A minted fill keeps the account.** -/
theorem accounts_commit {fills : List (Call × Fill)} (accounts : Accounts engine state fills)
    (sound : Sound engine state call minted) :
    Accounts engine (commit state call minted) (fills ++ [(call, minted.fill)]) where
  bound other member := by
    rw [commit_orders]
    rcases List.mem_append.mp member with earlier | new
    · obtain ⟨sameId, isBound⟩ := accounts.bound other earlier
      refine ⟨sameId, ?_⟩
      split
      case isTrue same =>
        -- the id was bound to the order of this call
        rw [same] at isBound
        rw [sound.bound _ isBound]
      case isFalse => exact isBound
    · obtain rfl := List.mem_singleton.mp new
      exact ⟨sound.orderId, if_pos sound.orderId⟩
  filled orderId := by
    rw [commit_filledQty, totalOf_concat, accounts.filled, ofOrder_eq sound]
    simp only [decide_eq_true_eq]
  within orderId order isBound := by
    rw [commit_orders] at isBound
    rw [commit_filledQty]
    split at isBound
    case isTrue same =>
      cases isBound
      rw [if_pos same, same]
      have := sound.remaining
      omega
    case isFalse other =>
      rw [if_neg other, add_zero]
      exact accounts.within orderId order isBound
  consumed key := by
    rw [commit_vwapConsumed, totalOf_concat, accounts.consumed, ofBar_eq sound]
    simp only [decide_eq_true_eq]
  capped key := by
    rw [commit_vwapConsumed, largestVolume_concat, ofBar_eq sound]
    cases isBar : minted.tradable.bar with
    | none => simpa using accounts.capped key
    | some event =>
      by_cases same : participationKey event = key
      · subst same
        have fits := sound.participates event isBar
        have volume : barVolume (call, minted.fill) = event.volume := by
          rw [barVolume, ← sound.bar, isBar]
          rfl
        simp only [Option.map_some, decide_true, if_true, volume]
        have larger : participation engine event.volume ≤ participation engine
            (max (largestVolume (participationKey event) fills) event.volume) :=
          participation_mono (le_max_right _ _)
        omega
      · have other : ¬ some (participationKey event) = some key :=
          fun equal => same (Option.some.inj equal)
        simp only [Option.map_some, other, if_false, decide_false, Bool.false_eq_true, add_zero]
        exact accounts.capped key
  numbered other member := by
    rw [commit_fillSeq]
    rcases List.mem_append.mp member with earlier | new
    · obtain ⟨number, most, isId⟩ := accounts.numbered other earlier
      exact ⟨number, most.trans (Nat.le_succ _), isId⟩
    · obtain rfl := List.mem_singleton.mp new
      exact ⟨state.fillSeq + 1, le_rfl, sound.orderId ▸ sound.fillId⟩
  distinct := by
    rw [List.map_append, List.map_singleton, ← List.concat_eq_append]
    refine accounts.distinct.concat ?_
    intro member
    obtain ⟨other, earlier, sameId⟩ := List.mem_map.mp member
    obtain ⟨number, most, isId⟩ := accounts.numbered other earlier
    have numbers := fillId_number (isId.symm.trans (sameId.trans sound.fillId))
    omega

end

/-- **The account holds after every run.** -/
theorem accounts_runAll {state : EngineState} {fills : List (Call × Fill)}
    (accounts : Accounts engine state fills) (calls : List Call) :
    Accounts engine (runAll engine state calls).2
      (fills ++ mintedOf (runAll engine state calls).1) := by
  induction calls generalizing state fills with
  | nil =>
    change Accounts engine state (fills ++ [])
    rwa [List.append_nil]
  | cons call rest ih =>
    rw [runAll, mintedOf, List.filterMap_cons]
    cases checked : mint engine state call with
    | error error =>
      have result : outcome engine state call = (.error error, state) := by
        rw [outcome_eq, checked]
      rw [result]
      exact ih accounts
    | ok minted =>
      have result : outcome engine state call = (.ok minted.fill, commit state call minted) := by
        rw [outcome_eq, checked]
      rw [result]
      have next := ih (accounts_commit accounts (sound_of_mint checked))
      rwa [List.append_assoc] at next

/-! ## The promises of the engine -/

/-- A decimal of no more digits than the precision. -/
def IsShort (x : ℚ) : Prop :=
  ∃ m k : ℤ, |m| < 10 ^ precision ∧ x = m * 10 ^ k

/-- What a log promises about its fills. -/
structure WithinCaps (engine : FillEngine) (fills : List (Call × Fill)) : Prop where
  orders : ∀ minted ∈ fills,
    totalOf (OfOrder minted.2.orderId) fills ≤ minted.1.order.quantity
  terms : ∀ first ∈ fills, ∀ second ∈ fills, first.2.orderId = second.2.orderId →
    first.1.order = second.1.order
  bars : ∀ key, totalOf (OfBar key) fills ≤ participation engine (largestVolume key fills)
  exactly : ∀ key, IsShort (engine.fillSizeFraction * largestVolume key fills) →
    totalOf (OfBar key) fills ≤ ⌊engine.fillSizeFraction * largestVolume key fills⌋
  ids : (fills.map fun minted => minted.2.fillId).Nodup

theorem participation_exact {size : ℕ} (short : IsShort (engine.fillSizeFraction * size)) :
    participation engine size = ⌊engine.fillSizeFraction * size⌋ := by
  obtain ⟨m, k, digits, same⟩ := short
  rw [participation, mul, same, roundContext_of_digits digits]

theorem withinCaps_of_accounts {state : EngineState} {fills : List (Call × Fill)}
    (accounts : Accounts engine state fills) : WithinCaps engine fills where
  orders minted member := by
    rw [← accounts.filled]
    exact accounts.within _ _ (accounts.bound minted member).2
  terms first inFirst second inSecond same := by
    have isFirst := (accounts.bound first inFirst).2
    rw [same, (accounts.bound second inSecond).2] at isFirst
    exact (Option.some.inj isFirst).symm
  bars key := by
    rw [← accounts.consumed]
    exact accounts.capped key
  exactly key short := by
    rw [← accounts.consumed, ← participation_exact short]
    exact accounts.capped key
  ids := accounts.distinct

theorem state_of_error {state : EngineState} {call : Call} {error : EngineError}
    (raised : (outcome engine state call).1 = .error error) :
    (outcome engine state call).2 = state := by
  rw [outcome_eq] at raised ⊢
  cases checked : mint engine state call with
  | error error' => rfl
  | ok minted =>
    rw [checked] at raised
    cases raised

/-- **The fills of every run stay within the caps, and a call that raises might as well not
have been made.** -/
theorem fillsWithinCaps (engine : FillEngine) :
    (∀ calls, WithinCaps engine (mintedOf (runAll engine EngineState.initial calls).1)) ∧
    ∀ state call error, (outcome engine state call).1 = .error error →
      (outcome engine state call).2 = state ∧
      ∀ rest, runAll engine state (call :: rest) =
        (⟨call, .error error⟩ :: (runAll engine state rest).1, (runAll engine state rest).2) := by
  constructor
  · intro calls
    exact withinCaps_of_accounts (accounts_runAll (accounts_initial engine) calls)
  · intro state call error raised
    have same := state_of_error raised
    refine ⟨same, fun rest => ?_⟩
    rw [runAll, raised, same]

/-! ## A fraction of thirty digits -/

/-- A day, in microseconds. -/
def sampleDay : ℤ :=
  86400000000

/-- Every day is a session. Its last six and a half hours are the trading hours. -/
def sampleCalendar : SessionCalendar where
  isSession _ := true
  ordinal session := .ok session
  sessionClose session := .ok (session * sampleDay)
  containsInstant session instant :=
    .ok (session * sampleDay - 23400000000 ≤ instant ∧ instant ≤ session * sampleDay)

theorem fraction_pos : (0 : ℚ) < 1 - 1 / 10 ^ 29 := by
  norm_num

theorem fraction_le : 1 - 1 / 10 ^ 29 ≤ (1 : ℚ) := by
  norm_num

/-- An engine without fees that may fill 29 nines of a bar. -/
def sampleEngine : FillEngine where
  calendar := sampleCalendar
  feeModel _ := .ok 0
  maxQuoteAgeSeconds := 900
  rejectLockedQuotes := true
  fillSizeFraction := 1 - 1 / 10 ^ 29
  decisionCloses := none
  fraction_pos := fraction_pos
  fraction_le := fraction_le

/-- A bar of ten contracts at one dollar, published the day after its session. -/
def sampleBar : VwapQuoteEvent where
  contractId := "C"
  session := 1
  exchangeTimestamp := sampleDay
  receivedTimestamp := sampleDay + 1
  vwap := 1
  volume := 10
  quoteCondition := "regular"
  vwap_pos := one_pos
  received_later := by decide

def sampleContract : OptionContract where
  contractId := "C"
  expiration := 9
  multiplier := 100
  listingStart := 0
  listingEnd := 9
  sharesPerContract := 100
  standardContractFlag := true
  multiplier_pos := by decide
  shares_pos := by decide
  listed := by decide
  expires := by decide
  standard := by decide

/-- An order for ten, decided at the close of the session 1. -/
def sampleOrder : Order where
  orderId := "A"
  contractId := "C"
  side := .buy
  intent := .openLong
  quantity := 10
  orderType := .market
  limitPrice := none
  budgetNotional := none
  decisionAt := sampleDay
  decisionSession := 1
  quantity_pos := by decide
  permitted := by decide
  limitPriced := by decide

def sampleCall : Call where
  order := sampleOrder
  quotes := [.vwap sampleBar]
  contract := sampleContract
  executionSession := 2
  executionAt := 2 * sampleDay
  fractionToMidpoint := 0
  stress := ⟨0, 0, 0, 0, le_rfl⟩
  partialSequence := false

/-- All ten contracts are filled, and 29 nines of ten are less than ten. -/
theorem fills_beyond_volume :
    ⌊sampleEngine.fillSizeFraction * largestVolume ("C", 1)
        (mintedOf (runAll sampleEngine EngineState.initial [sampleCall]).1)⌋ <
      totalOf (OfBar ("C", 1))
        (mintedOf (runAll sampleEngine EngineState.initial [sampleCall]).1) := by
  decide +kernel

/-- The call with another contract. -/
def mismatchedCall : Call :=
  { sampleCall with contract := { sampleContract with contractId := "D" } }

theorem rejected_mismatchedCall :
    (outcome sampleEngine EngineState.initial mismatchedCall).1 =
      .error (.rejection (.contractMismatch "C" "D" ["C"])) := by
  rfl

theorem fillsWithinCaps_sample :
    WithinCaps sampleEngine
        (mintedOf (runAll sampleEngine EngineState.initial [sampleCall]).1) ∧
      (outcome sampleEngine EngineState.initial mismatchedCall).2 = EngineState.initial :=
  ⟨(fillsWithinCaps sampleEngine).1 [sampleCall],
    ((fillsWithinCaps sampleEngine).2 _ _ _ rejected_mismatchedCall).1⟩

end TreeOptions.Guards
