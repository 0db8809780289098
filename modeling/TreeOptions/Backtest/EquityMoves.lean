import TreeOptions.Backtest.Equity

/-!
# What a session of the equity backtest does

Whatever a session does to the book is a sequence of moves: a sale, a purchase that the cash
affords, a dividend, or a ratio conversion (`Move`). Each function of a session makes such moves
and no others (`moves_runSession`), and every fill of the session is executed on it.
-/

set_option autoImplicit false

namespace TreeOptions.Backtest

open Checked Decimal Ledger

/-! ## Moves -/

/-- What is traded and noted is the same. -/
structure Quiet (state next : EquityState) : Prop where
  ledger : next.ledger = state.ledger
  books : next.books = state.books
  fills : next.fills = state.fills
  conversions : next.conversions = state.conversions

theorem Quiet.refl (state : EquityState) : Quiet state state :=
  ⟨rfl, rfl, rfl, rfl⟩

/-- One fill was minted and applied. -/
structure Filled (session : ℤ) (state next : EquityState) (fill : Fill) : Prop where
  ran : (Ledger.apply fill).run state.ledger = .ok () next.ledger
  books : next.books = state.books ++ [next.ledger]
  fills : next.fills = state.fills ++ [fill]
  conversions : next.conversions = state.conversions
  onSession : fill.executionSession = session

structure Trades (fill : Fill) (side : Side) (quantity : ℕ) (price fees : ℚ) : Prop where
  side_eq : fill.side = side
  quantity_eq : fill.quantity = quantity
  price_eq : fill.price.value = price
  multiplier_eq : fill.multiplier = 1
  fees_eq : fill.fees.value = fees

/-- Each ratio conversion leaves the cash at zero or above: what is sold and the cash before it
pay for what is bought. -/
def RatioConversion.Covered (conversion : RatioConversion) : Prop :=
  ∀ ratio ∈ div? conversion.numerator conversion.denominator,
    ∀ price ∈ quantizeCents roundHalfUp (mul conversion.openPrice ratio),
      convertedQuantity conversion.quantity ratio * conversion.openPrice ≤
        conversion.cash + conversion.quantity * price

/-- One thing that a session does to the book. -/
inductive Move (session : ℤ) (state next : EquityState) : Prop where
  | quiet (same : Quiet state next)
  | sale (fill : Fill) (quantity : ℕ) (price fees : ℚ) (filled : Filled session state next fill)
      (trades : Trades fill .sell quantity price fees)
      (priced : (FeeModel.fiveBasisPoints).orderFees price quantity = .ok fees)
  | purchase (fill : Fill) (quantity affordable : ℕ) (price fees most : ℚ)
      (filled : Filled session state next fill)
      (trades : Trades fill .buy quantity price fees)
      (priced : (FeeModel.fiveBasisPoints).orderFees price quantity = .ok fees)
      (le : quantity ≤ affordable)
      (bounded : (FeeModel.fiveBasisPoints).orderFees price affordable = .ok most)
      (fits : add (mul price affordable) most ≤ state.ledger.cash)
  | dividend (old new : Fill) (quantity : ℕ) (price openPrice : ℚ) (sold : EquityState)
      (first : Filled session state sold old) (second : Filled session sold next new)
      (sells : Trades old .sell quantity price 0) (buys : Trades new .buy quantity openPrice 0)
      (le : openPrice ≤ price)
  | conversion (noted sold : EquityState) (converted : RatioConversion) (ratio price : ℚ)
      (old : Fill) (cash : converted.cash = state.ledger.cash)
      (isRatio : div? converted.numerator converted.denominator = some ratio)
      (isPrice : quantizeCents roundHalfUp (mul converted.openPrice ratio) = some price)
      (ledger : noted.ledger = state.ledger) (books : noted.books = state.books)
      (fills : noted.fills = state.fills)
      (conversions : noted.conversions = state.conversions ++ [converted])
      (first : Filled session noted sold old)
      (sells : Trades old .sell converted.quantity price 0)
      (second : convertedQuantity converted.quantity ratio = 0 ∧ Quiet sold next ∨
        ∃ new, Filled session sold next new ∧
          Trades new .buy (convertedQuantity converted.quantity ratio) converted.openPrice 0)

/-- A sequence of moves. -/
abbrev Moves (session : ℤ) : EquityState → EquityState → Prop :=
  Relation.ReflTransGen (Move session)

variable {calendar : TradingCalendar} {view : SessionView} {session : ℤ}
  {state next : EquityState}

theorem Quiet.moves (same : Quiet state next) : Moves session state next :=
  .single (.quiet same)

theorem moves_of_foldlM {Item : Type} {step : EquityState → Item → Except EquityError EquityState}
    {items : List Item}
    (each : ∀ item ∈ items, ∀ state next, step state item = .ok next → Moves session state next)
    (ran : items.foldlM step state = .ok next) : Moves session state next := by
  induction items generalizing state with
  | nil =>
    cases ran
    exact .refl
  | cons item rest ih =>
    obtain ⟨stepped, first, ran⟩ := bind_eq_ok.mp ran
    exact (each item List.mem_cons_self state stepped first).trans
      (ih (List.forall_mem_cons.mp each).2 ran)

/-! ## Minting and applying -/

theorem orRaise_eq_ok {Value : Type} {error : EquityError} {value? : Option Value} {value : Value} :
    orRaise error value? = .ok value ↔ value? = some value := by
  cases value? with
  | none => simp [orRaise]
  | some other => simp [orRaise]

variable {securityId : String} {quantity : ℕ} {fill : Fill}

/-- **A minted fill**: its fields, and the engine that keeps it. -/
theorem mint_eq_ok {purpose : String} {side : Side} {price : ℚ} {executionSession executionAt : ℤ}
    {chargeFee : Bool}
    (minted : mint state securityId side quantity price executionSession executionAt chargeFee
      purpose = .ok (next, fill)) :
    ∃ fees, Trades fill side quantity price fees ∧ fill.executionSession = executionSession ∧
      (if chargeFee then (FeeModel.fiveBasisPoints).orderFees price quantity = .ok fees
        else fees = 0) ∧
      next = state.keep fill := by
  rw [mint] at minted
  simp only [bind_eq_ok] at minted
  obtain ⟨_, -, _, -, fees, isFees, made, isMade, minted⟩ := minted
  cases minted
  have said := Fill.mintedFrom (orRaise_eq_ok.mp isMade)
  refine ⟨fees, ⟨said.side_eq, said.quantity_eq, said.price_eq, said.multiplier_eq,
    said.fees_eq⟩, said.executionSession_eq, ?_, rfl⟩
  rw [fillFees] at isFees
  split at isFees
  case isTrue charged =>
    rw [if_pos charged]
    exact mapError_eq_ok.mp isFees
  case isFalse free =>
    rw [if_neg free]
    exact (Except.ok.inj isFees).symm

theorem applyFill_eq_ok (applied : applyFill state fill = .ok next) :
    ∃ book, (Ledger.apply fill).run state.ledger = .ok () book ∧
      next = { state with ledger := book, books := state.books ++ [book] } := by
  rw [applyFill] at applied
  split at applied
  case h_1 book ran =>
    cases applied
    exact ⟨book, ran, rfl⟩
  case h_2 => cases applied

theorem settle_eq_ok (settled : settle state fill = .ok next) :
    ∃ book traded, (Ledger.apply fill).run state.ledger = .ok () book ∧
      next = { state with
        ledger := book, books := state.books ++ [book], tradedNotional := traded } := by
  rw [settle] at settled
  obtain ⟨applied, isApplied, settled⟩ := bind_eq_ok.mp settled
  obtain ⟨amount, -, settled⟩ := bind_eq_ok.mp settled
  obtain ⟨book, ran, rfl⟩ := applyFill_eq_ok isApplied
  cases settled
  exact ⟨book, _, ran, rfl⟩

theorem filled_of_settle {settled : EquityState}
    (isSettled : settle (state.keep fill) fill = .ok settled)
    (onSession : fill.executionSession = session) (ids : List String) :
    Filled session state { settled with openIds := ids } fill := by
  obtain ⟨book, traded, ran, rfl⟩ := settle_eq_ok isSettled
  exact ⟨ran, rfl, rfl, rfl, onSession⟩

/-! ## Corporate actions -/

theorem filled_of_applyFill (applied : applyFill (state.keep fill) fill = .ok next)
    (onSession : fill.executionSession = session) : Filled session state next fill := by
  obtain ⟨book, ran, rfl⟩ := applyFill_eq_ok applied
  exact ⟨ran, rfl, rfl, rfl, onSession⟩

variable {applied : EquityState}

theorem filled_pair {old new : Fill}
    (ran : [old, new].foldlM applyFill ((state.keep old).keep new) = .ok applied)
    (first : old.executionSession = session) (second : new.executionSession = session) :
    ∃ sold, Filled session state sold old ∧ Filled session sold applied new := by
  obtain ⟨afterOld, isOld, ran⟩ := bind_eq_ok.mp ran
  obtain ⟨afterNew, isNew, ran⟩ := bind_eq_ok.mp ran
  cases ran
  obtain ⟨book, ranOld, rfl⟩ := applyFill_eq_ok isOld
  obtain ⟨book', ranNew, rfl⟩ := applyFill_eq_ok isNew
  exact ⟨{ state with
      ledger := book, books := state.books ++ [book], fills := state.fills ++ [old] },
    ⟨ranOld, rfl, rfl, rfl, first⟩, ⟨ranNew, rfl, rfl, rfl, second⟩⟩

theorem reopen_quiet (state : EquityState) (securityId : String) :
    Quiet state (reopen state securityId) :=
  ⟨rfl, rfl, rfl, rfl⟩

variable {minted : EquityState}

/-- A dividend is a sale and a purchase of the same quantity, at no higher a price. -/
theorem move_cashDividend {bar : BarRecord} {amount : ℚ} {converted : List Fill}
    (onSession : bar.session = session)
    (made : cashDividend calendar state securityId quantity bar amount = .ok (minted, converted))
    (ran : converted.foldlM applyFill minted = .ok applied) : Move session state applied := by
  rw [cashDividend] at made
  simp only [bind_eq_ok] at made
  obtain ⟨_, nonneg, price, isPrice, ⟨sold, old⟩, isOld, ⟨bought, new⟩, isNew, made⟩ := made
  cases made
  obtain ⟨oldFees, sells, oldSession, free, rfl⟩ := mint_eq_ok isOld
  obtain ⟨newFees, buys, newSession, free', rfl⟩ := mint_eq_ok isNew
  rw [if_neg Bool.false_ne_true] at free free'
  subst free free'
  obtain ⟨middle, first, second⟩ := filled_pair ran (oldSession.trans onSession)
    (newSession.trans onSession)
  refine .dividend old new quantity price bar.openPrice.value middle first second sells buys ?_
  -- adding an amount that is not negative and rounding does not go below a price in whole cents
  have rounded := quantizeCents_eq_some (orRaise_eq_ok.mp isPrice)
  have positive := bar.openPrice.positive.le
  obtain ⟨n, isN⟩ := mem_cents_iff.mp bar.openPrice.whole
  have exact' : roundContext bar.openPrice.value = bar.openPrice.value := by
    refine roundContext_of_cents bar.openPrice.whole ?_
    rw [abs_of_nonneg positive]
    exact bar.openPrice.small.trans (by norm_num)
  have grown : bar.openPrice.value ≤ add bar.openPrice.value amount := by
    conv_lhs => rw [← exact']
    exact roundContext_mono positive (le_add_of_nonneg_right (not_lt.mp (refuse_eq_ok.mp nonneg)))
  have least : n ≤ roundHalfUp (add bar.openPrice.value amount * 100) := by
    rw [← roundHalfUp_intCast n]
    refine roundHalfUp_mono ?_ ?_
    · have := positive
      rw [isN] at this
      linarith
    · rw [isN] at grown
      rw [isN]
      linarith
  have cents : (n : ℚ) / 100 ≤ roundHalfUp (add bar.openPrice.value amount * 100) / 100 :=
    div_le_div_of_nonneg_right (by exact_mod_cast least) (by norm_num)
  rw [rounded]
  exact isN.le.trans cents

/-- A ratio conversion notes itself, sells what is held, and buys the whole shares. -/
theorem move_conversion {numerator denominator : ℕ} {bar : BarRecord} {fills : List Fill}
    (onSession : bar.session = session)
    (made : conversion calendar state securityId quantity bar numerator denominator =
      .ok (minted, fills)) (ran : fills.foldlM applyFill minted = .ok applied) :
    Move session state applied := by
  rw [conversion] at made
  simp only [bind_eq_ok] at made
  obtain ⟨_, -, ratio, isRatio, price, isPrice, ⟨sold, old⟩, isOld, made⟩ := made
  obtain ⟨oldFees, sells, oldSession, free, rfl⟩ := mint_eq_ok isOld
  rw [if_neg Bool.false_ne_true] at free
  subst free
  let converted : RatioConversion :=
    ⟨state.ledger.cash, quantity, bar.openPrice.value, numerator, denominator⟩
  have isRatio' : div? converted.numerator converted.denominator = some ratio :=
    orRaise_eq_ok.mp isRatio
  have isPrice' : quantizeCents roundHalfUp (mul converted.openPrice ratio) = some price :=
    orRaise_eq_ok.mp isPrice
  dsimp only at made
  split at made
  case isTrue none' =>
    cases made
    obtain ⟨afterOld, isApplied, ran⟩ := bind_eq_ok.mp ran
    cases ran
    have first := filled_of_applyFill isApplied (oldSession.trans onSession)
    exact .conversion (state.note converted) applied converted ratio price old rfl isRatio'
      isPrice' rfl rfl rfl rfl first sells (.inl ⟨none', .refl applied⟩)
  case isFalse =>
    obtain ⟨⟨bought, new⟩, isNew, made⟩ := bind_eq_ok.mp made
    cases made
    obtain ⟨newFees, buys, newSession, free, rfl⟩ := mint_eq_ok isNew
    rw [if_neg Bool.false_ne_true] at free
    subst free
    obtain ⟨middle, first, second⟩ := filled_pair ran (oldSession.trans onSession)
      (newSession.trans onSession)
    exact .conversion (state.note converted) middle converted ratio price old rfl isRatio'
      isPrice' rfl rfl rfl rfl first sells (.inr ⟨new, second, buys⟩)

/-- The bars of a view are those of its session. -/
def SessionView.On (view : SessionView) (session : ℤ) : Prop :=
  ∀ securityId bar, view.bar securityId = some bar → bar.session = session

theorem moves_applyAction (on : view.On session) {action : CorporateActionRecord}
    (applied : applyAction calendar view session state action = .ok next) :
    Moves session state next := by
  rw [applyAction] at applied
  dsimp only at applied
  split at applied
  case isTrue =>
    cases applied
    exact .refl
  case isFalse =>
    simp only [bind_eq_ok] at applied
    obtain ⟨bar, isBar, ⟨minted, converted⟩, made, filled, ran, applied⟩ := applied
    have onSession := on _ bar (orRaise_eq_ok.mp isBar)
    have moved : Moves session state filled := by
      rw [convert] at made
      split at made
      case h_4 =>
        obtain ⟨amount, -, made⟩ := bind_eq_ok.mp made
        exact .single (move_cashDividend onSession made ran)
      case h_1 | h_2 | h_3 =>
        obtain ⟨numerator, -, made⟩ := bind_eq_ok.mp made
        obtain ⟨denominator, -, made⟩ := bind_eq_ok.mp made
        exact .single (move_conversion onSession made ran)
      all_goals
        cases made
        cases ran
        exact .refl
    cases applied
    split
    case isTrue => exact moved
    case isFalse => exact moved.tail (.quiet (reopen_quiet filled action.securityId))

/-! ## Trades -/

theorem nextOpen_eq_ok {side : Side} {decision : ℤ} {bar : BarRecord}
    (made : nextOpen calendar state securityId side quantity decision bar = .ok (minted, fill)) :
    ∃ fees, Trades fill side quantity bar.openPrice.value fees ∧
      fill.executionSession = bar.session ∧
      (FeeModel.fiveBasisPoints).orderFees bar.openPrice.value quantity = .ok fees ∧
      minted = state.keep fill := by
  rw [nextOpen] at made
  obtain ⟨expected, -, made⟩ := bind_eq_ok.mp made
  obtain ⟨_, -, made⟩ := bind_eq_ok.mp made
  obtain ⟨fees, trades, executed, charged, rfl⟩ := mint_eq_ok made
  rw [if_pos rfl] at charged
  exact ⟨fees, trades, executed, charged, rfl⟩

variable {desired : List (String × ℕ)}

theorem moves_sellDown (on : view.On session) {decision : ℤ}
    (sold : sellDown calendar view session decision desired state securityId = .ok next) :
    Moves session state next := by
  rw [sellDown] at sold
  dsimp only at sold
  split at sold
  case isTrue =>
    cases sold
    exact .refl
  case isFalse =>
    simp only [bind_eq_ok] at sold
    obtain ⟨bar, isBar, ⟨minted, fill⟩, made, settled, isSettled, sold⟩ := sold
    cases sold
    obtain ⟨fees, trades, executed, charged, rfl⟩ := nextOpen_eq_ok made
    have onSession := executed.trans (on _ bar (orRaise_eq_ok.mp isBar))
    exact .single (.sale fill _ _ fees (filled_of_settle isSettled onSession _) trades charged)

theorem moves_buyUp (on : view.On session) {decision : ℤ}
    (bought : buyUp calendar view session decision desired state securityId = .ok next) :
    Moves session state next := by
  rw [buyUp] at bought
  dsimp only at bought
  split at bought
  case isTrue =>
    cases bought
    exact .refl
  case isFalse =>
    obtain ⟨bar, isBar, bought⟩ := bind_eq_ok.mp bought
    obtain ⟨affordable, isAffordable, bought⟩ := bind_eq_ok.mp bought
    split at bought
    case isTrue =>
      cases bought
      exact .refl
    case isFalse some' =>
      obtain ⟨⟨minted, fill⟩, made, bought⟩ := bind_eq_ok.mp bought
      obtain ⟨settled, isSettled, bought⟩ := bind_eq_ok.mp bought
      cases bought
      obtain ⟨fees, trades, executed, charged, rfl⟩ := nextOpen_eq_ok made
      have onSession := executed.trans (on _ bar (orRaise_eq_ok.mp isBar))
      rcases FeeModel.affordableQuantity_eq_ok (mapError_eq_ok.mp isAffordable) with
        rfl | ⟨most, bounded, fits⟩
      · exact absurd (Nat.min_zero _) some'
      · exact .single (.purchase fill _ affordable _ fees most
          (filled_of_settle isSettled onSession _) trades charged (Nat.min_le_right _ _) bounded
          fits)

theorem moves_rebalance (on : view.On session) {pretrade : ℚ}
    (rebalanced : rebalance calendar view session pretrade state = .ok next) :
    Moves session state next := by
  rw [rebalance] at rebalanced
  split at rebalanced
  case h_1 =>
    cases rebalanced
    exact .refl
  case h_2 decision selected isSelected =>
    obtain ⟨budget, -, rebalanced⟩ := bind_eq_ok.mp rebalanced
    obtain ⟨⟨desired, hits⟩, -, rebalanced⟩ := bind_eq_ok.mp rebalanced
    obtain ⟨sold, isSold, bought⟩ := bind_eq_ok.mp rebalanced
    have hit : Quiet state { state with labelHits := hits } := ⟨rfl, rfl, rfl, rfl⟩
    have sales : Moves session { state with labelHits := hits } sold :=
      moves_of_foldlM (fun securityId _ before after ran => moves_sellDown on ran) isSold
    have purchases : Moves session sold next :=
      moves_of_foldlM (fun securityId _ before after ran => moves_buyUp on ran) bought
    exact (hit.moves.trans sales).trans purchases

variable {master : List SecurityMasterRecord}

theorem moves_closeDelisted (on : view.On session)
    (closed : closeDelisted calendar master view session state securityId = .ok next) :
    Moves session state next := by
  rw [closeDelisted] at closed
  obtain ⟨record, -, closed⟩ := bind_eq_ok.mp closed
  split at closed
  case isTrue =>
    cases closed
    exact .refl
  case isFalse =>
    simp only [bind_eq_ok] at closed
    obtain ⟨bar, isBar, ⟨minted, fill⟩, made, settled, isSettled, closed⟩ := closed
    cases closed
    obtain ⟨fees, trades, executed, charged, rfl⟩ := mint_eq_ok made
    rw [if_pos rfl] at charged
    have onSession := executed.trans (on _ bar (orRaise_eq_ok.mp isBar))
    exact .single (.sale fill _ _ fees (filled_of_settle isSettled onSession _) trades charged)

/-! ## One session -/

/-- **A session makes moves of its own**, after it has seen that the account is worth something. -/
theorem moves_runSession {views : ℤ → SessionView} (on : (views session).On session)
    {row : SessionRow} (ran : runSession calendar master views session state = .ok (next, row)) :
    Moves session state next ∧ row.session = session ∧
      ∃ converted pretrade,
        (views session).actions.foldlM (applyAction calendar (views session) session) state =
          .ok converted ∧
        equity (views session) session BarRecord.openPrice converted = .ok pretrade ∧
        0 < pretrade := by
  rw [runSession] at ran
  simp only [bind_eq_ok] at ran
  obtain ⟨converted, isConverted, pretrade, isPretrade, _, positive, traded, isTraded, closed,
    isClosed, value, -, growth, -, turnover, -, _, -, ran⟩ := ran
  cases ran
  have actions : Moves session state converted :=
    moves_of_foldlM (fun action _ before after applied => moves_applyAction on applied) isConverted
  have reset : Quiet converted { converted with tradedNotional := 0 } := ⟨rfl, rfl, rfl, rfl⟩
  have trades := moves_rebalance on isTraded
  have closes : Moves session traded closed :=
    moves_of_foldlM (fun securityId _ before after ran => moves_closeDelisted on ran) isClosed
  have valued : Quiet closed { closed with previousEquity := value } := ⟨rfl, rfl, rfl, rfl⟩
  refine ⟨(((actions.trans reset.moves).trans trades).trans closes).trans valued.moves, rfl,
    converted, pretrade, isConverted, isPretrade, not_le.mp (refuse_eq_ok.mp positive)⟩

theorem sessionView_on (input : EquityInput) (scheduled : List (ℤ × ℤ)) (session : ℤ) :
    (sessionView input scheduled session).On session := by
  intro securityId bar isBar
  have selected := List.find?_some isBar
  rw [decide_eq_true_eq] at selected
  exact selected.2

/-! ## Fills -/

/-- The fills of a move are executed on its session. -/
def Grows (session : ℤ) (state next : EquityState) : Prop :=
  ∃ fills, next.fills = state.fills ++ fills ∧ ∀ fill ∈ fills, fill.executionSession = session

theorem Grows.trans {first second third : EquityState} (left : Grows session first second)
    (right : Grows session second third) : Grows session first third := by
  obtain ⟨fills, isLeft, on⟩ := left
  obtain ⟨fills', isRight, on'⟩ := right
  refine ⟨fills ++ fills', by rw [isRight, isLeft, List.append_assoc], ?_⟩
  exact List.forall_mem_append.mpr ⟨on, on'⟩

theorem Filled.grows (filled : Filled session state next fill) : Grows session state next := by
  refine ⟨[fill], filled.fills, ?_⟩
  exact List.forall_mem_singleton.mpr filled.onSession

theorem Quiet.grows (same : Quiet state next) : Grows session state next :=
  ⟨[], by rw [same.fills, List.append_nil], fun fill isMember => by cases isMember⟩

theorem Move.grows (move : Move session state next) : Grows session state next := by
  cases move with
  | quiet same => exact same.grows
  | sale fill quantity price fees filled => exact filled.grows
  | purchase fill quantity affordable price fees most filled => exact filled.grows
  | dividend old new quantity price openPrice sold first second =>
    exact first.grows.trans second.grows
  | conversion noted sold converted ratio price old cash isRatio isPrice ledger books fills
      conversions first sells second =>
      have started : Grows session state sold := by
        obtain ⟨more, isMore, on⟩ := first.grows
        exact ⟨more, by rw [isMore, fills], on⟩
      rcases second with ⟨-, same⟩ | ⟨new, filled, -⟩
      · exact started.trans same.grows
      · exact started.trans filled.grows

/-- **The fills of a session are executed on it.** -/
theorem Moves.grows (moves : Moves session state next) : Grows session state next := by
  induction moves with
  | refl => exact (Quiet.refl state).grows
  | tail _ move ih => exact ih.trans move.grows

end TreeOptions.Backtest
