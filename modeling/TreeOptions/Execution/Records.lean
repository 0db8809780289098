import Mathlib.Data.Char
import Mathlib.Data.List.Lex
import Mathlib.Data.Prod.Lex
import Mathlib.Tactic.NormNum
import TreeOptions.Foundations.Grouping
import TreeOptions.Foundations.JsonRoundTrip

/-!
# Execution records

The records of one order: the intent, the local actions and observations, and the facts
the broker reports. Each carries the checks of its schema. Timestamps are instants in
their order, a price is a decimal as it is written, trailing zeros included.

Two records are the same for the lifecycle when their canonical bytes are. The schema
library writes the instants and the decimals; it is left open how, as long as no two of
them are written alike (`Serialization`). Then the canonical bytes tell any two records
apart (`canonicalBytes_injective`), and with them the key that events are sorted by
(`eventSortKey_injective`).
-/

set_option autoImplicit false

namespace TreeOptions.Execution

/-! ## Decimals -/

/-- A finite decimal as it is written: its sign, its digits and its exponent. -/
structure ExactDecimal where
  negative : Bool := false
  digits : ℕ
  exponent : ℤ
  deriving DecidableEq

def ExactDecimal.value (decimal : ExactDecimal) : ℚ :=
  (if decimal.negative then -1 else 1) * decimal.digits * 10 ^ decimal.exponent

/-- At most 18 digits, eight of them after the point. -/
def ExactDecimal.InBounds (decimal : ExactDecimal) : Prop :=
  decimal.value < 10 ^ 10 ∧ (decimal.value * 10 ^ 8).den = 1

instance (decimal : ExactDecimal) : Decidable decimal.InBounds :=
  inferInstanceAs (Decidable (_ ∧ _))

structure ExactPrice extends ExactDecimal where
  positive : 0 < toExactDecimal.value
  bounds : toExactDecimal.InBounds
  deriving DecidableEq

structure ExactMoney extends ExactDecimal where
  nonnegative : 0 ≤ toExactDecimal.value
  bounds : toExactDecimal.InBounds
  deriving DecidableEq

/-! ## The intent -/

inductive Side where
  | buy
  | sell
  deriving DecidableEq

def Side.value : Side → String
  | buy => "BUY"
  | sell => "SELL"

inductive PositionEffect where
  | openLong
  | closeLong
  deriving DecidableEq

def PositionEffect.value : PositionEffect → String
  | openLong => "OPEN_LONG"
  | closeLong => "CLOSE_LONG"

inductive OrderType where
  | market
  | limit
  deriving DecidableEq

def OrderType.value : OrderType → String
  | market => "MARKET"
  | limit => "LIMIT"

inductive ExecutionStyle where
  | single
  | package
  | legged
  deriving DecidableEq

def ExecutionStyle.value : ExecutionStyle → String
  | single => "single"
  | package => "package"
  | legged => "legged"

/-- One order intent. Retries of its submit never make another. -/
structure OrderIntent where
  intentId : String
  contractId : String
  side : Side
  positionEffect : PositionEffect
  quantity : ℕ
  orderType : OrderType
  limitPrice : Option ExactPrice := none
  executionStyle : ExecutionStyle := .single
  packageId : Option String := none
  intentCreatedAt : ℤ
  source : String
  sourceSequenceId : String
  quantity_pos : 1 ≤ quantity
  longOnly : side = .buy ↔ positionEffect = .openLong
  limitPriced : orderType = .limit ↔ limitPrice.isSome
  packaged : executionStyle = .single ↔ packageId = none

/-- Everything an intent says. -/
def OrderIntent.fields (intent : OrderIntent) :=
  ((intent.intentId, intent.contractId, intent.side), (intent.positionEffect, intent.quantity,
    intent.orderType), (intent.limitPrice, intent.executionStyle, intent.packageId),
    intent.intentCreatedAt, intent.source, intent.sourceSequenceId)

theorem OrderIntent.fields_injective : Function.Injective OrderIntent.fields := by
  rintro ⟨⟩ ⟨⟩ same
  cases same
  rfl

set_option synthInstance.maxSize 1000 in
instance : DecidableEq OrderIntent := fun first second =>
  decidable_of_iff (first.fields = second.fields) OrderIntent.fields_injective.eq_iff

/-! ## Local actions and observations -/

/-- The identity every record but the intent has. -/
structure RecordHead where
  recordId : String
  intentId : String
  source : String
  sourceSequenceId : String
  deriving DecidableEq

structure SubmitAttempt extends RecordHead where
  sendAttemptAt : ℤ
  deriving DecidableEq

/-- A request for another total, tied to one readback. -/
structure ReplaceIntent extends RecordHead where
  basedOnReadbackId : String
  brokerOrderId : String
  newTotalQuantity : ℕ
  newLimitPrice : ExactPrice
  replaceCreatedAt : ℤ
  newTotal_pos : 1 ≤ newTotalQuantity

/-- Everything a replacement says. -/
def ReplaceIntent.fields (intent : ReplaceIntent) :=
  (intent.toRecordHead, intent.basedOnReadbackId, intent.brokerOrderId, intent.newTotalQuantity,
    intent.newLimitPrice, intent.replaceCreatedAt)

theorem ReplaceIntent.fields_injective : Function.Injective ReplaceIntent.fields := by
  rintro ⟨⟩ ⟨⟩ same
  cases same
  rfl

instance : DecidableEq ReplaceIntent := fun first second =>
  decidable_of_iff (first.fields = second.fields) ReplaceIntent.fields_injective.eq_iff

structure TimeoutObserved extends RecordHead where
  attemptId : String
  locallyReceivedAt : ℤ
  deriving DecidableEq

structure DisconnectObserved extends RecordHead where
  locallyReceivedAt : ℤ
  deriving DecidableEq

structure UncertaintyObserved extends RecordHead where
  locallyReceivedAt : ℤ
  reasonCode : String
  deriving DecidableEq

/-- An observation that leaves the outcome of an effect unknown. -/
inductive Observation where
  | timeout (record : TimeoutObserved)
  | disconnect (record : DisconnectObserved)
  | uncertainty (record : UncertaintyObserved)
  deriving DecidableEq

def Observation.head : Observation → RecordHead
  | timeout record => record.toRecordHead
  | disconnect record => record.toRecordHead
  | uncertainty record => record.toRecordHead

def Observation.locallyReceivedAt : Observation → ℤ
  | timeout record => record.locallyReceivedAt
  | disconnect record => record.locallyReceivedAt
  | uncertainty record => record.locallyReceivedAt

/-! ## Broker facts -/

/-- What every fact the broker reports has. -/
structure BrokerHead extends RecordHead where
  brokerSequenceId : String
  locallyReceivedAt : ℤ
  deriving DecidableEq

structure BrokerAcknowledgement extends BrokerHead where
  brokerOrderId : String
  brokerAcknowledgedAt : ℤ
  acknowledged_le : brokerAcknowledgedAt ≤ locallyReceivedAt
  deriving DecidableEq

structure OrderReject extends BrokerHead where
  brokerOrderId : Option String
  reasonCode : String
  brokerAcknowledgedAt : ℤ
  acknowledged_le : brokerAcknowledgedAt ≤ locallyReceivedAt
  deriving DecidableEq

inductive FillKind where
  | partialFill
  | completeFill
  deriving DecidableEq

structure FillRecord extends BrokerHead where
  kind : FillKind
  brokerOrderId : String
  fillQuantity : ℕ
  cumulativeQuantity : ℕ
  unitPrice : ExactPrice
  fees : ExactMoney
  exchangeEventAt : ℤ
  fill_pos : 1 ≤ fillQuantity
  fill_le : fillQuantity ≤ cumulativeQuantity
  event_le : exchangeEventAt ≤ locallyReceivedAt

/-- Everything a fill says. -/
def FillRecord.fields (record : FillRecord) :=
  ((record.toBrokerHead, record.kind, record.brokerOrderId, record.fillQuantity),
    (record.cumulativeQuantity, record.unitPrice, record.fees, record.exchangeEventAt))

theorem FillRecord.fields_injective : Function.Injective FillRecord.fields := by
  rintro ⟨⟩ ⟨⟩ same
  cases same
  rfl

instance : DecidableEq FillRecord := fun first second =>
  decidable_of_iff (first.fields = second.fields) FillRecord.fields_injective.eq_iff

inductive BrokerReadbackStatus where
  | opened
  | partiallyFilled
  | filled
  | canceled
  | rejected
  | absent
  | ambiguous
  deriving DecidableEq

def BrokerReadbackStatus.value : BrokerReadbackStatus → String
  | opened => "OPEN"
  | partiallyFilled => "PARTIALLY_FILLED"
  | filled => "FILLED"
  | canceled => "CANCELED"
  | rejected => "REJECTED"
  | absent => "ABSENT"
  | ambiguous => "AMBIGUOUS"

/-- The order, the total and the cumulative quantity a status may be reported with. -/
def BrokerReadbackStatus.Admits (order : Option String) (total : Option ℕ) (cumulative : ℕ) :
    BrokerReadbackStatus → Prop
  | opened => order.isSome ∧ total.isSome ∧ cumulative = 0
  | partiallyFilled => order.isSome ∧ 0 < cumulative ∧ total.any (cumulative < ·)
  | filled => order.isSome ∧ total = some cumulative
  | canceled => order.isSome ∧ total.any (cumulative ≤ ·)
  | rejected => total = none ∧ cumulative = 0
  | absent | ambiguous => order = none ∧ total = none ∧ cumulative = 0

/-- A snapshot of the order. The observed fields are what the provider said where the
order or its quantity could not be accepted. -/
structure BrokerReadback extends BrokerHead where
  status : BrokerReadbackStatus
  brokerOrderId : Option String
  observedOrderId : Option String := none
  observedTotalQuantity : Option ℕ := none
  observedStatus : Option String := none
  totalQuantity : Option ℕ
  cumulativeQuantity : ℕ
  brokerSnapshotAt : ℤ
  total_pos : ∀ total, totalQuantity = some total → 1 ≤ total
  observedTotal_pos : ∀ total, observedTotalQuantity = some total → 1 ≤ total
  observedOrder : ∀ observed order, observedOrderId = some observed →
    brokerOrderId = some order → observed = order
  observedTotal : ∀ observed total, observedTotalQuantity = some observed →
    totalQuantity = some total → observed = total
  snapshot_le : brokerSnapshotAt ≤ locallyReceivedAt
  admitted : status.Admits brokerOrderId totalQuantity cumulativeQuantity
  deriving DecidableEq

inductive BrokerFact where
  | acknowledgement (record : BrokerAcknowledgement)
  | reject (record : OrderReject)
  | fill (record : FillRecord)
  | readback (record : BrokerReadback)
  deriving DecidableEq

namespace BrokerFact

def head : BrokerFact → BrokerHead
  | acknowledgement record => record.toBrokerHead
  | reject record => record.toBrokerHead
  | fill record => record.toBrokerHead
  | readback record => record.toBrokerHead

def locallyReceivedAt (fact : BrokerFact) : ℤ :=
  fact.head.locallyReceivedAt

def brokerOrderId : BrokerFact → Option String
  | acknowledgement record => some record.brokerOrderId
  | reject record => record.brokerOrderId
  | fill record => some record.brokerOrderId
  | readback record => record.brokerOrderId

/-- When it happened at the broker. -/
def primaryTime : BrokerFact → ℤ
  | acknowledgement record => record.brokerAcknowledgedAt
  | reject record => record.brokerAcknowledgedAt
  | fill record => record.exchangeEventAt
  | readback record => record.brokerSnapshotAt

end BrokerFact

/-! ## Records -/

inductive ExecutionRecord where
  | submitAttempt (record : SubmitAttempt)
  | replaceIntent (record : ReplaceIntent)
  | observation (record : Observation)
  | brokerFact (record : BrokerFact)
  deriving DecidableEq

inductive StoredExecutionRecord where
  | orderIntent (record : OrderIntent)
  | execution (record : ExecutionRecord)

namespace ExecutionRecord

def head : ExecutionRecord → RecordHead
  | submitAttempt record => record.toRecordHead
  | replaceIntent record => record.toRecordHead
  | observation record => record.head
  | brokerFact record => record.head.toRecordHead

def brokerSequenceId : ExecutionRecord → Option String
  | brokerFact record => some record.head.brokerSequenceId
  | submitAttempt _ | replaceIntent _ | observation _ => none

def primaryTime : ExecutionRecord → ℤ
  | submitAttempt record => record.sendAttemptAt
  | replaceIntent record => record.replaceCreatedAt
  | observation record => record.locallyReceivedAt
  | brokerFact record => record.primaryTime

/-- Local actions come before what the broker says of the same instant. -/
def priority : ExecutionRecord → ℕ
  | submitAttempt _ | replaceIntent _ => 0
  | observation _ | brokerFact _ => 1

/-- When it was known locally. -/
def knownAt : ExecutionRecord → ℤ
  | submitAttempt record => record.sendAttemptAt
  | replaceIntent record => record.replaceCreatedAt
  | observation record => record.locallyReceivedAt
  | brokerFact record => record.locallyReceivedAt

def knownNoLaterThan (observedAt : ℤ) (record : ExecutionRecord) : Bool :=
  record.knownAt ≤ observedAt

end ExecutionRecord

namespace StoredExecutionRecord

def recordId : StoredExecutionRecord → String
  | orderIntent record => record.intentId
  | execution record => record.head.recordId

/-- The source and its number for the record. -/
def sourceKey : StoredExecutionRecord → String × String
  | orderIntent record => (record.source, record.sourceSequenceId)
  | execution record => (record.head.source, record.head.sourceSequenceId)

/-- The source and the broker's number for the record, where it has one. -/
def brokerKey : StoredExecutionRecord → Option (String × String)
  | orderIntent _ => none
  | execution record => record.brokerSequenceId.map fun sequence => (record.head.source, sequence)

end StoredExecutionRecord

/-! ## Canonical bytes -/

/-- The models of the schema. -/
inductive Model where
  | orderIntent
  | submitAttempt
  | replaceIntent
  | timeoutObserved
  | disconnectObserved
  | uncertaintyObserved
  | brokerAcknowledgement
  | orderReject
  | partialFill
  | completeFill
  | brokerReadback
  deriving DecidableEq

def Model.name : Model → String
  | orderIntent => "OrderIntent"
  | submitAttempt => "SubmitAttempt"
  | replaceIntent => "ReplaceIntent"
  | timeoutObserved => "TimeoutObserved"
  | disconnectObserved => "DisconnectObserved"
  | uncertaintyObserved => "UncertaintyObserved"
  | brokerAcknowledgement => "BrokerAcknowledgement"
  | orderReject => "OrderReject"
  | partialFill => "PartialFill"
  | completeFill => "CompleteFill"
  | brokerReadback => "BrokerReadback"

/-- How the schema library writes instants and decimals. -/
structure Serialization where
  instant : ℤ → String
  decimal : ExactDecimal → String
  instant_injective : Function.Injective instant
  decimal_injective : Function.Injective decimal

section

variable (json : Serialization)

def textOrNull : Option String → Json.Value
  | some text => .str text
  | none => .null

def numberOrNull : Option ℕ → Json.Value
  | some number => .int number
  | none => .null

/-- The model of a record and its fields, in the order of their keys. -/
def OrderIntent.document (record : OrderIntent) : Model × List (String × Json.Value) :=
  (.orderIntent, [
    ("contract_id", .str record.contractId),
    ("execution_style", .str record.executionStyle.value),
    ("intent_created_at", .str (json.instant record.intentCreatedAt)),
    ("intent_id", .str record.intentId),
    ("limit_price", textOrNull (record.limitPrice.map fun price =>
      json.decimal price.toExactDecimal)),
    ("order_type", .str record.orderType.value),
    ("package_id", textOrNull record.packageId),
    ("position_effect", .str record.positionEffect.value),
    ("quantity", .int record.quantity),
    ("record_type", .str "ORDER_INTENT"),
    ("side", .str record.side.value),
    ("source", .str record.source),
    ("source_sequence_id", .str record.sourceSequenceId)])

def SubmitAttempt.document (record : SubmitAttempt) : Model × List (String × Json.Value) :=
  (.submitAttempt, [
    ("intent_id", .str record.intentId),
    ("record_id", .str record.recordId),
    ("record_type", .str "SUBMIT_ATTEMPT"),
    ("send_attempt_at", .str (json.instant record.sendAttemptAt)),
    ("source", .str record.source),
    ("source_sequence_id", .str record.sourceSequenceId)])

def ReplaceIntent.document (record : ReplaceIntent) : Model × List (String × Json.Value) :=
  (.replaceIntent, [
    ("based_on_readback_id", .str record.basedOnReadbackId),
    ("broker_order_id", .str record.brokerOrderId),
    ("intent_id", .str record.intentId),
    ("new_limit_price", .str (json.decimal record.newLimitPrice.toExactDecimal)),
    ("new_total_quantity", .int record.newTotalQuantity),
    ("record_id", .str record.recordId),
    ("record_type", .str "REPLACE_INTENT"),
    ("replace_created_at", .str (json.instant record.replaceCreatedAt)),
    ("source", .str record.source),
    ("source_sequence_id", .str record.sourceSequenceId)])

def TimeoutObserved.document (record : TimeoutObserved) : Model × List (String × Json.Value) :=
  (.timeoutObserved, [
    ("attempt_id", .str record.attemptId),
    ("intent_id", .str record.intentId),
    ("locally_received_at", .str (json.instant record.locallyReceivedAt)),
    ("record_id", .str record.recordId),
    ("record_type", .str "TIMEOUT_OBSERVED"),
    ("source", .str record.source),
    ("source_sequence_id", .str record.sourceSequenceId)])

def DisconnectObserved.document (record : DisconnectObserved) :
    Model × List (String × Json.Value) :=
  (.disconnectObserved, [
    ("intent_id", .str record.intentId),
    ("locally_received_at", .str (json.instant record.locallyReceivedAt)),
    ("record_id", .str record.recordId),
    ("record_type", .str "DISCONNECT_OBSERVED"),
    ("source", .str record.source),
    ("source_sequence_id", .str record.sourceSequenceId)])

def UncertaintyObserved.document (record : UncertaintyObserved) :
    Model × List (String × Json.Value) :=
  (.uncertaintyObserved, [
    ("intent_id", .str record.intentId),
    ("locally_received_at", .str (json.instant record.locallyReceivedAt)),
    ("reason_code", .str record.reasonCode),
    ("record_id", .str record.recordId),
    ("record_type", .str "UNCERTAINTY_OBSERVED"),
    ("source", .str record.source),
    ("source_sequence_id", .str record.sourceSequenceId)])

def Observation.document : Observation → Model × List (String × Json.Value)
  | timeout record => record.document json
  | disconnect record => record.document json
  | uncertainty record => record.document json

def FillKind.model : FillKind → Model
  | partialFill => .partialFill
  | completeFill => .completeFill

def FillKind.value : FillKind → String
  | partialFill => "PARTIAL_FILL"
  | completeFill => "COMPLETE_FILL"

def BrokerAcknowledgement.document (record : BrokerAcknowledgement) :
    Model × List (String × Json.Value) :=
  (.brokerAcknowledgement, [
    ("broker_acknowledged_at", .str (json.instant record.brokerAcknowledgedAt)),
    ("broker_order_id", .str record.brokerOrderId),
    ("broker_sequence_id", .str record.brokerSequenceId),
    ("intent_id", .str record.intentId),
    ("locally_received_at", .str (json.instant record.locallyReceivedAt)),
    ("record_id", .str record.recordId),
    ("record_type", .str "BROKER_ACKNOWLEDGEMENT"),
    ("source", .str record.source),
    ("source_sequence_id", .str record.sourceSequenceId)])

def OrderReject.document (record : OrderReject) : Model × List (String × Json.Value) :=
  (.orderReject, [
    ("broker_acknowledged_at", .str (json.instant record.brokerAcknowledgedAt)),
    ("broker_order_id", textOrNull record.brokerOrderId),
    ("broker_sequence_id", .str record.brokerSequenceId),
    ("intent_id", .str record.intentId),
    ("locally_received_at", .str (json.instant record.locallyReceivedAt)),
    ("reason_code", .str record.reasonCode),
    ("record_id", .str record.recordId),
    ("record_type", .str "ORDER_REJECT"),
    ("source", .str record.source),
    ("source_sequence_id", .str record.sourceSequenceId)])

def FillRecord.document (record : FillRecord) : Model × List (String × Json.Value) :=
  (record.kind.model, [
    ("broker_order_id", .str record.brokerOrderId),
    ("broker_sequence_id", .str record.brokerSequenceId),
    ("cumulative_quantity", .int record.cumulativeQuantity),
    ("exchange_event_at", .str (json.instant record.exchangeEventAt)),
    ("fees", .str (json.decimal record.fees.toExactDecimal)),
    ("fill_quantity", .int record.fillQuantity),
    ("intent_id", .str record.intentId),
    ("locally_received_at", .str (json.instant record.locallyReceivedAt)),
    ("record_id", .str record.recordId),
    ("record_type", .str record.kind.value),
    ("source", .str record.source),
    ("source_sequence_id", .str record.sourceSequenceId),
    ("unit_price", .str (json.decimal record.unitPrice.toExactDecimal))])

def BrokerReadback.document (record : BrokerReadback) : Model × List (String × Json.Value) :=
  (.brokerReadback, [
    ("broker_order_id", textOrNull record.brokerOrderId),
    ("broker_sequence_id", .str record.brokerSequenceId),
    ("broker_snapshot_at", .str (json.instant record.brokerSnapshotAt)),
    ("cumulative_quantity", .int record.cumulativeQuantity),
    ("intent_id", .str record.intentId),
    ("locally_received_at", .str (json.instant record.locallyReceivedAt)),
    ("observed_order_id", textOrNull record.observedOrderId),
    ("observed_status", textOrNull record.observedStatus),
    ("observed_total_quantity", numberOrNull record.observedTotalQuantity),
    ("record_id", .str record.recordId),
    ("record_type", .str "BROKER_READBACK"),
    ("source", .str record.source),
    ("source_sequence_id", .str record.sourceSequenceId),
    ("status", .str record.status.value),
    ("total_quantity", numberOrNull record.totalQuantity)])

def BrokerFact.document : BrokerFact → Model × List (String × Json.Value)
  | acknowledgement record => record.document json
  | reject record => record.document json
  | fill record => record.document json
  | readback record => record.document json

def ExecutionRecord.document : ExecutionRecord → Model × List (String × Json.Value)
  | submitAttempt record => record.document json
  | replaceIntent record => record.document json
  | observation record => record.document json
  | brokerFact record => record.document json

def StoredExecutionRecord.document : StoredExecutionRecord → Model × List (String × Json.Value)
  | orderIntent record => record.document json
  | execution record => record.document json

/-- The canonical bytes of a record. They are ASCII and stand here as their characters,
in the same order. -/
def canonicalBytes (record : StoredExecutionRecord) : List Char :=
  let document := record.document json
  Json.dumps (.obj [("model", .str document.1.name), ("payload", .obj document.2)])

end

/-! ## Telling records apart -/

variable {json : Serialization}

theorem textOrNull_injective : Function.Injective textOrNull := by
  intro first second same
  cases first <;> cases second <;> simp_all [textOrNull]

theorem numberOrNull_injective : Function.Injective numberOrNull := by
  intro first second same
  cases first <;> cases second <;> simp_all [numberOrNull]

theorem ExactPrice.toExactDecimal_injective : Function.Injective ExactPrice.toExactDecimal := by
  rintro ⟨_, _, _⟩ ⟨_, _, _⟩ rfl
  rfl

theorem ExactMoney.toExactDecimal_injective : Function.Injective ExactMoney.toExactDecimal := by
  rintro ⟨_, _, _⟩ ⟨_, _, _⟩ rfl
  rfl

theorem Side.value_injective : Function.Injective Side.value := by
  intro first second
  cases first <;> cases second <;> decide

theorem PositionEffect.value_injective : Function.Injective PositionEffect.value := by
  intro first second
  cases first <;> cases second <;> decide

theorem OrderType.value_injective : Function.Injective OrderType.value := by
  intro first second
  cases first <;> cases second <;> decide

theorem ExecutionStyle.value_injective : Function.Injective ExecutionStyle.value := by
  intro first second
  cases first <;> cases second <;> decide

theorem FillKind.model_injective : Function.Injective FillKind.model := by
  intro first second
  cases first <;> cases second <;> decide

theorem BrokerReadbackStatus.value_injective : Function.Injective BrokerReadbackStatus.value := by
  intro first second
  cases first <;> cases second <;> decide

theorem decimal_price_injective :
    Function.Injective fun price : ExactPrice => json.decimal price.toExactDecimal :=
  json.decimal_injective.comp ExactPrice.toExactDecimal_injective

theorem decimal_money_injective :
    Function.Injective fun money : ExactMoney => json.decimal money.toExactDecimal :=
  json.decimal_injective.comp ExactMoney.toExactDecimal_injective

theorem OrderIntent.document_injective : Function.Injective (OrderIntent.document json) := by
  rintro ⟨⟩ ⟨⟩ same
  simp [document, textOrNull_injective.eq_iff, json.instant_injective.eq_iff, (Option.map_injective
    decimal_price_injective).eq_iff, ExecutionStyle.value_injective.eq_iff,
    OrderType.value_injective.eq_iff, PositionEffect.value_injective.eq_iff,
    Side.value_injective.eq_iff] at same
  simp only [same]

theorem SubmitAttempt.document_injective : Function.Injective (SubmitAttempt.document json) := by
  rintro ⟨⟨_, _, _, _⟩, _⟩ ⟨⟨_, _, _, _⟩, _⟩ same
  simp [document, json.instant_injective.eq_iff] at same
  simp only [same]

theorem ReplaceIntent.document_injective : Function.Injective (ReplaceIntent.document json) := by
  rintro ⟨⟨_, _, _, _⟩, _⟩ ⟨⟨_, _, _, _⟩, _⟩ same
  simp [document, json.instant_injective.eq_iff, decimal_price_injective.eq_iff] at same
  simp only [same]

theorem TimeoutObserved.document_injective : Function.Injective (TimeoutObserved.document json) := by
  rintro ⟨⟨_, _, _, _⟩, _, _⟩ ⟨⟨_, _, _, _⟩, _, _⟩ same
  simp [document, json.instant_injective.eq_iff] at same
  simp only [same]

theorem DisconnectObserved.document_injective : Function.Injective (DisconnectObserved.document json) := by
  rintro ⟨⟨_, _, _, _⟩, _⟩ ⟨⟨_, _, _, _⟩, _⟩ same
  simp [document, json.instant_injective.eq_iff] at same
  simp only [same]

theorem UncertaintyObserved.document_injective : Function.Injective (UncertaintyObserved.document json) := by
  rintro ⟨⟨_, _, _, _⟩, _, _⟩ ⟨⟨_, _, _, _⟩, _, _⟩ same
  simp [document, json.instant_injective.eq_iff] at same
  simp only [same]

theorem Observation.document_injective : Function.Injective (Observation.document json) := by
  intro first second same
  cases first <;> cases second
  case timeout.timeout => rw [TimeoutObserved.document_injective same]
  case disconnect.disconnect => rw [DisconnectObserved.document_injective same]
  case uncertainty.uncertainty => rw [UncertaintyObserved.document_injective same]
  all_goals cases congrArg Prod.fst same

theorem BrokerAcknowledgement.document_injective : Function.Injective (BrokerAcknowledgement.document json) := by
  rintro ⟨⟨⟨_, _, _, _⟩, _, _⟩, _, _, _⟩ ⟨⟨⟨_, _, _, _⟩, _, _⟩, _, _, _⟩ same
  simp [document, json.instant_injective.eq_iff] at same
  simp only [same]

theorem OrderReject.document_injective : Function.Injective (OrderReject.document json) := by
  rintro ⟨⟨⟨_, _, _, _⟩, _, _⟩, _, _, _, _⟩ ⟨⟨⟨_, _, _, _⟩, _, _⟩, _, _, _, _⟩ same
  simp [document, textOrNull_injective.eq_iff, json.instant_injective.eq_iff] at same
  simp only [same]

theorem FillRecord.document_injective : Function.Injective (FillRecord.document json) := by
  rintro ⟨⟨⟨_, _, _, _⟩, _, _⟩, _, _, _, _, _, _, _, _, _, _⟩ ⟨⟨⟨_, _, _, _⟩, _, _⟩, _, _, _, _, _, _, _, _, _, _⟩ same
  simp [document, FillKind.model_injective.eq_iff, decimal_price_injective.eq_iff,
    decimal_money_injective.eq_iff, json.instant_injective.eq_iff] at same
  simp only [same]

theorem BrokerReadback.document_injective : Function.Injective (BrokerReadback.document json) := by
  rintro ⟨⟨⟨_, _, _, _⟩, _, _⟩, _, _, _, _, _, _, _, _, _, _, _, _, _, _⟩ ⟨⟨⟨_, _, _, _⟩, _, _⟩, _, _, _, _, _, _, _, _, _, _, _, _, _, _⟩ same
  simp [document, BrokerReadbackStatus.value_injective.eq_iff, textOrNull_injective.eq_iff,
    numberOrNull_injective.eq_iff, json.instant_injective.eq_iff] at same
  simp only [same]

/-- The models with the same fields, as one of them. -/
def Model.shape : Model → Model
  | completeFill => partialFill
  | model => model

def BrokerFact.shape : BrokerFact → Model
  | acknowledgement _ => .brokerAcknowledgement
  | reject _ => .orderReject
  | fill _ => .partialFill
  | readback _ => .brokerReadback

theorem BrokerFact.shape_document (fact : BrokerFact) :
    (fact.document json).1.shape = fact.shape := by
  cases fact with
  | acknowledgement record => rfl
  | reject record => rfl
  | fill record =>
    change record.kind.model.shape = _
    cases record.kind <;> rfl
  | readback record => rfl

theorem BrokerFact.document_injective : Function.Injective (BrokerFact.document json) := by
  intro first second same
  have shapes : first.shape = second.shape := by
    have known : (first.document json).1.shape = first.shape := first.shape_document
    rw [← known, same, second.shape_document]
  cases first <;> cases second
  case acknowledgement.acknowledgement => rw [BrokerAcknowledgement.document_injective same]
  case reject.reject => rw [OrderReject.document_injective same]
  case fill.fill => rw [FillRecord.document_injective same]
  case readback.readback => rw [BrokerReadback.document_injective same]
  all_goals cases shapes

/-- The kind of a record a model is of. -/
def Model.family : Model → ℕ
  | submitAttempt => 0
  | replaceIntent => 1
  | timeoutObserved | disconnectObserved | uncertaintyObserved => 2
  | brokerAcknowledgement | orderReject | partialFill | completeFill | brokerReadback => 3
  | orderIntent => 4

def ExecutionRecord.family : ExecutionRecord → ℕ
  | submitAttempt _ => 0
  | replaceIntent _ => 1
  | observation _ => 2
  | brokerFact _ => 3

theorem ExecutionRecord.family_document (record : ExecutionRecord) :
    (record.document json).1.family = record.family := by
  cases record with
  | submitAttempt record => rfl
  | replaceIntent record => rfl
  | observation record => cases record <;> rfl
  | brokerFact record =>
    cases record with
    | acknowledgement record => rfl
    | reject record => rfl
    | fill record =>
      change record.kind.model.family = _
      cases record.kind <;> rfl
    | readback record => rfl

theorem ExecutionRecord.document_injective :
    Function.Injective (ExecutionRecord.document json) := by
  intro first second same
  have families : first.family = second.family := by
    have known : (first.document json).1.family = first.family := first.family_document
    rw [← known, same, second.family_document]
  cases first <;> cases second
  case submitAttempt.submitAttempt => rw [SubmitAttempt.document_injective same]
  case replaceIntent.replaceIntent => rw [ReplaceIntent.document_injective same]
  case observation.observation => rw [Observation.document_injective same]
  case brokerFact.brokerFact => rw [BrokerFact.document_injective same]
  all_goals cases families

theorem StoredExecutionRecord.document_injective :
    Function.Injective (StoredExecutionRecord.document json) := by
  intro first second same
  have families := congrArg (fun document => document.1.family) same
  cases first with
  | orderIntent intent =>
    cases second with
    | orderIntent intent' => rw [OrderIntent.document_injective same]
    | execution record =>
      change 4 = (record.document json).1.family at families
      rw [record.family_document] at families
      cases record <;> cases families
  | execution record =>
    cases second with
    | orderIntent intent =>
      change (record.document json).1.family = 4 at families
      rw [record.family_document] at families
      cases record <;> cases families
    | execution record' => rw [ExecutionRecord.document_injective same]

theorem Model.name_injective : Function.Injective Model.name := by
  intro first second
  cases first <;> cases second <;> decide

/-- The fields of a record hold no number with a fraction or an exponent. -/
theorem plain_document (record : StoredExecutionRecord) :
    Json.PlainMembers (record.document json).2 := by
  have texts : ∀ text, Json.Plain (textOrNull text) := by
    intro text
    cases text <;> trivial
  have numbers : ∀ number, Json.Plain (numberOrNull number) := by
    intro number
    cases number <;> trivial
  obtain intent | (attempt | replacement | (timeout | disconnect | uncertainty) |
    (acknowledgement | reject | fill | readback)) := record
  all_goals
    simp [StoredExecutionRecord.document, ExecutionRecord.document, Observation.document,
      BrokerFact.document, OrderIntent.document, SubmitAttempt.document, ReplaceIntent.document,
      TimeoutObserved.document, DisconnectObserved.document, UncertaintyObserved.document,
      BrokerAcknowledgement.document, OrderReject.document, FillRecord.document,
      BrokerReadback.document, Json.PlainMembers, Json.Plain, texts, numbers]

/-- **No two records have the same canonical bytes.** -/
theorem canonicalBytes_injective : Function.Injective (canonicalBytes json) := by
  intro first second same
  have values := Json.dumps_injOn ?_ ?_ same
  · simp only [Json.Value.obj.injEq, List.cons.injEq, Prod.mk.injEq, Json.Value.str.injEq,
      true_and, and_true] at values
    exact StoredExecutionRecord.document_injective
      (Prod.ext (Model.name_injective values.1) values.2)
  · exact ⟨trivial, plain_document first, trivial⟩
  · exact ⟨trivial, plain_document second, trivial⟩

/-! ## The order of events -/

/-- Events are sorted by their time, local actions first, then by their bytes. -/
def eventSortKey (json : Serialization) (record : ExecutionRecord) : ℤ ×ₗ ℕ ×ₗ List Char :=
  toLex (record.primaryTime,
    toLex (record.priority, canonicalBytes json (.execution record)))

theorem eventSortKey_injective : Function.Injective (eventSortKey json) := by
  intro first second same
  have bytes := congrArg (fun key => (ofLex (ofLex key).2).2) same
  cases canonicalBytes_injective bytes
  rfl

/-! ## A serialization -/

/-- The first seconds of the epoch as the schema library writes them, any other instant
in brackets. -/
def sampleInstant (instant : ℤ) : List Char :=
  if 0 ≤ instant ∧ instant < 10 ^ 7 ∧ instant % 10 ^ 6 = 0 then
    "1970-01-01T00:00:0".toList ++ [Nat.digitChar (instant / 10 ^ 6).toNat, 'Z']
  else Json.dumps (.arr [.int instant])

/-- A whole number of ones as its digits, any other decimal as the list of its parts. -/
def sampleDecimal (decimal : ExactDecimal) : Json.Value :=
  if decimal.negative = false ∧ decimal.exponent = 0 then .int decimal.digits
  else .arr [.bool decimal.negative, .int decimal.digits, .int decimal.exponent]

theorem digitChar_inj : ∀ first < 10, ∀ second < 10,
    Nat.digitChar first = Nat.digitChar second → first = second := by
  decide

theorem sampleInstant_injective : Function.Injective sampleInstant := by
  intro first second same
  rw [sampleInstant, sampleInstant] at same
  split_ifs at same with real real' real'
  · have digits := List.append_cancel_left same
    have seconds := digitChar_inj _ (by omega) _ (by omega) (List.head_eq_of_cons_eq digits)
    omega
  · cases congrArg List.head? same
  · cases congrArg List.head? same
  · have values := Json.dumps_injOn (by simp [Json.Plain, Json.PlainItems])
      (by simp [Json.Plain, Json.PlainItems]) same
    simpa using values

theorem sampleDecimal_injective : Function.Injective sampleDecimal := by
  rintro ⟨negative, digits, exponent⟩ ⟨negative', digits', exponent'⟩ same
  rw [sampleDecimal, sampleDecimal] at same
  split_ifs at same with whole whole' whole'
  · simp_all
  · simp_all

theorem plain_sampleDecimal (decimal : ExactDecimal) : Json.Plain (sampleDecimal decimal) := by
  rw [sampleDecimal]
  split <;> simp [Json.Plain, Json.PlainItems]

def sampleSerialization : Serialization where
  instant instant := String.ofList (sampleInstant instant)
  decimal decimal := String.ofList (Json.dumps (sampleDecimal decimal))
  instant_injective := by
    intro first second same
    exact sampleInstant_injective (String.ofList_injective same)
  decimal_injective := by
    intro first second same
    exact sampleDecimal_injective (Json.dumps_injOn (plain_sampleDecimal first)
      (plain_sampleDecimal second) (String.ofList_injective same))

/-- An order for some contracts at the market, made at the epoch. -/
def sampleIntent (quantity : ℕ) (positive : 1 ≤ quantity) : OrderIntent where
  intentId := "i"
  contractId := "c"
  side := .buy
  positionEffect := .openLong
  quantity := quantity
  orderType := .market
  intentCreatedAt := 0
  source := "desk"
  sourceSequenceId := "0"
  quantity_pos := positive
  longOnly := by decide
  limitPriced := by decide
  packaged := by decide

/-- A record of that order, numbered by its id. -/
def sampleHead (recordId : String) : RecordHead :=
  ⟨recordId, "i", "desk", recordId⟩

def sampleAttempt (recordId : String) (sendAttemptAt : ℤ) : SubmitAttempt where
  toRecordHead := sampleHead recordId
  sendAttemptAt := sendAttemptAt

def sampleBrokerHead (recordId : String) (locallyReceivedAt : ℤ) : BrokerHead where
  toRecordHead := sampleHead recordId
  brokerSequenceId := recordId
  locallyReceivedAt := locallyReceivedAt

def samplePrice : ExactPrice where
  digits := 1
  exponent := 0
  positive := by norm_num [ExactDecimal.value]
  bounds := by norm_num [ExactDecimal.InBounds, ExactDecimal.value]

def sampleMoney : ExactMoney where
  digits := 0
  exponent := 0
  nonnegative := by norm_num [ExactDecimal.value]
  bounds := by norm_num [ExactDecimal.InBounds, ExactDecimal.value]

/-- An acknowledgement at an instant, received some time after. -/
def sampleAcknowledgement (recordId : String) (acknowledgedAt : ℤ) (lag : ℕ) :
    BrokerAcknowledgement where
  toBrokerHead := sampleBrokerHead recordId (acknowledgedAt + lag)
  brokerOrderId := "b"
  brokerAcknowledgedAt := acknowledgedAt
  acknowledged_le := by simp [sampleBrokerHead]

/-- A fill at a price of one that is received at once. -/
def sampleFill (recordId : String) (kind : FillKind) (quantity cumulative : ℕ)
    (positive : 1 ≤ quantity) (fits : quantity ≤ cumulative) (eventAt : ℤ) : FillRecord where
  toBrokerHead := sampleBrokerHead recordId eventAt
  kind := kind
  brokerOrderId := "b"
  fillQuantity := quantity
  cumulativeQuantity := cumulative
  unitPrice := samplePrice
  fees := sampleMoney
  exchangeEventAt := eventAt
  fill_pos := positive
  fill_le := fits
  event_le := le_refl _

end TreeOptions.Execution
