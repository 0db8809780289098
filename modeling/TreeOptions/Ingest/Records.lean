import Mathlib.Data.Char
import Mathlib.Data.List.Lex
import Mathlib.Data.Prod.Lex
import TreeOptions.Foundations.IsoDate
import TreeOptions.Foundations.PrefixCode
import TreeOptions.Foundations.Text

/-!
# Rows, records and their canonical texts

Rows are kept as the vendor delivered them, and records are what is normalized from them. Both have
a canonical text: a JSON object with sorted keys, dates in ISO form and decimals as their texts.
No two records have one text (`Record.object_injective`), and the texts of records may stand side by
side (`Record.prefixFree_text`).

Decimals are held as the texts that `str` makes of them, and ids as the schema leaves them.
-/

set_option autoImplicit false

namespace TreeOptions.Ingest

open Json

/-! ## Dates -/

structure Date where
  year : ℕ
  month : ℕ
  day : ℕ
  valid : 1 ≤ year ∧ year ≤ 9999 ∧ 1 ≤ month ∧ month ≤ 12 ∧ 1 ≤ day ∧ day ≤ daysInMonth year month
deriving DecidableEq

namespace Date

def order (date : Date) : ℕ ×ₗ ℕ ×ₗ ℕ :=
  toLex (date.year, toLex (date.month, date.day))

def isoformat (date : Date) : List Char :=
  (digits 4 date.year).toList ++ '-' :: ((digits 2 date.month).toList ++
    '-' :: (digits 2 date.day).toList)

end Date

/-- An instant in UTC. -/
structure UTCDatetime where
  date : Date
  hour : ℕ
  minute : ℕ
  second : ℕ
  microsecond : ℕ
  valid : hour < 24 ∧ minute < 60 ∧ second < 60 ∧ microsecond < 1000000
deriving DecidableEq

namespace UTCDatetime

def order (moment : UTCDatetime) : (ℕ ×ₗ ℕ ×ₗ ℕ) ×ₗ ℕ ×ₗ ℕ ×ₗ ℕ ×ₗ ℕ :=
  toLex (moment.date.order,
    toLex (moment.hour, toLex (moment.minute, toLex (moment.second, moment.microsecond))))

/-- Microseconds are written only where there are some. -/
def fraction (moment : UTCDatetime) : List Char :=
  if moment.microsecond = 0 then [] else '.' :: (digits 6 moment.microsecond).toList

def isoformat (moment : UTCDatetime) : List Char :=
  moment.date.isoformat ++ 'T' :: ((digits 2 moment.hour).toList ++
    ':' :: ((digits 2 moment.minute).toList ++
      ':' :: ((digits 2 moment.second).toList ++ moment.fraction ++ "+00:00".toList)))

end UTCDatetime

/-! ## Records -/

inductive ActionKind
  | split
  | reverseSplit
  | cashDividend
  | stockDividend
  | merger
  | spinoff
  | symbolChange
  | delisting
deriving DecidableEq

def ActionKind.text : ActionKind → String
  | .split => "split"
  | .reverseSplit => "reverse_split"
  | .cashDividend => "cash_dividend"
  | .stockDividend => "stock_dividend"
  | .merger => "merger"
  | .spinoff => "spinoff"
  | .symbolChange => "symbol_change"
  | .delisting => "delisting"

structure TickerMappingRecord where
  securityId : String
  ticker : String
  effectiveFrom : Date
  effectiveTo : Option Date
  availableAt : UTCDatetime

structure DelistingRecord where
  delistingSession : Date
  reason : String
  finalPriceAvailable : Bool
  availableAt : UTCDatetime

structure SectorMappingRecord where
  securityId : String
  sector : String
  effectiveFrom : Date
  availableAt : UTCDatetime

structure SecurityMasterRecord where
  securityId : String
  figi : Option String
  cik : Option String
  securityType : String
  listingStart : Date
  listingEnd : Option Date
  exchange : String
  corporateActionId : Option String
  source : String
  availableAt : UTCDatetime
  tickerMappings : List TickerMappingRecord
  sectorMappings : List SectorMappingRecord
  delisting : Option DelistingRecord

structure RawBarRow where
  vendorSymbol : String
  session : Date
  opening : String
  high : String
  low : String
  close : String
  volume : ℕ
  availableAt : UTCDatetime
  sourceRecordId : String

structure RawActionRow where
  vendorSymbol : String
  kind : ActionKind
  effectiveSession : Date
  ratioNumerator : Option ℕ
  ratioDenominator : Option ℕ
  cashAmount : Option String
  successorSecurityId : Option String
  availableAt : UTCDatetime
  sourceRecordId : String

structure BarRecord where
  securityId : String
  session : Date
  opening : String
  high : String
  low : String
  close : String
  volume : ℕ
  source : String
  sourceRecordId : String
  sourceRowHash : String
  snapshotId : String
  availableAt : UTCDatetime

structure CorporateActionRecord where
  securityId : String
  kind : ActionKind
  effectiveSession : Date
  ratioNumerator : Option ℕ
  ratioDenominator : Option ℕ
  cashAmount : Option String
  successorSecurityId : Option String
  source : String
  sourceRecordId : String
  sourceRowHash : String
  snapshotId : String
  availableAt : UTCDatetime

/-! ## Canonical texts -/

def text (chars : List Char) : Value :=
  .str (String.ofList chars)

def optional {Item : Type} (value : Item → Value) : Option Item → Value
  | none => .null
  | some item => value item

def natural (number : ℕ) : Value :=
  .int number

def TickerMappingRecord.dump (mapping : TickerMappingRecord) : Value :=
  .obj [("available_at", text mapping.availableAt.isoformat),
    ("effective_from", text mapping.effectiveFrom.isoformat),
    ("effective_to", optional (fun date => text (Date.isoformat date)) mapping.effectiveTo),
    ("security_id", .str mapping.securityId), ("ticker", .str mapping.ticker)]

def DelistingRecord.dump (delisting : DelistingRecord) : Value :=
  .obj [("available_at", text delisting.availableAt.isoformat),
    ("delisting_session", text delisting.delistingSession.isoformat),
    ("final_price_available", .bool delisting.finalPriceAvailable),
    ("reason", .str delisting.reason)]

def SectorMappingRecord.dump (mapping : SectorMappingRecord) : Value :=
  .obj [("available_at", text mapping.availableAt.isoformat),
    ("effective_from", text mapping.effectiveFrom.isoformat), ("sector", .str mapping.sector),
    ("security_id", .str mapping.securityId)]

def SecurityMasterRecord.members (record : SecurityMasterRecord) : List (String × Value) :=
  [("available_at", text record.availableAt.isoformat), ("cik", optional .str record.cik),
    ("corporate_action_id", optional .str record.corporateActionId),
    ("delisting", optional DelistingRecord.dump record.delisting),
    ("exchange", .str record.exchange), ("figi", optional .str record.figi),
    ("listing_end", optional (fun date => text (Date.isoformat date)) record.listingEnd),
    ("listing_start", text record.listingStart.isoformat),
    ("sector_mappings", .arr (record.sectorMappings.map SectorMappingRecord.dump)),
    ("security_id", .str record.securityId), ("security_type", .str record.securityType),
    ("source", .str record.source),
    ("ticker_mappings", .arr (record.tickerMappings.map TickerMappingRecord.dump))]

def RawBarRow.members (row : RawBarRow) : List (String × Value) :=
  [("available_at", text row.availableAt.isoformat), ("close", .str row.close),
    ("high", .str row.high), ("low", .str row.low), ("open", .str row.opening),
    ("session", text row.session.isoformat), ("source_record_id", .str row.sourceRecordId),
    ("vendor_symbol", .str row.vendorSymbol), ("volume", natural row.volume)]

def RawActionRow.members (row : RawActionRow) : List (String × Value) :=
  [("available_at", text row.availableAt.isoformat), ("cash_amount", optional .str row.cashAmount),
    ("effective_session", text row.effectiveSession.isoformat), ("kind", .str row.kind.text),
    ("ratio_denominator", optional natural row.ratioDenominator),
    ("ratio_numerator", optional natural row.ratioNumerator),
    ("source_record_id", .str row.sourceRecordId),
    ("successor_security_id", optional .str row.successorSecurityId),
    ("vendor_symbol", .str row.vendorSymbol)]

def BarRecord.members (bar : BarRecord) : List (String × Value) :=
  [("available_at", text bar.availableAt.isoformat), ("close", .str bar.close),
    ("high", .str bar.high), ("low", .str bar.low), ("open", .str bar.opening),
    ("security_id", .str bar.securityId), ("session", text bar.session.isoformat),
    ("snapshot_id", .str bar.snapshotId), ("source", .str bar.source),
    ("source_record_id", .str bar.sourceRecordId), ("source_row_hash", .str bar.sourceRowHash),
    ("volume", natural bar.volume)]

def CorporateActionRecord.members (action : CorporateActionRecord) : List (String × Value) :=
  [("available_at", text action.availableAt.isoformat),
    ("cash_amount", optional .str action.cashAmount),
    ("effective_session", text action.effectiveSession.isoformat),
    ("kind", .str action.kind.text),
    ("ratio_denominator", optional natural action.ratioDenominator),
    ("ratio_numerator", optional natural action.ratioNumerator),
    ("security_id", .str action.securityId), ("snapshot_id", .str action.snapshotId),
    ("source", .str action.source), ("source_record_id", .str action.sourceRecordId),
    ("source_row_hash", .str action.sourceRowHash),
    ("successor_security_id", optional .str action.successorSecurityId)]

/-- `canonical_bytes`, of an object with these members. -/
def canonicalBytes (members : List (String × Value)) : List UInt8 :=
  Text.encode (dumps (.obj members))

/-! ## Dates have their own texts -/

theorem notMem_digits {width number : ℕ} {c : Char} (notDigit : c.isDigit = false) :
    c ∉ (digits width number).toList := by
  intro member
  rw [digits, String.toList_ofList, List.leftpad] at member
  rcases List.mem_append.mp member with padding | inside
  · rw [List.eq_of_mem_replicate padding] at notDigit
    cases notDigit
  · rw [isDigit_of_mem_toDigits inside] at notDigit
    cases notDigit

/-- Texts up to the first mark are told apart from what follows. -/
theorem append_mark_inj {first second rest rest' : List Char} {mark : Char}
    (unmarked : mark ∉ first) (unmarked' : mark ∉ second)
    (same : first ++ mark :: rest = second ++ mark :: rest') : first = second ∧ rest = rest' := by
  induction first generalizing second with
  | nil =>
    cases second with
    | nil => exact ⟨rfl, (List.cons.inj same).2⟩
    | cons c others =>
      rw [List.nil_append, List.cons_append, List.cons.injEq] at same
      exact absurd (same.1 ▸ List.mem_cons_self) unmarked'
  | cons c others ih =>
    cases second with
    | nil =>
      rw [List.nil_append, List.cons_append, List.cons.injEq] at same
      exact absurd (same.1 ▸ List.mem_cons_self) unmarked
    | cons c' others' =>
      rw [List.cons_append, List.cons_append, List.cons.injEq] at same
      obtain ⟨rfl, same⟩ := same
      rw [List.mem_cons, not_or] at unmarked unmarked'
      obtain ⟨rfl, rfl⟩ := ih unmarked.2 unmarked'.2 same
      exact ⟨rfl, rfl⟩

theorem Date.isoformat_injective : Function.Injective Date.isoformat := by
  intro first second same
  obtain ⟨years, same⟩ := append_mark_inj (notMem_digits rfl) (notMem_digits rfl) same
  obtain ⟨months, days⟩ := append_mark_inj (notMem_digits rfl) (notMem_digits rfl) same
  cases first
  cases second
  obtain rfl := digits_injective years
  obtain rfl := digits_injective months
  obtain rfl := digits_injective days
  rfl

theorem notMem_isoformat {date : Date} {c : Char} (notDigit : c.isDigit = false) (other : c ≠ '-') :
    c ∉ date.isoformat := by
  rw [Date.isoformat]
  simp [notMem_digits notDigit, other]

theorem plus_notMem_fraction (moment : UTCDatetime) : '+' ∉ moment.fraction := by
  rw [UTCDatetime.fraction]
  split
  case isTrue => exact List.not_mem_nil
  case isFalse => simp [notMem_digits]

theorem seconds_fraction_inj {first second : UTCDatetime}
    (same : (digits 2 first.second).toList ++ first.fraction =
      (digits 2 second.second).toList ++ second.fraction) :
    first.second = second.second ∧ first.microsecond = second.microsecond := by
  have noDot : ∀ number : ℕ, '.' ∉ (digits 2 number).toList := fun _ => notMem_digits rfl
  rw [UTCDatetime.fraction, UTCDatetime.fraction] at same
  split at same
  case isTrue whole =>
    split at same
    case isTrue whole' =>
      rw [List.append_nil, List.append_nil] at same
      exact ⟨digits_injective same, whole.trans whole'.symm⟩
    case isFalse =>
      rw [List.append_nil] at same
      have dot := noDot first.second
      rw [same] at dot
      exact absurd (by simp) dot
  case isFalse =>
    split at same
    case isTrue =>
      rw [List.append_nil] at same
      have dot := noDot second.second
      rw [← same] at dot
      exact absurd (by simp) dot
    case isFalse =>
      obtain ⟨seconds, fractions⟩ := append_mark_inj (noDot _) (noDot _) same
      exact ⟨digits_injective seconds, digits_injective fractions⟩

theorem UTCDatetime.isoformat_injective : Function.Injective UTCDatetime.isoformat := by
  intro first second same
  obtain ⟨dates, same⟩ :=
    append_mark_inj (notMem_isoformat rfl (by decide)) (notMem_isoformat rfl (by decide)) same
  obtain ⟨hours, same⟩ := append_mark_inj (notMem_digits rfl) (notMem_digits rfl) same
  obtain ⟨minutes, same⟩ := append_mark_inj (notMem_digits rfl) (notMem_digits rfl) same
  have noPlus : ∀ moment : UTCDatetime,
      '+' ∉ (digits 2 moment.second).toList ++ moment.fraction := by
    intro moment
    rw [List.mem_append, not_or]
    exact ⟨notMem_digits rfl, plus_notMem_fraction moment⟩
  obtain ⟨rest, -⟩ := append_mark_inj (noPlus first) (noPlus second) same
  obtain ⟨seconds, fractions⟩ := seconds_fraction_inj rest
  cases first
  cases second
  obtain rfl := Date.isoformat_injective dates
  obtain rfl := digits_injective hours
  obtain rfl := digits_injective minutes
  obtain rfl := seconds
  obtain rfl := fractions
  rfl

/-! ## Records have their own texts -/

@[simp] theorem text_inj {first second : List Char} :
    text first = text second ↔ first = second := by
  rw [text, text, Value.str.injEq, String.ofList_inj]

@[simp] theorem date_inj {first second : Date} :
    first.isoformat = second.isoformat ↔ first = second :=
  Date.isoformat_injective.eq_iff

@[simp] theorem moment_inj {first second : UTCDatetime} :
    first.isoformat = second.isoformat ↔ first = second :=
  UTCDatetime.isoformat_injective.eq_iff

@[simp] theorem natural_inj {first second : ℕ} :
    natural first = natural second ↔ first = second := by
  rw [natural, natural, Value.int.injEq]
  omega

theorem optional_inj {Item : Type} {value : Item → Value} (injective : Function.Injective value)
    (present : ∀ item, value item ≠ .null) {first second : Option Item} :
    optional value first = optional value second ↔ first = second := by
  cases first with
  | none =>
    cases second with
    | none => simp [optional]
    | some item => simp [optional, (present item).symm]
  | some item =>
    cases second with
    | none => simp [optional, present item]
    | some item' => simp [optional, injective.eq_iff]

@[simp] theorem optional_str_inj {first second : Option String} :
    optional Value.str first = optional Value.str second ↔ first = second :=
  optional_inj (fun _ _ same => Value.str.inj same) (fun _ => Value.noConfusion)

@[simp] theorem optional_date_inj {first second : Option Date} :
    optional (fun date => text (Date.isoformat date)) first =
      optional (fun date => text (Date.isoformat date)) second ↔ first = second := by
  refine optional_inj ?_ (fun _ => Value.noConfusion)
  intro date date' same
  exact date_inj.mp (text_inj.mp same)

@[simp] theorem optional_natural_inj {first second : Option ℕ} :
    optional natural first = optional natural second ↔ first = second :=
  optional_inj (fun _ _ same => natural_inj.mp same) (fun _ => Value.noConfusion)

theorem TickerMappingRecord.dump_injective : Function.Injective TickerMappingRecord.dump := by
  rintro ⟨⟩ ⟨⟩ same
  simp only [TickerMappingRecord.dump, Value.obj.injEq, List.cons.injEq, Prod.mk.injEq,
    Value.str.injEq, text_inj, date_inj, moment_inj, optional_date_inj, true_and, and_true] at same
  obtain ⟨rfl, rfl, rfl, rfl, rfl⟩ := same
  rfl

theorem DelistingRecord.dump_injective : Function.Injective DelistingRecord.dump := by
  rintro ⟨⟩ ⟨⟩ same
  simp only [DelistingRecord.dump, Value.obj.injEq, List.cons.injEq, Prod.mk.injEq,
    Value.str.injEq, Value.bool.injEq, text_inj, date_inj, moment_inj, true_and, and_true] at same
  obtain ⟨rfl, rfl, rfl, rfl⟩ := same
  rfl

theorem SectorMappingRecord.dump_injective : Function.Injective SectorMappingRecord.dump := by
  rintro ⟨⟩ ⟨⟩ same
  simp only [SectorMappingRecord.dump, Value.obj.injEq, List.cons.injEq, Prod.mk.injEq,
    Value.str.injEq, text_inj, date_inj, moment_inj, true_and, and_true] at same
  obtain ⟨rfl, rfl, rfl, rfl⟩ := same
  rfl

@[simp] theorem optional_delisting_inj {first second : Option DelistingRecord} :
    optional DelistingRecord.dump first = optional DelistingRecord.dump second ↔
      first = second :=
  optional_inj DelistingRecord.dump_injective (fun _ => Value.noConfusion)

@[simp] theorem dump_tickers_inj {first second : List TickerMappingRecord} :
    first.map TickerMappingRecord.dump = second.map TickerMappingRecord.dump ↔ first = second :=
  (List.map_injective_iff.mpr TickerMappingRecord.dump_injective).eq_iff

@[simp] theorem dump_sectors_inj {first second : List SectorMappingRecord} :
    first.map SectorMappingRecord.dump = second.map SectorMappingRecord.dump ↔ first = second :=
  (List.map_injective_iff.mpr SectorMappingRecord.dump_injective).eq_iff

@[simp] theorem kind_inj {first second : ActionKind} :
    first.text = second.text ↔ first = second := by
  cases first <;> cases second <;> decide

theorem SecurityMasterRecord.members_injective :
    Function.Injective SecurityMasterRecord.members := by
  rintro ⟨⟩ ⟨⟩ same
  simp only [SecurityMasterRecord.members, List.cons.injEq, Prod.mk.injEq, Value.str.injEq,
    Value.arr.injEq, text_inj, date_inj, moment_inj, optional_date_inj, optional_str_inj,
    optional_delisting_inj, dump_tickers_inj, dump_sectors_inj, true_and, and_true] at same
  obtain ⟨rfl, rfl, rfl, rfl, rfl, rfl, rfl, rfl, rfl, rfl, rfl, rfl, rfl⟩ := same
  rfl

theorem RawBarRow.members_injective : Function.Injective RawBarRow.members := by
  rintro ⟨⟩ ⟨⟩ same
  simp only [RawBarRow.members, List.cons.injEq, Prod.mk.injEq, Value.str.injEq, text_inj,
    date_inj, moment_inj, natural_inj, true_and, and_true] at same
  obtain ⟨rfl, rfl, rfl, rfl, rfl, rfl, rfl, rfl, rfl⟩ := same
  rfl

theorem RawActionRow.members_injective : Function.Injective RawActionRow.members := by
  rintro ⟨⟩ ⟨⟩ same
  simp only [RawActionRow.members, List.cons.injEq, Prod.mk.injEq, Value.str.injEq, text_inj,
    date_inj, moment_inj, optional_str_inj, optional_natural_inj, kind_inj, true_and,
    and_true] at same
  obtain ⟨rfl, rfl, rfl, rfl, rfl, rfl, rfl, rfl, rfl⟩ := same
  rfl

theorem BarRecord.members_injective : Function.Injective BarRecord.members := by
  rintro ⟨⟩ ⟨⟩ same
  simp only [BarRecord.members, List.cons.injEq, Prod.mk.injEq, Value.str.injEq, text_inj,
    date_inj, moment_inj, natural_inj, true_and, and_true] at same
  obtain ⟨rfl, rfl, rfl, rfl, rfl, rfl, rfl, rfl, rfl, rfl, rfl, rfl⟩ := same
  rfl

theorem CorporateActionRecord.members_injective :
    Function.Injective CorporateActionRecord.members := by
  rintro ⟨⟩ ⟨⟩ same
  simp only [CorporateActionRecord.members, List.cons.injEq, Prod.mk.injEq, Value.str.injEq,
    text_inj, date_inj, moment_inj, optional_str_inj, optional_natural_inj, kind_inj, true_and,
    and_true] at same
  obtain ⟨rfl, rfl, rfl, rfl, rfl, rfl, rfl, rfl, rfl, rfl, rfl, rfl⟩ := same
  rfl

/-! ## Records hold no floats -/

theorem plain_optional {Item : Type} {value : Item → Value} (plain : ∀ item, Plain (value item))
    (item : Option Item) : Plain (optional value item) := by
  cases item with
  | none => trivial
  | some item => exact plain item

theorem plain_map {Item : Type} {value : Item → Value} (plain : ∀ item, Plain (value item))
    (items : List Item) : Plain (.arr (items.map value)) := by
  induction items with
  | nil => trivial
  | cons item rest ih => exact ⟨plain item, ih⟩

theorem plain_str (item : String) : Plain (.str item) :=
  trivial

theorem plain_natural (number : ℕ) : Plain (natural number) :=
  trivial

theorem plain_date (date : Date) : Plain (text date.isoformat) :=
  trivial

theorem TickerMappingRecord.plain (mapping : TickerMappingRecord) : Plain mapping.dump :=
  ⟨trivial, trivial, plain_optional plain_date _, trivial, trivial, trivial⟩

theorem DelistingRecord.plain (delisting : DelistingRecord) : Plain delisting.dump :=
  ⟨trivial, trivial, trivial, trivial, trivial⟩

theorem SectorMappingRecord.plain (mapping : SectorMappingRecord) : Plain mapping.dump :=
  ⟨trivial, trivial, trivial, trivial, trivial⟩

theorem SecurityMasterRecord.plain (record : SecurityMasterRecord) :
    Plain (.obj record.members) :=
  ⟨trivial, plain_optional plain_str _, plain_optional plain_str _,
    plain_optional DelistingRecord.plain _, trivial, plain_optional plain_str _,
    plain_optional plain_date _, trivial, plain_map SectorMappingRecord.plain _, trivial, trivial,
    trivial, plain_map TickerMappingRecord.plain _, trivial⟩

theorem RawBarRow.plain (row : RawBarRow) : Plain (.obj row.members) :=
  ⟨trivial, trivial, trivial, trivial, trivial, trivial, trivial, trivial, trivial, trivial⟩

theorem RawActionRow.plain (row : RawActionRow) : Plain (.obj row.members) :=
  ⟨trivial, plain_optional plain_str _, trivial, trivial, plain_optional plain_natural _,
    plain_optional plain_natural _, trivial, plain_optional plain_str _, trivial, trivial⟩

theorem BarRecord.plain (bar : BarRecord) : Plain (.obj bar.members) :=
  ⟨trivial, trivial, trivial, trivial, trivial, trivial, trivial, trivial, trivial, trivial, trivial,
    trivial, trivial⟩

theorem CorporateActionRecord.plain (action : CorporateActionRecord) :
    Plain (.obj action.members) :=
  ⟨trivial, plain_optional plain_str _, trivial, trivial, plain_optional plain_natural _,
    plain_optional plain_natural _, trivial, trivial, trivial, trivial, trivial,
    plain_optional plain_str _, trivial⟩

/-! ## Records side by side -/

/-- What the content of a snapshot is made of. -/
inductive Record
  | master (record : SecurityMasterRecord)
  | bar (record : BarRecord)
  | action (record : CorporateActionRecord)

namespace Record

def object : Record → PlainObject
  | master record => ⟨record.members, record.plain⟩
  | bar record => ⟨record.members, record.plain⟩
  | action record => ⟨record.members, record.plain⟩

/-- The second key of its text tells the kind of a record. -/
theorem object_injective : Function.Injective object := by
  intro first second same
  have members := congrArg PlainObject.members same
  have key : ((object first).members.drop 1).head?.map Prod.fst =
      ((object second).members.drop 1).head?.map Prod.fst := by
    rw [members]
  cases first with
  | master record =>
    cases second with
    | master record' => rw [SecurityMasterRecord.members_injective members]
    | bar record' => exact absurd key (by simp [object, SecurityMasterRecord.members,
        BarRecord.members])
    | action record' => exact absurd key (by simp [object, SecurityMasterRecord.members,
        CorporateActionRecord.members])
  | bar record =>
    cases second with
    | master record' => exact absurd key (by simp [object, SecurityMasterRecord.members,
        BarRecord.members])
    | bar record' => rw [BarRecord.members_injective members]
    | action record' => exact absurd key (by simp [object, BarRecord.members,
        CorporateActionRecord.members])
  | action record =>
    cases second with
    | master record' => exact absurd key (by simp [object, SecurityMasterRecord.members,
        CorporateActionRecord.members])
    | bar record' => exact absurd key (by simp [object, BarRecord.members,
        CorporateActionRecord.members])
    | action record' => rw [CorporateActionRecord.members_injective members]

/-- **The texts of records are a prefix code.** -/
theorem prefixFree_text : PrefixFree fun record => (object record).text :=
  Json.prefixFree_text.comp object_injective

/-- **Records are told apart in their texts side by side.** -/
theorem flatMap_text_injective : Function.Injective (List.flatMap fun record =>
    (object record).text) :=
  prefixFree_text.flatMap_injective fun record => (object record).text_ne_nil

end Record

end TreeOptions.Ingest
