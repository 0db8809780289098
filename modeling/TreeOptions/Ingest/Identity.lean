import TreeOptions.Ingest.Ingestion

/-!
# What a manifest identifies

The content hash tells the master, the bars and the actions apart up to their order
(`contents_perm`), as long as the hash function tells texts apart. The converse is what the order of
the records is for: rows that come in another order should give the same manifest. Records are
sorted by security, session and source record, and the sort is stable, so this holds just where no
two different rows share these (`identity_iff`).
-/

set_option autoImplicit false

namespace TreeOptions.Ingest

open Checked Json

/-! ## Contents -/

section Content

variable {sha256 : List UInt8 → String}

theorem ascii_dumps (object : PlainObject) : Text.Ascii object.text := by
  intro c member
  have printable := printable_dumps _ object.plain c member
  exact printable.2.trans_lt (by decide)

/-- The records of a content in the order in which they are hashed. -/
def recordsOf (master : List SecurityMasterRecord) (bars : List BarRecord)
    (actions : List CorporateActionRecord) : List Record :=
  master.map .master ++ bars.map .bar ++ actions.map .action

theorem contentSha256_eq (master : List SecurityMasterRecord) (bars : List BarRecord)
    (actions : List CorporateActionRecord) :
    contentSha256 sha256 master bars actions =
      sha256 (contentDomain ++ Text.encode
        ((recordsOf (sortedBy SecurityMasterRecord.order master) (sortedBy BarRecord.order bars)
          (sortedBy CorporateActionRecord.order actions)).flatMap fun record =>
            record.object.text)) := by
  rw [contentSha256, recordsOf]
  simp only [List.flatMap_append, List.flatMap_map, Text.encode, List.flatMap_assoc,
    List.append_assoc]
  rfl

variable {master master' : List SecurityMasterRecord} {bars bars' : List BarRecord}
  {actions actions' : List CorporateActionRecord}

theorem recordsOf_inj (same : recordsOf master bars actions = recordsOf master' bars' actions') :
    master = master' ∧ bars = bars' ∧ actions = actions' := by
  have masters := congrArg (List.filterMap fun record =>
    match record with | .master record => some record | _ => none) same
  have allBars := congrArg (List.filterMap fun record =>
    match record with | .bar record => some record | _ => none) same
  have allActions := congrArg (List.filterMap fun record =>
    match record with | .action record => some record | _ => none) same
  simp only [recordsOf, List.filterMap_append, List.filterMap_map, Function.comp_def,
    List.filterMap_none, List.filterMap_some, List.append_nil, List.nil_append]
    at masters allBars allActions
  exact ⟨masters, allBars, allActions⟩

/-- **Contents of one hash are sorted into the same records.** -/
theorem sorted_eq_of_contentSha256 (injective : Function.Injective sha256)
    (same : contentSha256 sha256 master bars actions =
      contentSha256 sha256 master' bars' actions') :
    sortedBy SecurityMasterRecord.order master = sortedBy SecurityMasterRecord.order master' ∧
      sortedBy BarRecord.order bars = sortedBy BarRecord.order bars' ∧
        sortedBy CorporateActionRecord.order actions =
          sortedBy CorporateActionRecord.order actions' := by
  have ascii : ∀ records : List Record,
      Text.Ascii (records.flatMap fun record => record.object.text) := by
    intro records c member
    obtain ⟨record, -, inside⟩ := List.mem_flatMap.mp member
    exact ascii_dumps record.object c inside
  rw [contentSha256_eq, contentSha256_eq] at same
  have texts := Text.encode_injOn_ascii (ascii _) (ascii _)
    (List.append_cancel_left (injective same))
  exact recordsOf_inj (Record.flatMap_text_injective texts)

/-- **Contents of one hash have the same records, in some order.** -/
theorem contents_perm (injective : Function.Injective sha256)
    (same : contentSha256 sha256 master bars actions =
      contentSha256 sha256 master' bars' actions') :
    master.Perm master' ∧ bars.Perm bars' ∧ actions.Perm actions' := by
  obtain ⟨masters, allBars, allActions⟩ := sorted_eq_of_contentSha256 injective same
  refine ⟨?_, ?_, ?_⟩
  · exact (sortedBy_perm _ master).symm.trans (masters ▸ sortedBy_perm _ master')
  · exact (sortedBy_perm _ bars).symm.trans (allBars ▸ sortedBy_perm _ bars')
  · exact (sortedBy_perm _ actions).symm.trans (allActions ▸ sortedBy_perm _ actions')

end Content

/-! ## Resolution -/

theorem Date.order_injective : Function.Injective Date.order := by
  rintro ⟨year, month, day, valid⟩ ⟨year', month', day', valid'⟩ same
  obtain ⟨rfl, same⟩ := Prod.mk.inj (toLex.injective same)
  obtain ⟨rfl, rfl⟩ := Prod.mk.inj (toLex.injective same)
  rfl

/-- **A ticker is resolved alike in whatever order the master is.** -/
theorem resolve_eq_ok_of_perm {master master' : List SecurityMasterRecord}
    (perm : master.Perm master') {symbol securityId : String} {on : Date} {asOf : UTCDatetime}
    (resolved : resolve master symbol on asOf = .ok securityId) :
    resolve master' symbol on asOf = .ok securityId := by
  have entries : ((index master symbol).filter (covers on asOf)).Perm
      ((index master' symbol).filter (covers on asOf)) :=
    (perm.flatMap_right _).filter _
  rw [resolve] at resolved ⊢
  split at resolved
  case h_1 => cases resolved
  case h_2 entry isEntry =>
    rw [isEntry] at entries
    rw [List.perm_singleton.mp entries.symm]
    exact resolved
  case h_3 => cases resolved

/-! ## What is ingested -/

section Ingested

variable (sha256 : List UInt8 → String) (master : List SecurityMasterRecord)
  (provider snapshotId : String)

def BarOf (row : RawBarRow) (bar : BarRecord) : Prop :=
  ∃ securityId, resolve master row.vendorSymbol row.session row.availableAt = .ok securityId ∧
    bar = barOf sha256 provider snapshotId row securityId

def ActionOf (row : RawActionRow) (action : CorporateActionRecord) : Prop :=
  ∃ securityId,
    resolve master row.vendorSymbol row.effectiveSession row.availableAt = .ok securityId ∧
      action = actionOf sha256 provider snapshotId row securityId ∧ action.kindConsistent

variable {sha256 master provider snapshotId}

theorem takeBars_eq {rows : List RawBarRow} {bars : List BarRecord} (progress : Progress)
    (each : List.Forall₂ (BarOf sha256 master provider snapshotId) rows bars) :
    rows.foldl (takeBar sha256 master provider snapshotId) progress =
      { progress with bars := progress.bars ++ bars } := by
  induction each generalizing progress with
  | nil => rw [List.foldl_nil, List.append_nil]
  | @cons row bar rows bars first rest ih =>
    obtain ⟨securityId, resolved, rfl⟩ := first
    rw [List.foldl_cons, takeBar, resolved, ih, List.append_assoc, List.singleton_append]

theorem of_takeBars {rows : List RawBarRow} {progress : Progress}
    (resolved : (rows.foldl (takeBar sha256 master provider snapshotId) progress).failures = []) :
    progress.failures = [] ∧
      ∃ bars, List.Forall₂ (BarOf sha256 master provider snapshotId) rows bars := by
  induction rows generalizing progress with
  | nil => exact ⟨resolved, [], .nil⟩
  | cons row rest ih =>
    obtain ⟨nothing, bars, each⟩ := ih resolved
    rw [takeBar] at nothing
    split at nothing
    case h_1 securityId isId =>
      exact ⟨nothing, barOf sha256 provider snapshotId row securityId :: bars,
        .cons ⟨securityId, isId, rfl⟩ each⟩
    case h_2 => exact absurd nothing (by simp)

variable {rows : List RawActionRow}

theorem takeActions_eq {actions : List CorporateActionRecord} (progress : Progress)
    (each : List.Forall₂ (ActionOf sha256 master provider snapshotId) rows actions) :
    rows.foldlM (takeAction sha256 master provider snapshotId) progress =
      .ok { progress with actions := progress.actions ++ actions } := by
  induction each generalizing progress with
  | nil =>
    rw [List.append_nil]
    rfl
  | @cons row action rows actions first rest ih =>
    obtain ⟨securityId, resolved, rfl, consistent⟩ := first
    rw [List.foldlM_cons, takeAction, resolved]
    refine bind_eq_ok.mpr ⟨_, if_pos consistent, ?_⟩
    rw [ih, List.append_assoc, List.singleton_append]

theorem of_takeActions {progress last : Progress}
    (taken : rows.foldlM (takeAction sha256 master provider snapshotId) progress = .ok last)
    (resolved : last.failures = []) : progress.failures = [] ∧
      ∃ actions, List.Forall₂ (ActionOf sha256 master provider snapshotId) rows actions := by
  induction rows generalizing progress with
  | nil =>
    cases taken
    exact ⟨resolved, [], .nil⟩
  | cons row rest ih =>
    obtain ⟨next, first, taken⟩ := bind_eq_ok.mp taken
    obtain ⟨nothing, actions, each⟩ := ih taken
    rw [takeAction] at first
    split at first
    case h_1 securityId isId =>
      split at first
      case isTrue consistent =>
        cases first
        exact ⟨nothing, actionOf sha256 provider snapshotId row securityId :: actions,
          .cons ⟨securityId, isId, rfl, consistent⟩ each⟩
      case isFalse => cases first
    case h_2 =>
      cases first
      exact absurd nothing (by simp)

end Ingested

section Snapshots

variable {sha256 : List UInt8 → String} {payload payload' : RawPayload}
  {master master' : List SecurityMasterRecord} {snapshotId codeSha : String}

/-- The snapshot of what was normalized. -/
def snapshotOf (sha256 : List UInt8 → String) (payload : RawPayload)
    (master : List SecurityMasterRecord) (snapshotId codeSha : String) (bars : List BarRecord)
    (actions : List CorporateActionRecord) : DatasetSnapshot :=
  ⟨snapshotId, master, bars, actions,
    manifestOf sha256 master snapshotId payload codeSha bars actions⟩

/-- The records of a payload whose rows are all accepted. -/
structure Normalized (sha256 : List UInt8 → String) (payload : RawPayload)
    (master : List SecurityMasterRecord) (snapshotId : String) (bars : List BarRecord)
    (actions : List CorporateActionRecord) : Prop where
  bars : List.Forall₂ (BarOf sha256 master payload.provider snapshotId) payload.bars bars
  actions : List.Forall₂ (ActionOf sha256 master payload.provider snapshotId) payload.actions
    actions

/-- **What ingestion succeeds with.** -/
theorem ingestSnapshot_eq_ok {snapshot : DatasetSnapshot} :
    ingestSnapshot sha256 payload master snapshotId codeSha = .ok snapshot ↔
      ∃ bars actions, Normalized sha256 payload master snapshotId bars actions ∧
        snapshot = snapshotOf sha256 payload master snapshotId codeSha bars actions := by
  have evaluated : ∀ bars actions, Normalized sha256 payload master snapshotId bars actions →
      ingestSnapshot sha256 payload master snapshotId codeSha =
        .ok (snapshotOf sha256 payload master snapshotId codeSha bars actions) := by
    intro bars actions normalized
    rw [ingestSnapshot, takeBars_eq _ normalized.bars]
    refine bind_eq_ok.mpr ⟨_, takeActions_eq _ normalized.actions, ?_⟩
    exact refuse_bind_eq_ok.mpr ⟨not_not.mpr rfl, rfl⟩
  constructor
  · intro ingested
    have ran := ingested
    obtain ⟨last, taken, ran⟩ := bind_eq_ok.mp ran
    obtain ⟨resolved, -⟩ := refuse_bind_eq_ok.mp ran
    obtain ⟨nothing, actions, eachAction⟩ := of_takeActions taken (not_not.mp resolved)
    obtain ⟨-, bars, eachBar⟩ := of_takeBars nothing
    have normalized : Normalized sha256 payload master snapshotId bars actions :=
      ⟨eachBar, eachAction⟩
    refine ⟨bars, actions, normalized, ?_⟩
    exact Except.ok.inj (ingested.symm.trans (evaluated bars actions normalized))
  · rintro ⟨bars, actions, normalized, rfl⟩
    exact evaluated bars actions normalized

/-! ## Payloads in another order -/

/-- One payload has the rows of another in some order. -/
structure Reordered (payload payload' : RawPayload) : Prop where
  provider : payload.provider = payload'.provider
  retrievedAt : payload.retrievedAt = payload'.retrievedAt
  knownExclusions : payload.knownExclusions = payload'.knownExclusions
  bars : payload.bars.Perm payload'.bars
  actions : payload.actions.Perm payload'.actions

theorem Reordered.symm (same : Reordered payload payload') : Reordered payload' payload :=
  ⟨same.provider.symm, same.retrievedAt.symm, same.knownExclusions.symm, same.bars.symm,
    same.actions.symm⟩

variable {provider : String}

theorem BarOf.of_perm (perm : master.Perm master') {row : RawBarRow} {bar : BarRecord}
    (normalized : BarOf sha256 master provider snapshotId row bar) :
    BarOf sha256 master' provider snapshotId row bar := by
  obtain ⟨securityId, resolved, same⟩ := normalized
  exact ⟨securityId, resolve_eq_ok_of_perm perm resolved, same⟩

theorem ActionOf.of_perm (perm : master.Perm master') {row : RawActionRow}
    {action : CorporateActionRecord}
    (normalized : ActionOf sha256 master provider snapshotId row action) :
    ActionOf sha256 master' provider snapshotId row action := by
  obtain ⟨securityId, resolved, same⟩ := normalized
  exact ⟨securityId, resolve_eq_ok_of_perm perm resolved, same⟩

variable {bars : List BarRecord} {actions : List CorporateActionRecord}

/-- **In another order the same rows give the same records, in another order.** -/
theorem Normalized.reordered (normalized : Normalized sha256 payload master snapshotId bars actions)
    (same : Reordered payload payload') (perm : master.Perm master') :
    ∃ bars' actions', Normalized sha256 payload' master' snapshotId bars' actions' ∧
      bars'.Perm bars ∧ actions'.Perm actions := by
  obtain ⟨bars', eachBar, permBars⟩ := List.perm_comp_forall₂ same.bars.symm normalized.bars
  obtain ⟨actions', eachAction, permActions⟩ :=
    List.perm_comp_forall₂ same.actions.symm normalized.actions
  refine ⟨bars', actions', ⟨?_, ?_⟩, permBars, permActions⟩
  · rw [← same.provider]
    exact eachBar.imp fun _ _ => BarOf.of_perm perm
  · rw [← same.provider]
    exact eachAction.imp fun _ _ => ActionOf.of_perm perm

variable {bars' : List BarRecord}

theorem sessionCoverage_eq_of_perm (perm : bars.Perm bars') :
    sessionCoverage bars = sessionCoverage bars' := by
  have sessions : sortedBy Date.order (bars.map BarRecord.session) =
      sortedBy Date.order (bars'.map BarRecord.session) := by
    refine sortedBy_eq_of_perm (perm.map _) ?_
    intro first _ second _ same
    exact Date.order_injective same
  rw [sessionCoverage, sessionCoverage, sessions]

theorem rowHashes_eq_of_reordered (same : Reordered payload payload') :
    rowHashes sha256 payload = rowHashes sha256 payload' := by
  refine sortedBy_eq_of_perm ((same.bars.map _).append (same.actions.map _)) ?_
  intro first _ second _ sameText
  exact String.toList_injective sameText

variable {actions' : List CorporateActionRecord}

/-- Rows in another order change the manifest in the hash of the content only. -/
theorem manifestOf_eq_of_perm (same : Reordered payload payload') (permBars : bars'.Perm bars)
    (permActions : actions'.Perm actions) (content : contentSha256 sha256 master bars actions =
      contentSha256 sha256 master' bars' actions') :
    manifestOf sha256 master snapshotId payload codeSha bars actions =
      manifestOf sha256 master' snapshotId payload' codeSha bars' actions' := by
  have securities : (firstSeen (bars.map BarRecord.securityId)).length =
      (firstSeen (bars'.map BarRecord.securityId)).length := by
    have perm := (permBars.map BarRecord.securityId).symm
    rw [firstSeen, firstSeen, List.length_reverse, List.length_reverse]
    exact (((List.reverse_perm _).trans perm).trans (List.reverse_perm _).symm).dedup.length_eq
  rw [manifestOf, manifestOf, same.provider, same.retrievedAt, same.knownExclusions,
    same.bars.length_eq, same.actions.length_eq, permBars.length_eq, permActions.length_eq,
    securities, sessionCoverage_eq_of_perm permBars, rowHashes_eq_of_reordered same, content]

/-! ## When the order does not matter -/

/-- Both ingestions succeed with one manifest, or both fail. -/
def SameOutcome (first second : Except IngestError DatasetSnapshot) : Prop :=
  (∃ snapshot snapshot', first = .ok snapshot ∧ second = .ok snapshot' ∧
    snapshot.manifest = snapshot'.manifest) ∨
      (∃ error, first = .error error) ∧ ∃ error, second = .error error

structure RowsAccepted (payload : RawPayload) (master : List SecurityMasterRecord) : Prop where
  bars : ∀ row ∈ payload.bars,
    ∃ securityId, resolve master row.vendorSymbol row.session row.availableAt = .ok securityId
  actions : ∀ row ∈ payload.actions,
    (∃ securityId,
      resolve master row.vendorSymbol row.effectiveSession row.availableAt = .ok securityId) ∧
    (row.kind.ratioed = true → row.ratioNumerator.isSome = true ∧
      row.ratioDenominator.isSome = true) ∧
    (row.kind = .cashDividend → row.cashAmount.isSome = true) ∧
    (row.kind = .merger ∨ row.kind = .spinoff → row.successorSecurityId.isSome = true)

/-- No two different records of the master have one security, and no two different rows have one
security, session and source record. -/
structure DistinctKeys (payload : RawPayload) (master : List SecurityMasterRecord) : Prop where
  securities : ∀ first ∈ master, ∀ second ∈ master, first.securityId = second.securityId →
    first = second
  bars : ∀ first ∈ payload.bars, ∀ second ∈ payload.bars, ∀ securityId,
    resolve master first.vendorSymbol first.session first.availableAt = .ok securityId →
      resolve master second.vendorSymbol second.session second.availableAt = .ok securityId →
        first.session = second.session → first.sourceRecordId = second.sourceRecordId →
          first = second
  actions : ∀ first ∈ payload.actions, ∀ second ∈ payload.actions, ∀ securityId,
    resolve master first.vendorSymbol first.effectiveSession first.availableAt = .ok securityId →
      resolve master second.vendorSymbol second.effectiveSession second.availableAt =
          .ok securityId →
        first.effectiveSession = second.effectiveSession →
          first.sourceRecordId = second.sourceRecordId → first = second

/-- The manifest of a payload and a master is that of their rows and records, in any order, and the
hash of a content is that of its records. -/
structure RowIdentity (sha256 : List UInt8 → String) (payload : RawPayload)
    (master : List SecurityMasterRecord) (snapshotId codeSha : String) : Prop where
  reordered : ∀ payload' master', Reordered payload payload' → master.Perm master' →
    SameOutcome (ingestSnapshot sha256 payload master snapshotId codeSha)
      (ingestSnapshot sha256 payload' master' snapshotId codeSha)
  contents : ∀ first second : DatasetSnapshot,
    contentSha256 sha256 first.master first.bars first.actions =
        contentSha256 sha256 second.master second.bars second.actions →
      first.master.Perm second.master ∧ first.bars.Perm second.bars ∧
        first.actions.Perm second.actions

variable {securityId : String}

theorem kindConsistent_iff {row : RawActionRow} :
    (actionOf sha256 provider snapshotId row securityId).kindConsistent = true ↔
      (row.kind.ratioed = true → row.ratioNumerator.isSome = true ∧
        row.ratioDenominator.isSome = true) ∧
      (row.kind = .cashDividend → row.cashAmount.isSome = true) ∧
      (row.kind = .merger ∨ row.kind = .spinoff → row.successorSecurityId.isSome = true) := by
  rw [CorporateActionRecord.kindConsistent, actionOf, Bool.and_eq_true, Bool.and_eq_true,
    and_assoc]
  simp only [Bool.or_eq_true, Bool.not_eq_true', Bool.and_eq_true, decide_eq_true_eq, ne_eq]
  refine and_congr ?_ (and_congr ?_ ?_)
  · cases row.kind.ratioed <;> simp
  · tauto
  · tauto

/-- Records in another order are those of rows in another order. -/
theorem exists_rows {Row Item : Type} {relates : Row → Item → Prop} {rows : List Row}
    {items others : List Item} (perm : others.Perm items)
    (each : List.Forall₂ relates rows items) :
    ∃ rows', rows'.Perm rows ∧ List.Forall₂ relates rows' others := by
  obtain ⟨rows', flipped, permRows⟩ := List.perm_comp_forall₂ perm each.flip
  exact ⟨rows', permRows, flipped.flip⟩

theorem rowsAccepted_iff : RowsAccepted payload master ↔
    ∃ bars actions, Normalized sha256 payload master snapshotId bars actions := by
  constructor
  · intro accepted
    have eachBar : ∀ row ∈ payload.bars,
        ∃ bar, BarOf sha256 master payload.provider snapshotId row bar := by
      intro row member
      obtain ⟨securityId, resolved⟩ := accepted.bars row member
      exact ⟨_, securityId, resolved, rfl⟩
    have eachAction : ∀ row ∈ payload.actions,
        ∃ action, ActionOf sha256 master payload.provider snapshotId row action := by
      intro row member
      obtain ⟨⟨securityId, resolved⟩, consistent⟩ := accepted.actions row member
      exact ⟨_, securityId, resolved, rfl, kindConsistent_iff.mpr consistent⟩
    obtain ⟨bars, barRows⟩ := exists_forall₂ eachBar
    obtain ⟨actions, actionRows⟩ := exists_forall₂ eachAction
    exact ⟨bars, actions, barRows, actionRows⟩
  · rintro ⟨bars, actions, normalized⟩
    constructor
    · intro row member
      obtain ⟨bar, -, securityId, resolved, -⟩ :=
        exists_right_of_forall₂ normalized.bars member
      exact ⟨securityId, resolved⟩
    · intro row member
      obtain ⟨action, -, securityId, resolved, rfl, consistent⟩ :=
        exists_right_of_forall₂ normalized.actions member
      exact ⟨⟨securityId, resolved⟩, kindConsistent_iff.mp consistent⟩

theorem canonicalBytes_inj {first second : List (String × Value)} (plain : Plain (.obj first))
    (plain' : Plain (.obj second)) (same : canonicalBytes first = canonicalBytes second) :
    first = second := by
  have texts := Text.encode_injOn_ascii (ascii_dumps ⟨first, plain⟩) (ascii_dumps ⟨second, plain'⟩)
    same
  exact Value.obj.inj (dumps_injOn plain plain' texts)

/-- Different rows have different records. -/
theorem barOf_inj (injective : Function.Injective sha256) {first second : RawBarRow}
    (same : barOf sha256 provider snapshotId first securityId =
      barOf sha256 provider snapshotId second securityId) : first = second := by
  have hashes := injective (congrArg BarRecord.sourceRowHash same)
  exact RawBarRow.members_injective (canonicalBytes_inj first.plain second.plain hashes)

theorem actionOf_inj (injective : Function.Injective sha256) {first second : RawActionRow}
    (same : actionOf sha256 provider snapshotId first securityId =
      actionOf sha256 provider snapshotId second securityId) : first = second := by
  have hashes := injective (congrArg CorporateActionRecord.sourceRowHash same)
  exact RawActionRow.members_injective (canonicalBytes_inj first.plain second.plain hashes)

/-- The key that bars and actions are sorted by. -/
theorem order_inj {security security' source source' : String} {session session' : Date}
    (same : toLex (security.toList, toLex (session.order, source.toList)) =
      toLex (security'.toList, toLex (session'.order, source'.toList))) :
    security = security' ∧ session = session' ∧ source = source' := by
  obtain ⟨securities, same⟩ := Prod.mk.inj (toLex.injective same)
  obtain ⟨sessions, sources⟩ := Prod.mk.inj (toLex.injective same)
  exact ⟨String.toList_injective securities, Date.order_injective sessions,
    String.toList_injective sources⟩

section Normalized

variable {bars : List BarRecord} {actions : List CorporateActionRecord}

theorem DistinctKeys.of_normalized (distinct : DistinctKeys payload master)
    (normalized : Normalized sha256 payload master snapshotId bars actions) :
    (∀ first ∈ bars, ∀ second ∈ bars, first.order = second.order → first = second) ∧
      ∀ first ∈ actions, ∀ second ∈ actions, first.order = second.order → first = second := by
  constructor
  · intro first isFirst second isSecond same
    obtain ⟨row, member, securityId, resolved, rfl⟩ :=
      exists_left_of_forall₂ normalized.bars isFirst
    obtain ⟨row', member', securityId', resolved', rfl⟩ :=
      exists_left_of_forall₂ normalized.bars isSecond
    obtain ⟨securities, sessions, records⟩ := order_inj same
    obtain rfl : securityId = securityId' := securities
    rw [distinct.bars row member row' member' securityId resolved resolved' sessions records]
  · intro first isFirst second isSecond same
    obtain ⟨row, member, securityId, resolved, rfl, -⟩ :=
      exists_left_of_forall₂ normalized.actions isFirst
    obtain ⟨row', member', securityId', resolved', rfl, -⟩ :=
      exists_left_of_forall₂ normalized.actions isSecond
    obtain ⟨securities, sessions, records⟩ := order_inj same
    obtain rfl : securityId = securityId' := securities
    rw [distinct.actions row member row' member' securityId resolved resolved' sessions records]

/-- And the other way. -/
theorem distinctKeys_of_records (injective : Function.Injective sha256)
    (normalized : Normalized sha256 payload master snapshotId bars actions)
    (securities : ∀ first ∈ master, ∀ second ∈ master, first.order = second.order → first = second)
    (ofBars : ∀ first ∈ bars, ∀ second ∈ bars, first.order = second.order → first = second)
    (ofActions : ∀ first ∈ actions, ∀ second ∈ actions, first.order = second.order →
      first = second) : DistinctKeys payload master := by
  refine ⟨?_, ?_, ?_⟩
  · intro first isFirst second isSecond same
    exact securities first isFirst second isSecond (congrArg String.toList same)
  · intro row member row' member' securityId resolved resolved' sessions records
    obtain ⟨bar, isBar, other, isResolved, rfl⟩ := exists_right_of_forall₂ normalized.bars member
    cases resolved.symm.trans isResolved
    obtain ⟨bar', isBar', other', isResolved', rfl⟩ :=
      exists_right_of_forall₂ normalized.bars member'
    cases resolved'.symm.trans isResolved'
    refine barOf_inj injective (ofBars _ isBar _ isBar' ?_)
    rw [BarRecord.order, BarRecord.order, barOf, barOf, sessions, records]
  · intro row member row' member' securityId resolved resolved' sessions records
    obtain ⟨action, isAction, other, isResolved, rfl, -⟩ :=
      exists_right_of_forall₂ normalized.actions member
    cases resolved.symm.trans isResolved
    obtain ⟨action', isAction', other', isResolved', rfl, -⟩ :=
      exists_right_of_forall₂ normalized.actions member'
    cases resolved'.symm.trans isResolved'
    refine actionOf_inj injective (ofActions _ isAction _ isAction' ?_)
    rw [CorporateActionRecord.order, CorporateActionRecord.order, actionOf, actionOf, sessions,
      records]

end Normalized

theorem sameOutcome_of_distinct (distinct : RowsAccepted payload master → DistinctKeys payload master)
    (same : Reordered payload payload') (perm : master.Perm master') :
    SameOutcome (ingestSnapshot sha256 payload master snapshotId codeSha)
      (ingestSnapshot sha256 payload' master' snapshotId codeSha) := by
  cases ingested : ingestSnapshot sha256 payload master snapshotId codeSha with
  | ok snapshot =>
    obtain ⟨bars, actions, normalized, rfl⟩ := ingestSnapshot_eq_ok.mp ingested
    obtain ⟨bars', actions', normalized', permBars, permActions⟩ :=
      normalized.reordered same perm
    have keys := distinct (rowsAccepted_iff.mpr ⟨bars, actions, normalized⟩)
    obtain ⟨ofBars, ofActions⟩ := keys.of_normalized normalized
    have masters : sortedBy SecurityMasterRecord.order master =
        sortedBy SecurityMasterRecord.order master' := by
      refine sortedBy_eq_of_perm perm ?_
      intro first isFirst second isSecond sameId
      exact keys.securities first isFirst second isSecond (String.toList_injective sameId)
    have content : contentSha256 sha256 master bars actions =
        contentSha256 sha256 master' bars' actions' := by
      rw [contentSha256, contentSha256, masters, sortedBy_eq_of_perm permBars.symm ofBars,
        sortedBy_eq_of_perm permActions.symm ofActions]
    exact .inl ⟨_, _, rfl, ingestSnapshot_eq_ok.mpr ⟨bars', actions', normalized', rfl⟩,
      manifestOf_eq_of_perm same permBars permActions content⟩
  | error error =>
    cases ingested' : ingestSnapshot sha256 payload' master' snapshotId codeSha with
    | ok snapshot =>
      obtain ⟨bars', actions', normalized', -⟩ := ingestSnapshot_eq_ok.mp ingested'
      obtain ⟨bars, actions, normalized, -, -⟩ := normalized'.reordered same.symm perm.symm
      rw [ingestSnapshot_eq_ok.mpr ⟨bars, actions, normalized, rfl⟩] at ingested
      cases ingested
    | error error' => exact .inr ⟨⟨error, rfl⟩, ⟨error', rfl⟩⟩

/-- One manifest is one content hash. -/
theorem content_of_sameOutcome
    (normalized : Normalized sha256 payload master snapshotId bars actions)
    (normalized' : Normalized sha256 payload' master' snapshotId bars' actions')
    (same : SameOutcome (ingestSnapshot sha256 payload master snapshotId codeSha)
      (ingestSnapshot sha256 payload' master' snapshotId codeSha)) :
    contentSha256 sha256 master bars actions = contentSha256 sha256 master' bars' actions' := by
  rw [ingestSnapshot_eq_ok.mpr ⟨bars, actions, normalized, rfl⟩,
    ingestSnapshot_eq_ok.mpr ⟨bars', actions', normalized', rfl⟩] at same
  rcases same with ⟨_, _, isFirst, isSecond, manifests⟩ | ⟨⟨_, failed⟩, -⟩
  · cases isFirst
    cases isSecond
    exact congrArg DatasetManifest.contentSha256 manifests
  · cases failed

theorem distinctKeys_of_sameOutcome (injective : Function.Injective sha256)
    (alike : ∀ payload' master', Reordered payload payload' → master.Perm master' →
      SameOutcome (ingestSnapshot sha256 payload master snapshotId codeSha)
        (ingestSnapshot sha256 payload' master' snapshotId codeSha))
    (accepted : RowsAccepted payload master) : DistinctKeys payload master := by
  obtain ⟨bars, actions, normalized⟩ := rowsAccepted_iff.mp accepted
  refine distinctKeys_of_records injective normalized ?_ ?_ ?_
  · refine sortedBy_perm_iff.mp ?_
    intro others perm
    have reordered : Reordered payload payload := ⟨rfl, rfl, rfl, .refl _, .refl _⟩
    obtain ⟨bars', actions', normalized', -, -⟩ := normalized.reordered reordered perm.symm
    have content := content_of_sameOutcome normalized normalized'
      (alike payload others reordered perm.symm)
    exact (sorted_eq_of_contentSha256 injective content).1.symm
  · refine sortedBy_perm_iff.mp ?_
    intro others perm
    obtain ⟨rows, permRows, each⟩ := exists_rows perm normalized.bars
    have reordered : Reordered payload { payload with bars := rows } :=
      ⟨rfl, rfl, rfl, permRows.symm, .refl _⟩
    have normalized' : Normalized sha256 { payload with bars := rows } master snapshotId others
        actions := ⟨each, normalized.actions⟩
    have content := content_of_sameOutcome normalized normalized'
      (alike { payload with bars := rows } master reordered (.refl _))
    exact (sorted_eq_of_contentSha256 injective content).2.1.symm
  · refine sortedBy_perm_iff.mp ?_
    intro others perm
    obtain ⟨rows, permRows, each⟩ := exists_rows perm normalized.actions
    have reordered : Reordered payload { payload with actions := rows } :=
      ⟨rfl, rfl, rfl, .refl _, permRows.symm⟩
    have normalized' : Normalized sha256 { payload with actions := rows } master snapshotId bars
        others := ⟨normalized.bars, each⟩
    have content := content_of_sameOutcome normalized normalized'
      (alike { payload with actions := rows } master reordered (.refl _))
    exact (sorted_eq_of_contentSha256 injective content).2.2.symm

/-- **A manifest identifies the rows in any order just where the keys of accepted rows are
distinct.** -/
theorem identity_iff (injective : Function.Injective sha256) :
    RowIdentity sha256 payload master snapshotId codeSha ↔
      (RowsAccepted payload master → DistinctKeys payload master) := by
  constructor
  · intro identity
    exact distinctKeys_of_sameOutcome injective identity.reordered
  · intro distinct
    refine ⟨?_, ?_⟩
    · intro payload' master' same perm
      exact sameOutcome_of_distinct distinct same perm
    · intro first second same
      exact contents_perm injective same

end Snapshots

/-! ## One event, two actions -/

theorem daySample_valid : 1 ≤ 2026 ∧ 2026 ≤ 9999 ∧ 1 ≤ 1 ∧ 1 ≤ 12 ∧ 1 ≤ 5 ∧
    5 ≤ daysInMonth 2026 1 := by
  decide

theorem closeSample_valid : 21 < 24 ∧ 0 < 60 ∧ 0 < 60 ∧ 0 < 1000000 := by
  decide

def daySample : Date :=
  ⟨2026, 1, 5, daySample_valid⟩

def closeSample : UTCDatetime :=
  ⟨daySample, 21, 0, 0, 0, closeSample_valid⟩

def listingSample : SecurityMasterRecord :=
  ⟨"A", none, none, "common_stock", daySample, none, "XNYS", none, "vendor", closeSample,
    [⟨"A", "AAA", daySample, none, closeSample⟩], [], none⟩

def splitRow : RawActionRow :=
  ⟨"AAA", .split, daySample, some 2, some 1, none, none, closeSample, "event-1"⟩

def dividendRow : RawActionRow :=
  ⟨"AAA", .cashDividend, daySample, none, none, some "0.50", none, closeSample, "event-1"⟩

def payloadOf (actions : List RawActionRow) : RawPayload :=
  ⟨"vendor", none, [], actions, []⟩

theorem resolve_sample : resolve [listingSample] "AAA" daySample closeSample = .ok "A" := by
  decide +kernel

/-- A split and a dividend of one source record and session come in either order. -/
theorem order_changes_manifest :
    ¬ ∀ sha256 : List UInt8 → String, Function.Injective sha256 →
      ∀ (payload : RawPayload) (master : List SecurityMasterRecord) (snapshotId codeSha : String),
        RowIdentity sha256 payload master snapshotId codeSha := by
  intro identity
  have identity := identity _ Text.markedBytes_injective (payloadOf [splitRow, dividendRow])
    [listingSample] "snap" "code"
  have accepted : RowsAccepted (payloadOf [splitRow, dividendRow]) [listingSample] := by
    constructor
    · intro row member
      cases member
    · intro row member
      rcases List.mem_cons.mp member with rfl | isSecond
      · exact ⟨⟨"A", resolve_sample⟩, by decide⟩
      · rw [List.mem_singleton.mp isSecond]
        exact ⟨⟨"A", resolve_sample⟩, by decide⟩
  have distinct := distinctKeys_of_sameOutcome Text.markedBytes_injective identity.reordered
    accepted
  have same := distinct.actions splitRow List.mem_cons_self dividendRow
    (List.mem_cons_of_mem _ List.mem_cons_self) "A" resolve_sample resolve_sample rfl rfl
  exact absurd (congrArg RawActionRow.kind same) (by decide)

theorem identity_iff_sample :
    RowIdentity Text.markedBytes (payloadOf [splitRow]) [listingSample] "snap" "code" := by
  refine (identity_iff Text.markedBytes_injective).mpr ?_
  intro _
  refine ⟨?_, ?_, ?_⟩
  · intro first isFirst second isSecond _
    rw [List.mem_singleton.mp isFirst, List.mem_singleton.mp isSecond]
  · intro first isFirst
    cases isFirst
  · intro first isFirst second isSecond _ _ _ _ _
    rw [List.mem_singleton.mp isFirst, List.mem_singleton.mp isSecond]

end TreeOptions.Ingest
