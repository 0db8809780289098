import TreeOptions.RealOptions.Surface

/-!
# What two captures answer before they differ

Two captures of one underlying have the same files for every session published by an instant, and
differ in later ones. Everything a surface reads from the visible file is then the same.

The grid of contracts is not: its strikes come from the master of the whole capture, so a strike
that is first quoted later is in it before (`same_answers_iff` says when it is not). An id
writes the expiry with a two-digit year and the strike in cents, so the captures have to list the
same such cells under the expiries of the visible file.
-/

set_option autoImplicit false

namespace TreeOptions.RealOptions

open Checked Decimal Ledger
open Options (callPutText contractIdOf)

/-! ## Ids -/

section Ids

theorem digits_isDigit {width number : ℕ} {char : Char}
    (member : char ∈ (digits width number).toList) : char.isDigit := by
  rw [digits, String.toList_ofList, List.leftpad, List.mem_append] at member
  rcases member with padding | digit
  · rw [List.eq_of_mem_replicate padding]
    rfl
  · exact Nat.isDigit_of_mem_toDigits (by decide) (by decide) digit

theorem dash_not_mem_digits {width number : ℕ} : '-' ∉ (digits width number).toList :=
  fun member => absurd (digits_isDigit member) (by decide)

theorem cut_last_dash {first second rest rest' : List Char} (plain : '-' ∉ rest)
    (plain' : '-' ∉ rest') (same : first ++ '-' :: rest = second ++ '-' :: rest') :
    first = second ∧ rest = rest' := by
  have reversed := congrArg List.reverse same
  simp only [List.reverse_append, List.reverse_cons, List.append_assoc, List.singleton_append]
    at reversed
  have cut : ∀ {left right left' right' : List Char}, '-' ∉ left → '-' ∉ left' →
      left ++ '-' :: right = left' ++ '-' :: right' → left = left' ∧ right = right' := by
    intro left
    induction left with
    | nil =>
      intro right left' right' _ absent equal
      cases left' with
      | nil => exact ⟨rfl, (List.cons.inj equal).2⟩
      | cons char rest =>
        have head := (List.cons.inj equal).1
        exact absurd (head ▸ List.mem_cons_self) absent
    | cons char rest ih =>
      intro right left' right' absent absent' equal
      cases left' with
      | nil =>
        have head := (List.cons.inj equal).1
        exact absurd (head ▸ List.mem_cons_self) absent
      | cons char' rest' =>
        obtain ⟨head, tail⟩ := List.cons.inj equal
        obtain ⟨same, remaining⟩ := ih (fun inside => absent (List.mem_cons_of_mem _ inside))
          (fun inside => absent' (List.mem_cons_of_mem _ inside)) tail
        exact ⟨by rw [head, same], remaining⟩
  obtain ⟨sameRest, sameFirst⟩ := cut (by simpa using plain) (by simpa using plain') reversed
  exact ⟨List.reverse_injective sameFirst, List.reverse_injective sameRest⟩

/-- The cents of a strike as an id writes them. -/
def strikeCents (strike : ℚ) : ℕ :=
  (mul strike 100).floor.toNat

theorem dash_not_mem_callPut (callPut : CallPut) : '-' ∉ (callPutText callPut).toList := by
  cases callPut <;> decide

theorem dash_not_mem_shortDate (date : ℤ) : '-' ∉ (shortDate date).toList := by
  simp only [shortDate, String.toList_append, List.mem_append, not_or]
  exact ⟨⟨dash_not_mem_digits, dash_not_mem_digits⟩, dash_not_mem_digits⟩

/-- **An id tells the short date of the expiry and the cents of the strike.** -/
theorem contractIdOf_injective {underlyingId : String} {expiration expiration' : ℤ}
    {callPut callPut' : CallPut} {strike strike' : ℚ}
    (same : contractIdOf underlyingId expiration callPut strike =
      contractIdOf underlyingId expiration' callPut' strike') :
    shortDate expiration = shortDate expiration' ∧ callPut = callPut' ∧
      strikeCents strike = strikeCents strike' := by
  have chars := congrArg String.toList same
  have dash : ("-" : String).toList = ['-'] := rfl
  simp only [contractIdOf, String.toList_append, dash, List.append_assoc, List.singleton_append]
    at chars
  simp only [← List.append_assoc] at chars
  obtain ⟨chars, cents⟩ := cut_last_dash dash_not_mem_digits dash_not_mem_digits chars
  obtain ⟨chars, sides⟩ :=
    cut_last_dash (dash_not_mem_callPut callPut) (dash_not_mem_callPut callPut') chars
  obtain ⟨_, dates⟩ :=
    cut_last_dash (dash_not_mem_shortDate expiration) (dash_not_mem_shortDate expiration') chars
  refine ⟨String.toList_injective dates, ?_, digits_injective cents⟩
  cases callPut <;> cases callPut' <;> first | rfl | exact absurd sides (by decide)

theorem contractIdOf_congr {underlyingId : String} {expiration expiration' : ℤ}
    {strike strike' : ℚ} (callPut : CallPut) (date : shortDate expiration = shortDate expiration')
    (cents : strikeCents strike = strikeCents strike') :
    contractIdOf underlyingId expiration callPut strike =
      contractIdOf underlyingId expiration' callPut strike' := by
  rw [strikeCents, strikeCents] at cents
  rw [contractIdOf, contractIdOf, date, cents]

end Ids

/-! ## What a capture holds -/

section Captures

theorem mem_of_lastWith {Item : Type} {condition : Item → Bool} {items : List Item} {item : Item}
    (found : lastWith condition items = some item) : item ∈ items ∧ condition item = true :=
  ⟨List.mem_reverse.mp (List.mem_of_find?_eq_some found), List.find?_some found⟩

theorem lastWith_eq_some_iff {Item Key : Type} [DecidableEq Key] {key : Item → Key}
    {items : List Item} (unique : (items.map key).Nodup) {wanted : Key} {item : Item} :
    lastWith (fun other => key other = wanted) items = some item ↔
      item ∈ items ∧ key item = wanted := by
  constructor
  · intro found
    obtain ⟨member, named⟩ := mem_of_lastWith found
    exact ⟨member, of_decide_eq_true named⟩
  · rintro ⟨member, named⟩
    have present : (lastWith (fun other => key other = wanted) items).isSome := by
      rw [lastWith, List.find?_isSome]
      exact ⟨item, List.mem_reverse.mpr member, decide_eq_true named⟩
    obtain ⟨other, found⟩ := Option.isSome_iff_exists.mp present
    obtain ⟨member', named'⟩ := mem_of_lastWith found
    rw [found, List.inj_on_of_nodup_map unique member' member
      ((of_decide_eq_true named').trans named.symm)]

variable (result : CboeEodParseResult)

theorem contractOf_eq_some_iff {contractId : String} {contract : OptionContract} :
    contractOf result.contracts contractId = some contract ↔
      contract ∈ result.contracts ∧ contract.contractId = contractId :=
  lastWith_eq_some_iff result.contracts_nodup

theorem fileOf_eq_some_iff {session : ℤ} {file : OptionDayFile} :
    fileOf result.dayFiles session = some file ↔ (session, file) ∈ result.dayFiles := by
  rw [fileOf, Option.map_eq_some_iff]
  constructor
  · rintro ⟨named, found, rfl⟩
    obtain ⟨member, rfl⟩ := (lastWith_eq_some_iff result.sessions_nodup).mp found
    exact member
  · intro member
    exact ⟨_, (lastWith_eq_some_iff result.sessions_nodup).mpr ⟨member, rfl⟩, rfl⟩

theorem fileOf_isSome_iff {session : ℤ} :
    (fileOf result.dayFiles session).isSome ↔ session ∈ result.dayFiles.map Prod.fst := by
  rw [Option.isSome_iff_exists, List.mem_map]
  constructor
  · rintro ⟨file, found⟩
    exact ⟨_, (fileOf_eq_some_iff result).mp found, rfl⟩
  · rintro ⟨⟨_, file⟩, member, rfl⟩
    exact ⟨file, (fileOf_eq_some_iff result).mpr member⟩

theorem masterOf_contracts : masterOf result.contracts = result.contracts := by
  rw [masterOf, List.filter_eq_self]
  intro contract member
  exact decide_eq_true ((contractOf_eq_some_iff result).mpr ⟨member, rfl⟩)

variable {expiration : ℤ}

theorem mem_expiriesOf {file : OptionDayFile} : expiration ∈ expiriesOf result.contracts file ↔
      ∃ entry ∈ file.entries, ∃ contract ∈ result.contracts,
        contract.contractId = entry.contractId ∧ contract.expiration = expiration := by
  rw [expiriesOf, mem_sortedBy, List.mem_dedup, List.mem_filterMap]
  constructor
  · rintro ⟨entry, member, named⟩
    obtain ⟨contract, found, rfl⟩ := Option.map_eq_some_iff.mp named
    obtain ⟨listed, same⟩ := (contractOf_eq_some_iff result).mp found
    exact ⟨entry, member, contract, listed, same, rfl⟩
  · rintro ⟨entry, member, contract, listed, same, rfl⟩
    exact ⟨entry, member, Option.map_eq_some_iff.mpr
      ⟨contract, (contractOf_eq_some_iff result).mpr ⟨listed, same⟩, rfl⟩⟩

theorem ladderOf_eq_some {ladder : List ℚ}
    (found : ladderOf result.contracts expiration = some ladder) {strike : ℚ} : strike ∈ ladder ↔
      ∃ contract ∈ result.contracts,
        contract.expiration = expiration ∧ contract.strike = strike := by
  rw [ladderOf, masterOf_contracts] at found
  cases listed : result.contracts.filter fun contract => contract.expiration = expiration with
  | nil =>
    rw [listed] at found
    cases found
  | cons first rest =>
    rw [listed] at found
    cases found
    rw [mem_sortedBy, List.mem_dedup, ← listed, List.mem_map]
    simp [and_assoc]

theorem ladderOf_isSome_iff : (ladderOf result.contracts expiration).isSome ↔
      ∃ contract ∈ result.contracts, contract.expiration = expiration := by
  rw [ladderOf, masterOf_contracts]
  cases listed : result.contracts.filter fun contract => contract.expiration = expiration with
  | nil =>
    have none_listed := List.filter_eq_nil_iff.mp listed
    simpa using none_listed
  | cons first rest =>
    have member : first ∈ result.contracts.filter fun contract =>
        contract.expiration = expiration := by
      rw [listed]
      exact List.mem_cons_self
    have meets := List.mem_filter.mp member
    exact ⟨fun _ => ⟨first, meets.1, of_decide_eq_true meets.2⟩, fun _ => rfl⟩

theorem windowOf_isSome_iff : (windowOf result.contracts expiration).isSome ↔
      (ladderOf result.contracts expiration).isSome := by
  rw [windowOf, ladderOf]
  cases (masterOf result.contracts).filter fun contract => contract.expiration = expiration with
  | nil => exact Iff.rfl
  | cons first rest => exact ⟨fun _ => rfl, fun _ => rfl⟩

end Captures

/-! ## The visible session -/

variable {wall : ℤ → ℤ}

structure VisibleAt (wall : ℤ → ℤ) (result : CboeEodParseResult) (asOf session : ℤ) : Prop where
  captured : session ∈ result.dayFiles.map Prod.fst
  published : publicationInstant wall session ≤ asOf
  latest : ∀ other ∈ result.dayFiles.map Prod.fst, publicationInstant wall other ≤ asOf →
    other ≤ session

section Visible

variable {result : CboeEodParseResult} {overlay : RealOptionOverlay}

/-- What an overlay is made of. -/
structure BuiltFrom (result : CboeEodParseResult) (overlay : RealOptionOverlay) : Prop where
  underlying : result.dayFiles ≠ [] →
    overlay.underlyingSecurityId = result.underlyingSecurityId
  sessions : overlay.sessions = sortedBy id (result.dayFiles.map Prod.fst)
  dayFiles : overlay.dayFiles = fileOf result.dayFiles
  entries : overlay.entries = fun session contractId =>
    (fileOf result.dayFiles session).bind fun file => entryOf file contractId
  contracts : overlay.contracts = contractOf result.contracts
  expiries : overlay.expiries = fun session =>
    ((fileOf result.dayFiles session).map (expiriesOf result.contracts)).getD []
  ladders : overlay.ladders = ladderOf result.contracts
  expiryWindows : overlay.expiryWindows = windowOf result.contracts
  quoteSource : overlay.spec.quoteSource = realOptionsProvider

theorem head_underlyings (captured : result.dayFiles ≠ []) :
    ((result.dayFiles.map fun file => file.2.underlyingSecurityId).dedup).head?.getD "" =
      result.underlyingSecurityId := by
  obtain ⟨file, member⟩ := List.exists_mem_of_ne_nil _ captured
  cases ids : (result.dayFiles.map fun file => file.2.underlyingSecurityId).dedup with
  | nil =>
    have mapped := List.mem_dedup.mpr
      (List.mem_map.mpr ⟨file, member, rfl⟩ :
        file.2.underlyingSecurityId ∈
          result.dayFiles.map fun file => file.2.underlyingSecurityId)
    rw [ids] at mapped
    cases mapped
  | cons first rest =>
    have mapped : first ∈ result.dayFiles.map fun file => file.2.underlyingSecurityId := by
      rw [← List.mem_dedup, ids]
      exact List.mem_cons_self
    obtain ⟨other, member, rfl⟩ := List.mem_map.mp mapped
    exact result.ofUnderlying other member

theorem builtFrom (built : buildRealOverlay wall result = .ok overlay) :
    BuiltFrom result overlay := by
  simp only [buildRealOverlay, RealOptionOverlay.create, bind_eq_ok, refuse_eq_ok] at built
  obtain ⟨_, _, _, _, _, _, made⟩ := built
  cases made
  exact ⟨fun captured => head_underlyings captured, rfl, rfl, rfl, rfl, rfl, rfl, rfl, rfl⟩

variable {asOf session : ℤ}

theorem visibleFileSession_eq_some (made : BuiltFrom result overlay) {sid : String} :
    visibleFileSession wall overlay sid asOf = some session ↔
      sid = result.underlyingSecurityId ∧ VisibleAt wall result asOf session := by
  have found : ((sortedBy id (result.dayFiles.map Prod.fst)).reverse.find? fun session =>
      publicationInstant wall session ≤ asOf) = some session ↔
        VisibleAt wall result asOf session := by
    rw [find?_reverse_sortedBy]
    simp only [decide_eq_true_eq]
    exact ⟨fun ⟨captured, published, latest⟩ => ⟨captured, published, latest⟩,
      fun visible => ⟨visible.captured, visible.published, visible.latest⟩⟩
  rw [visibleFileSession, RealOptionOverlay.eligibleSessions, made.sessions]
  by_cases captured : result.dayFiles = []
  · have nowhere : ¬ VisibleAt wall result asOf session := by
      intro visible
      have member := visible.captured
      rw [captured] at member
      cases member
    simp [captured, nowhere, sortedBy]
  · rw [made.underlying captured]
    split
    case isTrue foreign =>
      constructor
      · intro nothing
        cases nothing
      · intro same
        exact absurd same.1 foreign
    case isFalse same =>
      rw [found]
      exact ⟨fun visible => ⟨not_not.mp same, visible⟩, fun visible => visible.2⟩

theorem chosen_of_visible (made : BuiltFrom result overlay)
    (visible : VisibleAt wall result asOf session) :
    visibleFileSession wall overlay result.underlyingSecurityId asOf = some session :=
  (visibleFileSession_eq_some made).mpr ⟨rfl, visible⟩

theorem captured_of_visible (visible : VisibleAt wall result asOf session) :
    ∃ file, (session, file) ∈ result.dayFiles := by
  obtain ⟨⟨_, file⟩, member, rfl⟩ := List.mem_map.mp visible.captured
  exact ⟨file, member⟩

theorem underlying_of_visible (made : BuiltFrom result overlay)
    (visible : VisibleAt wall result asOf session) :
    overlay.underlyingSecurityId = result.underlyingSecurityId := by
  obtain ⟨file, member⟩ := captured_of_visible visible
  exact made.underlying (List.ne_nil_of_mem member)

end Visible

/-! ## Answers from the visible file -/

section Answers

variable {result : CboeEodParseResult} {overlay : RealOptionOverlay} {asOf session : ℤ}
  {file : OptionDayFile} {contractId : String}

section

variable (made : BuiltFrom result overlay)

include made

section

variable (visible : VisibleAt wall result asOf session)

include visible

theorem hasFile_of_visible : overlay.hasFile result.underlyingSecurityId session = true := by
  rw [RealOptionOverlay.hasFile, underlying_of_visible made visible, made.dayFiles,
    (fileOf_isSome_iff result).mpr visible.captured]
  simp

section

variable (found : (session, file) ∈ result.dayFiles)

include found

theorem dayFile_of_visible : overlay.dayFile result.underlyingSecurityId session = .ok file := by
  rw [RealOptionOverlay.dayFile, if_pos (hasFile_of_visible made visible), made.dayFiles,
    (fileOf_eq_some_iff result).mpr found]

theorem entryFor_of_visible :
    overlay.entryFor result.underlyingSecurityId session contractId =
      (entryOf file contractId).elim (.error (.value "not in the file")) .ok := by
  rw [RealOptionOverlay.entryFor, if_pos (hasFile_of_visible made visible), made.entries]
  dsimp only
  rw [(fileOf_eq_some_iff result).mpr found, Option.bind_some]
  cases entryOf file contractId <;> rfl

theorem liveExpiriesOn_of_visible :
    overlay.liveExpiriesOn result.underlyingSecurityId session =
      expiriesOf result.contracts file := by
  rw [RealOptionOverlay.liveExpiriesOn, if_pos (hasFile_of_visible made visible), made.expiries]
  dsimp only
  rw [(fileOf_eq_some_iff result).mpr found]
  rfl

end

end

end

/-! ### Contracts -/

theorem decomposed_contractId {contract : OptionContract}
    (read : decomposeContractId contractId = some contract) :
    contract.contractId = contractId := by
  revert read
  fun_cases decomposeContractId contractId with
  | case1 =>
    intro read
    obtain ⟨expiration, _, made⟩ := Option.bind_eq_some_iff.mp read
    split at made <;> cases made
    rfl
  | _ => exact nofun

theorem contract_eq_ok (made : BuiltFrom result overlay)
    (same : overlay.underlyingSecurityId = result.underlyingSecurityId)
    {contract : OptionContract} (found : overlay.contract contractId = .ok contract) :
    contract.contractId = contractId ∧
      contract.underlyingSecurityId = result.underlyingSecurityId := by
  revert found
  fun_cases RealOptionOverlay.contract overlay contractId with
  | case1 master listed =>
    rintro ⟨⟩
    rw [made.contracts] at listed
    obtain ⟨member, named⟩ := (contractOf_eq_some_iff result).mp listed
    exact ⟨named, (result.named _ member).1⟩
  | case4 _ candidate read ours =>
    rintro ⟨⟩
    have named := decomposed_contractId read
    exact ⟨named, (not_not.mp ours).trans same⟩
  | _ => exact nofun

/-- An id is in the master, or is read back as a strike that is listed under its expiry. -/
def Resolves (result : CboeEodParseResult) (contractId : String) : Prop :=
  (∃ contract ∈ result.contracts, contract.contractId = contractId) ∨
    ∃ candidate, decomposeContractId contractId = some candidate ∧
      candidate.underlyingSecurityId = result.underlyingSecurityId ∧
      ∃ contract ∈ result.contracts,
        contract.expiration = candidate.expiration ∧ contract.strike = candidate.strike

theorem resolves_iff (made : BuiltFrom result overlay)
    (same : overlay.underlyingSecurityId = result.underlyingSecurityId) :
    (∃ contract, overlay.contract contractId = .ok contract) ↔ Resolves result contractId := by
  rw [RealOptionOverlay.contract, made.contracts, made.ladders, made.expiryWindows, same]
  cases listed : contractOf result.contracts contractId with
  | some master =>
    exact ⟨fun _ => .inl ⟨master, (contractOf_eq_some_iff result).mp listed⟩,
      fun _ => ⟨master, rfl⟩⟩
  | none =>
    have unlisted : ¬ ∃ contract ∈ result.contracts, contract.contractId = contractId := by
      rintro ⟨contract, member⟩
      rw [(contractOf_eq_some_iff result).mpr member] at listed
      cases listed
    rw [Resolves, or_iff_right unlisted]
    cases read : decomposeContractId contractId with
    | none => simp
    | some candidate =>
      simp only [Option.some.injEq, exists_eq_left']
      by_cases foreign : candidate.underlyingSecurityId = result.underlyingSecurityId
      · rw [if_neg (not_not.mpr foreign)]
        cases ladder : ladderOf result.contracts candidate.expiration with
        | none =>
          have bare : ¬ ∃ contract ∈ result.contracts,
              contract.expiration = candidate.expiration := by
            rw [← ladderOf_isSome_iff, ladder]
            exact Bool.false_ne_true
          have unresolved : ¬ ∃ contract ∈ result.contracts,
              contract.expiration = candidate.expiration ∧
                contract.strike = candidate.strike :=
            fun ⟨contract, member, expires, _⟩ => bare ⟨contract, member, expires⟩
          simp [foreign, unresolved]
        | some strikes =>
          have windowed := (windowOf_isSome_iff result).mpr (by rw [ladder]; rfl)
          obtain ⟨window, found⟩ := Option.isSome_iff_exists.mp windowed
          rw [found]
          simp only [foreign, true_and, ← ladderOf_eq_some result ladder]
          split <;> simp_all
      · simp [foreign]

/-- The master gives an expiry to a contract of the file. -/
def LiveIn (result : CboeEodParseResult) (file : OptionDayFile) (expiration : ℤ) : Prop :=
  ∃ entry ∈ file.entries, ∃ contract ∈ result.contracts,
    contract.contractId = entry.contractId ∧ contract.expiration = expiration

/-- A contract of the master, whenever it was seen, under an expiry that is live in the file. -/
def ListedUnder (result : CboeEodParseResult) (file : OptionDayFile) (contract : OptionContract) :
    Prop :=
  contract ∈ result.contracts ∧ LiveIn result file contract.expiration

theorem gridIds_of_visible (made : BuiltFrom result overlay)
    (visible : VisibleAt wall result asOf session) (found : (session, file) ∈ result.dayFiles) :
    ∃ ids, gridIds overlay result.underlyingSecurityId session = .ok ids ∧
      ∀ contractId, contractId ∈ ids ↔ ∃ contract, ListedUnder result file contract ∧
        ∃ callPut, contractId = contractIdOf result.underlyingSecurityId contract.expiration callPut
          contract.strike := by
  have same := underlying_of_visible made visible
  have ladder : ∀ expiration ∈ expiriesOf result.contracts file,
      ∃ strikes, overlay.ladderFor result.underlyingSecurityId expiration = .ok strikes ∧
        ladderOf result.contracts expiration = some strikes := by
    intro expiration live
    obtain ⟨_, _, contract, listed, _, expires⟩ := (mem_expiriesOf result).mp live
    obtain ⟨strikes, laddered⟩ := Option.isSome_iff_exists.mp
      ((ladderOf_isSome_iff result).mpr ⟨contract, listed, expires⟩)
    refine ⟨strikes, ?_, laddered⟩
    rw [RealOptionOverlay.ladderFor, same, if_neg (not_not.mpr rfl), made.ladders, laddered]
  rw [gridIds, liveExpiriesOn_of_visible made visible found]
  obtain ⟨cells, gathered⟩ : ∃ cells, (expiriesOf result.contracts file).mapM (fun expiration => do
      let ladder ← overlay.ladderFor result.underlyingSecurityId expiration
      return ladder.flatMap fun strike =>
        [contractIdOf result.underlyingSecurityId expiration .call strike,
          contractIdOf result.underlyingSecurityId expiration .put strike]) = .ok cells := by
    apply exists_mapM
    intro expiration live
    obtain ⟨strikes, laddered, _⟩ := ladder expiration live
    exact ⟨_, bind_eq_ok.mpr ⟨strikes, laddered, rfl⟩⟩
  refine ⟨cells.flatten, bind_eq_ok.mpr ⟨cells, gathered, rfl⟩, ?_⟩
  have each : cells = (expiriesOf result.contracts file).map fun expiration =>
      ((ladderOf result.contracts expiration).getD []).flatMap fun strike =>
        [contractIdOf result.underlyingSecurityId expiration .call strike,
          contractIdOf result.underlyingSecurityId expiration .put strike] := by
    rw [← map_eq_of_mapM gathered, List.map_id]
    intro expiration live value read
    obtain ⟨strikes, laddered, listed⟩ := ladder expiration live
    obtain ⟨strikes', laddered', made'⟩ := bind_eq_ok.mp read
    cases laddered.symm.trans laddered'
    cases made'
    rw [listed]
    rfl
  intro contractId
  rw [each, List.mem_flatten]
  constructor
  · rintro ⟨ids, member, inside⟩
    obtain ⟨expiration, live, rfl⟩ := List.mem_map.mp member
    obtain ⟨strikes, _, listed⟩ := ladder expiration live
    rw [listed, Option.getD_some, List.mem_flatMap] at inside
    obtain ⟨strike, rung, side⟩ := inside
    obtain ⟨contract, inMaster, rfl, rfl⟩ := (ladderOf_eq_some result listed).mp rung
    refine ⟨contract, ⟨inMaster, (mem_expiriesOf result).mp live⟩, ?_⟩
    rcases List.mem_cons.mp side with call | put
    · exact ⟨.call, call⟩
    · exact ⟨.put, List.mem_singleton.mp put⟩
  · rintro ⟨contract, ⟨inMaster, live⟩, callPut, rfl⟩
    have live' := (mem_expiriesOf result).mpr live
    obtain ⟨strikes, _, listed⟩ := ladder contract.expiration live'
    refine ⟨_, List.mem_map_of_mem live', ?_⟩
    rw [listed, Option.getD_some, List.mem_flatMap]
    refine ⟨contract.strike,
      (ladderOf_eq_some result listed).mpr ⟨contract, inMaster, rfl, rfl⟩, ?_⟩
    cases callPut with
    | call => exact List.mem_cons_self
    | put => exact List.mem_cons_of_mem _ List.mem_cons_self

/-- Both sides of every strike of the grid resolve. -/
def Resolved (result : CboeEodParseResult) (file : OptionDayFile) : Prop :=
  ∀ contract, ListedUnder result file contract → ∀ callPut,
    Resolves result (contractIdOf result.underlyingSecurityId contract.expiration callPut
      contract.strike)

/-- The ids of the contracts in an answer, or nothing when it raises. -/
def idsOf (answer : Except OverlayError (List OptionContract)) : Option (Set String) :=
  answer.toOption.map fun contracts => {contractId | ∃ contract ∈ contracts,
    contract.contractId = contractId}

/-- The ids of the grid under the live expiries of a file. -/
def gridOf (result : CboeEodParseResult) (file : OptionDayFile) : Set String :=
  {contractId | ∃ contract, ListedUnder result file contract ∧ ∃ callPut, contractId =
    contractIdOf result.underlyingSecurityId contract.expiration callPut contract.strike}

theorem idsOf_contractsAsOf (made : BuiltFrom result overlay)
    (visible : VisibleAt wall result asOf session) (found : (session, file) ∈ result.dayFiles)
    (ids : Set String) :
    idsOf (contractsAsOf wall overlay result.underlyingSecurityId asOf) = some ids ↔
      Resolved result file ∧ ids = gridOf result file := by
  have same := underlying_of_visible made visible
  have chosen := chosen_of_visible made visible
  obtain ⟨grid, gathered, cells⟩ := gridIds_of_visible made visible found
  have answered : contractsAsOf wall overlay result.underlyingSecurityId asOf = (do
      let contracts ← grid.mapM overlay.contract
      return sortedBy (fun contract => contract.contractId.toList) contracts) := by
    rw [contractsAsOf, chosen]
    dsimp only
    rw [gathered]
    rfl
  have resolved : Resolved result file ↔
      ∀ contractId ∈ grid, ∃ contract, overlay.contract contractId = .ok contract := by
    simp only [resolves_iff made same, cells]
    constructor
    · rintro resolved _ ⟨contract, listed, callPut, rfl⟩
      exact resolved contract listed callPut
    · intro all contract listed callPut
      exact all _ ⟨contract, listed, callPut, rfl⟩
  have members : ∀ contracts, grid.mapM overlay.contract = .ok contracts →
      {contractId | ∃ contract ∈ sortedBy (fun contract => contract.contractId.toList) contracts,
        contract.contractId = contractId} = gridOf result file := by
    intro contracts read
    have named : contracts.map OptionContract.contractId = grid.map id :=
      map_eq_of_mapM read fun contractId _ contract found => (contract_eq_ok made same found).1
    rw [List.map_id] at named
    ext contractId
    simp [gridOf, ← cells, ← named]
  rw [idsOf, Option.map_eq_some_iff]
  constructor
  · rintro ⟨contracts, returned, rfl⟩
    rw [answered] at returned
    obtain ⟨raw, read, same⟩ := bind_eq_ok.mp (mem_toOption.mp returned)
    cases same
    refine ⟨resolved.mpr fun contractId member => ?_, members raw read⟩
    obtain ⟨contract, _, found⟩ := exists_right_of_forall₂ (mapM_eq_ok.mp read) member
    exact ⟨contract, found⟩
  · rintro ⟨all, rfl⟩
    obtain ⟨raw, read⟩ := exists_mapM (resolved.mp all)
    refine ⟨_, ?_, members raw read⟩
    rw [answered, read]
    rfl

theorem visibleQuotesAsOf_of_visible (made : BuiltFrom result overlay)
    (visible : VisibleAt wall result asOf session) (found : (session, file) ∈ result.dayFiles) :
    visibleQuotesAsOf wall overlay contractId asOf =
      (entryOf file contractId).elim (.ok []) fun entry =>
        quotesOf { entry with contractId } realOptionsProvider
          (publicationInstant wall session) := by
  have same := underlying_of_visible made visible
  have chosen := chosen_of_visible made visible
  rw [visibleQuotesAsOf]
  cases named : overlay.contract contractId with
  | error error =>
    -- A contract with an entry is in the master.
    have absent : entryOf file contractId = none := by
      cases inside : entryOf file contractId with
      | none => rfl
      | some entry =>
        obtain ⟨member, own⟩ := mem_of_lastWith inside
        obtain ⟨contract, listed, same'⟩ := result.listed _ found entry member
        obtain ⟨contract, resolved⟩ := (resolves_iff made same).mpr
          (.inl ⟨contract, listed, same'.trans (of_decide_eq_true own)⟩)
        cases named.symm.trans resolved
    rw [absent]
    rfl
  | ok contract =>
    have ours := (contract_eq_ok made same named).2
    dsimp only
    rw [ours, chosen]
    dsimp only
    rw [entryFor_of_visible made visible found, made.quoteSource]
    cases entryOf file contractId <;> rfl

theorem visibleQuotesAsOf_of_none
    (nothing : ∀ sid, visibleFileSession wall overlay sid asOf = none) :
    visibleQuotesAsOf wall overlay contractId asOf = .ok [] := by
  rw [visibleQuotesAsOf]
  cases overlay.contract contractId with
  | error error => rfl
  | ok contract =>
    dsimp only
    rw [nothing]

end Answers

/-! ## Two captures -/

/-- Two captures of one underlying with the same file for every session that is published by an
instant. -/
structure AgreeUntil (wall : ℤ → ℤ) (limit : ℤ) (first second : CboeEodParseResult) : Prop where
  underlying : first.underlyingSecurityId = second.underlyingSecurityId
  files : ∀ session, publicationInstant wall session ≤ limit →
    fileOf first.dayFiles session = fileOf second.dayFiles session

/-- What the surfaces over two overlays answer as of an instant is the same. -/
structure SameAnswers (wall : ℤ → ℤ) (overlay overlay' : RealOptionOverlay) (asOf : ℤ) :
    Prop where
  session : ∀ sid, visibleFileSession wall overlay sid asOf =
    visibleFileSession wall overlay' sid asOf
  expiries : ∀ sid, liveExpiriesAsOf wall overlay sid asOf = liveExpiriesAsOf wall overlay' sid asOf
  entry : ∀ sid contractId, entryAsOf wall overlay sid asOf contractId =
    entryAsOf wall overlay' sid asOf contractId
  quotes : ∀ contractId, visibleQuotesAsOf wall overlay contractId asOf =
    visibleQuotesAsOf wall overlay' contractId asOf
  spot : ∀ sid, spotMidAsOf wall overlay sid asOf = spotMidAsOf wall overlay' sid asOf
  contracts : ∀ sid, idsOf (contractsAsOf wall overlay sid asOf) =
    idsOf (contractsAsOf wall overlay' sid asOf)

/-- Some strike of so many cents is listed under a live expiry of this short date. -/
def ListsCell (result : CboeEodParseResult) (file : OptionDayFile) (date : String) (cents : ℕ) :
    Prop :=
  ∃ contract, ListedUnder result file contract ∧ shortDate contract.expiration = date ∧
    strikeCents contract.strike = cents

/-- Two masters list the same under the contracts of a file: the same live expiries, and under
them the same cells, as ids write them, if these resolve. -/
structure SameListing (first second : CboeEodParseResult) (file : OptionDayFile) : Prop where
  expirations : ∀ expiration, LiveIn first file expiration ↔ LiveIn second file expiration
  resolved : Resolved first file ↔ Resolved second file
  cells : Resolved first file → ∀ date cents,
    ListsCell first file date cents ↔ ListsCell second file date cents

section Twins

variable {limit asOf session : ℤ} {first second : CboeEodParseResult}
  {overlay overlay' : RealOptionOverlay} {file : OptionDayFile}

section

variable (agree : AgreeUntil wall limit first second)

include agree

theorem AgreeUntil.symm : AgreeUntil wall limit second first :=
  ⟨agree.underlying.symm, fun session published => (agree.files session published).symm⟩

theorem AgreeUntil.captured (published : publicationInstant wall session ≤ limit)
    (captured : (session, file) ∈ first.dayFiles) : (session, file) ∈ second.dayFiles := by
  rw [← fileOf_eq_some_iff, ← agree.files session published, fileOf_eq_some_iff]
  exact captured

theorem AgreeUntil.visible (past : asOf ≤ limit) (visible : VisibleAt wall first asOf session) :
    VisibleAt wall second asOf session := by
  have published := visible.published.trans past
  obtain ⟨file, member⟩ := captured_of_visible visible
  refine ⟨List.mem_map.mpr ⟨_, agree.captured published member, rfl⟩, visible.published, ?_⟩
  intro other captured early
  obtain ⟨⟨_, file'⟩, member', rfl⟩ := List.mem_map.mp captured
  exact visible.latest _
    (List.mem_map.mpr ⟨_, agree.symm.captured (early.trans past) member', rfl⟩) early

theorem AgreeUntil.visible_iff (past : asOf ≤ limit) :
    VisibleAt wall first asOf session ↔ VisibleAt wall second asOf session :=
  ⟨agree.visible past, agree.symm.visible past⟩

/-- Both surfaces see the same session. -/
theorem AgreeUntil.sameSession (past : asOf ≤ limit) (made : BuiltFrom first overlay)
    (made' : BuiltFrom second overlay') (sid : String) :
    visibleFileSession wall overlay sid asOf = visibleFileSession wall overlay' sid asOf := by
  apply Option.ext
  intro session
  rw [visibleFileSession_eq_some made, visibleFileSession_eq_some made', agree.underlying,
    agree.visible_iff past]

end

theorem mem_gridOf (callPut : CallPut) {expiration : ℤ} {strike : ℚ} :
    contractIdOf first.underlyingSecurityId expiration callPut strike ∈ gridOf first file ↔
      ListsCell first file (shortDate expiration) (strikeCents strike) := by
  constructor
  · rintro ⟨contract, listed, callPut', same⟩
    obtain ⟨date, _, cents⟩ := contractIdOf_injective same
    exact ⟨contract, listed, date.symm, cents.symm⟩
  · rintro ⟨contract, listed, date, cents⟩
    exact ⟨contract, listed, callPut, contractIdOf_congr callPut date.symm cents.symm⟩

theorem gridOf_eq_iff (same : first.underlyingSecurityId = second.underlyingSecurityId) :
    gridOf first file = gridOf second file ↔
      ∀ date cents, ListsCell first file date cents ↔ ListsCell second file date cents := by
  constructor
  · intro equal date cents
    constructor
    · rintro ⟨contract, listed, rfl, rfl⟩
      rw [← mem_gridOf .call, ← same, ← equal]
      exact ⟨contract, listed, .call, rfl⟩
    · rintro ⟨contract, listed, rfl, rfl⟩
      rw [← mem_gridOf .call, same, equal]
      exact ⟨contract, listed, .call, rfl⟩
  · intro cells
    ext contractId
    constructor
    · rintro ⟨contract, listed, callPut, rfl⟩
      rw [same, mem_gridOf callPut, ← cells]
      exact ⟨contract, listed, rfl, rfl⟩
    · rintro ⟨contract, listed, callPut, rfl⟩
      rw [← same, mem_gridOf callPut, cells]
      exact ⟨contract, listed, rfl, rfl⟩

theorem expiriesOf_eq_iff :
    expiriesOf first.contracts file = expiriesOf second.contracts file ↔
      ∀ expiration, LiveIn first file expiration ↔ LiveIn second file expiration := by
  constructor
  · intro equal expiration
    rw [LiveIn, LiveIn, ← mem_expiriesOf first, ← mem_expiriesOf second, equal]
  · intro live
    refine sortedBy_eq_of_perm ?_ fun _ _ _ _ same => same
    rw [List.perm_ext_iff_of_nodup (List.nodup_dedup _) (List.nodup_dedup _)]
    intro expiration
    have member := live expiration
    rw [LiveIn, LiveIn, ← mem_expiriesOf first, ← mem_expiriesOf second, expiriesOf, expiriesOf,
      mem_sortedBy, mem_sortedBy] at member
    exact member

theorem sameAnswers_of_none (agree : AgreeUntil wall limit first second) (past : asOf ≤ limit)
    (made : BuiltFrom first overlay) (made' : BuiltFrom second overlay')
    (nothing : ∀ session, ¬ VisibleAt wall first asOf session) :
    SameAnswers wall overlay overlay' asOf := by
  have unseen : ∀ sid, visibleFileSession wall overlay sid asOf = none := by
    intro sid
    apply Option.eq_none_iff_forall_ne_some.mpr
    intro session chosen
    exact nothing session ((visibleFileSession_eq_some made).mp chosen).2
  have same := agree.sameSession past made made'
  have unseen' : ∀ sid, visibleFileSession wall overlay' sid asOf = none :=
    fun sid => (same sid).symm.trans (unseen sid)
  refine ⟨same, ?_, ?_, ?_, ?_, ?_⟩
  · intro sid
    rw [liveExpiriesAsOf, liveExpiriesAsOf, unseen, unseen']
  · intro sid contractId
    rw [entryAsOf, entryAsOf, unseen, unseen']
  · intro contractId
    rw [visibleQuotesAsOf_of_none unseen, visibleQuotesAsOf_of_none unseen']
  · intro sid
    rw [spotMidAsOf, spotMidAsOf, fileAsOf, fileAsOf, unseen, unseen']
  · intro sid
    rw [contractsAsOf, contractsAsOf, unseen, unseen']

theorem idsOf_eq_iff (agree : AgreeUntil wall limit first second) (past : asOf ≤ limit)
    (made : BuiltFrom first overlay) (made' : BuiltFrom second overlay')
    (visible : VisibleAt wall first asOf session) (found : (session, file) ∈ first.dayFiles) :
    idsOf (contractsAsOf wall overlay first.underlyingSecurityId asOf) =
        idsOf (contractsAsOf wall overlay' first.underlyingSecurityId asOf) ↔
      (Resolved first file ↔ Resolved second file) ∧
        (Resolved first file → gridOf first file = gridOf second file) := by
  have answer := idsOf_contractsAsOf made visible found
  have answer' := idsOf_contractsAsOf made' (agree.visible past visible)
    (agree.captured (visible.published.trans past) found)
  rw [← agree.underlying] at answer'
  constructor
  · intro same
    rw [same] at answer
    have both : ∀ ids, Resolved first file ∧ ids = gridOf first file ↔
        Resolved second file ∧ ids = gridOf second file :=
      fun ids => (answer ids).symm.trans (answer' ids)
    exact ⟨⟨fun all => ((both _).mp ⟨all, rfl⟩).1, fun all => ((both _).mpr ⟨all, rfl⟩).1⟩,
      fun all => ((both _).mp ⟨all, rfl⟩).2⟩
  · rintro ⟨resolved, grids⟩
    apply Option.ext
    intro ids
    rw [answer, answer', ← resolved]
    exact and_congr_right fun all => by rw [grids all]

theorem spotMidAsOf_of_visible (made : BuiltFrom first overlay)
    (visible : VisibleAt wall first asOf session) (found : (session, file) ∈ first.dayFiles) :
    spotMidAsOf wall overlay first.underlyingSecurityId asOf =
      .ok (roundContext (add file.underlyingBid file.underlyingAsk / 2)) := by
  have chosen := chosen_of_visible made visible
  rw [spotMidAsOf, fileAsOf, chosen]
  dsimp only
  rw [dayFile_of_visible made visible found]
  rfl

theorem sameAnswers_iff_of_visible (agree : AgreeUntil wall limit first second)
    (past : asOf ≤ limit) (made : BuiltFrom first overlay) (made' : BuiltFrom second overlay')
    (visible : VisibleAt wall first asOf session) (found : (session, file) ∈ first.dayFiles) :
    SameAnswers wall overlay overlay' asOf ↔ SameListing first second file := by
  have visible' := agree.visible past visible
  have found' := agree.captured (visible.published.trans past) found
  have same := agree.sameSession past made made'
  have chosen := chosen_of_visible made visible
  have foreign : ∀ sid, sid ≠ first.underlyingSecurityId →
      visibleFileSession wall overlay sid asOf = none := by
    intro sid other
    apply Option.eq_none_iff_forall_ne_some.mpr
    intro session chosen
    exact other ((visibleFileSession_eq_some made).mp chosen).1
  have expiries : liveExpiriesAsOf wall overlay first.underlyingSecurityId asOf =
        expiriesOf first.contracts file ∧
      liveExpiriesAsOf wall overlay' first.underlyingSecurityId asOf =
        expiriesOf second.contracts file := by
    rw [liveExpiriesAsOf, liveExpiriesAsOf, ← same, chosen]
    dsimp only
    rw [liveExpiriesOn_of_visible made visible found, agree.underlying,
      liveExpiriesOn_of_visible made' visible' found']
    exact ⟨rfl, rfl⟩
  have ids := idsOf_eq_iff agree past made made' visible found
  rw [gridOf_eq_iff agree.underlying] at ids
  constructor
  · intro answers
    have live := answers.expiries first.underlyingSecurityId
    rw [expiries.1, expiries.2, expiriesOf_eq_iff] at live
    obtain ⟨resolved, cells⟩ := ids.mp (answers.contracts first.underlyingSecurityId)
    exact ⟨live, resolved, cells⟩
  · intro listing
    refine ⟨same, ?_, ?_, ?_, ?_, ?_⟩
    · intro sid
      by_cases ours : sid = first.underlyingSecurityId
      · rw [ours, expiries.1, expiries.2]
        exact expiriesOf_eq_iff.mpr listing.expirations
      · rw [liveExpiriesAsOf, liveExpiriesAsOf, ← same, foreign sid ours]
    · intro sid contractId
      rw [entryAsOf, entryAsOf, ← same]
      by_cases ours : sid = first.underlyingSecurityId
      · rw [ours, chosen]
        dsimp only
        rw [entryFor_of_visible made visible found, agree.underlying,
          entryFor_of_visible made' visible' found']
      · rw [foreign sid ours]
    · intro contractId
      rw [visibleQuotesAsOf_of_visible made visible found,
        visibleQuotesAsOf_of_visible made' visible' found']
    · intro sid
      by_cases ours : sid = first.underlyingSecurityId
      · rw [ours, spotMidAsOf_of_visible made visible found, agree.underlying,
          spotMidAsOf_of_visible made' visible' found']
      · rw [spotMidAsOf, spotMidAsOf, fileAsOf, fileAsOf, ← same, foreign sid ours]
    · intro sid
      by_cases ours : sid = first.underlyingSecurityId
      · rw [ours]
        exact ids.mpr ⟨listing.resolved, listing.cells⟩
      · rw [contractsAsOf, contractsAsOf, ← same, foreign sid ours]

/-- **Two captures answer alike until they differ just when their masters list the same under the
contracts of every visible file.** -/
theorem same_answers_iff (agree : AgreeUntil wall limit first second)
    (built : buildRealOverlay wall first = .ok overlay)
    (built' : buildRealOverlay wall second = .ok overlay') :
    (∀ asOf, asOf ≤ limit → SameAnswers wall overlay overlay' asOf) ↔
      ∀ asOf, asOf ≤ limit → ∀ session, VisibleAt wall first asOf session →
        ∀ file, (session, file) ∈ first.dayFiles → SameListing first second file := by
  have made := builtFrom built
  have made' := builtFrom built'
  constructor
  · intro answers asOf past session visible file found
    exact (sameAnswers_iff_of_visible agree past made made' visible found).mp (answers asOf past)
  · intro listings asOf past
    by_cases seen : ∃ session, VisibleAt wall first asOf session
    · obtain ⟨session, visible⟩ := seen
      obtain ⟨file, found⟩ := captured_of_visible visible
      exact (sameAnswers_iff_of_visible agree past made made' visible found).mpr
        (listings asOf past session visible file found)
    · exact sameAnswers_of_none agree past made made' (not_exists.mp seen)

end Twins

/-! ## A strike that is first quoted later -/

/-- Nine o'clock, in tenths of days. -/
def sampleWall (date : ℤ) : ℤ :=
  10 * date + 4

/-- A call on the twentieth of March 2026, last seen on a date. -/
def sampleContract (strike : ℚ) (lastSeen : ℤ) : OptionContract where
  contractId := contractIdOf "SPY" 20532 .call strike
  optionRoot := "SPY"
  underlyingSecurityId := "SPY"
  expiration := 20532
  strike := strike
  callPut := .call
  listingStart := 20514
  listingEnd := lastSeen

def sampleEntry (session : ℤ) (strike : ℚ) : OptionChainEntry where
  contractId := contractIdOf "SPY" 20532 .call strike
  quote1545 := none
  quoteEod := ⟨10 * session, 1, 2, 10, 10⟩
  openInterest := 100
  sameDayVolume := 10
  absDelta := 1 / 2
  quoteCondition := "regular"

def sampleFile (session : ℤ) (strikes : List ℚ) : OptionDayFile where
  underlyingSecurityId := "SPY"
  session := session
  receivedAt := 10 * (session + 1) + 4
  underlyingBid := 100
  underlyingAsk := 101
  entries := strikes.map (sampleEntry session)

/-- The capture of a Monday with one strike. -/
def mondayCapture : CboeEodParseResult where
  sourceSha256 := "monday"
  underlyingSecurityId := "SPY"
  dayFiles := [(20514, sampleFile 20514 [100])]
  contracts := [sampleContract 100 20514]
  sessions_nodup := by simp
  contracts_nodup := by simp
  ofUnderlying := by simp [sampleFile]
  named := by simp [sampleContract]
  listed := by simp [sampleFile, sampleEntry, sampleContract]

/-- The Tuesday after it quotes the same strike. -/
def quietCapture : CboeEodParseResult where
  sourceSha256 := "quiet"
  underlyingSecurityId := "SPY"
  dayFiles := [(20514, sampleFile 20514 [100]), (20515, sampleFile 20515 [100])]
  contracts := [sampleContract 100 20515]
  sessions_nodup := by simp
  contracts_nodup := by simp
  ofUnderlying := by simp [sampleFile]
  named := by simp [sampleContract]
  listed := by simp [sampleFile, sampleEntry, sampleContract]

theorem sampleStrikes_distinct :
    contractIdOf "SPY" 20532 .call 100 ≠ contractIdOf "SPY" 20532 .call 105 := by
  decide +kernel

/-- The Tuesday after it quotes another strike. -/
def widerCapture : CboeEodParseResult where
  sourceSha256 := "wider"
  underlyingSecurityId := "SPY"
  dayFiles := [(20514, sampleFile 20514 [100]), (20515, sampleFile 20515 [105])]
  contracts := [sampleContract 100 20514, sampleContract 105 20515]
  sessions_nodup := by simp
  contracts_nodup := by simp [sampleContract, sampleStrikes_distinct]
  ofUnderlying := by simp [sampleFile]
  named := by simp [sampleContract]
  listed := by simp [sampleFile, sampleEntry, sampleContract]

theorem exists_overlay (result : CboeEodParseResult)
    (returns : (buildRealOverlay sampleWall result).toOption.isSome) :
    ∃ overlay, buildRealOverlay sampleWall result = .ok overlay := by
  cases built : buildRealOverlay sampleWall result with
  | error error =>
    rw [built] at returns
    cases returns
  | ok overlay => exact ⟨overlay, rfl⟩

theorem lt_nextTradingSession (session : ℤ) : session < nextTradingSession session := by
  rw [nextTradingSession]
  split
  · omega
  · split <;> omega

theorem fileOf_tuesday {file later : OptionDayFile} {session : ℤ}
    (published : publicationInstant sampleWall session ≤ 205154) :
    fileOf [(20514, file)] session = fileOf [(20514, file), (20515, later)] session := by
  have early := lt_nextTradingSession session
  rw [publicationInstant, sampleWall] at published
  have unpublished : ¬ (20515 : ℤ) = session := by
    omega
  simp [fileOf, lastWith, unpublished]

theorem quiet_agrees : AgreeUntil sampleWall 205154 mondayCapture quietCapture :=
  ⟨rfl, fun _ published => fileOf_tuesday published⟩

theorem wider_agrees : AgreeUntil sampleWall 205154 mondayCapture widerCapture :=
  ⟨rfl, fun _ published => fileOf_tuesday published⟩

/-- The same strikes are listed, although until another session. -/
theorem quiet_sameListing (file : OptionDayFile) : SameListing mondayCapture quietCapture file := by
  have live : ∀ expiration, LiveIn mondayCapture file expiration ↔
      LiveIn quietCapture file expiration := by
    intro expiration
    simp [LiveIn, mondayCapture, quietCapture, sampleContract]
  have resolves : ∀ contractId, Resolves mondayCapture contractId ↔
      Resolves quietCapture contractId := by
    intro contractId
    simp [Resolves, mondayCapture, quietCapture, sampleContract]
  have listed : ∀ contract, ListedUnder mondayCapture file contract →
      ListedUnder quietCapture file { contract with listingEnd := 20515 } := by
    rintro contract ⟨member, isLive⟩
    refine ⟨?_, (live _).mp isLive⟩
    rw [mondayCapture, List.mem_singleton] at member
    rw [member]
    exact List.mem_singleton_self _
  have listed' : ∀ contract, ListedUnder quietCapture file contract →
      ListedUnder mondayCapture file { contract with listingEnd := 20514 } := by
    rintro contract ⟨member, isLive⟩
    refine ⟨?_, (live _).mpr isLive⟩
    rw [quietCapture, List.mem_singleton] at member
    rw [member]
    exact List.mem_singleton_self _
  refine ⟨live, ?_, ?_⟩
  · constructor
    · intro all contract isListed callPut
      exact (resolves _).mp (all _ (listed' contract isListed) callPut)
    · intro all contract isListed callPut
      exact (resolves _).mpr (all _ (listed contract isListed) callPut)
  · intro _ date cents
    constructor
    · rintro ⟨contract, isListed, dated, priced⟩
      exact ⟨_, listed contract isListed, dated, priced⟩
    · rintro ⟨contract, isListed, dated, priced⟩
      exact ⟨_, listed' contract isListed, dated, priced⟩

theorem same_answers_iff_sample :
    ∃ overlay overlay', buildRealOverlay sampleWall mondayCapture = .ok overlay ∧
      buildRealOverlay sampleWall quietCapture = .ok overlay' ∧
      ∀ asOf, asOf ≤ 205154 → SameAnswers sampleWall overlay overlay' asOf := by
  obtain ⟨overlay, built⟩ := exists_overlay mondayCapture (by decide +kernel)
  obtain ⟨overlay', built'⟩ := exists_overlay quietCapture (by decide +kernel)
  exact ⟨overlay, overlay', built, built', (same_answers_iff quiet_agrees built built').mpr
    fun _ _ _ _ file _ => quiet_sameListing file⟩

/-- The ids that a capture answers on Tuesday morning. -/
def tuesdayIds (result : CboeEodParseResult) : Option (List String) :=
  (buildRealOverlay sampleWall result).toOption.bind fun overlay =>
    (contractsAsOf sampleWall overlay "SPY" 205154).toOption.map
      (List.map OptionContract.contractId)

theorem idsOf_tuesday {result : CboeEodParseResult} {overlay : RealOptionOverlay}
    {ids : List String} (built : buildRealOverlay sampleWall result = .ok overlay)
    (answered : tuesdayIds result = some ids) :
    idsOf (contractsAsOf sampleWall overlay "SPY" 205154) =
      some {contractId | contractId ∈ ids} := by
  rw [tuesdayIds, built] at answered
  obtain ⟨contracts, returned, rfl⟩ := Option.map_eq_some_iff.mp answered
  rw [idsOf, returned, Option.map_some]
  simp only [List.mem_map]

/-- The strike of Tuesday is in the chain before the file of Tuesday is published. -/
theorem later_strike_listed :
    AgreeUntil sampleWall 205154 mondayCapture widerCapture ∧
      ∃ overlay overlay', buildRealOverlay sampleWall mondayCapture = .ok overlay ∧
        buildRealOverlay sampleWall widerCapture = .ok overlay' ∧
        ¬ SameAnswers sampleWall overlay overlay' 205154 := by
  obtain ⟨overlay, built⟩ := exists_overlay mondayCapture (by decide +kernel)
  obtain ⟨overlay', built'⟩ := exists_overlay widerCapture (by decide +kernel)
  refine ⟨wider_agrees, overlay, overlay', built, built', ?_⟩
  intro answers
  have monday : tuesdayIds mondayCapture = some [contractIdOf "SPY" 20532 .call 100,
      contractIdOf "SPY" 20532 .put 100] := by
    decide +kernel
  have wider : tuesdayIds widerCapture = some [contractIdOf "SPY" 20532 .call 100,
      contractIdOf "SPY" 20532 .call 105, contractIdOf "SPY" 20532 .put 100,
      contractIdOf "SPY" 20532 .put 105] := by
    decide +kernel
  have same := answers.contracts "SPY"
  rw [idsOf_tuesday built monday, idsOf_tuesday built' wider, Option.some.injEq] at same
  have listed : contractIdOf "SPY" 20532 .call 105 ∈ {contractId | contractId ∈
      [contractIdOf "SPY" 20532 .call 100, contractIdOf "SPY" 20532 .put 100]} := by
    rw [same]
    exact List.mem_cons_of_mem _ List.mem_cons_self
  exact absurd listed (by decide +kernel :
    contractIdOf "SPY" 20532 .call 105 ∉
      [contractIdOf "SPY" 20532 .call 100, contractIdOf "SPY" 20532 .put 100])

end TreeOptions.RealOptions
