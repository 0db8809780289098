import TreeOptions.Family.Ledger

/-!
# An assertion is used once

A published entry stays until it is pruned, so an assertion is published once as long as no
verifier comes to publish it after its entry was pruned (`single_use`). Entries are pruned
only when the assertion has expired for some time.
-/

set_option autoImplicit false

namespace TreeOptions.Family

variable {env : Environment} {state next : LedgerState}

/-! ## The invariant -/

/-- The request is bound to claims that the key holder signed. -/
def Accepted.Signed (env : Environment) (signed : List (List UInt8 × List Char))
    (accepted : Accepted) : Prop :=
  Bound env accepted.request accepted.config accepted.now accepted.actor accepted.claims ∧
    ∃ payload, (accepted.config.key, payload) ∈ signed ∧
      payloadClaims payload = some accepted.claims

/-- An assertion is returned for once, and each actor is bound to what was signed. -/
structure SingleUse (env : Environment) (state : LedgerState) : Prop where
  once : (state.returned.map fun accepted => accepted.claims.jti).Nodup
  signed : ∀ accepted ∈ state.returned, accepted.Signed env state.signed

/-- The assertion was used. -/
def Seen (entries : Directory String AssertionSeen) (pruned : List String) (jti : String) : Prop :=
  (entries.get jti).isSome ∨ jti ∈ pruned

structure LedgerKept (env : Environment) (state : LedgerState) : Prop where
  publishedSeen : ∀ id verifying, state.verifying.get id = some verifying → verifying.published →
    Seen state.entries state.pruned verifying.accepted.claims.jti
  returnedSeen : ∀ accepted ∈ state.returned,
    Seen state.entries state.pruned accepted.claims.jti
  apart : ∀ id verifying, state.verifying.get id = some verifying → verifying.published →
    ∀ accepted ∈ state.returned, accepted.claims.jti ≠ verifying.accepted.claims.jti
  alone : ∀ first second one two, state.verifying.get first = some one →
    state.verifying.get second = some two → one.published → two.published →
    one.accepted.claims.jti = two.accepted.claims.jti → first = second
  acceptedSigned : ∀ id verifying, state.verifying.get id = some verifying →
    verifying.accepted.Signed env state.signed
  once : (state.returned.map fun accepted => accepted.claims.jti).Nodup
  returnedSigned : ∀ accepted ∈ state.returned, accepted.Signed env state.signed

theorem Seen.write {entries : Directory String AssertionSeen} {pruned : List String}
    {jti name : String} {entry : AssertionSeen} (seen : Seen entries pruned jti) :
    Seen (entries.write name entry) pruned jti :=
  seen.imp_left Directory.isSome_get_write

theorem Seen.remove {entries : Directory String AssertionSeen} {pruned : List String}
    {jti name : String} (seen : Seen entries pruned jti) :
    Seen (entries.remove name) (name :: pruned) jti := by
  rcases seen with present | gone
  · by_cases same : jti = name
    · exact .inr (same ▸ List.mem_cons_self)
    · refine .inl ?_
      rw [Directory.get_remove, if_neg same]
      exact present
  · exact .inr (List.mem_cons_of_mem name gone)

variable {signed : List (List UInt8 × List Char)}

theorem Accepted.Signed.mono {more : List (List UInt8 × List Char)} {accepted : Accepted}
    (isSigned : accepted.Signed env signed) (subset : signed ⊆ more) :
    accepted.Signed env more := by
  obtain ⟨bound, payload, isMember, isClaims⟩ := isSigned
  exact ⟨bound, payload, subset isMember, isClaims⟩

/-! ## Single operations -/

namespace LedgerKept

theorem signed_more (kept : LedgerKept env state) (pair : List UInt8 × List Char) :
    LedgerKept env { state with signed := pair :: state.signed } :=
  { kept with
    acceptedSigned := fun id verifying found =>
      (kept.acceptedSigned id verifying found).mono (List.subset_cons_self _ _)
    returnedSigned := fun accepted isMember =>
      (kept.returnedSigned accepted isMember).mono (List.subset_cons_self _ _) }

theorem ended (kept : LedgerKept env state) (id : ℕ) :
    LedgerKept env { state with verifying := state.verifying.remove id } :=
  { kept with
    publishedSeen := fun other verifying found =>
      kept.publishedSeen other verifying (Directory.of_get_remove found).2
    apart := fun other verifying found =>
      kept.apart other verifying (Directory.of_get_remove found).2
    alone := fun first second one two isFirst isSecond =>
      kept.alone first second one two (Directory.of_get_remove isFirst).2
        (Directory.of_get_remove isSecond).2
    acceptedSigned := fun other verifying found =>
      kept.acceptedSigned other verifying (Directory.of_get_remove found).2 }

variable {verifying : Verifying} {id : ℕ}

section

variable (kept : LedgerKept env state)

include kept

theorem unpublished (isSigned : verifying.accepted.Signed env state.signed)
    (not : ¬ verifying.published) :
    LedgerKept env { state with verifying := state.verifying.write id verifying } := by
  have old : ∀ other found, (state.verifying.write id verifying).get other = some found →
      found.published → state.verifying.get other = some found := by
    intro other found isFound published
    rcases Directory.of_get_write isFound with ⟨-, rfl⟩ | isFound
    · exact absurd published not
    · exact isFound
  refine { kept with publishedSeen := ?_, apart := ?_, alone := ?_, acceptedSigned := ?_ }
  · intro other found isFound published
    exact kept.publishedSeen other found (old other found isFound published) published
  · intro other found isFound published
    exact kept.apart other found (old other found isFound published) published
  · intro first second one two isFirst isSecond published published'
    exact kept.alone first second one two (old first one isFirst published)
      (old second two isSecond published') published published'
  · intro other found isFound
    rcases Directory.of_get_write isFound with ⟨-, rfl⟩ | isFound
    · exact isSigned
    · exact kept.acceptedSigned other found isFound

/-- A verifier whose assertion is published takes the place of one. -/
theorem republished {before after : Verifying} (isBefore : state.verifying.get id = some before)
    (published : before.published) (same : after.accepted = before.accepted) :
    LedgerKept env { state with verifying := state.verifying.write id after } := by
  have old : ∀ other found, (state.verifying.write id after).get other = some found →
      found.published → ∃ earlier, state.verifying.get other = some earlier ∧ earlier.published ∧
        earlier.accepted = found.accepted := by
    intro other found isFound published'
    rcases Directory.of_get_write isFound with ⟨rfl, rfl⟩ | isFound
    · exact ⟨before, isBefore, published, same.symm⟩
    · exact ⟨found, isFound, published', rfl⟩
  refine { kept with publishedSeen := ?_, apart := ?_, alone := ?_, acceptedSigned := ?_ }
  · intro other found isFound published'
    obtain ⟨earlier, isEarlier, wasPublished, sameAccepted⟩ := old other found isFound published'
    rw [← sameAccepted]
    exact kept.publishedSeen other earlier isEarlier wasPublished
  · intro other found isFound published'
    obtain ⟨earlier, isEarlier, wasPublished, sameAccepted⟩ := old other found isFound published'
    rw [← sameAccepted]
    exact kept.apart other earlier isEarlier wasPublished
  · intro first second one two isFirst isSecond published' published'' sameJti
    obtain ⟨earlier, isEarlier, wasPublished, sameOne⟩ := old first one isFirst published'
    obtain ⟨earlier', isEarlier', wasPublished', sameTwo⟩ := old second two isSecond published''
    rw [← sameOne, ← sameTwo] at sameJti
    exact kept.alone first second earlier earlier' isEarlier isEarlier' wasPublished wasPublished'
      sameJti
  · intro other found isFound
    rcases Directory.of_get_write isFound with ⟨-, rfl⟩ | isFound
    · rw [same]
      exact kept.acceptedSigned id before isBefore
    · exact kept.acceptedSigned other found isFound

/-- **An assertion is published that was not seen.** -/
theorem linked {entry : AssertionSeen} (isVerifying : state.verifying.get id = some verifying)
    (unseen : ¬ Seen state.entries state.pruned verifying.accepted.claims.jti) :
    LedgerKept env { state with
      entries := state.entries.write verifying.accepted.claims.jti entry
      verifying := state.verifying.write id { verifying with phase := .linked } } := by
  -- no verifier that has published, and no returned actor, is for this assertion
  have fresh : ∀ other found, state.verifying.get other = some found → found.published →
      found.accepted.claims.jti ≠ verifying.accepted.claims.jti := by
    intro other found isFound published same
    have seen := kept.publishedSeen other found isFound published
    rw [same] at seen
    exact unseen seen
  refine { kept with
    publishedSeen := ?_, returnedSeen := ?_, apart := ?_, alone := ?_, acceptedSigned := ?_ }
  · intro other found isFound published
    rcases Directory.of_get_write isFound with ⟨-, rfl⟩ | isFound
    · refine .inl ?_
      rw [Directory.get_write_self]
      rfl
    · exact (kept.publishedSeen other found isFound published).write
  · intro accepted isMember
    exact (kept.returnedSeen accepted isMember).write
  · intro other found isFound published accepted isMember same
    rcases Directory.of_get_write isFound with ⟨-, rfl⟩ | isFound
    · have seen := kept.returnedSeen accepted isMember
      rw [same] at seen
      exact unseen seen
    · exact kept.apart other found isFound published accepted isMember same
  · intro first second one two isFirst isSecond published published' same
    rcases Directory.of_get_write isFirst with ⟨rfl, rfl⟩ | old <;>
      rcases Directory.of_get_write isSecond with ⟨rfl, rfl⟩ | old'
    · rfl
    · exact absurd same.symm (fresh second two old' published')
    · exact absurd same (fresh first one old published)
    · exact kept.alone first second one two old old' published published' same
  · intro other found isFound
    rcases Directory.of_get_write isFound with ⟨-, rfl⟩ | isFound
    · exact kept.acceptedSigned id verifying isVerifying
    · exact kept.acceptedSigned other found isFound

/-- **The actor of a published assertion is returned.** -/
theorem synced (isVerifying : state.verifying.get id = some verifying)
    (published : verifying.published) : LedgerKept env { state with
      verifying := state.verifying.remove id
      returned := state.returned ++ [verifying.accepted] } := by
  have inNew : ∀ {accepted}, accepted ∈ state.returned ++ [verifying.accepted] →
      accepted ∈ state.returned ∨ accepted = verifying.accepted := by
    intro accepted isMember
    rcases List.mem_append.mp isMember with old | new
    · exact .inl old
    · exact .inr (List.mem_singleton.mp new)
  have kept' := kept.ended id
  refine { kept' with returnedSeen := ?_, apart := ?_, once := ?_, returnedSigned := ?_ }
  · intro accepted isMember
    rcases inNew isMember with old | rfl
    · exact kept.returnedSeen accepted old
    · exact kept.publishedSeen id verifying isVerifying published
  · intro other found isFound published' accepted isMember same
    obtain ⟨differs, before⟩ := Directory.of_get_remove isFound
    rcases inNew isMember with old | rfl
    · exact kept.apart other found before published' accepted old same
    · exact differs (kept.alone other id found verifying before isVerifying published' published
        same.symm)
  · rw [List.map_append, List.map_singleton, ← List.concat_eq_append]
    refine kept.once.concat ?_
    intro isMember
    obtain ⟨accepted, isOld, same⟩ := List.mem_map.mp isMember
    exact kept.apart id verifying isVerifying published accepted isOld same
  · intro accepted isMember
    rcases inNew isMember with old | rfl
    · exact kept.returnedSigned accepted old
    · exact kept.acceptedSigned id verifying isVerifying

theorem removed (name : String) :
    LedgerKept env { state with
      entries := state.entries.remove name
      pruned := name :: state.pruned } :=
  { kept with
    publishedSeen := fun id verifying found published =>
      (kept.publishedSeen id verifying found published).remove
    returnedSeen := fun accepted isMember => (kept.returnedSeen accepted isMember).remove }

theorem safe : SingleUse env state :=
  ⟨kept.once, kept.returnedSigned⟩

end

end LedgerKept

/-! ## Steps -/

/-- No verifier publishes an assertion whose entry was pruned. -/
def Unpruned (state : LedgerState) (action : LedgerAction) : Prop :=
  match action with
  | .link id => ∀ verifying, state.verifying.get id = some verifying →
      verifying.accepted.claims.jti ∉ state.pruned
  | _ => True

variable {id : ℕ} {config : FamilyAuthorityConfig}

/-- A verifier ends, or has accepted a request that is bound to what was signed. -/
theorem beginVerify_eq {request : RawCommandRequest}
    (taken : beginVerify env state id config request = some next) :
    next = { state with verifying := state.verifying.remove id } ∨
      ∃ accepted, accepted.Signed env state.signed ∧
        next = { state with verifying := state.verifying.write id ⟨accepted, .accepted⟩ } := by
  rw [beginVerify] at taken
  split at taken
  case isFalse => cases taken
  case isTrue unforged =>
    cases verified : verifyFamilyCommand env request config state.clock with
    | error refusal =>
      rw [verified] at taken
      exact .inl (Option.some.inj taken).symm
    | ok both =>
      obtain ⟨actor, claims⟩ := both
      rw [verified] at taken
      cases taken
      have bound := bound_of_verifyFamilyCommand verified
      obtain ⟨payload, authentic, isClaims⟩ := bound.signed
      rw [authentic, Option.all_some] at unforged
      exact .inr ⟨_, ⟨bound, payload, of_decide_eq_true unforged, isClaims⟩, rfl⟩

theorem step_verify (state : LedgerState) (id : ℕ) (config : FamilyAuthorityConfig)
    (request : RawCommandRequest) :
    (ledgerSystem env).step state (.verify id config request) =
      beginVerify env state id config request :=
  rfl

theorem beginVerify_of_accepted {request : RawCommandRequest} {payload : List Char} {actor : Actor}
    {claims : FamilyCommandClaims} (id : ℕ)
    (authentic : authenticPayload env request config = some payload)
    (signed : (config.key, payload) ∈ state.signed)
    (verified : verifyFamilyCommand env request config state.clock = .ok (actor, claims)) :
    beginVerify env state id config request =
      some { state with
        verifying := state.verifying.write id
          ⟨⟨request, config, state.clock, actor, claims⟩, .accepted⟩ } := by
  rw [beginVerify, authentic, Option.all_some, if_pos (decide_eq_true signed), verified]

theorem advance_eq {before after : Phase} (taken : advance state id before after = some next) :
    ∃ verifying, state.verifying.get id = some verifying ∧ verifying.phase = before ∧
      next = { state with
        verifying := state.verifying.write id { verifying with phase := after } } := by
  rw [advance] at taken
  split at taken
  case h_1 => cases taken
  case h_2 verifying found =>
    obtain ⟨isBefore, isNext⟩ := Option.ite_none_right_eq_some.mp taken
    exact ⟨verifying, found, isBefore, (Option.some.inj isNext).symm⟩

/-- The assertion was used and the verifier ends, or its entry is published. -/
theorem linkEntry_eq (taken : linkEntry state id = some next) :
    next = { state with verifying := state.verifying.remove id } ∨
      ∃ verifying entry, state.verifying.get id = some verifying ∧
        ¬ (state.entries.get verifying.accepted.claims.jti).isSome ∧
        entry.exp = verifying.accepted.claims.exp ∧
        next = { state with
          entries := state.entries.write verifying.accepted.claims.jti entry
          verifying := state.verifying.write id { verifying with phase := .linked } } := by
  rw [linkEntry] at taken
  split at taken
  case h_1 => cases taken
  case h_2 verifying found =>
    obtain ⟨-, isNext⟩ := Option.ite_none_right_eq_some.mp taken
    split at isNext
    case isTrue => exact .inl (Option.some.inj isNext).symm
    case isFalse absent =>
      exact .inr ⟨verifying, _, found, absent, rfl, (Option.some.inj isNext).symm⟩

theorem syncEntry_eq (taken : syncEntry state id = some next) :
    ∃ verifying, state.verifying.get id = some verifying ∧ verifying.phase = .cleaned ∧
      next = { state with
        verifying := state.verifying.remove id
        returned := state.returned ++ [verifying.accepted] } := by
  rw [syncEntry] at taken
  split at taken
  case h_1 => cases taken
  case h_2 verifying found =>
    obtain ⟨isCleaned, isNext⟩ := Option.ite_none_right_eq_some.mp taken
    exact ⟨verifying, found, isCleaned, (Option.some.inj isNext).symm⟩

theorem pruneRead_eq {readable : Bool} (taken : pruneRead state id readable = some next) :
    ∃ found pruning, state.pruning.get id = some found ∧ pruning.nowS = found.nowS ∧
      (∀ name, pruning.doomed = some name → prunable found.nowS name (state.entries.get name)) ∧
      next = { state with pruning := state.pruning.write id pruning } := by
  unfold pruneRead at taken
  split at taken
  · cases taken
  · rename_i found isFound
    split at taken
    · rename_i name rest _ _
      cases taken
      refine ⟨found, { found with names := rest, doomed := _ }, isFound, rfl, ?_, rfl⟩
      intro doomed isDoomed
      simp only at isDoomed
      split at isDoomed
      case isTrue both =>
        cases isDoomed
        exact (Bool.and_eq_true_iff.mp both).2
      case isFalse => cases isDoomed
    · cases taken

theorem pruneUnlink_eq (taken : pruneUnlink state id = some next) :
    ∃ found name pruning, state.pruning.get id = some found ∧ found.doomed = some name ∧
      pruning.doomed = none ∧ pruning.nowS = found.nowS ∧
      next = { state with
        entries := state.entries.remove name
        pruned := name :: state.pruned
        pruning := state.pruning.write id pruning } := by
  rw [pruneUnlink] at taken
  split at taken
  case h_1 => cases taken
  case h_2 pruning found =>
    split at taken
    case h_1 => cases taken
    case h_2 name isDoomed =>
      cases taken
      exact ⟨pruning, name, { pruning with doomed := none, removed := _ }, found, isDoomed, rfl,
        rfl, rfl⟩

/-- **Every operation keeps the ledger, if none publishes what was pruned.** -/
theorem kept_ledgerStep {action : LedgerAction} (kept : LedgerKept env state)
    (unpruned : Unpruned state action) (taken : ledgerStep env state action = some next) :
    LedgerKept env next := by
  cases action with
  | tick now =>
    obtain ⟨-, isNext⟩ := Option.ite_none_right_eq_some.mp taken
    cases isNext
    exact { kept with }
  | sign key payload =>
    cases taken
    exact kept.signed_more (key, payload)
  | verify id config request =>
    rcases beginVerify_eq taken with rfl | ⟨accepted, isSigned, rfl⟩
    · exact kept.ended id
    · exact kept.unpublished isSigned (by simp [Verifying.published])
  | write id =>
    obtain ⟨verifying, found, -, rfl⟩ := advance_eq taken
    exact kept.unpublished (kept.acceptedSigned id verifying found)
      (by simp [Verifying.published])
  | link id =>
    rcases linkEntry_eq taken with rfl | ⟨verifying, entry, found, absent, -, rfl⟩
    · exact kept.ended id
    · refine kept.linked found ?_
      rintro (present | gone)
      · exact absent present
      · exact unpruned verifying found gone
  | unlink id =>
    obtain ⟨verifying, found, isLinked, rfl⟩ := advance_eq taken
    exact kept.republished found (.inl isLinked) rfl
  | sync id =>
    obtain ⟨verifying, found, isCleaned, rfl⟩ := syncEntry_eq taken
    exact kept.synced found (.inr isCleaned)
  | prune id limit =>
    cases taken
    exact { kept with }
  | pruneRead id readable =>
    obtain ⟨found, pruning, -, -, -, rfl⟩ := pruneRead_eq taken
    exact { kept with }
  | pruneUnlink id =>
    obtain ⟨found, name, pruning, -, -, -, -, rfl⟩ := pruneUnlink_eq taken
    exact { kept.removed name with }

theorem kept_initial (starts : (ledgerSystem env).Initial state) : LedgerKept env state := by
  obtain ⟨clock, rfl⟩ := starts
  exact {
    publishedSeen := fun _ _ found => nomatch found
    returnedSeen := fun _ isMember => nomatch isMember
    apart := fun _ _ found => nomatch found
    alone := fun _ _ _ _ found => nomatch found
    acceptedSigned := fun _ _ found => nomatch found
    once := List.nodup_nil
    returnedSigned := fun _ isMember => nomatch isMember }

/-- **As long as no verifier publishes an assertion whose entry was pruned, an assertion is
returned for at most once, and each actor is bound to what the key holder signed.** -/
theorem single_use (env : Environment) {state : LedgerState}
    (reached : (ledgerSystem env).ReachableUnder Unpruned state) : SingleUse env state := by
  have kept : LedgerKept env state :=
    reached.invariant (fun _ => kept_initial) fun _ _ _ kept unpruned taken =>
      kept_ledgerStep kept unpruned taken
  exact kept.safe

/-- Entries are pruned by one operation alone. -/
theorem pruned_ledgerStep {action : LedgerAction} (keeps : ∀ id, action ≠ .pruneUnlink id)
    (taken : ledgerStep env state action = some next) : next.pruned = state.pruned := by
  cases action with
  | tick now =>
    obtain ⟨-, isNext⟩ := Option.ite_none_right_eq_some.mp taken
    rw [← Option.some.inj isNext]
  | sign key payload => rw [← Option.some.inj taken]
  | verify id config request =>
    rcases beginVerify_eq taken with rfl | ⟨accepted, -, rfl⟩
    · rfl
    · rfl
  | write id =>
    obtain ⟨verifying, -, -, rfl⟩ := advance_eq taken
    rfl
  | link id =>
    rcases linkEntry_eq taken with rfl | ⟨verifying, entry, -, -, -, rfl⟩
    · rfl
    · rfl
  | unlink id =>
    obtain ⟨verifying, -, -, rfl⟩ := advance_eq taken
    rfl
  | sync id =>
    obtain ⟨verifying, -, -, rfl⟩ := syncEntry_eq taken
    rfl
  | prune id limit => rw [← Option.some.inj taken, beginPrune]
  | pruneRead id readable =>
    obtain ⟨found, pruning, -, -, -, rfl⟩ := pruneRead_eq taken
    rfl
  | pruneUnlink id => exact absurd rfl (keeps id)

theorem reached_of_run {actions : List LedgerAction} {last : LedgerState}
    (keeps : ∀ action ∈ actions, ∀ id, action ≠ .pruneUnlink id)
    (reached : (ledgerSystem env).ReachableUnder Unpruned state) (nothing : state.pruned = [])
    (taken : (ledgerSystem env).run state actions = some last) :
    (ledgerSystem env).ReachableUnder Unpruned last := by
  induction actions generalizing state with
  | nil =>
    cases taken
    exact reached
  | cons action rest ih =>
    obtain ⟨next, first, tail⟩ := Option.bind_eq_some_iff.mp taken
    have unpruned : Unpruned state action := by
      cases action with
      | link id =>
        intro verifying _
        rw [nothing]
        exact List.not_mem_nil
      | _ => trivial
    refine ih (List.forall_mem_cons.mp keeps).2
      (.step reached unpruned first) ?_ tail
    rw [pruned_ledgerStep (keeps action List.mem_cons_self) first, nothing]

/-! ## Sample runs -/

def sampleKey : List UInt8 :=
  (List.range 32).map UInt8.ofNat

def sampleBody : List UInt8 :=
  Text.encode (Json.dumpsWith Json.escapeControl
    (.obj [("idempotency_key", .str "11111111-1111-4111-8111-111111111111")]))

def sampleBodySha256 : String :=
  "8f0f6d1571eb3c4def798f344571b98d8a7f1a4e1d067e132f9ac91362804ebb"

/-- An assertion for that body from second 1000 to second 1060, in the order it is signed. -/
def samplePayload : List Char :=
  Base64url.encode (Text.encode (Json.dumpsWith Json.escapeControl
    (.obj [("v", .int 2), ("sub", .str "o@a.b"), ("aud", .str "trex-command"),
      ("iat", .int 1000), ("exp", .int 1060), ("method", .str "POST"),
      ("path", .str "/api/commands"), ("ingress", .str "family"),
      ("origin", .str "https://a.b"),
      ("request_id", .str "11111111-1111-4111-8111-111111111111"),
      ("request_sha256", .str sampleBodySha256),
      ("jti", .str "00112233445566778899aabbccddeeff")])))

/-- The digests of the sample inputs. -/
def sampleEnvironment : Environment where
  sha256Hex bytes := if bytes = sampleBody then sampleBodySha256 else ""
  hmacSha256 key payload :=
    if key = sampleKey ∧ payload = samplePayload then
      [165, 200, 44, 164, 130, 59, 171, 169, 93, 184, 254, 153, 10, 147, 56, 86, 61, 85, 165, 113,
        92, 143, 18, 241, 68, 178, 203, 64, 4, 186, 59, 247]
    else []
  isLoopbackAddress host := host = "127.0.0.1"

def sampleConfig : FamilyAuthorityConfig where
  key := sampleKey
  ownerEmails := ["o@a.b"]
  origins := ["https://a.b"]
  audience := .command

def sampleRequest : RawCommandRequest where
  method := "POST"
  path := "/api/commands"
  headers name :=
    if name = familyActorHeader then
      some (String.ofList (samplePayload ++ '.' ::
        signature sampleEnvironment sampleKey samplePayload))
    else if name = "origin" then some "https://a.b"
    else if name = "host" then some "a.b"
    else none
  body := sampleBody
  peerHost := "127.0.0.1"
  requestId := "request"

theorem sampleLifetime : 1000 < 1060 ∧ 1060 ≤ 1000 + familyCommandTtlS := by
  decide

def sampleClaims : FamilyCommandClaims where
  sub := "o@a.b"
  aud := .command
  iat := 1000
  exp := 1060
  origin := "https://a.b"
  requestId := "11111111-1111-4111-8111-111111111111"
  requestSha256 := sampleBodySha256
  jti := "00112233445566778899aabbccddeeff"
  lives := sampleLifetime

def sampleActor : Actor where
  sub := "o@a.b"
  ingress := .family
  requestId := "request"
  requestSha256 := sampleBodySha256

/-- An instant in second 1000. -/
def sampleNow : ℤ :=
  1000000000

theorem sample_parses :
    payloadClaims samplePayload = some sampleClaims ∧
      tokenParts (samplePayload ++ '.' :: signature sampleEnvironment sampleKey samplePayload) =
        some (samplePayload, signature sampleEnvironment sampleKey samplePayload) ∧
      bodyKey sampleBody = some sampleClaims.requestId := by
  decide +kernel

theorem sample_payloadClaims : payloadClaims samplePayload = some sampleClaims :=
  sample_parses.1

theorem sample_tokenParts :
    tokenParts (samplePayload ++ '.' :: signature sampleEnvironment sampleKey samplePayload) =
      some (samplePayload, signature sampleEnvironment sampleKey samplePayload) :=
  sample_parses.2.1

theorem sample_token : sampleRequest.headers familyActorHeader = some (String.ofList
    (samplePayload ++ '.' :: signature sampleEnvironment sampleKey samplePayload)) := by
  simp only [sampleRequest, if_true]

theorem sample_authentic :
    authenticPayload sampleEnvironment sampleRequest sampleConfig = some samplePayload := by
  refine authenticPayload_eq_some sample_token ?_
  rw [String.toList_ofList]
  exact sample_tokenParts

theorem sample_decoded :
    decodeFamilyCommand sampleEnvironment
      (String.ofList (samplePayload ++ '.' :: signature sampleEnvironment sampleKey samplePayload))
      sampleKey = .ok sampleClaims := by
  rw [decodeFamilyCommand, String.toList_ofList, sample_tokenParts]
  simp [sample_payloadClaims]

theorem sample_bodyKey : bodyKey sampleBody = some sampleClaims.requestId :=
  sample_parses.2.2

theorem sample_verified :
    verifyFamilyCommand sampleEnvironment sampleRequest sampleConfig sampleNow =
      .ok (sampleActor, sampleClaims) := by
  have hash : sampleEnvironment.sha256Hex sampleRequest.body = sampleClaims.requestSha256 := by
    simp only [sampleEnvironment, sampleRequest, if_true]
    rfl
  obtain ⟨enabled, loopback, origin, host, lives⟩ :
      sampleConfig.enabled ∧ isLoopback sampleEnvironment sampleRequest.peerHost ∧
        sampleRequest.headers "origin" = some sampleClaims.origin ∧
        sampleRequest.headers "host" =
          some (String.ofList (sampleClaims.origin.toList.drop httpsPrefix.toList.length)) ∧
        sampleClaims.iat - familyCommandMaxSkewS ≤ wholeSeconds sampleNow ∧
          wholeSeconds sampleNow < sampleClaims.exp := by
    decide +kernel
  have verified := verifyFamilyCommand_eq_ok enabled loopback
    sample_token sample_decoded rfl lives ⟨rfl, rfl⟩ List.mem_cons_self origin host hash sample_bodyKey
    List.mem_cons_self
  rw [verified, hash]
  rfl

/-- Publish and return the actor. -/
def sampleRecord (id : ℕ) : List LedgerAction :=
  [.write id, .link id, .unlink id, .sync id]

/-- One verifier publishes only after the entry of the other was pruned. -/
def sampleLate : List LedgerAction :=
  sampleRecord 0 ++ [.tick 1066000000, .prune 0 10, .pruneRead 0 true, .pruneUnlink 0] ++
    sampleRecord 1

/-- The empty ledger in second 1000. -/
def sampleLedger : LedgerState :=
  ⟨sampleNow, [], .empty, .empty, .empty, [], []⟩

def sampleSigned : LedgerState :=
  { sampleLedger with signed := [(sampleKey, samplePayload)] }

/-- A verifier that has accepted the request. -/
def sampleVerifying : Verifying :=
  ⟨⟨sampleRequest, sampleConfig, sampleNow, sampleActor, sampleClaims⟩, .accepted⟩

def sampleAccepted : LedgerState :=
  { sampleSigned with verifying := sampleSigned.verifying.write 0 sampleVerifying }

def sampleBothAccepted : LedgerState :=
  { sampleAccepted with verifying := sampleAccepted.verifying.write 1 sampleVerifying }

theorem sample_beginVerify (state : LedgerState) (id : ℕ)
    (signed : (sampleKey, samplePayload) ∈ state.signed) (clock : state.clock = sampleNow) :
    (ledgerSystem sampleEnvironment).step state (.verify id sampleConfig sampleRequest) =
      some { state with verifying := state.verifying.write id sampleVerifying } := by
  rcases state with ⟨clock', signed', entries, verifying, pruning, pruned, returned⟩
  obtain rfl : clock' = sampleNow := clock
  rw [step_verify]
  exact beginVerify_of_accepted id sample_authentic signed sample_verified

theorem sample_reached {allowed : LedgerState → LedgerAction → Prop}
    (signs : allowed sampleLedger (.sign sampleKey samplePayload))
    (verifies : allowed sampleSigned (.verify 0 sampleConfig sampleRequest)) :
    (ledgerSystem sampleEnvironment).ReachableUnder allowed sampleAccepted := by
  have started : (ledgerSystem sampleEnvironment).ReachableUnder allowed sampleLedger :=
    .initial ⟨sampleNow, rfl⟩
  have signed : (ledgerSystem sampleEnvironment).ReachableUnder allowed sampleSigned :=
    .step started signs rfl
  exact .step signed verifies (sample_beginVerify sampleSigned 0 List.mem_cons_self rfl)

theorem single_use_of_one : ∃ state,
    (ledgerSystem sampleEnvironment).ReachableUnder Unpruned state ∧ state.returned.length = 1 ∧
      SingleUse sampleEnvironment state := by
  have accepted : (ledgerSystem sampleEnvironment).ReachableUnder Unpruned sampleAccepted :=
    sample_reached trivial trivial
  have one : ((ledgerSystem sampleEnvironment).run sampleAccepted (sampleRecord 0)).map
      (fun state => state.returned.length) = some 1 := by decide +kernel
  obtain ⟨last, taken, returned⟩ := Option.map_eq_some_iff.mp one
  have reached := reached_of_run (by simp [sampleRecord]) accepted rfl taken
  exact ⟨last, reached, returned, single_use sampleEnvironment reached⟩

/-- A verifier that publishes after the entry was pruned returns the actor a second time. -/
theorem late_verifier_reuses :
    ¬ ∀ (env : Environment) (state : LedgerState), (ledgerSystem env).Reachable state →
      SingleUse env state := by
  intro safe
  have first : (ledgerSystem sampleEnvironment).Reachable sampleAccepted :=
    sample_reached trivial trivial
  have reached : (ledgerSystem sampleEnvironment).Reachable sampleBothAccepted :=
    first.next (sample_beginVerify sampleAccepted 1 List.mem_cons_self rfl)
  have twice : ((ledgerSystem sampleEnvironment).run sampleBothAccepted sampleLate).map
      (fun state => state.returned.map fun accepted => accepted.claims.jti) =
        some [sampleClaims.jti, sampleClaims.jti] := by decide +kernel
  obtain ⟨last, taken, returned⟩ := Option.map_eq_some_iff.mp twice
  have once := (safe _ last (reached.run (fun _ _ _ => trivial) taken)).once
  rw [returned] at once
  exact absurd once (by simp)

end TreeOptions.Family
