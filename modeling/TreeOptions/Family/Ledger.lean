import Mathlib.Data.Char
import Mathlib.Data.List.Lex
import TreeOptions.Family.Assertions
import TreeOptions.Foundations.Directory
import TreeOptions.Foundations.Grouping
import TreeOptions.Foundations.TransitionSystem

/-!
# The replay ledger

Each assertion is used once: a verifier that has accepted it publishes its entry under its
id, which fails if there is one, and returns the actor after the entry is durable. Entries
are removed some time after the assertion has expired. The verifiers and the pruners of one
run directory are a system whose steps are single operations on files. A verifier reads the
clock once, before its first operation, and a pruner once, before it lists the entries.
-/

set_option autoImplicit false

namespace TreeOptions.Family

/-! ## Entries, verifiers and pruners -/

/-- `<jti>.json`: an assertion that was used. -/
structure AssertionSeen where
  jti : String
  sub : String
  aud : Audience
  requestId : String
  requestSha256 : String
  exp : ℕ
  backendRequestId : String
  seenAt : ℤ

def assertionSeenRecord (claims : FamilyCommandClaims) (backendRequestId : String)
    (seenAt : ℤ) : AssertionSeen where
  jti := claims.jti
  sub := claims.sub
  aud := claims.aud
  requestId := claims.requestId
  requestSha256 := claims.requestSha256
  exp := claims.exp
  backendRequestId := backendRequestId
  seenAt := seenAt

/-- A request that the pure verifier accepted. -/
structure Accepted where
  request : RawCommandRequest
  config : FamilyAuthorityConfig
  now : ℤ
  actor : Actor
  claims : FamilyCommandClaims

/-- The last operation of `record_assertion` that was done. -/
inductive Phase
  | accepted
  | written
  | linked
  | cleaned
deriving DecidableEq

structure Verifying where
  accepted : Accepted
  phase : Phase

/-- The entry of the assertion is published. -/
def Verifying.published (verifying : Verifying) : Prop :=
  verifying.phase = .linked ∨ verifying.phase = .cleaned

/-- `prune_assertions` between two operations: the names it has still to look at, and the
one it has decided to remove. -/
structure Pruning where
  nowS : ℤ
  names : List String
  doomed : Option String
  removed : ℕ

structure LedgerState where
  clock : ℤ
  signed : List (List UInt8 × List Char)
  entries : Directory String AssertionSeen
  verifying : Directory ℕ Verifying
  pruning : Directory ℕ Pruning
  pruned : List String
  returned : List Accepted

/-- The operations of the ledger. The process of a verifier or a pruner that takes no more
steps has failed or died. -/
inductive LedgerAction
  | tick (now : ℤ)
  | sign (key : List UInt8) (payload : List Char)
  | verify (id : ℕ) (config : FamilyAuthorityConfig) (request : RawCommandRequest)
  | write (id : ℕ)
  | link (id : ℕ)
  | unlink (id : ℕ)
  | sync (id : ℕ)
  | prune (id limit : ℕ)
  | pruneRead (id : ℕ) (readable : Bool)
  | pruneUnlink (id : ℕ)

/-! ## Steps -/

variable (env : Environment)

/-- The pure verifier, at the clock. A signature that is right is one of the key holder's. -/
def beginVerify (state : LedgerState) (id : ℕ) (config : FamilyAuthorityConfig)
    (request : RawCommandRequest) : Option LedgerState :=
  if (authenticPayload env request config).all fun payload =>
      (config.key, payload) ∈ state.signed then
    match verifyFamilyCommand env request config state.clock with
    | .error _ => some { state with verifying := state.verifying.remove id }
    | .ok (actor, claims) =>
      some { state with
        verifying := state.verifying.write id
          ⟨⟨request, config, state.clock, actor, claims⟩, .accepted⟩ }
  else none

/-- A verifier goes on after an operation. -/
def advance (state : LedgerState) (id : ℕ) (before after : Phase) : Option LedgerState :=
  match state.verifying.get id with
  | none => none
  | some verifying =>
    if verifying.phase = before then
      some { state with verifying := state.verifying.write id { verifying with phase := after } }
    else none

/-- `os.link`: exclusive, so it fails when the assertion was used. -/
def linkEntry (state : LedgerState) (id : ℕ) : Option LedgerState :=
  match state.verifying.get id with
  | none => none
  | some verifying =>
    if verifying.phase = .written then
      if (state.entries.get verifying.accepted.claims.jti).isSome then
        some { state with verifying := state.verifying.remove id }
      else
        some { state with
          entries := state.entries.write verifying.accepted.claims.jti
            (assertionSeenRecord verifying.accepted.claims verifying.accepted.request.requestId
              verifying.accepted.now)
          verifying := state.verifying.write id { verifying with phase := .linked } }
    else none

/-- The directory is synced, and the actor is returned. -/
def syncEntry (state : LedgerState) (id : ℕ) : Option LedgerState :=
  match state.verifying.get id with
  | none => none
  | some verifying =>
    if verifying.phase = .cleaned then
      some { state with
        verifying := state.verifying.remove id
        returned := state.returned ++ [verifying.accepted] }
    else none

def beginPrune (state : LedgerState) (id limit : ℕ) : LedgerState :=
  { state with
    pruning := state.pruning.write id
      ⟨wholeSeconds state.clock, (sortedBy String.toList state.entries.names).take limit, none, 0⟩ }

/-- An entry that is read, and can be removed. -/
def prunable (nowS : ℤ) (name : String) (entry : Option AssertionSeen) : Bool :=
  match entry with
  | none => false
  | some seen => seen.jti = name && decide (seen.exp + familyCommandMaxSkewS < nowS)

/-- Read the next entry, and decide on it. -/
def pruneRead (state : LedgerState) (id : ℕ) (readable : Bool) : Option LedgerState :=
  match state.pruning.get id with
  | none => none
  | some pruning =>
    match pruning.doomed, pruning.names with
    | none, name :: rest =>
      some { state with
        pruning := state.pruning.write id { pruning with
          names := rest
          doomed :=
            if readable && prunable pruning.nowS name (state.entries.get name) then some name
            else none } }
    | _, _ => none

def pruneUnlink (state : LedgerState) (id : ℕ) : Option LedgerState :=
  match state.pruning.get id with
  | none => none
  | some pruning =>
    match pruning.doomed with
    | none => none
    | some name =>
      some { state with
        entries := state.entries.remove name
        pruned := name :: state.pruned
        pruning := state.pruning.write id { pruning with
          doomed := none
          removed := pruning.removed + if (state.entries.get name).isSome then 1 else 0 } }

def ledgerStep (state : LedgerState) : LedgerAction → Option LedgerState
  | .tick now => if state.clock ≤ now then some { state with clock := now } else none
  | .sign key payload => some { state with signed := (key, payload) :: state.signed }
  | .verify id config request => beginVerify env state id config request
  | .write id => advance state id .accepted .written
  | .link id => linkEntry state id
  | .unlink id => advance state id .linked .cleaned
  | .sync id => syncEntry state id
  | .prune id limit => some (beginPrune state id limit)
  | .pruneRead id readable => pruneRead state id readable
  | .pruneUnlink id => pruneUnlink state id

/-- Any verifiers and pruners of one run directory, whose ledger is empty at first. -/
def ledgerSystem : System LedgerState LedgerAction where
  Initial state := ∃ clock, state = ⟨clock, [], .empty, .empty, .empty, [], []⟩
  step := ledgerStep env

end TreeOptions.Family
