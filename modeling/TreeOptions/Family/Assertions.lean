import TreeOptions.Desk.Contracts
import TreeOptions.Foundations.Base64
import TreeOptions.Foundations.Checked
import TreeOptions.Foundations.Json
import TreeOptions.Foundations.Utf8

/-!
# Family command assertions

The portal signs the claims of a command: who issued it, for which audience and origin, the
key and the hash of its body, and how long it may be used. `verifyFamilyCommand` is the pure
part of the verifier. What it accepts was signed with its key, for its audience, for the
origin and the body of the request, and is in its lifetime (`bound_of_verifyFamilyCommand`).
-/

set_option autoImplicit false

namespace TreeOptions.Family

open Desk (Ingress)

def familyCommandTtlS : ℕ :=
  60

def familyCommandMaxSkewS : ℕ :=
  5

def familyCommandMethod : String :=
  "POST"

def familyCommandPath : String :=
  "/api/commands"

def familyActorHeader : String :=
  "x-family-actor"

def familyKeyBytes : ℕ :=
  32

/-- `hashlib.sha256(..).hexdigest()`, `hmac.digest` and `ipaddress.ip_address(..).is_loopback`. -/
structure Environment where
  sha256Hex : List UInt8 → String
  hmacSha256 : List UInt8 → List Char → List UInt8
  isLoopbackAddress : String → Bool

/-! ## The spelling of the claims -/

/-- Lower-case hexadecimal digits, a number of them. -/
def lowerHex (count : ℕ) (text : List Char) : Bool :=
  decide (text.length = count) &&
    text.all fun c => '0' ≤ c && c ≤ '9' || 'a' ≤ c && c ≤ 'f'

def isLowerAlphanumeric (c : Char) : Bool :=
  'a' ≤ c && c ≤ 'z' || '0' ≤ c && c ≤ '9'

/-- Labels of lower-case letters, digits and hyphens. -/
def hostLabels (labels : List (List Char)) : Bool :=
  labels.all fun label => !label.isEmpty && label.all fun c => isLowerAlphanumeric c || c = '-'

/-- A lower-case email address. -/
def ownerEmail (text : String) : Bool :=
  decide (text.toList.length ≤ 254) &&
    match text.toList.splitOn '@' with
    | [local', domain] =>
      !local'.isEmpty && (local'.all fun c => isLowerAlphanumeric c || "._%+-".toList.contains c) &&
        decide (2 ≤ (domain.splitOn '.').length) && hostLabels (domain.splitOn '.')
    | _ => false

def httpsPrefix : String :=
  "https://"

/-- A port as an origin names it. -/
def originPort (digits : List Char) : Bool :=
  match digits with
  | [] => false
  | first :: _ =>
    first ≠ '0' && decide (digits.length ≤ 5) && (digits.all fun c => '0' ≤ c && c ≤ '9') &&
      Nat.ofDigitChars 10 digits 0 ≠ 443 && decide (Nat.ofDigitChars 10 digits 0 ≤ 65535)

/-- An exact https origin. -/
def exactOrigin (text : String) : Bool :=
  httpsPrefix.toList.isPrefixOf text.toList &&
    match (text.toList.drop httpsPrefix.toList.length).splitOn ':' with
    | [host] => hostLabels (host.splitOn '.')
    | [host, port] => hostLabels (host.splitOn '.') && originPort port
    | _ => false

/-- A lower-case UUID. -/
def idempotencyKey (text : String) : Bool :=
  match text.toList.splitOn '-' with
  | [first, second, third, fourth, fifth] =>
    lowerHex 8 first && lowerHex 4 second && lowerHex 4 third && lowerHex 4 fourth &&
      lowerHex 12 fifth
  | _ => false

/-! ## Claims -/

inductive Audience
  | command
  | stagingCommand
deriving DecidableEq

def Audience.value : Audience → String
  | .command => "trex-command"
  | .stagingCommand => "trex-staging-command"

/-- The claims of an assertion. Version, method, path and ingress have one value. -/
structure FamilyCommandClaims where
  sub : String
  aud : Audience
  iat : ℕ
  exp : ℕ
  origin : String
  requestId : String
  requestSha256 : String
  jti : String
  lives : iat < exp ∧ exp ≤ iat + familyCommandTtlS

def claimOrder : List String :=
  ["v", "sub", "aud", "iat", "exp", "method", "path", "ingress", "origin", "request_id",
    "request_sha256", "jti"]

def stringOf (valid : String → Bool) : Option Json.Value → Option String
  | some (.str text) => if valid text then some text else none
  | _ => none

def secondsOf : Option Json.Value → Option ℕ
  | some (.int n) => if 0 ≤ n then some n.toNat else none
  | _ => none

def audienceOf (text : String) : Option Audience :=
  if text = Audience.command.value then some .command
  else if text = Audience.stagingCommand.value then some .stagingCommand
  else none

/-- A claim that has one value. -/
def isConstant (expected : String) : Option Json.Value → Bool
  | some (.str text) => text = expected
  | _ => false

def isVersion : Option Json.Value → Bool
  | some (.int n) => n = 2
  | _ => false

/-- Everything the claims say. -/
def FamilyCommandClaims.fields (claims : FamilyCommandClaims) :=
  ((claims.sub, claims.aud, claims.iat, claims.exp), claims.origin, claims.requestId,
    claims.requestSha256, claims.jti)

theorem FamilyCommandClaims.fields_injective : Function.Injective FamilyCommandClaims.fields := by
  rintro ⟨⟩ ⟨⟩ same
  cases same
  rfl

instance : DecidableEq FamilyCommandClaims := fun first second =>
  decidable_of_iff (first.fields = second.fields) FamilyCommandClaims.fields_injective.eq_iff

/-- Exactly the claims, each of its type. -/
def claimsOf (document : Json.Value) : Option FamilyCommandClaims :=
  match document with
  | .obj members => do
      guard (members.all fun member => claimOrder.contains member.1)
      guard (isVersion (members.lookup "v"))
      let sub ← stringOf ownerEmail (members.lookup "sub")
      let aud ← stringOf (fun _ => true) (members.lookup "aud") >>= audienceOf
      let iat ← secondsOf (members.lookup "iat")
      let exp ← secondsOf (members.lookup "exp")
      guard (isConstant familyCommandMethod (members.lookup "method"))
      guard (isConstant familyCommandPath (members.lookup "path"))
      guard (isConstant Ingress.family.name (members.lookup "ingress"))
      let origin ← stringOf exactOrigin (members.lookup "origin")
      let requestId ← stringOf idempotencyKey (members.lookup "request_id")
      let requestSha256 ← stringOf (fun text => lowerHex 64 text.toList)
        (members.lookup "request_sha256")
      let jti ← stringOf (fun text => lowerHex 32 text.toList) (members.lookup "jti")
      if lives : iat < exp ∧ exp ≤ iat + familyCommandTtlS then
        some { sub, aud, iat, exp, origin, requestId, requestSha256, jti, lives }
      else none
  | _ => none

/-! ## Strict JSON -/

mutual
/-- No object names a key twice, and no number is infinite or undefined. -/
def strictValue : Json.Value → Bool
  | .float literal => !(["NaN", "Infinity", "-Infinity"].contains literal)
  | .arr items => strictItems items
  | .obj members => decide (members.map Prod.fst).Nodup && strictMembers members
  | .null => true
  | .bool _ => true
  | .int _ => true
  | .str _ => true

def strictItems : List Json.Value → Bool
  | [] => true
  | item :: rest => strictValue item && strictItems rest

def strictMembers : List (String × Json.Value) → Bool
  | [] => true
  | (_, item) :: rest => strictValue item && strictMembers rest
end

def strictJson (data : List UInt8) : Option Json.Value := do
  let text ← Text.decodeStrict data
  (Json.loads text).filter strictValue

/-- The key of a command body. -/
def bodyKey (body : List UInt8) : Option String :=
  match strictJson body with
  | some (.obj members) =>
    match members.lookup "idempotency_key" with
    | some (.str text) => some text
    | _ => none
  | _ => none

/-! ## Requests and the verifier -/

/-- The request as it came. The backend assigned its id. -/
structure RawCommandRequest where
  method : String
  path : String
  headers : String → Option String
  body : List UInt8
  peerHost : String
  requestId : String

/-- What the verifier trusts. -/
structure FamilyAuthorityConfig where
  key : List UInt8
  ownerEmails : List String
  origins : List String
  audience : Audience

def FamilyAuthorityConfig.enabled (config : FamilyAuthorityConfig) : Bool :=
  config.key.length = familyKeyBytes && !config.ownerEmails.isEmpty && !config.origins.isEmpty

structure Actor extends Desk.Actor where
  requestId : String
  requestSha256 : String

inductive FamilyRefusal
  | familyIngressDisabled
  | wrongPeer
  | assertionMissing
  | assertionMalformed
  | assertionBadSignature
  | assertionClaimsInvalid
  | assertionWrongAudience
  | assertionNotYetValid
  | assertionExpired
  | assertionMethodMismatch
  | assertionPathMismatch
  | assertionOriginNotAllowed
  | assertionOriginMismatch
  | assertionHostMismatch
  | assertionBodyMismatch
  | assertionRequestIdMismatch
  | assertionSubNotOwner
  | assertionReplayed
  | assertionLedgerUnavailable

variable (env : Environment)

def isLoopback (host : String) : Bool :=
  host = "localhost" || env.isLoopbackAddress host

def signature (key : List UInt8) (payload : List Char) : List Char :=
  Base64url.encode (env.hmacSha256 key payload)

/-- The claims that a payload spells. -/
def payloadClaims (payload : List Char) : Option FamilyCommandClaims := do
  let bytes ← Base64url.decodeStrict payload
  let document ← strictJson bytes
  claimsOf document

/-- The payload and the signature of a token. -/
def tokenParts (token : List Char) : Option (List Char × List Char) :=
  match token.splitOn '.' with
  | [payload, signed] =>
    if Base64url.spelled payload && Base64url.spelled signed then some (payload, signed) else none
  | _ => none

/-- Signature first, then strict claims. -/
def decodeFamilyCommand (token : String) (key : List UInt8) :
    Except FamilyRefusal FamilyCommandClaims :=
  match tokenParts token.toList with
  | none => .error .assertionMalformed
  | some (payload, signed) =>
    if signature env key payload ≠ signed then .error .assertionBadSignature
    else
      match payloadClaims payload with
      | none => .error .assertionClaimsInvalid
      | some claims => .ok claims

/-- Raise the refusal where a condition is met. -/
def refuse (bad : Prop) [Decidable bad] (refusal : FamilyRefusal) : Except FamilyRefusal Unit :=
  if bad then .error refusal else .ok ()

/-- `int(now.timestamp())`. -/
def wholeSeconds (now : ℤ) : ℤ :=
  now.tdiv microseconds

def claimsToken (request : RawCommandRequest) : Except FamilyRefusal String :=
  match request.headers familyActorHeader with
  | none => .error .assertionMissing
  | some token => .ok token

/-- The pure part of the verifier. -/
def verifyFamilyCommand (request : RawCommandRequest) (config : FamilyAuthorityConfig)
    (now : ℤ) : Except FamilyRefusal (Actor × FamilyCommandClaims) := do
  refuse (¬ config.enabled) .familyIngressDisabled
  refuse (¬ isLoopback env request.peerHost) .wrongPeer
  let token ← claimsToken request
  let claims ← decodeFamilyCommand env token config.key
  refuse (claims.aud ≠ config.audience) .assertionWrongAudience
  refuse (wholeSeconds now < claims.iat - familyCommandMaxSkewS) .assertionNotYetValid
  refuse (claims.exp ≤ wholeSeconds now) .assertionExpired
  refuse (request.method ≠ familyCommandMethod) .assertionMethodMismatch
  refuse (request.path ≠ familyCommandPath) .assertionPathMismatch
  refuse (claims.origin ∉ config.origins) .assertionOriginNotAllowed
  refuse (request.headers "origin" ≠ some claims.origin) .assertionOriginMismatch
  refuse (request.headers "host" ≠
      some (String.ofList (claims.origin.toList.drop httpsPrefix.toList.length)))
    .assertionHostMismatch
  refuse (env.sha256Hex request.body ≠ claims.requestSha256) .assertionBodyMismatch
  refuse (bodyKey request.body ≠ some claims.requestId) .assertionRequestIdMismatch
  refuse (claims.sub ∉ config.ownerEmails) .assertionSubNotOwner
  .ok ({
    sub := claims.sub
    ingress := .family
    requestId := request.requestId
    requestSha256 := env.sha256Hex request.body }, claims)

/-! ## What is accepted -/

/-- The payload of the token of a request, if its signature is right. -/
def authenticPayload (request : RawCommandRequest) (config : FamilyAuthorityConfig) :
    Option (List Char) := do
  let token ← request.headers familyActorHeader
  let (payload, signed) ← tokenParts token.toList
  if signature env config.key payload = signed then some payload else none

variable {env} {request : RawCommandRequest} {config : FamilyAuthorityConfig} {now : ℤ}
  {actor : Actor} {claims : FamilyCommandClaims}

structure Bound (env : Environment) (request : RawCommandRequest) (config : FamilyAuthorityConfig)
    (now : ℤ) (actor : Actor) (claims : FamilyCommandClaims) : Prop where
  signed : ∃ payload, authenticPayload env request config = some payload ∧
    payloadClaims payload = some claims
  audience : claims.aud = config.audience
  started : claims.iat - familyCommandMaxSkewS ≤ wholeSeconds now
  unexpired : wholeSeconds now < claims.exp
  origin : request.headers "origin" = some claims.origin
  body : env.sha256Hex request.body = claims.requestSha256
  bodyHasKey : bodyKey request.body = some claims.requestId
  owner : actor.sub = claims.sub ∧ claims.sub ∈ config.ownerEmails
  actorHash : actor.requestSha256 = claims.requestSha256

variable {refusal : FamilyRefusal}

theorem of_refuse {Value : Type} {bad : Prop} [Decidable bad]
    {next : Unit → Except FamilyRefusal Value} {value : Value}
    (accepted : (refuse bad refusal >>= next) = .ok value) : ¬ bad ∧ next () = .ok value := by
  rw [refuse] at accepted
  split at accepted
  case isTrue => cases accepted
  case isFalse good => exact ⟨good, accepted⟩

theorem refuse_bind {Value : Type} {bad : Prop} [Decidable bad]
    (next : Unit → Except FamilyRefusal Value) (good : ¬ bad) :
    (refuse bad refusal >>= next) = next () := by
  rw [refuse, if_neg good]
  rfl

variable {token : String}

theorem authenticPayload_eq_some {payload : List Char}
    (isToken : request.headers familyActorHeader = some token)
    (parts : tokenParts token.toList = some (payload, signature env config.key payload)) :
    authenticPayload env request config = some payload := by
  rw [authenticPayload, isToken]
  simp [parts]

theorem authentic_of_decode (isToken : request.headers familyActorHeader = some token)
    (decoded : decodeFamilyCommand env token config.key = .ok claims) :
    ∃ payload, authenticPayload env request config = some payload ∧
      payloadClaims payload = some claims := by
  rw [decodeFamilyCommand] at decoded
  cases parts : tokenParts token.toList with
  | none =>
    rw [parts] at decoded
    cases decoded
  | some both =>
    obtain ⟨payload, signed⟩ := both
    rw [parts] at decoded
    simp only at decoded
    split at decoded
    case isTrue => cases decoded
    case isFalse right =>
      split at decoded
      case h_1 => cases decoded
      case h_2 found isClaims =>
        cases decoded
        rw [← not_not.mp right] at parts
        exact ⟨payload, authenticPayload_eq_some isToken parts, isClaims⟩

/-- **What the verifier accepts was signed with its key for this request, and has not
expired.** -/
theorem bound_of_verifyFamilyCommand
    (accepted : verifyFamilyCommand env request config now = .ok (actor, claims)) :
    Bound env request config now actor claims := by
  obtain ⟨-, accepted⟩ := of_refuse accepted
  obtain ⟨-, accepted⟩ := of_refuse accepted
  rw [claimsToken] at accepted
  split at accepted
  case h_1 => cases accepted
  case h_2 token isToken =>
    change (decodeFamilyCommand env token config.key >>= _) = _ at accepted
    obtain ⟨found, decoded, accepted⟩ := Checked.bind_eq_ok.mp accepted
    obtain ⟨audience, accepted⟩ := of_refuse accepted
    obtain ⟨started, accepted⟩ := of_refuse accepted
    obtain ⟨unexpired, accepted⟩ := of_refuse accepted
    obtain ⟨-, accepted⟩ := of_refuse accepted
    obtain ⟨-, accepted⟩ := of_refuse accepted
    obtain ⟨-, accepted⟩ := of_refuse accepted
    obtain ⟨origin, accepted⟩ := of_refuse accepted
    obtain ⟨-, accepted⟩ := of_refuse accepted
    obtain ⟨body, accepted⟩ := of_refuse accepted
    obtain ⟨bodyHasKey, accepted⟩ := of_refuse accepted
    obtain ⟨owner, accepted⟩ := of_refuse accepted
    cases accepted
    exact {
      signed := authentic_of_decode isToken decoded
      audience := not_not.mp audience
      started := Int.not_lt.mp started
      unexpired := Int.not_le.mp unexpired
      origin := not_not.mp origin
      body := not_not.mp body
      bodyHasKey := not_not.mp bodyHasKey
      owner := ⟨rfl, not_not.mp owner⟩
      actorHash := not_not.mp body }

/-- What meets every check is accepted. -/
theorem verifyFamilyCommand_eq_ok (enabled : config.enabled)
    (loopback : isLoopback env request.peerHost)
    (isToken : request.headers familyActorHeader = some token)
    (decoded : decodeFamilyCommand env token config.key = .ok claims)
    (audience : claims.aud = config.audience)
    (lives : claims.iat - familyCommandMaxSkewS ≤ wholeSeconds now ∧ wholeSeconds now < claims.exp)
    (route : request.method = familyCommandMethod ∧ request.path = familyCommandPath)
    (allowed : claims.origin ∈ config.origins)
    (origin : request.headers "origin" = some claims.origin) (host : request.headers "host" =
      some (String.ofList (claims.origin.toList.drop httpsPrefix.toList.length)))
    (body : env.sha256Hex request.body = claims.requestSha256)
    (bodyHasKey : bodyKey request.body = some claims.requestId)
    (owner : claims.sub ∈ config.ownerEmails) : verifyFamilyCommand env request config now =
      .ok ({
        sub := claims.sub
        ingress := .family
        requestId := request.requestId
        requestSha256 := env.sha256Hex request.body }, claims) := by
  have isClaimsToken : claimsToken request = .ok token := by rw [claimsToken, isToken]
  rw [verifyFamilyCommand, refuse_bind _ (not_not.mpr enabled), refuse_bind _ (not_not.mpr loopback),
    isClaimsToken]
  change (decodeFamilyCommand env token config.key >>= _) = _
  rw [decoded]
  change (refuse _ _ >>= _) = _
  rw [refuse_bind _ (not_not.mpr audience), refuse_bind _ (Int.not_lt.mpr lives.1),
    refuse_bind _ (Int.not_le.mpr lives.2), refuse_bind _ (not_not.mpr route.1),
    refuse_bind _ (not_not.mpr route.2), refuse_bind _ (not_not.mpr allowed),
    refuse_bind _ (not_not.mpr origin), refuse_bind _ (not_not.mpr host),
    refuse_bind _ (not_not.mpr body), refuse_bind _ (not_not.mpr bodyHasKey),
    refuse_bind _ (not_not.mpr owner)]

end TreeOptions.Family
