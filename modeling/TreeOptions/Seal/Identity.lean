import TreeOptions.Foundations.Json
import TreeOptions.Foundations.Text

/-!
# The identity of a sealed run

Two ids over one tuple. `sealedRunId` pins the exact checkout; `contentIdentity`
blanks the two fields that depend on the checkout, so two checkouts of the same
content share it. The ids are hashes under different domains.
-/

set_option autoImplicit false

namespace TreeOptions.Seal

def sealedRunDomain : List UInt8 :=
  Text.encode "tree-options-g4-seal-run-v1".toList

def contentIdentityDomain : List UInt8 :=
  Text.encode "tree-options-g4-content-v1".toList

/-- The full tuple a sealed run is identified by. -/
structure SealedIdentity where
  codeSha : String
  protocolHash : String
  lane1ManifestSha256 : String
  lane2ManifestSha256 : String
  calendarDecisionArtifactSha256 : String
  runnerVersion : String
  criteriaArtifactSha256 : String
  verifiedPacketSha256 : String
  deriving DecidableEq

/-- The members of the dump, in the order of their keys. -/
def SealedIdentity.modelDump (identity : SealedIdentity) : List (String × Json.Value) :=
  [("calendar_decision_artifact_sha256", .str identity.calendarDecisionArtifactSha256),
    ("code_sha", .str identity.codeSha),
    ("criteria_artifact_sha256", .str identity.criteriaArtifactSha256),
    ("lane1_manifest_sha256", .str identity.lane1ManifestSha256),
    ("lane2_manifest_sha256", .str identity.lane2ManifestSha256),
    ("protocol_hash", .str identity.protocolHash),
    ("runner_version", .str identity.runnerVersion),
    ("verified_packet_sha256", .str identity.verifiedPacketSha256)]

def SealedIdentity.canonicalBytes (identity : SealedIdentity) : List UInt8 :=
  Text.encode (Json.dumps (.obj identity.modelDump))

variable (sha256Hex : List UInt8 → String)

def sealedRunId (identity : SealedIdentity) : String :=
  sha256Hex (sealedRunDomain ++ identity.canonicalBytes)

/-- The id of the sealed content, the fields of the checkout blanked. -/
def contentIdentity (identity : SealedIdentity) : String :=
  sha256Hex (contentIdentityDomain ++
    { identity with codeSha := "", verifiedPacketSha256 := "" }.canonicalBytes)

theorem plain_modelDump (identity : SealedIdentity) : Json.Plain (.obj identity.modelDump) := by
  simp [SealedIdentity.modelDump, Json.Plain, Json.PlainMembers]

theorem SealedIdentity.modelDump_injective : Function.Injective SealedIdentity.modelDump := by
  intro first second same
  cases first
  cases second
  simp_all [SealedIdentity.modelDump]

end TreeOptions.Seal
