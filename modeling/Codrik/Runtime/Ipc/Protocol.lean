import Codrik.Encoding.Base64
import Codrik.Encoding.Json
import Codrik.Runtime.Sqlite.Bundles

/-! The messages a server sends over its socket, and the frames of a final bundle
(`ipc/protocol.rs`).
-/

namespace Codrik.Runtime.Ipc

open Codrik.Encoding
open Codrik.Runtime.Sqlite

-----------------------------------------------------------------------------------------
-- Limits
-----------------------------------------------------------------------------------------

def maxFrameBytes : Nat := 1024 * 1024
def maxSubmitBytes : Nat := 256 * 1024

/-- `usize::checked_add` -/
def checkedAdd (a b : Nat) : Option Nat := if a + b < 2 ^ 64 then some (a + b) else none

/-- `usize::checked_mul` -/
def checkedMul (a b : Nat) : Option Nat := if a * b < 2 ^ 64 then some (a * b) else none

def divCeil (a b : Nat) : Nat := (a + b - 1) / b

-----------------------------------------------------------------------------------------
-- Server events
-----------------------------------------------------------------------------------------

/-- The canonical text of a UUID. -/
def uuidText (number : Nat) : String :=
  String.ofList (hexText 8 (number / 16 ^ 24) ++ '-' :: hexText 4 (number / 16 ^ 20)
    ++ '-' :: hexText 4 (number / 16 ^ 16) ++ '-' :: hexText 4 (number / 16 ^ 12)
    ++ '-' :: hexText 12 number)

theorem length_uuidText (number : Nat) : (uuidText number).toList.length = 36 := by
  simp [uuidText]

def idJson {kind : IdKind} (id : Id kind) : Json := .str (uuidText id.number)

structure FinalManifestEntry where
  deliveryId : DeliveryId
  payloadKind : String
  decodedBytes : Nat
  sha256 : String
  chunkCount : Nat
deriving DecidableEq

inductive ActivityEvent
  | modelStepStarted
  | description (description : String)
  | toolStarted (name : String)
  | toolFinished (name : String) (succeeded : Bool)
  | completed | cancelled | failed
deriving DecidableEq

inductive ProtocolErrorCode
  | invalidUtf8 | invalidJson | unsupportedVersion | invalidUuid | invalidRequest
  | zeroLengthFrame | frameTooLarge | incompleteFrame | headerTimeout | bodyTimeout | writeTimeout
deriving DecidableEq

structure RuntimeActor where
  id : ActorId
  enabled : Bool
  tools : List String
deriving DecidableEq

structure LinkIdentity where
  provider : String
  subject : String
  username : Option String
deriving DecidableEq

structure ActorDetails where
  actor : RuntimeActor
  identities : List LinkIdentity
  hasActiveWork : Bool
deriving DecidableEq

inductive ActorAdminResult
  | actors (actors : List RuntimeActor)
  | actor (details : ActorDetails) (changed : Bool)
  | tools (actorId : ActorId) (tools : List String)
  | deleted (actorId : ActorId)
deriving DecidableEq

/-- The body of a `ServerEvent`, whose version is always that of the protocol. -/
inductive ServerEvent
  | accepted (requestId : RequestId) (workItemId : WorkItemId) (sequence : Int)
  | cancelAccepted (requestId : RequestId) (cancelId : CancelId)
      (affectedRequestIds : List RequestId)
  | ackAccepted (requestId : RequestId) (bundleId : BundleId)
  | activity (requestId : RequestId) (event : ActivityEvent)
  | textDelta (requestId : RequestId) (delta : String)
  | streamGap (requestId : RequestId)
  | finalBegin (requestId : RequestId) (bundleId : BundleId) (replay : Bool)
      (manifest : List FinalManifestEntry)
  | finalChunk (requestId : RequestId) (bundleId : BundleId) (deliveryId : DeliveryId)
      (chunkIndex : Nat) (bytesBase64 : String)
  | finalEnd (requestId : RequestId) (bundleId : BundleId) (manifestSha256 : String)
  | requestError (requestId : RequestId) (code message : String)
  | protocolError (code : ProtocolErrorCode) (message : String)
  | serverShuttingDown (requestId : Option RequestId) (resumeCommand : Option String)
  | linkCodeIssued (requestId : RequestId) (code : String) (expiresAt : Int)
  | actorAdminResult (requestId : RequestId) (result : ActorAdminResult)
deriving DecidableEq

-----------------------------------------------------------------------------------------
-- JSON
-----------------------------------------------------------------------------------------

def FinalManifestEntry.toJson (entry : FinalManifestEntry) : Json :=
  .obj [("delivery_id", idJson entry.deliveryId), ("payload_kind", .str entry.payloadKind),
    ("decoded_bytes", .num entry.decodedBytes), ("sha256", .str entry.sha256),
    ("chunk_count", .num entry.chunkCount)]

def manifestJson (manifest : List FinalManifestEntry) : Json :=
  .arr (manifest.map (·.toJson))

def optionJson : Option String → Json
  | none => .null
  | some text => .str text

def artifactJson (artifact : ManagedArtifact) : Json :=
  .obj [("id", idJson artifact.id), ("managed_path", .str artifact.managedPath),
    ("display_name", .str artifact.displayName), ("media_type", .str artifact.mediaType),
    ("size", .num artifact.size), ("sha256", .str artifact.sha256),
    ("caption", optionJson artifact.caption)]

def payloadJson : FinalPayload → Json
  | .text text => .obj [("type", .str "text"), ("text", .str text)]
  | .file artifact => .obj [("type", .str "file"), ("artifact", artifactJson artifact)]
  | .terminalError code message =>
      .obj [("type", .str "terminal_error"), ("code", .str code), ("message", .str message)]

def ActivityEvent.toJson : ActivityEvent → Json
  | .modelStepStarted => .obj [("type", .str "model_step_started")]
  | .description text => .obj [("type", .str "description"), ("description", .str text)]
  | .toolStarted name => .obj [("type", .str "tool_started"), ("name", .str name)]
  | .toolFinished name succeeded =>
      .obj [("type", .str "tool_finished"), ("name", .str name), ("succeeded", .bool succeeded)]
  | .completed => .obj [("type", .str "completed")]
  | .cancelled => .obj [("type", .str "cancelled")]
  | .failed => .obj [("type", .str "failed")]

def ProtocolErrorCode.text : ProtocolErrorCode → String
  | .invalidUtf8 => "invalid_utf8"
  | .invalidJson => "invalid_json"
  | .unsupportedVersion => "unsupported_version"
  | .invalidUuid => "invalid_uuid"
  | .invalidRequest => "invalid_request"
  | .zeroLengthFrame => "zero_length_frame"
  | .frameTooLarge => "frame_too_large"
  | .incompleteFrame => "incomplete_frame"
  | .headerTimeout => "header_timeout"
  | .bodyTimeout => "body_timeout"
  | .writeTimeout => "write_timeout"

def RuntimeActor.toJson (actor : RuntimeActor) : Json :=
  .obj [("id", .str actor.id.name), ("enabled", .bool actor.enabled),
    ("tools", .arr (actor.tools.map .str))]

def LinkIdentity.toJson (identity : LinkIdentity) : Json :=
  .obj [("provider", .str identity.provider), ("subject", .str identity.subject),
    ("username", optionJson identity.username)]

def ActorAdminResult.toJson : ActorAdminResult → Json
  | .actors all => .obj [("result", .str "actors"), ("actors", .arr (all.map (·.toJson)))]
  | .actor details changed =>
      .obj [("result", .str "actor"),
        ("details", .obj [("actor", details.actor.toJson),
          ("identities", .arr (details.identities.map (·.toJson))),
          ("has_active_work", .bool details.hasActiveWork)]),
        ("changed", .bool changed)]
  | .tools actorId names =>
      .obj [("result", .str "tools"), ("actor_id", .str actorId.name),
        ("tools", .arr (names.map .str))]
  | .deleted actorId => .obj [("result", .str "deleted"), ("actor_id", .str actorId.name)]

def ServerEvent.bodyJson : ServerEvent → Json
  | .accepted requestId workItemId sequence =>
      .obj [("type", .str "accepted"), ("request_id", idJson requestId),
        ("work_item_id", idJson workItemId), ("sequence", .num sequence)]
  | .cancelAccepted requestId cancelId affectedRequestIds =>
      .obj [("type", .str "cancel_accepted"), ("request_id", idJson requestId),
        ("cancel_id", idJson cancelId),
        ("affected_request_ids", .arr (affectedRequestIds.map idJson))]
  | .ackAccepted requestId bundleId =>
      .obj [("type", .str "ack_accepted"), ("request_id", idJson requestId),
        ("bundle_id", idJson bundleId)]
  | .activity requestId event =>
      .obj [("type", .str "activity"), ("request_id", idJson requestId), ("event", event.toJson)]
  | .textDelta requestId delta =>
      .obj [("type", .str "text_delta"), ("request_id", idJson requestId), ("delta", .str delta)]
  | .streamGap requestId =>
      .obj [("type", .str "stream_gap"), ("request_id", idJson requestId)]
  | .finalBegin requestId bundleId replay manifest =>
      .obj [("type", .str "final_begin"), ("request_id", idJson requestId),
        ("bundle_id", idJson bundleId), ("replay", .bool replay),
        ("manifest", manifestJson manifest)]
  | .finalChunk requestId bundleId deliveryId chunkIndex bytesBase64 =>
      .obj [("type", .str "final_chunk"), ("request_id", idJson requestId),
        ("bundle_id", idJson bundleId), ("delivery_id", idJson deliveryId),
        ("chunk_index", .num chunkIndex), ("bytes_base64", .str bytesBase64)]
  | .finalEnd requestId bundleId manifestSha256 =>
      .obj [("type", .str "final_end"), ("request_id", idJson requestId),
        ("bundle_id", idJson bundleId), ("manifest_sha256", .str manifestSha256)]
  | .requestError requestId code message =>
      .obj [("type", .str "request_error"), ("request_id", idJson requestId),
        ("code", .str code), ("message", .str message)]
  | .protocolError code message =>
      .obj [("type", .str "protocol_error"), ("code", .str code.text), ("message", .str message)]
  | .serverShuttingDown requestId resumeCommand =>
      .obj [("type", .str "server_shutting_down"),
        ("request_id", (requestId.map idJson).getD .null),
        ("resume_command", optionJson resumeCommand)]
  | .linkCodeIssued requestId code expiresAt =>
      .obj [("type", .str "link_code_issued"), ("request_id", idJson requestId),
        ("code", .str code), ("expires_at", .num expiresAt)]
  | .actorAdminResult requestId result =>
      .obj [("type", .str "actor_admin_result"), ("request_id", idJson requestId),
        ("result", result.toJson)]

/-- An event in its envelope. -/
def ServerEvent.toJson (event : ServerEvent) : Json :=
  .obj [("version", .num 1), ("body", event.bodyJson)]

-----------------------------------------------------------------------------------------
-- Final bundles
-----------------------------------------------------------------------------------------

inductive BundleLimitError
  | deliveryCount (actual maximum : Nat)
  | textBytes (actual maximum : Nat)
  | decodedBundleBytes (actual maximum : Nat)
  | manifestBytes (actual maximum : Nat)
  | encodedFrameBytes (actual maximum : Nat)
deriving DecidableEq

structure EncodedDelivery where
  id : DeliveryId
  bytes : List UInt8
  entry : FinalManifestEntry
deriving DecidableEq

structure PreparedBundle where
  requestId : RequestId
  bundleId : BundleId
  replay : Bool
  manifest : List FinalManifestEntry
  manifestSha256 : String
  deliveries : List EncodedDelivery

/-- `slice::chunks`: pieces of the given size, the last of them shorter. -/
def chunks (size : Nat) (bytes : List UInt8) : List (List UInt8) :=
  (List.range (divCeil bytes.length size)).map (fun k => (bytes.drop (k * size)).take size)

/-- The chunks of one delivery. -/
def chunkEvents (requestId : RequestId) (bundleId : BundleId) (deliveryId : DeliveryId)
    (bytes : List UInt8) : List ServerEvent :=
  (chunks maxFinalChunkBytes bytes).mapIdx (fun chunkIndex chunk =>
    .finalChunk requestId bundleId deliveryId chunkIndex (String.ofList (Base64.encode chunk)))

def PreparedBundle.events (prepared : PreparedBundle) : List ServerEvent :=
  .finalBegin prepared.requestId prepared.bundleId prepared.replay prepared.manifest
    :: prepared.deliveries.flatMap (fun delivery =>
      chunkEvents prepared.requestId prepared.bundleId delivery.id delivery.bytes)
    ++ [.finalEnd prepared.requestId prepared.bundleId prepared.manifestSha256]

section Hashing

-- the hexadecimal text of a SHA-256 digest
variable (sha256 : List UInt8 → String)

def encodeDelivery (id : DeliveryId) (payload : FinalPayload) : EncodedDelivery :=
  let bytes := (payloadJson payload).toBytes
  { id := id
    bytes := bytes
    entry :=
      { deliveryId := id
        payloadKind := payload.kind
        decodedBytes := bytes.length
        sha256 := sha256 bytes
        chunkCount := divCeil bytes.length maxFinalChunkBytes } }

/-- The text of a text payload is itself limited. -/
def checkText : FinalPayload → Except BundleLimitError Unit
  | .text text =>
      if text.utf8ByteSize > maxBundleBytes then
        .error (.textBytes text.utf8ByteSize maxBundleBytes)
      else
        .ok ()
  | _ => .ok ()

/-- The loop of `prepare_bundle` over the deliveries. -/
def encodeDeliveries
    : Nat → List (DeliveryId × FinalPayload) → Except BundleLimitError (List EncodedDelivery)
  | _, [] => .ok []
  | decodedTotal, (id, payload) :: rest => do
      checkText payload
      let delivery := encodeDelivery sha256 id payload
      match checkedAdd decodedTotal delivery.bytes.length with
      | none => .error (.decodedBundleBytes (2 ^ 64 - 1) maxBundleBytes)
      | some decodedTotal =>
          if decodedTotal > maxBundleBytes then
            .error (.decodedBundleBytes decodedTotal maxBundleBytes)
          else do
            let others ← encodeDeliveries decodedTotal rest
            .ok (delivery :: others)

/-- Every frame stays below the frame limit. -/
def checkFrames : List ServerEvent → Except BundleLimitError Unit
  | [] => .ok ()
  | frame :: rest =>
      if frame.toJson.size ≥ maxFrameBytes then
        .error (.encodedFrameBytes frame.toJson.size (maxFrameBytes - 1))
      else
        checkFrames rest

/-- The encoded deliveries of a bundle with their manifest. -/
def assemble (bundle : ResultBundle) (replay : Bool) (encoded : List EncodedDelivery)
    : PreparedBundle where
  requestId := bundle.requestId
  bundleId := bundle.id
  replay := replay
  manifest := encoded.map (·.entry)
  manifestSha256 := sha256 (manifestJson (encoded.map (·.entry))).toBytes
  deliveries := encoded

/-- `prepare_bundle` -/
def prepareBundle (bundle : ResultBundle) (replay : Bool)
    : Except BundleLimitError PreparedBundle := do
  let count := bundle.deliveries.length
  if count = 0 ∨ count > maxBundleDeliveries then
    .error (.deliveryCount count maxBundleDeliveries)
  else do
    let encoded ← encodeDeliveries sha256 0 bundle.deliveries
    let prepared := assemble sha256 bundle replay encoded
    if (manifestJson prepared.manifest).size > maxManifestBytes then
      .error (.manifestBytes (manifestJson prepared.manifest).size maxManifestBytes)
    else do
      checkFrames prepared.events
      .ok prepared

/-- `encode_bundle` -/
def encodeBundle (bundle : ResultBundle) (replay : Bool)
    : Except BundleLimitError (List ServerEvent) := do
  let prepared ← prepareBundle sha256 bundle replay
  .ok prepared.events

end Hashing

end Codrik.Runtime.Ipc
