import Codrik.Runtime.Ipc.Protocol
import Codrik.Streaming.Arrivals

/-! The requests of a client and the frames they travel in (`ipc/protocol.rs`, `ActorAdminCommand`
of `actor_admin.rs`, `ActorId::parse_workspace_safe` of `model.rs`).
-/

namespace Codrik.Runtime

/-- `ActorId::parse_workspace_safe` -/
def ActorId.parseWorkspaceSafe (value : String) : Except String ActorId :=
  let value := trim value
  if value = "" ∨ value = "." ∨ value = ".." ∨ '/' ∈ value.toList ∨ '\\' ∈ value.toList then
    .error s!"unsafe actor id for workspace path: {value}"
  else
    .ok ⟨value⟩

end Codrik.Runtime

namespace Codrik.Runtime.Ipc

open Codrik.Encoding
open Codrik.Runtime.Sqlite
open Codrik.Streaming

-----------------------------------------------------------------------------------------
-- Requests
-----------------------------------------------------------------------------------------

def protocolVersion : Nat := 1

inductive ActorAdminCommand
  | list
  | showActor (actorId : ActorId)
  | create (actorId : ActorId)
  | enable (actorId : ActorId)
  | disable (actorId : ActorId)
  | delete (actorId : ActorId) (force : Bool)
  | toolsList (actorId : ActorId)
  | toolsGrant (actorId : ActorId) (tool : String)
  | toolsRevoke (actorId : ActorId) (tool : String)
deriving DecidableEq

inductive ClientRequestBody
  | submit (requestId : RequestId) (text : String)
  | resume (requestId : RequestId)
  | ackFinal (requestId : RequestId) (bundleId : BundleId) (deliveryIds : List DeliveryId)
  | cancel (requestId : RequestId) (cancelId : CancelId)
  | issueLinkCode (requestId : RequestId) (actorId : Option ActorId)
  | actorAdmin (requestId : RequestId) (command : ActorAdminCommand)
deriving DecidableEq

structure ClientRequest where
  version : Nat
  body : ClientRequestBody
deriving DecidableEq

/-- `ClientRequest::new` -/
def ClientRequest.new (body : ClientRequestBody) : ClientRequest := ⟨protocolVersion, body⟩

/-- `require_v1` -/
def requireV1 (version : Nat) : Except String Unit :=
  if version = protocolVersion then .ok () else .error "unsupported protocol version"

/-- The actor an administrative command names. -/
def ActorAdminCommand.actor : ActorAdminCommand → Option ActorId
  | .list => none
  | .showActor actorId | .create actorId | .enable actorId | .disable actorId
  | .delete actorId _ | .toolsList actorId | .toolsGrant actorId _ | .toolsRevoke actorId _ =>
      some actorId

/-- The actor a request names. -/
def ClientRequestBody.actor : ClientRequestBody → Option ActorId
  | .issueLinkCode _ actorId => actorId
  | .actorAdmin _ command => command.actor
  | _ => none

/-- The check of `validate_client_body` on the other fields. -/
def validateFields : ClientRequestBody → Except String Unit
  | .submit _ text =>
      if isBlank text then
        .error "submit text must contain non-whitespace content"
      else if text.utf8ByteSize > maxSubmitBytes then
        .error "submit text exceeds the UTF-8 byte limit"
      else
        .ok ()
  | .ackFinal _ _ deliveryIds =>
      if deliveryIds = [] ∨ deliveryIds.length > maxBundleDeliveries then
        .error "ack delivery count is outside the bundle limits"
      else
        .ok ()
  | .actorAdmin _ (.toolsGrant _ tool) | .actorAdmin _ (.toolsRevoke _ tool) =>
      if isBlank tool then .error "actor tool name must not be blank" else .ok ()
  | _ => .ok ()

/-- `validate_client_body` -/
def validateClientBody (body : ClientRequestBody) : Except String Unit :=
  match body.actor.map (fun actor => ActorId.parseWorkspaceSafe actor.name) with
  | some (.error _) => .error "actor_id is not workspace-safe"
  | _ => validateFields body

-----------------------------------------------------------------------------------------
-- JSON
-----------------------------------------------------------------------------------------

def ActorAdminCommand.toJson : ActorAdminCommand → Json
  | .list => .obj [("action", .str "list")]
  | .showActor actorId => .obj [("action", .str "show"), ("actor_id", .str actorId.name)]
  | .create actorId => .obj [("action", .str "create"), ("actor_id", .str actorId.name)]
  | .enable actorId => .obj [("action", .str "enable"), ("actor_id", .str actorId.name)]
  | .disable actorId => .obj [("action", .str "disable"), ("actor_id", .str actorId.name)]
  | .delete actorId force =>
      .obj [("action", .str "delete"), ("actor_id", .str actorId.name), ("force", .bool force)]
  | .toolsList actorId => .obj [("action", .str "tools_list"), ("actor_id", .str actorId.name)]
  | .toolsGrant actorId tool =>
      .obj [("action", .str "tools_grant"), ("actor_id", .str actorId.name), ("tool", .str tool)]
  | .toolsRevoke actorId tool =>
      .obj [("action", .str "tools_revoke"), ("actor_id", .str actorId.name), ("tool", .str tool)]

def ClientRequestBody.toJson : ClientRequestBody → Json
  | .submit requestId text =>
      .obj [("type", .str "submit"), ("request_id", idJson requestId), ("text", .str text)]
  | .resume requestId => .obj [("type", .str "resume"), ("request_id", idJson requestId)]
  | .ackFinal requestId bundleId deliveryIds =>
      .obj [("type", .str "ack_final"), ("request_id", idJson requestId),
        ("bundle_id", idJson bundleId), ("delivery_ids", .arr (deliveryIds.map idJson))]
  | .cancel requestId cancelId =>
      .obj [("type", .str "cancel"), ("request_id", idJson requestId),
        ("cancel_id", idJson cancelId)]
  | .issueLinkCode requestId none =>
      .obj [("type", .str "issue_link_code"), ("request_id", idJson requestId)]
  | .issueLinkCode requestId (some actorId) =>
      .obj [("type", .str "issue_link_code"), ("request_id", idJson requestId),
        ("actor_id", .str actorId.name)]
  | .actorAdmin requestId command =>
      .obj [("type", .str "actor_admin"), ("request_id", idJson requestId),
        ("command", command.toJson)]

def ClientRequest.toJson (request : ClientRequest) : Json :=
  .obj [("version", .num request.version), ("body", request.body.toJson)]

-----------------------------------------------------------------------------------------
-- Failures
-----------------------------------------------------------------------------------------

structure ProtocolFailure where
  code : ProtocolErrorCode
  message : String
deriving DecidableEq

def fail {α : Type} (code : ProtocolErrorCode) (message : String) : Except ProtocolFailure α :=
  .error ⟨code, message⟩

-----------------------------------------------------------------------------------------
-- Writing
-----------------------------------------------------------------------------------------

/-- `u32::to_be_bytes` -/
def toBeBytes (n : Nat) : List UInt8 :=
  [.ofNat (n / 2 ^ 24), .ofNat (n / 2 ^ 16), .ofNat (n / 2 ^ 8), .ofNat n]

/-- `u32::from_be_bytes` -/
def fromBeBytes (header : List UInt8) : Nat := header.foldl (fun n byte => n * 256 + byte.toNat) 0

/-- `Serialize for ClientRequest` -/
def ClientRequest.serialize (request : ClientRequest) : Except String Json := do
  requireV1 request.version
  validateClientBody request.body
  .ok request.toJson

/-- `write_json` to a peer that takes what it is sent: the bytes of the frame. -/
def writeJson (value : Except String Json) : Except ProtocolFailure (List UInt8) :=
  match value with
  | .error error => fail .invalidJson s!"failed to encode JSON frame: {error}"
  | .ok value =>
      let payload := value.toBytes
      if payload = [] then
        fail .zeroLengthFrame "zero-length frames are forbidden"
      else if payload.length > maxFrameBytes then
        fail .frameTooLarge s!"frame length {payload.length} exceeds {maxFrameBytes}"
      else
        .ok (toBeBytes payload.length ++ payload)

/-- `write_client_request` -/
def writeClientRequest (request : ClientRequest) : Except ProtocolFailure (List UInt8) :=
  writeJson request.serialize

-----------------------------------------------------------------------------------------
-- Reading
-----------------------------------------------------------------------------------------

/-- `validate_frame_length` -/
def validateFrameLength (header : List UInt8) : Except ProtocolFailure Nat :=
  let length := fromBeBytes header
  if length = 0 then
    fail .zeroLengthFrame "zero-length frames are forbidden"
  else if length > maxFrameBytes then
    fail .frameTooLarge s!"frame length {length} exceeds {maxFrameBytes}"
  else
    .ok length

/-- What reading a frame came to: the bytes that were allocated for its payload, and what is left
to arrive.
-/
structure Reading (α : Type) where
  result : Except ProtocolFailure α
  allocated : Nat
  rest : List Arrival

/-- `read_payload` -/
def readPayload (arrivals : List Arrival) : Reading (List UInt8) :=
  match readExact 4 arrivals with
  | (.error .deadline, rest) => ⟨fail .headerTimeout "frame header deadline exceeded", 0, rest⟩
  | (.error (.io error), rest) =>
      ⟨fail .incompleteFrame s!"frame header is incomplete: {error}", 0, rest⟩
  | (.ok header, rest) =>
      match validateFrameLength header with
      | .error failure => ⟨.error failure, 0, rest⟩
      | .ok length =>
          match readExact length rest with
          | (.error .deadline, rest) =>
              ⟨fail .bodyTimeout "frame body deadline exceeded", length, rest⟩
          | (.error (.io error), rest) =>
              ⟨fail .incompleteFrame s!"frame body is incomplete: {error}", length, rest⟩
          | (.ok payload, rest) => ⟨.ok payload, length, rest⟩

/-- The UUID that a text is the canonical text of. -/
def readUuid (text : String) : Option Nat :=
  let number := (text.toList.filter (· ≠ '-')).foldl
    (fun n c => n * 16 + "0123456789abcdef".toList.idxOf c) 0
  if uuidText number = text then some number else none

/-- An object has no members but those. -/
def onlyMembers (names : List String) : Json → Bool
  | .obj members => members.all (fun member => names.contains member.1)
  | _ => false

def asText : Json → Option String
  | .str text => some text
  | _ => none

def asBool : Json → Option Bool
  | .bool value => some value
  | _ => none

def asItems : Json → Option (List Json)
  | .arr items => some items
  | _ => none

def asId (kind : IdKind) (value : Json) : Option (Id kind) := do
  let number ← readUuid (← asText value)
  some ⟨number⟩

section Deserialize

/-- A member of an object, read as what it should be. -/
def read {α : Type} (value : Json) (name : String) (as : Json → Option α) : Option α :=
  value.member name >>= as

/-- `Deserialize for ActorAdminCommand`, of objects that have no other members -/
def ActorAdminCommand.ofJson (value : Json) : Option ActorAdminCommand := do
  let action ← read value "action" asText
  if action = "list" then
    guard (onlyMembers ["action"] value)
    some .list
  else
    let actorId : ActorId := ⟨← read value "actor_id" asText⟩
    if action = "delete" then
      guard (onlyMembers ["action", "actor_id", "force"] value)
      some (.delete actorId (← read value "force" asBool))
    else if action = "tools_grant" ∨ action = "tools_revoke" then
      guard (onlyMembers ["action", "actor_id", "tool"] value)
      let tool ← read value "tool" asText
      some (if action = "tools_grant" then .toolsGrant actorId tool else .toolsRevoke actorId tool)
    else
      guard (onlyMembers ["action", "actor_id"] value)
      match action with
      | "show" => some (.showActor actorId)
      | "create" => some (.create actorId)
      | "enable" => some (.enable actorId)
      | "disable" => some (.disable actorId)
      | "tools_list" => some (.toolsList actorId)
      | _ => none

/-- `Deserialize for ClientRequestBody`, of such objects with canonical UUIDs -/
def ClientRequestBody.ofJson (value : Json) : Option ClientRequestBody := do
  let type ← read value "type" asText
  let requestId ← read value "request_id" (asId .request)
  match type with
  | "submit" =>
      guard (onlyMembers ["type", "request_id", "text"] value)
      some (.submit requestId (← read value "text" asText))
  | "resume" =>
      guard (onlyMembers ["type", "request_id"] value)
      some (.resume requestId)
  | "ack_final" =>
      guard (onlyMembers ["type", "request_id", "bundle_id", "delivery_ids"] value)
      let bundleId ← read value "bundle_id" (asId .bundle)
      let deliveryIds ← read value "delivery_ids" asItems
      some (.ackFinal requestId bundleId (← deliveryIds.mapM (asId .delivery)))
  | "cancel" =>
      guard (onlyMembers ["type", "request_id", "cancel_id"] value)
      some (.cancel requestId (← read value "cancel_id" (asId .cancel)))
  | "issue_link_code" =>
      guard (onlyMembers ["type", "request_id", "actor_id"] value)
      match value.member "actor_id" with
      | none | some .null => some (.issueLinkCode requestId none)
      | some actorId => some (.issueLinkCode requestId (some ⟨← asText actorId⟩))
  | "actor_admin" =>
      guard (onlyMembers ["type", "request_id", "command"] value)
      some (.actorAdmin requestId (← read value "command" ActorAdminCommand.ofJson))
  | _ => none

/-- `Deserialize for StrictEnvelope<ClientRequestBody>`, of such objects with canonical UUIDs -/
def ClientRequest.ofJson (value : Json) : Option ClientRequest := do
  guard (onlyMembers ["version", "body"] value)
  match value.member "version" with
  | some (.num (.ofNat version)) =>
      guard (version < 2 ^ 8)
      some ⟨version, ← read value "body" ClientRequestBody.ofJson⟩
  | _ => none

end Deserialize

/-- What other crates make of a frame: the error of bytes that are not UTF-8, a text read as
JSON, a text read as a UUID, and a value read as the fields of an envelope, before they are
validated.
-/
structure Serde where
  utf8Error : List UInt8 → String
  fromStr : String → Except String Json
  parseUuid : String → Except String Unit
  envelope : Json → Except String ClientRequest

/-- They read what they print: requests, UUIDs in their canonical text, and the members of an
envelope that are as they should be.
-/
structure Serde.Faithful (serde : Serde) : Prop where
  fromStr : ∀ body : ClientRequestBody,
    serde.fromStr (String.ofList (ClientRequest.new body).toJson.render)
      = .ok (ClientRequest.new body).toJson
  parseUuid : ∀ number < 2 ^ 128, serde.parseUuid (uuidText number) = .ok ()
  envelope : ∀ value request, ClientRequest.ofJson value = some request →
    serde.envelope value = .ok request

/-- `as_u64` -/
def asU64 : Json → Option Nat
  | .num (.ofNat n) => if n < 2 ^ 64 then some n else none
  | _ => none

/-- The debug format of an optional number. -/
def debugText : Option Nat → String
  | none => "None"
  | some n => s!"Some({n})"

section Decoding

variable (serde : Serde)

/-- `parse_wire_uuid` -/
def parseWireUuid (field raw : String) : Except ProtocolFailure Unit :=
  match serde.parseUuid raw with
  | .ok _ => .ok ()
  | .error error => fail .invalidUuid s!"{field} is not a UUID: {error}"

def uuidFields : List String :=
  ["request_id", "work_item_id", "bundle_id", "delivery_id", "cancel_id"]

/-- The texts among the items of an array. -/
def parseWireUuids (field : String) : List Json → Except ProtocolFailure Unit
  | [] => .ok ()
  | .str raw :: rest => do
      parseWireUuid serde field raw
      parseWireUuids field rest
  | _ :: rest => parseWireUuids field rest

/-- The UUIDs of one member, before what is within it. -/
def validateMember (name : String) (value : Json) : Except ProtocolFailure Unit :=
  match value with
  | .str raw => if name ∈ uuidFields then parseWireUuid serde name raw else .ok ()
  | .arr items =>
      if name = "delivery_ids" ∨ name = "affected_request_ids" then
        parseWireUuids serde name items
      else
        .ok ()
  | _ => .ok ()

mutual

/-- `validate_wire_uuids` -/
def validateWireUuids : Json → Except ProtocolFailure Unit
  | .obj fields => validateMembers fields
  | .arr values => validateItems values
  | _ => .ok ()

def validateMembers : List (String × Json) → Except ProtocolFailure Unit
  | [] => .ok ()
  | (name, value) :: rest => do
      validateMember serde name value
      validateWireUuids value
      validateMembers rest

def validateItems : List Json → Except ProtocolFailure Unit
  | [] => .ok ()
  | value :: rest => do
      validateWireUuids value
      validateItems rest

end

/-- `Deserialize for ClientRequest` -/
def ClientRequest.deserialize (value : Json) : Except String ClientRequest := do
  let envelope ← serde.envelope value
  requireV1 envelope.version
  validateClientBody envelope.body
  .ok envelope

/-- `decode_envelope` for a client's request. -/
def decodeEnvelope (payload : List UInt8) : Except ProtocolFailure ClientRequest :=
  match fromUtf8 payload with
  | none => fail .invalidUtf8 s!"frame is not UTF-8: {serde.utf8Error payload}"
  | some text =>
      match serde.fromStr text with
      | .error error => fail .invalidJson s!"frame is not valid JSON: {error}"
      | .ok value => do
          let version := (value.member "version").bind asU64
          if version ≠ some protocolVersion then
            fail .unsupportedVersion s!"unsupported protocol version {debugText version}"
          else do
            validateWireUuids serde value
            match ClientRequest.deserialize serde value with
            | .error error =>
                fail .invalidRequest s!"frame does not match the protocol schema: {error}"
            | .ok request => .ok request

/-- `read_client_request` -/
def readClientRequest (arrivals : List Arrival) : Reading ClientRequest :=
  let reading := readPayload arrivals
  { reading with result := reading.result >>= decodeEnvelope serde }

/-- The requests of a connection, one after the other. -/
def readClientRequests
    : Nat → List Arrival → List (Except ProtocolFailure ClientRequest) × List Arrival
  | 0, arrivals => ([], arrivals)
  | n + 1, arrivals =>
      let reading := readClientRequest serde arrivals
      let (others, rest) := readClientRequests n reading.rest
      (reading.result :: others, rest)

end Decoding

end Codrik.Runtime.Ipc
