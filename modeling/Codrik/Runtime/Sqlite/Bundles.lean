import Codrik.Runtime.Sqlite.Schema

/-! Manifests of result bundles, the sizes of the JSON texts they limit, and how a stored
bundle is read (`sqlite/bundles.rs`).
-/

namespace Codrik.Runtime.Sqlite

open Codrik.Relational

-----------------------------------------------------------------------------------------
-- JSON sizes
-----------------------------------------------------------------------------------------

/-- The bytes a character takes in a JSON string: short escapes, `\u00XX` escapes of the
other control characters, and UTF-8 for the rest.
-/
def jsonCharBytes (c : Char) : Nat :=
  if c = '"' ∨ c = '\\' then 2
  else if c.toNat ∈ [0x8, 0x9, 0xA, 0xC, 0xD] then 2
  else if c.toNat < 0x20 then 6
  else c.utf8Size

def jsonStringBytes (text : String) : Nat :=
  2 + (text.toList.map jsonCharBytes).sum

def jsonNumberBytes (n : Nat) : Nat := (Nat.toDigits 10 n).length

/-- A UUID text with its quotes. -/
def jsonUuidBytes : Nat := 38

def jsonOptionBytes : Option String → Nat
  | none => 4
  | some text => jsonStringBytes text

/-- The bytes of a JSON object whose members have the given names and value sizes. -/
def jsonObjectBytes (members : List (String × Nat)) : Nat :=
  2 + (members.map (fun member => jsonStringBytes member.1 + 1 + member.2)).sum
    + (members.length - 1)

def jsonArrayBytes (items : List Nat) : Nat :=
  2 + items.sum + (items.length - 1)

def FinalPayload.jsonBytes : FinalPayload → Nat
  | .text content =>
      jsonObjectBytes [("type", jsonStringBytes "text"), ("text", jsonStringBytes content)]
  | .file artifact =>
      jsonObjectBytes [("type", jsonStringBytes "file"),
        ("artifact", jsonObjectBytes
          [("id", jsonUuidBytes), ("managed_path", jsonStringBytes artifact.managedPath),
            ("display_name", jsonStringBytes artifact.displayName),
            ("media_type", jsonStringBytes artifact.mediaType),
            ("size", jsonNumberBytes artifact.size),
            ("sha256", jsonStringBytes artifact.sha256),
            ("caption", jsonOptionBytes artifact.caption)])]
  | .terminalError code message =>
      jsonObjectBytes [("type", jsonStringBytes "terminal_error"),
        ("code", jsonStringBytes code), ("message", jsonStringBytes message)]

/-- The hash is written as 64 hexadecimal digits. -/
def BundleManifestEntry.jsonBytes (entry : BundleManifestEntry) : Nat :=
  jsonObjectBytes [("delivery_id", jsonUuidBytes),
    ("payload_kind", jsonStringBytes entry.payloadKind),
    ("decoded_bytes", jsonNumberBytes entry.decodedBytes), ("sha256", 66),
    ("chunk_count", jsonNumberBytes entry.chunkCount)]

-----------------------------------------------------------------------------------------
-- Manifests
-----------------------------------------------------------------------------------------

/-- `payload_from_outbox` -/
def payloadFromOutbox : OutboxPayload → FinalPayload
  | .text text => .text text
  | .file artifact => .file artifact
  | .terminalError code message => .terminalError code message

def FinalPayload.kind : FinalPayload → String
  | .text _ => "text"
  | .file _ => "file"
  | .terminalError _ _ => "terminal_error"

def manifestEntry (delivery : DeliveryId × FinalPayload) : BundleManifestEntry where
  deliveryId := delivery.1
  payloadKind := delivery.2.kind
  decodedBytes := delivery.2.jsonBytes
  sha256 := .of delivery.2
  chunkCount := (delivery.2.jsonBytes + maxFinalChunkBytes - 1) / maxFinalChunkBytes

/-- `manifest_for`: the entries; their hash is `Digest.of` them. -/
def manifestFor (deliveries : List (DeliveryId × FinalPayload))
    : Except String (List BundleManifestEntry) :=
  if deliveries = [] ∨ deliveries.length > maxBundleDeliveries then
    .error s!"bundle delivery count is outside 1..={maxBundleDeliveries}"
  else if (deliveries.map (·.2.jsonBytes)).sum > maxBundleBytes then
    .error s!"bundle exceeds {maxBundleBytes} decoded bytes"
  else
    let entries := deliveries.map manifestEntry
    if jsonArrayBytes (entries.map (·.jsonBytes)) > maxManifestBytes then
      .error s!"bundle manifest exceeds {maxManifestBytes} bytes"
    else
      .ok entries

-----------------------------------------------------------------------------------------
-- Stored bundles
-----------------------------------------------------------------------------------------

/-- A bundle as its deliverer gets it; the hash of the manifest is `Digest.of` it. -/
structure ResultBundle where
  id : BundleId
  requestId : RequestId
  state : BundleState
  manifest : List BundleManifestEntry
  deliveries : List (DeliveryId × FinalPayload)
deriving DecidableEq

/-- A delivery of a bundle joined with its outbox row. -/
structure MembershipRow where
  deliveryId : DeliveryId
  ordinal : Nat
  address : RequestId
  actorId : ActorId
  payloadJson : OutboxPayload
deriving DecidableEq

/-- The memberships of a bundle by ordinal. -/
def memberships (s : Store) (id : BundleId) : List MembershipRow :=
  (s.outboxDeliveries.selectOrdered (·.bundleId = id) (·.ordinal)).filterMap (fun delivery =>
    (s.outbox.find? (·.id = delivery.outboxId)).map (fun outbox =>
      { deliveryId := delivery.id, ordinal := delivery.ordinal, address := delivery.address,
        actorId := outbox.actorId, payloadJson := outbox.payloadJson }))

/-- The deliveries of a request's memberships, whose ordinals must count up. -/
def readMemberships (requestId : RequestId) (expected : Nat)
    : List MembershipRow → Except StoreError (List (DeliveryId × FinalPayload))
  | [] => .ok []
  | row :: rest => do
      require (row.ordinal = expected)
        (.rejected "bundle membership ordinals are not contiguous")
      require (row.address = requestId)
        (.rejected "bundle membership route does not belong to its request")
      let deliveries ← readMemberships requestId (expected + 1) rest
      .ok ((row.deliveryId, payloadFromOutbox row.payloadJson) :: deliveries)

/-- `load_bundle_row` -/
def loadBundleRow (s : Store) (id : BundleId) : Except StoreError ResultBundle :=
  match s.resultBundles.find? (·.id = id) with
  | none => .error (.rejected "bundle was not found")
  | some bundle => do
      let rows := memberships s id
      require (rows.length = bundle.deliveryCount ∧ rows.length ≤ maxBundleDeliveries)
        (.rejected "bundle delivery count does not match its immutable memberships")
      let deliveries ← readMemberships bundle.requestId 0 rows
      match manifestFor deliveries with
      | .error error => .error (.rejected error)
      | .ok manifest => do
          require (bundle.manifestSha256 = .of manifest)
            (.rejected "bundle manifest hash does not match immutable memberships")
          .ok { id := id, requestId := bundle.requestId, state := bundle.state,
                manifest := manifest, deliveries := deliveries }

end Codrik.Runtime.Sqlite
