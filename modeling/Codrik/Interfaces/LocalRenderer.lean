import Codrik.Runtime.Ipc.Protocol

/-! The client's verification of a final bundle (`FinalBundleVerifier` and `parse_payload` of
`interfaces/local_renderer.rs`).
-/

namespace Codrik.Interfaces

open Codrik.Encoding
open Codrik.Runtime
open Codrik.Runtime.Ipc
open Codrik.Runtime.Sqlite

-----------------------------------------------------------------------------------------
-- Failures
-----------------------------------------------------------------------------------------

/-- An error a function returns, or an index out of range or a negative difference, on which
the program stops.
-/
inductive Failure
  | bail (message : String)
  | panics
deriving DecidableEq

def bail {α : Type} (message : String) : Except Failure α := .error (.bail message)

/-- `ensure!`, or the condition of a `bail!` the other way round -/
def ensure (p : Prop) [Decidable p] (message : String) : Except Failure Unit :=
  if p then .ok () else bail message

def context {α : Type} (message : String) : Option α → Except Failure α
  | none => bail message
  | some value => .ok value

/-- `a - b` on `usize` -/
def subtract (a b : Nat) : Except Failure Nat :=
  if b ≤ a then .ok (a - b) else .error .panics

/-- `items[index]` -/
def index {α : Type} (items : List α) (position : Nat) : Except Failure α :=
  match items[position]? with
  | none => .error .panics
  | some item => .ok item

-----------------------------------------------------------------------------------------
-- JSON strings
-----------------------------------------------------------------------------------------

/-- The text of a JSON value as it stands in its document (`RawValue`). -/
abbrev Raw := List UInt8

/-- The text of a string value. -/
def quoted (text : String) : Raw := utf8 (Json.quote text)

def isAsciiHexdigit (byte : UInt8) : Bool :=
  48 ≤ byte ∧ byte ≤ 57 ∨ 97 ≤ byte ∧ byte ≤ 102 ∨ 65 ≤ byte ∧ byte ≤ 70

def hexValue (digit : UInt8) : Except Failure Nat :=
  if 48 ≤ digit ∧ digit ≤ 57 then .ok (digit.toNat - 48)
  else if 97 ≤ digit ∧ digit ≤ 102 then .ok (digit.toNat - 97 + 10)
  else if 65 ≤ digit ∧ digit ≤ 70 then .ok (digit.toNat - 65 + 10)
  else bail "invalid Unicode escape"

/-- `parse_hex_escape` on the four bytes there are. -/
def parseHexEscape (a b c d : UInt8) : Except Failure Nat := do
  let a ← hexValue a
  let b ← hexValue b
  let c ← hexValue c
  let d ← hexValue d
  .ok (((a * 16 + b) * 16 + c) * 16 + d)

/-- `char::from_u32` followed by `encode_utf8` -/
def encodeScalar (scalar : Nat) : Except Failure (List UInt8) :=
  if scalar < 0xd800 ∨ 0xdfff < scalar ∧ scalar < 0x110000 then
    .ok (String.utf8EncodeChar (Char.ofNat scalar))
  else
    bail "invalid Unicode scalar"

/-- The byte a one-character escape stands for. -/
def simpleEscape (escape : UInt8) : Option UInt8 :=
  if escape = 34 ∨ escape = 92 ∨ escape = 47 then some escape
  else if escape = 98 then some 0x08
  else if escape = 102 then some 0x0c
  else if escape = 110 then some 0x0a
  else if escape = 114 then some 0x0d
  else if escape = 116 then some 0x09
  else none

section Visiting

variable {σ : Type} (decoded : σ → List UInt8 → Except Failure σ)

/-- The loop of `visit_json_string`; `plain` are the bytes since `plain_start`. -/
def visitBytes : σ → List UInt8 → List UInt8 → Except Failure σ
  | state, plain, [] => decoded state plain
  | state, plain, byte :: rest =>
      if byte < 0x20 ∨ byte = 34 then
        bail "final payload string contains an unescaped control or quote"
      else if byte ≠ 92 then
        visitBytes state (plain ++ [byte]) rest
      else do
        let state ← decoded state plain
        match rest with
        | [] => bail "incomplete JSON string escape"
        | escape :: rest =>
            match simpleEscape escape with
            | some byte => do
                let state ← decoded state [byte]
                visitBytes state [] rest
            | none =>
                if escape ≠ 117 then
                  bail "invalid JSON string escape"
                else
                  match rest with
                  | a :: b :: c :: d :: rest => do
                      let scalar ← parseHexEscape a b c d
                      if 0xd800 ≤ scalar ∧ scalar ≤ 0xdbff then
                        match rest with
                        | 92 :: 117 :: a :: b :: c :: d :: rest => do
                            let low ← parseHexEscape a b c d
                            ensure (0xdc00 ≤ low ∧ low ≤ 0xdfff) "invalid low surrogate"
                            let bytes ← encodeScalar
                              (0x10000 + (scalar - 0xd800) * 2 ^ 10 + (low - 0xdc00))
                            let state ← decoded state bytes
                            visitBytes state [] rest
                        | 92 :: 117 :: _ => bail "incomplete Unicode escape"
                        | _ => bail "high surrogate is missing its low surrogate"
                      else do
                        let bytes ← encodeScalar scalar
                        let state ← decoded state bytes
                        visitBytes state [] rest
                  | _ => bail "incomplete Unicode escape"

/-- `visit_json_string` -/
def visitJsonString (start : σ) (value : Raw) : Except Failure σ := do
  ensure (2 ≤ value.length ∧ value.head? = some 34 ∧ value.getLast? = some 34)
    "final payload field must be a JSON string"
  visitBytes decoded start [] value.tail.dropLast

end Visiting

def validateJsonString (value : Raw) : Except Failure Unit :=
  visitJsonString (fun _ _ => .ok ()) () value

/-- `require_nonempty_json_string` -/
def requireNonemptyJsonString (value : Raw) (field : String) : Except Failure Unit := do
  let decodedBytes ← visitJsonString (fun count bytes => .ok (count + bytes.length)) 0 value
  ensure (decodedBytes ≠ 0) s!"final artifact {field} must not be empty"

def collectSmallJsonString (value : Raw) (limit : Nat) : Except Failure (List UInt8) :=
  visitJsonString (fun decoded bytes => do
    ensure (decoded.length + bytes.length ≤ limit)
      "final payload identifier exceeds its size limit"
    .ok (decoded ++ bytes)) [] value

-----------------------------------------------------------------------------------------
-- Payloads
-----------------------------------------------------------------------------------------

structure ManagedArtifactView where
  id : Raw
  managedPath : Raw
  displayName : Raw
  mediaType : Raw
  size : Nat
  sha256 : Raw
  caption : Raw
deriving DecidableEq

structure FinalPayloadObject where
  kind : Raw
  text : Option Raw
  artifact : Option ManagedArtifactView
  code : Option Raw
  message : Option Raw
deriving DecidableEq

inductive FinalPayloadView
  | text (content : Raw)
  | file (artifact : ManagedArtifactView)
  | terminalError (code message : Raw)

/-- The functions of other crates: the hexadecimal text of a SHA-256 digest, whether a text
is a UUID, and what `serde_json` reads from bytes as a `FinalPayloadObject` and as a
`FinalPayload`.
-/
structure Libraries where
  sha256 : List UInt8 → String
  isUuid : String → Bool
  payloadObject : List UInt8 → Option FinalPayloadObject
  payload : List UInt8 → Option FinalPayload

def FinalPayloadView.kind : FinalPayloadView → String
  | .text _ => "text"
  | .file _ => "file"
  | .terminalError _ _ => "terminal_error"

def ManagedArtifactView.validate (libs : Libraries) (artifact : ManagedArtifactView)
    : Except Failure Unit := do
  let id ← collectSmallJsonString artifact.id 64
  let id ← context "invalid utf-8" (fromUtf8 id)
  ensure (libs.isUuid id) "final artifact ID is not a UUID"
  let pathFirst ← visitJsonString (fun (first : Option UInt8) bytes => do
    ensure (0 ∉ bytes) "final artifact path contains NUL"
    .ok (first.or bytes.head?)) none artifact.managedPath
  ensure (pathFirst = some 47) "final artifact managed path must be absolute"
  requireNonemptyJsonString artifact.displayName "display name"
  requireNonemptyJsonString artifact.mediaType "media type"
  let sha256 ← collectSmallJsonString artifact.sha256 64
  ensure (sha256.length = 64 ∧ sha256.all isAsciiHexdigit)
    "final artifact SHA-256 must be 64 hexadecimal characters"
  if artifact.caption ≠ utf8 "null".toList then
    validateJsonString artifact.caption
  else
    .ok ()

def FinalPayloadView.validate (libs : Libraries) : FinalPayloadView → Except Failure Unit
  | .text content => validateJsonString content
  | .file artifact => artifact.validate libs
  | .terminalError code message => do
      validateJsonString code
      validateJsonString message

/-- `parse_payload` -/
def parsePayload (libs : Libraries) (bytes : List UInt8) : Except Failure FinalPayloadView := do
  let payload ← context "final payload shape is not canonical" (libs.payloadObject bytes)
  if payload.kind = quoted "text" ∧ payload.artifact = none ∧ payload.code = none
      ∧ payload.message = none then do
    let text ← context "final text payload is missing text" payload.text
    .ok (.text text)
  else if payload.kind = quoted "file" ∧ payload.text = none ∧ payload.code = none
      ∧ payload.message = none then do
    let artifact ← context "final file payload is missing artifact" payload.artifact
    .ok (.file artifact)
  else if payload.kind = quoted "terminal_error" ∧ payload.text = none
      ∧ payload.artifact = none then do
    let code ← context "final terminal error payload is missing code" payload.code
    let message ← context "final terminal error payload is missing message" payload.message
    .ok (.terminalError code message)
  else
    bail "final payload fields or type are not canonical"

-----------------------------------------------------------------------------------------
-- The verifier
-----------------------------------------------------------------------------------------

structure VerifiedDelivery where
  deliveryId : DeliveryId
  payload : FinalPayload
deriving DecidableEq

structure VerifiedFinalBundle where
  requestId : RequestId
  bundleId : BundleId
  replay : Bool
  manifestSha256 : String
  deliveries : List VerifiedDelivery
deriving DecidableEq

/-- The bytes received, and those the digest has absorbed. -/
structure BufferedDelivery where
  bytes : List UInt8
  digest : List UInt8
deriving DecidableEq

structure PendingBundle where
  requestId : RequestId
  bundleId : BundleId
  replay : Bool
  manifest : List FinalManifestEntry
  deliveries : List BufferedDelivery
  currentDelivery : Nat
  nextChunk : Nat
  bufferedBytes : Nat
deriving DecidableEq

structure FinalBundleVerifier where
  expectedRequest : Option RequestId
  bundle : Option PendingBundle
  finalSeen : Bool
deriving DecidableEq

namespace FinalBundleVerifier

def new : FinalBundleVerifier := ⟨none, none, false⟩

def forRequest (requestId : RequestId) : FinalBundleVerifier := ⟨some requestId, none, false⟩

def isInProgress (v : FinalBundleVerifier) : Bool := v.bundle.isSome

def isComplete (v : FinalBundleVerifier) : Bool := v.finalSeen

/-- `require_request` -/
def requireRequest (v : FinalBundleVerifier) (request : RequestId) : Except Failure Unit :=
  match v.expectedRequest with
  | some expected =>
      ensure (expected = request)
        ("server event request ID " ++ uuidText request.number ++ " does not match "
          ++ uuidText expected.number)
  | none => .ok ()

/-- The loop of `begin` over the manifest. -/
def checkManifest : List DeliveryId → Nat → List FinalManifestEntry → Except Failure Unit
  | _, _, [] => .ok ()
  | seen, decodedTotal, entry :: rest => do
      ensure (entry.deliveryId ∉ seen) "final manifest contains a duplicate delivery ID"
      ensure (entry.payloadKind = "text" ∨ entry.payloadKind = "file"
          ∨ entry.payloadKind = "terminal_error")
        "final manifest contains an unknown payload kind"
      ensure (entry.decodedBytes ≠ 0
          ∧ entry.chunkCount = divCeil entry.decodedBytes maxFinalChunkBytes)
        "final manifest chunk count does not match decoded size"
      let decodedTotal ← context "final bundle size overflow"
        (checkedAdd decodedTotal entry.decodedBytes)
      ensure (decodedTotal ≤ maxBundleBytes) "final bundle exceeds decoded byte limit"
      checkManifest (entry.deliveryId :: seen) decodedTotal rest

/-- `begin` -/
def begin (v : FinalBundleVerifier) (requestId : RequestId) (bundleId : BundleId)
    (replay : Bool) (manifest : List FinalManifestEntry)
    : Except Failure FinalBundleVerifier := do
  v.requireRequest requestId
  ensure (v.bundle = none ∧ v.finalSeen = false)
    "received a second final bundle before the first completed"
  ensure (manifest ≠ [] ∧ manifest.length ≤ maxBundleDeliveries)
    "final manifest delivery count is outside protocol limits"
  ensure ((manifestJson manifest).size ≤ maxManifestBytes)
    "final manifest exceeds protocol limit"
  checkManifest [] 0 manifest
  .ok { v with
    bundle := some
      { requestId := requestId, bundleId := bundleId, replay := replay, manifest := manifest,
        deliveries := manifest.map (fun _ => ⟨[], []⟩)
        currentDelivery := 0, nextChunk := 0, bufferedBytes := 0 } }

end FinalBundleVerifier

namespace PendingBundle

/-- What `chunk` checks before it changes the bundle: the entry of the current delivery, its
buffer, the decoded bytes and the new count of buffered bytes.
-/
def receive (bundle : PendingBundle) (requestId : RequestId) (bundleId : BundleId)
    (deliveryId : DeliveryId) (chunkIndex : Nat) (bytesBase64 : String)
    : Except Failure (FinalManifestEntry × BufferedDelivery × List UInt8 × Nat) := do
  ensure (bundle.requestId = requestId ∧ bundle.bundleId = bundleId)
    "final chunk IDs do not match final begin"
  let entry ← context "final bundle received an extra chunk"
    bundle.manifest[bundle.currentDelivery]?
  ensure (entry.deliveryId = deliveryId) "final chunks are not in manifest delivery order"
  ensure (chunkIndex = bundle.nextChunk) "final chunk indices are not contiguous"
  let offset ← context "final chunk offset overflow" (checkedMul chunkIndex maxFinalChunkBytes)
  let remaining ← subtract entry.decodedBytes offset
  let expectedBytes := min remaining maxFinalChunkBytes
  ensure (bytesBase64.utf8ByteSize = divCeil expectedBytes 3 * 4)
    "final chunk encoded size is not canonical"
  let delivery ← index bundle.deliveries bundle.currentDelivery
  let decoded ← context "final chunk is not valid base64" (Base64.decode bytesBase64.toList)
  ensure (decoded.length = expectedBytes)
    "final chunk decoded size is not the canonical partition"
  let bufferedBytes ← context "final bundle size overflow"
    (checkedAdd bundle.bufferedBytes decoded.length)
  .ok (entry, delivery, decoded, bufferedBytes)

/-- The bundle with a chunk added to its current delivery. -/
def push (bundle : PendingBundle) (entry : FinalManifestEntry) (delivery : BufferedDelivery)
    (decoded : List UInt8) (bufferedBytes : Nat)
    : PendingBundle :=
  let last := bundle.nextChunk + 1 = entry.chunkCount
  { bundle with
    bufferedBytes := bufferedBytes
    deliveries := bundle.deliveries.set bundle.currentDelivery
      ⟨delivery.bytes ++ decoded, delivery.digest ++ decoded⟩
    currentDelivery := if last then bundle.currentDelivery + 1 else bundle.currentDelivery
    nextChunk := if last then 0 else bundle.nextChunk + 1 }

/-- The checks of `end` on a bundle and its deliveries one by one. -/
def verifyDelivery (libs : Libraries) (entry : FinalManifestEntry) (delivery : BufferedDelivery)
    : Except Failure VerifiedDelivery := do
  ensure (delivery.bytes.length = entry.decodedBytes)
    "final delivery decoded size does not match manifest"
  ensure (libs.sha256 delivery.digest = entry.sha256)
    "final delivery hash does not match manifest"
  let payload ← parsePayload libs delivery.bytes
  payload.validate libs
  ensure (payload.kind = entry.payloadKind) "final delivery kind does not match manifest"
  let payload ← context "validated final payload could not be decoded"
    (libs.payload delivery.bytes)
  .ok ⟨entry.deliveryId, payload⟩

def verifyDeliveries (libs : Libraries)
    : List (FinalManifestEntry × BufferedDelivery) → Except Failure (List VerifiedDelivery)
  | [] => .ok []
  | (entry, delivery) :: rest => do
      let verified ← verifyDelivery libs entry delivery
      let others ← verifyDeliveries libs rest
      .ok (verified :: others)

/-- What `end` does with the bundle it has taken. -/
def finish (libs : Libraries) (bundle : PendingBundle) (requestId : RequestId)
    (bundleId : BundleId) (manifestSha256 : String)
    : Except Failure VerifiedFinalBundle := do
  ensure (bundle.requestId = requestId ∧ bundle.bundleId = bundleId)
    "final end IDs do not match final begin"
  ensure (libs.sha256 (manifestJson bundle.manifest).toBytes = manifestSha256)
    "final manifest hash does not match"
  ensure (bundle.currentDelivery = bundle.manifest.length ∧ bundle.nextChunk = 0)
    "final bundle ended before every canonical chunk arrived"
  ensure (bundle.bufferedBytes = (bundle.manifest.map (·.decodedBytes)).sum)
    "final bundle decoded total does not match manifest"
  let deliveries ← verifyDeliveries libs (bundle.manifest.zip bundle.deliveries)
  .ok { requestId := requestId, bundleId := bundleId, replay := bundle.replay,
        manifestSha256 := manifestSha256, deliveries := deliveries }

end PendingBundle

namespace FinalBundleVerifier

/-- `chunk`; a chunk beyond the limit is counted before it is refused. -/
def chunk (v : FinalBundleVerifier) (requestId : RequestId) (bundleId : BundleId)
    (deliveryId : DeliveryId) (chunkIndex : Nat) (bytesBase64 : String)
    : FinalBundleVerifier × Except Failure Unit :=
  match v.requireRequest requestId, v.bundle with
  | .error failure, _ => (v, .error failure)
  | .ok _, none => (v, bail "final chunk arrived before begin")
  | .ok _, some bundle =>
      match bundle.receive requestId bundleId deliveryId chunkIndex bytesBase64 with
      | .error failure => (v, .error failure)
      | .ok (entry, delivery, decoded, bufferedBytes) =>
          if bufferedBytes > maxBundleBytes then
            ({ v with bundle := some { bundle with bufferedBytes := bufferedBytes } },
              bail "final bundle exceeds decoded byte limit")
          else
            ({ v with bundle := some (bundle.push entry delivery decoded bufferedBytes) }, .ok ())

/-- `end`; the bundle is taken even when it is refused. -/
def finish (libs : Libraries) (v : FinalBundleVerifier) (requestId : RequestId)
    (bundleId : BundleId) (manifestSha256 : String)
    : FinalBundleVerifier × Except Failure VerifiedFinalBundle :=
  match v.requireRequest requestId, v.bundle with
  | .error failure, _ => (v, .error failure)
  | .ok _, none => (v, bail "final end arrived before begin")
  | .ok _, some bundle =>
      match bundle.finish libs requestId bundleId manifestSha256 with
      | .error failure => ({ v with bundle := none }, .error failure)
      | .ok verified => ({ v with bundle := none, finalSeen := true }, .ok verified)

/-- `handle`: the verifier after an event, and what it answers. -/
def handle (libs : Libraries) (v : FinalBundleVerifier) (event : ServerEvent)
    : FinalBundleVerifier × Except Failure (Option VerifiedFinalBundle) :=
  if v.finalSeen then
    (v, bail "received an event after the final bundle completed")
  else
    match event with
    | .finalBegin requestId bundleId replay manifest =>
        match v.begin requestId bundleId replay manifest with
        | .error failure => (v, .error failure)
        | .ok next => (next, .ok none)
    | .finalChunk requestId bundleId deliveryId chunkIndex bytesBase64 =>
        let (next, result) := v.chunk requestId bundleId deliveryId chunkIndex bytesBase64
        (next, result.map (fun _ => none))
    | .finalEnd requestId bundleId manifestSha256 =>
        let (next, result) := v.finish libs requestId bundleId manifestSha256
        (next, result.map some)
    | _ => (v, bail "shared final verifier received a non-final event")

/-- Events fed in order until the first error; the bundles that came out. -/
def feed (libs : Libraries)
    : FinalBundleVerifier → List ServerEvent → Except Failure (List VerifiedFinalBundle)
  | _, [] => .ok []
  | v, event :: rest =>
      match v.handle libs event with
      | (_, .error failure) => .error failure
      | (next, .ok output) => do
          let others ← feed libs next rest
          .ok (output.toList ++ others)

/-- Events fed in order, whatever each is answered. -/
def after (libs : Libraries) (v : FinalBundleVerifier) (events : List ServerEvent)
    : FinalBundleVerifier :=
  events.foldl (fun v event => (v.handle libs event).1) v

end FinalBundleVerifier

end Codrik.Interfaces
