import Codrik.Encoding.Json
import Codrik.Runtime.Model

/-! The protocol between the daemon and its Reticulum bridge (`interfaces/reticulum/protocol.rs`). -/

namespace Codrik.Interfaces.Reticulum

open Codrik.Encoding
open Codrik.Runtime

-----------------------------------------------------------------------------------------
-- Messages
-----------------------------------------------------------------------------------------

def maxProtocolLineBytes : Nat := 1024 * 1024
def maxTextBytes : Nat := 256 * 1024
def lxmfHashHexChars : Nat := 64
def destinationHashHexChars : Nat := 32
def maxDeliveryIdBytes : Nat := 128
def maxErrorBytes : Nat := 4096

/-- A double; zeros of both signs compare as one number. -/
inductive Float64
  | nan
  | infinite (negative : Bool)
  | finite (value : Rat)
deriving DecidableEq

def Float64.isFinite : Float64 → Bool
  | .finite _ => true
  | _ => false

/-- `self < 0.0` -/
def Float64.isNegative : Float64 → Bool
  | .nan => false
  | .infinite negative => negative
  | .finite value => value < 0

inductive BridgeCommand
  | start (stateDir rnsHost : String) (rnsPort : Nat)
  | send (deliveryId destination text : String)
  | shutdown
deriving DecidableEq

inductive BridgeDeliveryOutcome
  | delivered | retryable | terminal | outcomeUnknown
deriving DecidableEq

inductive BridgeEvent
  | ready (destination : String)
  | inbound (messageHash source : String) (timestamp : Float64) (text : String)
  | delivery (deliveryId : String) (outcome : BridgeDeliveryOutcome) (retryAfterMs : Option Nat)
  | fatal (error : String)
deriving DecidableEq

-----------------------------------------------------------------------------------------
-- Validation
-----------------------------------------------------------------------------------------

def ensure (p : Prop) [Decidable p] (message : String) : Except String Unit :=
  if p then .ok () else .error message

/-- The digits of a hash. -/
def isHashDigit (c : Char) : Bool := c ∈ "0123456789abcdef".toList

/-- `validate_hash` -/
def validateHash (value : String) (expectedLen : Nat) : Except String Unit :=
  ensure (value.utf8ByteSize = expectedLen ∧ value.toList.all isHashDigit)
    "Reticulum bridge hash is invalid"

/-- `validate_text` -/
def validateText (text : String) : Except String Unit :=
  ensure (isBlank text = false ∧ text.utf8ByteSize ≤ maxTextBytes)
    "Reticulum bridge text is invalid"

/-- `validate_delivery_id` -/
def validateDeliveryId (deliveryId : String) : Except String Unit :=
  ensure (isBlank deliveryId = false ∧ deliveryId.utf8ByteSize ≤ maxDeliveryIdBytes)
    "Reticulum bridge delivery ID is invalid"

/-- The checks of `decode_event` on what it has read. -/
def BridgeEvent.validate : BridgeEvent → Except String Unit
  | .ready destination => validateHash destination destinationHashHexChars
  | .inbound messageHash source timestamp text => do
      validateHash messageHash lxmfHashHexChars
      validateHash source destinationHashHexChars
      ensure (timestamp.isFinite = true ∧ timestamp.isNegative = false)
        "Reticulum bridge timestamp is invalid"
      validateText text
  | .delivery deliveryId outcome retryAfterMs => do
      validateDeliveryId deliveryId
      ensure (outcome = .retryable ∨ retryAfterMs = none)
        "Reticulum bridge retry delay requires a retryable outcome"
  | .fatal error =>
      ensure (isBlank error = false ∧ error.utf8ByteSize ≤ maxErrorBytes)
        "Reticulum bridge fatal error is invalid"

/-- `decode_event`, where `parse` is what `serde_json` reads from a line. -/
def decodeEvent (parse : List UInt8 → Except String BridgeEvent) (line : List UInt8)
    : Except String BridgeEvent := do
  ensure (line.length ≤ maxProtocolLineBytes) "Reticulum bridge protocol line is too large"
  let event ← parse line
  event.validate
  .ok event

-----------------------------------------------------------------------------------------
-- Commands
-----------------------------------------------------------------------------------------

def BridgeCommand.validate : BridgeCommand → Except String Unit
  | .start stateDir rnsHost rnsPort =>
      ensure (stateDir.toList.head? = some '/' ∧ isBlank rnsHost = false ∧ rnsPort ≠ 0)
        "Reticulum bridge start command is invalid"
  | .send deliveryId destination text => do
      validateDeliveryId deliveryId
      validateHash destination destinationHashHexChars
      validateText text
  | .shutdown => .ok ()

def BridgeCommand.toJson : BridgeCommand → Json
  | .start stateDir rnsHost rnsPort =>
      .obj [("type", .str "start"), ("state_dir", .str stateDir), ("rns_host", .str rnsHost),
        ("rns_port", .num rnsPort)]
  | .send deliveryId destination text =>
      .obj [("type", .str "send"), ("delivery_id", .str deliveryId),
        ("destination", .str destination), ("text", .str text)]
  | .shutdown => .obj [("type", .str "shutdown")]

/-- `encode_command` -/
def encodeCommand (command : BridgeCommand) : Except String (List UInt8) := do
  command.validate
  ensure (command.toJson.size + 1 ≤ maxProtocolLineBytes)
    "Reticulum bridge protocol line is too large"
  .ok (command.toJson.toBytes ++ [10])

end Codrik.Interfaces.Reticulum
