import Codrik.Interfaces.GatewayIngress
import Codrik.Interfaces.Reticulum.Inbound

/-! What the daemon does with a message of a peer (`interfaces/reticulum/ingress.rs`, `run_inner`
of `interfaces/reticulum.rs`), and when it stops the daemon.
-/

namespace Codrik.Interfaces.Reticulum

open Codrik.Encoding
open Codrik.Interaction
open Codrik.Relational
open Codrik.Runtime
open Codrik.Runtime.Sqlite
open Codrik.Runtime.Sqlite.IdentityLink (LinkIdentity CodeHash)

-----------------------------------------------------------------------------------------
-- Handling
-----------------------------------------------------------------------------------------

def maxTextChars : Nat := 256 * 1024

structure InboundMessage where
  messageHash : String
  source : String
  timestamp : Float64
  text : String

/-- `validate_hex` -/
def validateHex (value : String) (length : Nat) : Except String Unit :=
  ensure (value.utf8ByteSize = length ∧ value.toList.all isHashDigit) "invalid Reticulum hash"

/-- `validate_message` -/
def validateMessage (message : InboundMessage) : Except String Unit := do
  validateHex message.messageHash 64
  validateHex message.source 32
  ensure (message.timestamp.isFinite = true ∧ message.timestamp.isNegative = false
      ∧ isBlank message.text = false ∧ message.text.utf8ByteSize ≤ maxTextChars)
    "invalid Reticulum inbound message"

/-- What `handle` does once the route is there. -/
def handleFrom (message : InboundMessage) (gateway : String) (route : DeliveryRoute) : Handling :=
  let incoming : Incoming := ⟨gateway, message.messageHash, route⟩
  let identity : LinkIdentity := ⟨gateway, message.source, none⟩
  let command := splitCommand (trim message.text)
  if command.1 = "/link" then
    incoming.answerLink identity command.2
  else
    incoming.welcome identity (fun actor =>
      takeIn (textWithRoute gateway message.messageHash identity route message.text) actor
        "Reticulum identity became unauthorized during ingress")

/-- `handle`, for messages to `localDestination`. -/
def handle (localDestination : String) (message : InboundMessage) : Handling :=
  match validateMessage message with
  | .error error => .done (.error (.refused error))
  | .ok () =>
      let gateway := s!"reticulum:{localDestination}"
      match DeliveryRoute.new gateway message.source none maxTextChars 1 with
      | .error error => .done (.error (.refused error))
      | .ok route => handleFrom message gateway route

/-- What `run_inner` does with the next event of the bridge; an error ends it. -/
def serveEvent (localDestination : String) : Except String BridgeEvent → Handling
  | .ok (.inbound messageHash source timestamp text) =>
      handle localDestination ⟨messageHash, source, timestamp, text⟩
  | .ok (.fatal error) => .done (.error (.refused s!"Reticulum bridge failed: {error}"))
  | .ok _ => .done (.error (.refused "Reticulum bridge emitted an unsolicited event"))
  | .error error => .done (.error (.refused error))

-----------------------------------------------------------------------------------------
-- Where handling fails
-----------------------------------------------------------------------------------------

section Failures

variable {between : ChannelStore → ChannelStore → Prop} {digest : String → CodeHash}
  {localDestination : String}

theorem ensure_ok {p : Prop} [Decidable p] {message : String}
    : ensure p message = .ok () ↔ p := by
  rw [ensure]
  split
  · rename_i holds
    exact ⟨fun _ => holds, fun _ => rfl⟩
  · rename_i fails
    exact ⟨fun passed => (by cases passed), fun holds => absurd holds fails⟩

theorem gateway_named : isBlank s!"reticulum:{localDestination}" = false := by
  have start : 'r' ∈ "reticulum:".toList := by decide
  exact isBlank_append start (by decide)

/-- A hash has digits. -/
theorem isBlank_hash {value : String} {length : Nat} (positive : 0 < length)
    (valid : validateHash value length = .ok ())
    : isBlank value = false := by
  obtain ⟨size, all⟩ := ensure_ok.mp valid
  cases digits : value.toList with
  | nil =>
      have empty : value = "" := String.toList_inj.mp digits
      rw [empty, String.utf8ByteSize_empty] at size
      omega
  | cons c rest =>
      rw [digits, List.all_cons, Bool.and_eq_true] at all
      have visible : ∀ c ∈ "0123456789abcdef".toList, isWhitespace c = false :=
        forall_of_all (by decide +kernel)
      refine isBlank_eq_false (c := c) (by rw [digits]; exact List.mem_cons_self) ?_
      exact visible c (of_decide_eq_true all.1)

theorem handleFrom_failsWhere {message : InboundMessage} {gateway : String}
    (route : DeliveryRoute) (named : isBlank gateway = false)
    (hash : isBlank message.messageHash = false) (source : isBlank message.source = false)
    : (handleFrom message gateway route).FailsWhere between (Performs digest) Fine := by
  by_cases command : (splitCommand (trim message.text)).1 = "/link"
  · simp only [handleFrom, if_pos command]
    exact Incoming.answerLink_failsWhere _ _ ⟨named, hash⟩ ⟨named, source⟩
  · simp only [handleFrom, if_neg command]
    exact welcome_failsWhere _ (fun actor => takeIn_failsWhere actor _ rfl rfl)

/-- A message that the decoder lets through is handled unless an operation goes wrong. -/
theorem handle_failsWhere {message : InboundMessage}
    (hash : validateHash message.messageHash lxmfHashHexChars = .ok ())
    (source : validateHash message.source destinationHashHexChars = .ok ())
    (timestamp : message.timestamp.isFinite = true ∧ message.timestamp.isNegative = false)
    (text : isBlank message.text = false ∧ message.text.utf8ByteSize ≤ maxTextBytes)
    : (handle localDestination message).FailsWhere between (Performs digest) Fine := by
  have namedHash := isBlank_hash (by decide) hash
  have namedSource := isBlank_hash (by decide) source
  have valid : validateMessage message = .ok () := by
    have first : validateHex message.messageHash 64 = .ok () := ensure_ok.mpr (ensure_ok.mp hash)
    have second : validateHex message.source 32 = .ok () := ensure_ok.mpr (ensure_ok.mp source)
    rw [validateMessage, first, second]
    exact ensure_ok.mpr ⟨timestamp.1, timestamp.2, text.1, text.2⟩
  have routed := DeliveryRoute.new_self ⟨s!"reticulum:{localDestination}", message.source, none,
    maxTextChars, 1, gateway_named, namedSource, by decide, by decide⟩
  simp only [handle, valid, routed]
  exact handleFrom_failsWhere _ gateway_named namedHash namedSource

end Failures

-----------------------------------------------------------------------------------------
-- Messages that stop the daemon, and that do not
-----------------------------------------------------------------------------------------

namespace NotANumber

/-- A valid message whose timestamp is `timestamp`. -/
def message (timestamp : Float64) : LxmfMessage where
  signatureValidated := true
  content := some "hello"
  title := some ""
  fieldsAreDict := true
  hash := List.replicate 32 170
  sourceHash := List.replicate 16 187
  timestamp := .float timestamp

/-- How Python prints the number of the message below. -/
def printed (_ : Rat) : String := "20.0"

/-- What `serde_json` reads from the line of the message below. -/
def parsed (_ : List UInt8) : Except String BridgeEvent :=
  .ok (.inbound (hex (message .nan).hash) (hex (message .nan).sourceHash) (.finite 20) "hello")

def digest (_ : String) : CodeHash := Vector.replicate 32 0

theorem plain_printed : Plain printed := by
  intro value
  change OneLine "20.0".toList
  decide

end NotANumber

end Codrik.Interfaces.Reticulum
