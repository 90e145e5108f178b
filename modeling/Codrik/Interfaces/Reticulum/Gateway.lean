import Codrik.Interfaces.Reticulum.Protocol
import Codrik.Runtime.Ipc.Protocol
import Codrik.Runtime.Sqlite.GatewayAttempts

/-! The task that delivers to Reticulum peers (`interfaces/reticulum.rs`), with the calls other
workers make to the delivery queue in between, and with its future dropped wherever it waits.
-/

namespace Codrik.Interfaces.Reticulum

open Codrik.Runtime
open Codrik.Runtime.Sqlite
open Codrik.Transition

-----------------------------------------------------------------------------------------
-- Transitions
-----------------------------------------------------------------------------------------

/-- The delay before the next attempt when the bridge names none. -/
def retryDelay (attemptCount : Nat) : Nat := min (1000 * 2 ^ min (attemptCount - 1) 5) 30000

/-- `transition_delivery`: whether the delivery was changed. A failed call and a lost claim both
end the task.
-/
def transitionDelivery (delivery : ClaimedGatewayDelivery) (outcome : BridgeDeliveryOutcome)
    (retryAfterMs : Option Nat) (now : Timestamp) (q : GatewayQueue)
    : Bool × GatewayQueue :=
  match outcome with
  | .delivered => completeGatewayDelivery delivery.claim none q
  | .retryable =>
      retryGatewayDelivery delivery.claim
        (now.plusMillis
          (min (retryAfterMs.getD (retryDelay delivery.attemptCount)) 9223372036854775807))
        "reticulum_retryable" "LXMF delivery failed retryably" q
  | .terminal =>
      (failGatewayDelivery delivery.claim .failedTerminal "reticulum_terminal"
        "LXMF delivery was rejected" q).toOption.getD (false, q)
  | .outcomeUnknown =>
      (failGatewayDelivery delivery.claim .outcomeUnknown "reticulum_outcome_unknown"
        "LXMF delivery outcome is unknown" q).toOption.getD (false, q)

/-- The command that submits a delivery, unless its payload is no text. -/
def sendCommand (delivery : ClaimedGatewayDelivery) : Option BridgeCommand :=
  match delivery.payload with
  | .text text =>
      some (.send (Ipc.uuidText delivery.claim.id.number) delivery.route.address text)
  | _ => none

/-- The delivery can be submitted. -/
def canSubmit (delivery : ClaimedGatewayDelivery) : Bool :=
  match sendCommand delivery with
  | some command => (encodeCommand command).isOk
  | none => false

-----------------------------------------------------------------------------------------
-- The task
-----------------------------------------------------------------------------------------

/-- What `run` waits for. A reply is named where the store has performed the call and the task
has not seen the reply yet.
-/
inductive Phase
  | looping
  | claiming (reply : Option (List ClaimedGatewayDelivery))
  | rejecting (reply : Bool)
  | marking (delivery : ClaimedGatewayDelivery) (reply : Bool)
  | submitting (delivery : ClaimedGatewayDelivery)
  | inFlight (delivery : ClaimedGatewayDelivery)
  | renewing (delivery : ClaimedGatewayDelivery) (reply : Option GatewayDeliveryClaim)
  | handling (delivery : ClaimedGatewayDelivery)
  | settling (reply goesOn : Bool)
  | polling
  | answering
  | stopping
  | recording (reply : Bool)
  | returned
deriving DecidableEq

/-- `PreparedReticulumGateway`: `bridge` tells whether the bridge process is still there. The
attempts that were submitted to it are on record.
-/
structure PreparedReticulumGateway where
  bridge : Bool
  store : GatewayQueue
  activeDelivery : Option ClaimedGatewayDelivery
  phase : Phase
  submitted : List (GatewayDeliveryId × Nat)

namespace PreparedReticulumGateway

/-- The call of `claim_gateway_deliveries`. -/
def claimDeliveries (gateway owner : String) (now : Timestamp) (s : PreparedReticulumGateway)
    : PreparedReticulumGateway :=
  match claimGatewayDeliveries gateway owner now (now.plusMillis 30000) 1 s.store with
  | .ok (deliveries, store) => { s with store := store, phase := .claiming (some deliveries) }
  | .error _ => { s with phase := .claiming none }

/-- What follows the claim: the last of the deliveries is submitted or rejected. -/
def takeClaimed (now : Timestamp) (reply : Option (List ClaimedGatewayDelivery))
    (s : PreparedReticulumGateway)
    : PreparedReticulumGateway :=
  match reply with
  | none => { s with phase := .stopping }
  | some deliveries =>
      match deliveries.getLast? with
      | none => { s with phase := .polling }
      | some delivery =>
          if canSubmit delivery then
            let (changed, store) := setGatewayDeliveryRetrySafe delivery.claim false s.store
            { s with store := store, phase := .marking delivery changed }
          else
            let (changed, store) := transitionDelivery delivery .terminal none now s.store
            { s with store := store, phase := .rejecting changed }

/-- What follows the mark: the delivery is active, and submitted unless the bridge is stopped. -/
def submit (delivery : ClaimedGatewayDelivery) (marked : Bool) (s : PreparedReticulumGateway)
    : PreparedReticulumGateway :=
  if marked then
    { s with
      activeDelivery := some delivery
      submitted := s.submitted ++ [(delivery.claim.id, delivery.attemptCount)]
      phase := if s.bridge then .submitting delivery else .stopping }
  else
    { s with phase := .stopping }

/-- The call of `transition_delivery` for a delivery that was submitted. -/
def settle (delivery : ClaimedGatewayDelivery) (outcome : BridgeDeliveryOutcome)
    (retryAfterMs : Option Nat) (now : Timestamp) (goesOn : Bool) (s : PreparedReticulumGateway)
    : PreparedReticulumGateway :=
  let (changed, store) := transitionDelivery delivery outcome retryAfterMs now s.store
  { s with store := store, phase := .settling changed goesOn }

/-- What follows `transition_delivery`. -/
def settled (changed goesOn : Bool) (s : PreparedReticulumGateway) : PreparedReticulumGateway :=
  if changed then
    { s with activeDelivery := none, phase := if goesOn then .looping else .stopping }
  else
    { s with phase := .stopping }

/-- The end of `bridge.send`. -/
def sent (delivery : ClaimedGatewayDelivery) (ok : Bool) (now : Timestamp)
    (s : PreparedReticulumGateway)
    : PreparedReticulumGateway :=
  if ok then { s with phase := .inFlight delivery }
  else s.settle delivery .outcomeUnknown none now false

/-- The call of `renew_gateway_delivery`. -/
def renew (delivery : ClaimedGatewayDelivery) (now : Timestamp) (s : PreparedReticulumGateway)
    : PreparedReticulumGateway :=
  let (claim, store) := renewGatewayDelivery delivery.claim (now.plusMillis 30000) s.store
  { s with store := store, phase := .renewing delivery claim }

/-- What follows the renewal. -/
def renewed (delivery : ClaimedGatewayDelivery) (reply : Option GatewayDeliveryClaim)
    (s : PreparedReticulumGateway)
    : PreparedReticulumGateway :=
  match reply with
  | some claim => { s with phase := .inFlight { delivery with claim := claim } }
  | none => { s with phase := .stopping }

/-- The bridge has answered for the delivery that is in flight. -/
def Answers (delivery : ClaimedGatewayDelivery) (deliveryId : String) : Prop :=
  deliveryId = Ipc.uuidText delivery.claim.id.number

instance (delivery : ClaimedGatewayDelivery) : DecidablePred (Answers delivery) :=
  fun _ => inferInstanceAs (Decidable (_ = _))

/-- An event while a delivery is in flight. -/
def handleEvent (delivery : ClaimedGatewayDelivery) (event : Except String BridgeEvent)
    (now : Timestamp) (s : PreparedReticulumGateway)
    : PreparedReticulumGateway :=
  match event with
  | .ok (.delivery deliveryId outcome retryAfterMs) =>
      if Answers delivery deliveryId then s.settle delivery outcome retryAfterMs now true
      else { s with phase := .stopping }
  | .ok (.inbound _ _ _ _) => { s with phase := .handling delivery }
  | .ok (.fatal _) => s.settle delivery .outcomeUnknown none now false
  | .ok (.ready _) => { s with phase := .stopping }
  | .error _ => s.settle delivery .outcomeUnknown none now false

/-- An event while no delivery is in flight. -/
def pollEvent (event : Except String BridgeEvent) (s : PreparedReticulumGateway)
    : PreparedReticulumGateway :=
  match event with
  | .ok (.inbound _ _ _ _) => { s with phase := .answering }
  | _ => { s with phase := .stopping }

/-- `shutdown`: the active delivery is taken before its outcome is recorded. -/
def stop (now : Timestamp) (s : PreparedReticulumGateway) : PreparedReticulumGateway :=
  match s.activeDelivery with
  | some delivery =>
      let (changed, store) := transitionDelivery delivery .outcomeUnknown none now s.store
      { s with store := store, activeDelivery := none, phase := .recording changed }
  | none => { s with bridge := false, phase := .returned }

/-- The bridge is shut down when the outcome was recorded. -/
def recorded (changed : Bool) (s : PreparedReticulumGateway) : PreparedReticulumGateway :=
  { s with bridge := s.bridge && !changed, phase := .returned }

end PreparedReticulumGateway

-----------------------------------------------------------------------------------------
-- The task as a transition system
-----------------------------------------------------------------------------------------

/-- What can happen to the task. -/
inductive Happening
  | others (call : QueueCall)
  | advance (now : Timestamp)
  | sent (ok : Bool) (now : Timestamp)
  | renewal (now : Timestamp)
  | event (event : Except String BridgeEvent) (now : Timestamp)
  | timeout
  | handled (ok : Bool)
  | shutdown

namespace PreparedReticulumGateway

variable (gateway owner : String)

/-- A call of the task, or what follows a reply. -/
def advance (now : Timestamp) (s : PreparedReticulumGateway) : Option PreparedReticulumGateway :=
  match s.phase with
  | .looping => some (s.claimDeliveries gateway owner now)
  | .claiming reply => some (s.takeClaimed now reply)
  | .rejecting reply => some { s with phase := if reply then .looping else .stopping }
  | .marking delivery reply => some (s.submit delivery reply)
  | .renewing delivery reply => some (s.renewed delivery reply)
  | .settling reply goesOn => some (s.settled reply goesOn)
  | .stopping => some (s.stop now)
  | .recording reply => some (s.recorded reply)
  | _ => none

/-- What the task makes of what happens, when it waits for it. The future of
`run_delivery_once` is dropped at a shutdown, the one of `ingress.handle` in `run_inner` is not.
-/
def next (s : PreparedReticulumGateway) : Happening → Option PreparedReticulumGateway
  | .others call => some { s with store := s.store.after call }
  | .advance now => s.advance gateway owner now
  | .sent ok now =>
      match s.phase with
      | .submitting delivery => some (s.sent delivery ok now)
      | _ => none
  | .renewal now =>
      match s.phase with
      | .inFlight delivery => some (s.renew delivery now)
      | _ => none
  | .event event now =>
      match s.phase with
      | .inFlight delivery => some (s.handleEvent delivery event now)
      | .polling => some (s.pollEvent event)
      | _ => none
  | .timeout =>
      match s.phase with
      | .polling => some { s with phase := .looping }
      | _ => none
  | .handled ok =>
      match s.phase with
      | .handling delivery => some { s with phase := if ok then .inFlight delivery else .stopping }
      | .answering => some { s with phase := if ok then .looping else .stopping }
      | _ => none
  | .shutdown =>
      match s.phase with
      | .answering => none
      | .stopping => none
      | .recording _ => none
      | .returned => none
      | _ => some { s with phase := .stopping }

end PreparedReticulumGateway

/-- All runs of the task over any queue. The other workers have owners of their own. -/
def gatewayRun (gateway owner : String) : System PreparedReticulumGateway Happening where
  Initial s :=
    s.phase = .looping ∧ s.bridge = true ∧ s.activeDelivery = none ∧ s.submitted = []
  Step s happening s' :=
    (∀ call, happening = .others call → call.actingOwner ≠ some owner)
      ∧ s.next gateway owner happening = some s'

end Codrik.Interfaces.Reticulum
