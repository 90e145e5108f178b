import Codrik.Interfaces.Channel

/-! How gateways answer a message: what their handlers have in common
(`interfaces/reticulum/ingress.rs`, `interfaces/telegram/ingress.rs`).
-/

namespace Codrik.Interfaces

open Codrik.Interaction
open Codrik.Relational
open Codrik.Runtime
open Codrik.Runtime.Sqlite
open Codrik.Runtime.Sqlite.IdentityLink (LinkIdentity GatewayCommandKey GatewayCommandOutcome
  CodeHash)

-----------------------------------------------------------------------------------------
-- Texts
-----------------------------------------------------------------------------------------

def notLinked : String :=
  "This channel is not linked. Run `codrik link`, then send `/link CODE` here."

def actorDisabled : String := "This actor is disabled."

/-- What a redemption is answered with. -/
def redemptionText : GatewayCommandOutcome → String
  | .linked _ => "This channel is now linked."
  | .alreadyLinked _ => "This channel was already linked."
  | .invalidOrExpired => "Invalid or expired link code."
  | .rateLimited _ => "Too many failed attempts. Try again later."
  | .identityConflict => "This channel is already linked to another actor."

/-- `split_command`: the first word, and the trimmed rest unless it is empty. -/
def splitCommand (text : String) : String × Option String :=
  let command := text.toList.takeWhile (fun c => !isWhitespace c)
  let rest := text.toList.dropWhile (fun c => !isWhitespace c)
  let argument := trim (String.ofList rest)
  (String.ofList command, if argument = "" then none else some argument)

/-- A text with a character that is no space is not blank. -/
theorem isBlank_eq_false {text : String} {c : Char} (mem : c ∈ text.toList)
    (printed : isWhitespace c = false)
    : isBlank text = false := by
  rw [isBlank, List.all_eq_false]
  exact ⟨c, mem, by rw [printed]; decide⟩

theorem isBlank_append {first second : String} {c : Char} (mem : c ∈ first.toList)
    (printed : isWhitespace c = false)
    : isBlank (first ++ second) = false := by
  have within : c ∈ (first ++ second).toList := by
    rw [String.toList_append]
    exact List.mem_append_left _ mem
  exact isBlank_eq_false within printed

/-- A text without its outer spaces, unless nothing is left of it. -/
def trimmed (text : String) : Option String :=
  if isBlank text then none else some (trim text)

-----------------------------------------------------------------------------------------
-- Handlers
-----------------------------------------------------------------------------------------

/-- Why a handler fails. -/
inductive HandleError
  | store (error : StoreError)
  | refused (message : String)

/-- What a handler returns; only Telegram has messages that are not supported. -/
inductive HandleOutcome
  | accepted (actorId : ActorId) (sequence : Nat)
  | duplicate
  | commandHandled
  | unsupported
deriving DecidableEq

/-- The handling of a message. -/
abbrev Handling := Program channel (Except HandleError HandleOutcome)

/-- The message a handler is at work on. -/
structure Incoming where
  gateway : String
  externalId : String
  route : DeliveryRoute

namespace Incoming

variable (incoming : Incoming)

/-- The intent key of the response to a message. -/
def responseKey : String := s!"gateway-response:{incoming.gateway}:{incoming.externalId}"

theorem responseKey_named : isBlank incoming.responseKey = false := by
  have start : 'g' ∈ "gateway-response:".toList := by decide
  have longer : 'g' ∈ ("gateway-response:" ++ incoming.gateway ++ ":").toList := by
    rw [String.toList_append, String.toList_append]
    exact List.mem_append_left _ (List.mem_append_left _ start)
  exact isBlank_append longer (by decide)

/-- The response to a message. -/
def response (text : String) : NewGatewayDelivery where
  intentKey := .response incoming.responseKey
  sourceOutboxId := none
  ordinal := 0
  route := incoming.route
  payload := .text text
  keyNamed := by
    intro key same
    cases same
    exact incoming.responseKey_named

/-- `enqueue_response`, after which the message is handled. -/
def respond (text : String) : Handling :=
  .perform (.enqueueGatewayDelivery (incoming.response text)) (fun
    | .error error => .done (.error (.store error))
    | .ok _ => .done (.ok .commandHandled))

/-- The answer to `/link`, with its argument. -/
def answerLink (identity : LinkIdentity) : Option String → Handling
  | none => incoming.respond notLinked
  | some code =>
      .perform (.redeemCodeOnce ⟨incoming.gateway, incoming.externalId⟩ identity code) (fun
        | .error error => .done (.error (.store error))
        | .ok outcome => incoming.respond (redemptionText outcome))

/-- Only enabled actors are let in. -/
def welcome (identity : LinkIdentity) (next : ActorId → Handling) : Handling :=
  .perform (.resolveIdentity identity.provider identity.subject) (fun
    | none => incoming.respond notLinked
    | some (actor, enabled) =>
        if enabled = false then incoming.respond actorDisabled else next actor)

end Incoming

/-- `NewInboundEvent::text_with_route` -/
def textWithRoute (gateway externalId : String) (identity : LinkIdentity) (route : DeliveryRoute)
    (text : String)
    : NewInboundEvent where
  gateway := gateway
  externalId := .remote externalId
  identityProvider := identity.provider
  identitySubject := identity.subject
  kind := .userMessage
  audience := .actorPrivate
  deliveryRoute := some route
  executionPolicy := .actorTools
  recordLatestTelegramRoute := false
  payloadJson := .decoded (.text (some text))

/-- `NewInboundEvent::attachment_with_route` -/
def attachmentWithRoute (gateway externalId : String) (identity : LinkIdentity)
    (route : DeliveryRoute) (caption : Option String) (attachment : Attachment)
    : Except String NewInboundEvent := do
  validateRuntimeAttachment attachment
  .ok
    { gateway := gateway
      externalId := .remote externalId
      identityProvider := identity.provider
      identitySubject := identity.subject
      kind := .userMessage
      audience := .actorPrivate
      deliveryRoute := some route
      executionPolicy := .actorTools
      recordLatestTelegramRoute := false
      payloadJson := .decoded (.attachment (.decoded ⟨caption.bind trimmed, attachment⟩)) }

/-- `with_latest_telegram_route_tracking` -/
def withLatestTelegramRouteTracking (event : NewInboundEvent) : NewInboundEvent :=
  { event with recordLatestTelegramRoute := true }

/-- `ingest`, and what its outcome is answered with. -/
def takeIn (event : NewInboundEvent) (actor : ActorId) (refusal : String) : Handling :=
  .perform (.ingest event) (fun
    | .error error => .done (.error (.store error))
    | .ok (.accepted _ _ sequence) => .done (.ok (.accepted actor sequence))
    | .ok (.duplicate _ _) => .done (.ok .duplicate)
    | .ok .unauthorized => .done (.error (.refused refusal)))

-----------------------------------------------------------------------------------------
-- Where handlers fail
-----------------------------------------------------------------------------------------

/-- The operations that handlers go on from: a response that is already stored is the one asked
for, and a message is already stored or its sender is let in.
-/
def Fine (s : ChannelStore) : ChannelOp → Prop
  | .enqueueGatewayDelivery delivery =>
      ∀ row, s.stored delivery.intentKey = some row → row.Repeats delivery
  | .ingest event =>
      storedEvent s.store event.gateway event.externalId ≠ none
        ∨ authorizedActor s.database event.identityProvider event.identitySubject ≠ none
  | _ => True

section Failures

variable {between : ChannelStore → ChannelStore → Prop} {digest : String → CodeHash}
  (incoming : Incoming)

theorem Incoming.respond_failsWhere (text : String)
    : (incoming.respond text).FailsWhere between (Performs digest) Fine := by
  apply Program.FailsWhere.perform
  · intro before answer after performs fine
    cases enqueued_of_performs performs rfl with
    | repeated found same => exact .done _
    | conflict found differs => exact absurd (fine _ found) differs
    | queued new key same inserted => exact .done _
  · intro before answer after performs wrong
    cases enqueued_of_performs performs rfl with
    | repeated found same =>
        refine absurd (fun row stored => ?_) wrong
        rw [found] at stored
        cases stored
        exact same
    | conflict found differs => exact ⟨.store keyReused, rfl⟩
    | queued new key same inserted =>
        refine absurd (fun row stored => ?_) wrong
        rw [new] at stored
        cases stored

/-- A redemption itself never fails. -/
theorem Incoming.answerLink_failsWhere {identity : LinkIdentity} (argument : Option String)
    (named : isBlank incoming.gateway = false ∧ isBlank incoming.externalId = false)
    (namedIdentity : identity.Named)
    : (incoming.answerLink identity argument).FailsWhere between (Performs digest) Fine := by
  cases argument with
  | none => exact incoming.respond_failsWhere notLinked
  | some code =>
      apply Program.FailsWhere.perform
      · intro before answer after performs _
        obtain ⟨outcome, rfl, -⟩ := redeemed_of_performs performs named namedIdentity
        exact incoming.respond_failsWhere (redemptionText outcome)
      · intro before answer after performs wrong
        exact absurd trivial wrong

theorem welcome_failsWhere {identity : LinkIdentity} {next : ActorId → Handling}
    (goesOn : ∀ actor, (next actor).FailsWhere between (Performs digest) Fine)
    : (incoming.welcome identity next).FailsWhere between (Performs digest) Fine := by
  apply Program.FailsWhere.perform
  · intro before answer after performs _
    cases answer with
    | none => exact incoming.respond_failsWhere notLinked
    | some found =>
        by_cases disabled : found.2 = false
        · simp only [if_pos disabled]
          exact incoming.respond_failsWhere actorDisabled
        · simp only [if_neg disabled]
          exact goesOn found.1
  · intro before answer after performs wrong
    exact absurd trivial wrong

theorem takeIn_failsWhere {event : NewInboundEvent} (actor : ActorId) (refusal : String)
    (here : event.audience = .actorPrivate) (unrecorded : event.recordLatestTelegramRoute = false)
    : (takeIn event actor refusal).FailsWhere between (Performs digest) Fine := by
  apply Program.FailsWhere.perform
  · intro before answer after performs fine
    obtain ⟨outcome, rfl, comes⟩ := ingested_of_total performs here unrecorded
    generalize after.database = store at comes
    cases comes with
    | duplicate stored => exact .done _
    | unauthorized new unknown => exact (fine.elim (· new) (· unknown)).elim
    | accepted => exact .done _
  · intro before answer after performs wrong
    obtain ⟨outcome, rfl, comes⟩ := ingested_of_total performs here unrecorded
    generalize after.database = store at comes
    cases comes with
    | duplicate stored =>
        refine absurd (Or.inl ?_) wrong
        rw [show storedEvent before.store event.gateway event.externalId = some _ from stored]
        exact Option.some_ne_none _
    | unauthorized new unknown => exact ⟨.refused refusal, rfl⟩
    | accepted new known =>
        refine absurd (Or.inr ?_) wrong
        rw [known]
        exact Option.some_ne_none _

end Failures

end Codrik.Interfaces
