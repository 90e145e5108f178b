import Codrik.Interfaces.Telegram.Ingress
import Codrik.Runtime.Sqlite.GatewayOrder

/-! Updates that are handled again: Telegram sends an update until the poller has confirmed it, and
the poller tries a failed one again (`interfaces/telegram/ingress.rs`,
`interfaces/telegram/polling.rs`).
-/

namespace Codrik.Interfaces.Telegram

open Codrik.Interaction
open Codrik.Relational
open Codrik.Runtime
open Codrik.Runtime.Sqlite
open Codrik.Runtime.Sqlite.IdentityLink (LinkIdentity GatewayCommandKey CodeHash)
open Codrik.Transition

-----------------------------------------------------------------------------------------
-- What is kept of an update
-----------------------------------------------------------------------------------------

/-- The names an update is kept under. -/
def TelegramIngressService.key (service : TelegramIngressService) (update : TelegramUpdate)
    : GatewayCommandKey :=
  ⟨s!"telegram:{service.botId}", toString update.updateId⟩

section Keys

variable (key : GatewayCommandKey)

/-- The intent key of the response to an update. -/
def responseIntent : GatewayIntentKey :=
  .response s!"gateway-response:{key.gateway}:{key.externalId}"

/-- An event is stored for the update. -/
def Accepted (s : ChannelStore) : Prop :=
  storedEvent s.store key.gateway (.remote key.externalId) ≠ none

/-- A response is stored for the update. -/
def Answered (s : ChannelStore) : Prop := s.stored (responseIntent key) ≠ none

/-- What everyone else does between the operations on an update: no one else takes it in, and
responses are never deleted.
-/
structure Elsewhere (s t : ChannelStore) : Prop where
  accepted : Accepted key t → Accepted key s
  answered : Answered key s → Answered key t

/-- The event of the update is not deleted either. -/
def Undeleted (s t : ChannelStore) : Prop :=
  Elsewhere key s t ∧ (Accepted key s → Accepted key t)

/-- The operations on an update. -/
def Ours : ChannelOp → Prop
  | .ingest event =>
      event.gateway = key.gateway ∧ event.externalId = .remote key.externalId
        ∧ event.audience = .actorPrivate
  | .enqueueGatewayDelivery delivery =>
      delivery.intentKey = responseIntent key ∧ delivery.sourceOutboxId = none
  | .redeemCodeOnce command identity _ => command = key ∧ command.Named ∧ identity.Named
  | _ => True

/-- What has to hold of an operation on an update: once the update is accepted its sender still
has an enabled actor and its file can still be fetched, and a response that is stored is the one
asked for.
-/
def Smooth : Exchange channel ChannelStore → Prop
  | ⟨before, .resolveIdentity provider subject, _, _⟩ =>
      Accepted key before → ∃ actor, before.resolveIdentity provider subject = some (actor, true)
  | ⟨before, .getFile _, answer, _⟩ =>
      Accepted key before → ∃ remote path, answer = .ok remote ∧ RemoteFile.path remote = some path
  | ⟨before, .download _ _ _, answer, _⟩ =>
      Accepted key before → ∃ stored, answer = .ok stored ∧ validateRuntimeAttachment stored = .ok ()
  | ⟨before, .enqueueGatewayDelivery delivery, _, _⟩ =>
      ∀ row, before.stored delivery.intentKey = some row → row.Repeats delivery
  | _ => True

end Keys

/-- The event an exchange creates. -/
def takenIn : Exchange channel ChannelStore → List EventId
  | ⟨_, .ingest _, answer, _⟩ =>
      match answer with
      | .ok (.accepted id _ _) => [id]
      | _ => []
  | _ => []

/-- The response an exchange creates. -/
def answeredWith : Exchange channel ChannelStore → List GatewayDeliveryId
  | ⟨before, .enqueueGatewayDelivery delivery, answer, _⟩ =>
      match answer with
      | .ok id => if before.stored delivery.intentKey = none then [id] else []
      | .error _ => []
  | _ => []

-----------------------------------------------------------------------------------------
-- Events and responses are created once
-----------------------------------------------------------------------------------------

section Once

variable {key : GatewayCommandKey} {digest : String → CodeHash}
  {exchange : Exchange channel ChannelStore}

/-- The exchanges over an update, as they are answered. -/
def Serves (digest : String → CodeHash) (key : GatewayCommandKey)
    (exchange : Exchange channel ChannelStore)
    : Prop :=
  Performs digest exchange ∧ Ours key exchange.op

theorem takenIn_eq_nil {before after : ChannelStore} {op : ChannelOp} {answer : channel.Answer op}
    (other : ∀ event, op ≠ .ingest event)
    : takenIn ⟨before, op, answer, after⟩ = [] := by
  cases op with
  | ingest event => exact absurd rfl (other event)
  | resolveIdentity provider subject => rfl
  | redeemCodeOnce key identity code => rfl
  | enqueueGatewayDelivery delivery => rfl
  | getFile fileId => rfl
  | download actor displayName filePath => rfl

/-- No exchange takes an event away, and one that creates an event leaves it there. -/
theorem takenIn_once : Program.MadeOnce (Undeleted key) (Serves digest key) takenIn
    (Accepted key) where
  kept _ _ change := change.2
  present exchange serves here := by
    obtain ⟨performs, ours⟩ := serves
    obtain ⟨before, op, answer, after⟩ := exchange
    by_cases other : ∀ event, op ≠ .ingest event
    · refine ⟨takenIn_eq_nil other, ?_⟩
      rw [Accepted, store_of_performs performs other]
      exact here
    · obtain ⟨event, same⟩ := not_forall_not.mp other
      subst same
      obtain ⟨gateway, externalId, audience⟩ := ours
      rw [Accepted, ← gateway, ← externalId] at here
      obtain ⟨⟨_, _, rfl⟩, same⟩ := duplicate_of_performs performs audience here
      refine ⟨rfl, ?_⟩
      rw [Accepted, same, ← gateway, ← externalId]
      exact here
  absent exchange serves := by
    obtain ⟨performs, ours⟩ := serves
    obtain ⟨before, op, answer, after⟩ := exchange
    by_cases other : ∀ event, op ≠ .ingest event
    · rw [takenIn_eq_nil other]
      exact ⟨Nat.zero_le 1, fun some => absurd rfl some⟩
    · obtain ⟨event, same⟩ := not_forall_not.mp other
      subst same
      obtain ⟨gateway, externalId, -⟩ := ours
      rcases ingested_of_performs performs with ⟨error, rfl, -⟩ | ⟨outcome, rfl, comes, -⟩
      · exact ⟨Nat.zero_le 1, fun some => absurd rfl some⟩
      · cases outcome with
        | duplicate id sequence => exact ⟨Nat.zero_le 1, fun some => absurd rfl some⟩
        | unauthorized => exact ⟨Nat.zero_le 1, fun some => absurd rfl some⟩
        | accepted id workItemId sequence =>
            refine ⟨Nat.le_refl 1, fun _ => ?_⟩
            rw [Accepted, ← gateway, ← externalId]
            exact comes.stored

theorem answeredWith_eq_nil {before after : ChannelStore} {op : ChannelOp}
    {answer : channel.Answer op} (other : ∀ delivery, op ≠ .enqueueGatewayDelivery delivery)
    : answeredWith ⟨before, op, answer, after⟩ = [] := by
  cases op with
  | enqueueGatewayDelivery delivery => exact absurd rfl (other delivery)
  | resolveIdentity provider subject => rfl
  | redeemCodeOnce key identity code => rfl
  | ingest event => rfl
  | getFile fileId => rfl
  | download actor displayName filePath => rfl

theorem answeredWith_ok {before after : ChannelStore} {delivery : NewGatewayDelivery}
    {id : GatewayDeliveryId}
    : answeredWith ⟨before, .enqueueGatewayDelivery delivery,
        (.ok id : Except StoreError GatewayDeliveryId), after⟩
      = if before.stored delivery.intentKey = none then [id] else [] :=
  rfl

/-- No exchange takes a response away, and one that creates a response leaves it there. -/
theorem answeredWith_once : Program.MadeOnce (Undeleted key) (Serves digest key) answeredWith
    (Answered key) where
  kept _ _ change := change.1.answered
  present exchange serves here := by
    obtain ⟨performs, ours⟩ := serves
    obtain ⟨before, op, answer, after⟩ := exchange
    by_cases other : ∀ delivery, op ≠ .enqueueGatewayDelivery delivery
    · refine ⟨answeredWith_eq_nil other, ?_⟩
      rw [Answered, ChannelStore.stored, queue_of_performs performs other]
      exact here
    · obtain ⟨delivery, same⟩ := not_forall_not.mp other
      subst same
      obtain ⟨intentKey, own⟩ := ours
      rw [Answered, ← intentKey] at here
      rw [Answered, ← intentKey]
      cases enqueued_of_performs performs own with
      | repeated found same => exact ⟨if_neg here, here⟩
      | conflict found differs => exact ⟨rfl, here⟩
      | queued new _ same inserted => exact absurd new here
  absent exchange serves := by
    obtain ⟨performs, ours⟩ := serves
    obtain ⟨before, op, answer, after⟩ := exchange
    by_cases other : ∀ delivery, op ≠ .enqueueGatewayDelivery delivery
    · rw [answeredWith_eq_nil other]
      exact ⟨Nat.zero_le 1, fun some => absurd rfl some⟩
    · obtain ⟨delivery, same⟩ := not_forall_not.mp other
      subst same
      obtain ⟨intentKey, own⟩ := ours
      rw [Answered, ← intentKey]
      cases enqueued_of_performs performs own with
      | repeated found same =>
          have some : before.stored delivery.intentKey ≠ none := by
            rw [found]
            exact Option.some_ne_none _
          rw [answeredWith_ok, if_neg some]
          exact ⟨Nat.zero_le 1, fun some => absurd rfl some⟩
      | conflict found differs => exact ⟨Nat.zero_le 1, fun some => absurd rfl some⟩
      | queued new named same inserted =>
          rw [answeredWith_ok, if_pos new]
          refine ⟨Nat.le_refl 1, fun _ absent => ?_⟩
          exact Table.find?_eq_none.mp absent _ ((Table.mem_insert? inserted).mpr (Or.inr rfl))
            named

end Once

-----------------------------------------------------------------------------------------
-- What others do
-----------------------------------------------------------------------------------------

section Others

variable {key : GatewayCommandKey} {s t : ChannelStore}

/-- A delivery keeps its intent key, by cases on the call. -/
theorem revise_intentKey (q : GatewayQueue) (call : QueueCall) (d : QueuedDelivery)
    : (q.revise call d).intentKey = d.intentKey := by
  cases call <;> simp only [GatewayQueue.revise, GatewayQueue.afterClaim] <;>
    (try split) <;> (try split) <;> rfl

/-- The queue never loses a key, whatever is done to it. -/
theorem stored_after {q : GatewayQueue} (call : QueueCall) {intentKey : GatewayIntentKey}
    (stored : q.deliveries.find? (·.intentKey = intentKey) ≠ none)
    : (q.after call).deliveries.find? (·.intentKey = intentKey) ≠ none := by
  rcases q.after_cases call with ⟨same, -⟩ | ⟨_, -, -, step⟩
  · rw [same]
    exact stored
  · obtain ⟨row, found⟩ := Option.ne_none_iff_exists'.mp stored
    obtain ⟨mem, named⟩ := Table.find?_some found
    intro absent
    exact Table.find?_eq_none.mp absent _ (step.forward row mem)
      ((revise_intentKey q call row).trans named)

/-- Workers of any gateway, and whoever else calls the queue, leave updates to their handlers. -/
theorem elsewhere_queue (call : QueueCall) (queued : t.queue = s.queue.after call)
    (store : t.store = s.store)
    : Elsewhere key s t where
  accepted accepted := by
    rw [Accepted, store] at accepted
    exact accepted
  answered answered := by
    rw [Answered, ChannelStore.stored, queued]
    exact stored_after call answered

/-- So does whoever links, enables, disables or deletes senders and their actors. -/
theorem elsewhere_links (queue : t.queue = s.queue) (store : t.store = s.store)
    : Elsewhere key s t where
  accepted accepted := by
    rw [Accepted, store] at accepted
    exact accepted
  answered answered := by
    rw [Answered, ChannelStore.stored, queue]
    exact answered

/-- So does the handling of any other message. -/
theorem elsewhere_performs {digest : String → CodeHash} {other : GatewayCommandKey}
    {exchange : Exchange channel ChannelStore} (serves : Serves digest other exchange)
    (differs : other ≠ key)
    : Elsewhere key exchange.before exchange.after := by
  obtain ⟨performs, ours⟩ := serves
  obtain ⟨before, op, answer, after⟩ := exchange
  constructor
  · intro accepted
    by_cases asksNothing : ∀ event, op ≠ .ingest event
    · rw [Accepted, store_of_performs performs asksNothing] at accepted
      exact accepted
    · obtain ⟨event, same⟩ := not_forall_not.mp asksNothing
      subst same
      obtain ⟨gateway, externalId, -⟩ := ours
      rcases ingested_of_performs performs with ⟨_, -, same⟩ | ⟨outcome, -, comes, -⟩
      · exact same ▸ accepted
      · refine fun absent => accepted (Table.find?_eq_none.mpr (fun row mem named => ?_))
        rcases comes.origin row mem with stored | own
        · exact Table.find?_eq_none.mp absent row stored named
        · refine differs ?_
          rw [gateway, externalId] at own
          have first : other.gateway = key.gateway := own.1.symm.trans named.1
          have second : other.externalId = key.externalId :=
            ExternalId.remote.inj (own.2.symm.trans named.2)
          cases other
          cases key
          cases first
          cases second
          rfl
  · intro answered
    by_cases asksNothing : ∀ delivery, op ≠ .enqueueGatewayDelivery delivery
    · rw [Answered, ChannelStore.stored, queue_of_performs performs asksNothing]
      exact answered
    · obtain ⟨delivery, same⟩ := not_forall_not.mp asksNothing
      subst same
      cases enqueued_of_performs performs ours.2 with
      | repeated found same => exact answered
      | conflict found differs => exact answered
      | queued new named same inserted =>
          obtain ⟨row, found⟩ := Option.ne_none_iff_exists'.mp answered
          obtain ⟨mem, here⟩ := Table.find?_some found
          exact fun absent => Table.find?_eq_none.mp absent row
            ((Table.mem_insert? inserted).mpr (Or.inl mem)) here

end Others

-----------------------------------------------------------------------------------------
-- What handlers ask
-----------------------------------------------------------------------------------------

/-- The names of an update at hand. -/
def Incoming.key (incoming : Incoming) : GatewayCommandKey :=
  ⟨incoming.gateway, incoming.externalId⟩

section Asking

variable (incoming : Incoming)

theorem respond_asks (text : String) : (incoming.respond text).Asks (Ours (Incoming.key incoming)) := by
  refine ⟨⟨rfl, rfl⟩, fun answer => ?_⟩
  cases answer <;> trivial

theorem answerLink_asks {identity : LinkIdentity} (argument : Option String)
    (named : (Incoming.key incoming).Named) (namedIdentity : identity.Named)
    : (incoming.answerLink identity argument).Asks (Ours (Incoming.key incoming)) := by
  cases argument with
  | none => exact respond_asks incoming notLinked
  | some code =>
      refine ⟨⟨rfl, named, namedIdentity⟩, fun answer => ?_⟩
      cases answer with
      | error error => trivial
      | ok outcome => exact respond_asks incoming _

theorem welcome_asks {allowed : ChannelOp → Prop} {identity : LinkIdentity}
    {next : ActorId → Handling}
    (resolves : allowed (.resolveIdentity identity.provider identity.subject))
    (responds : ∀ text, (incoming.respond text).Asks allowed)
    (goesOn : ∀ actor, (next actor).Asks allowed)
    : (incoming.welcome identity next).Asks allowed := by
  refine ⟨resolves, fun answer => ?_⟩
  cases answer with
  | none => exact responds notLinked
  | some found =>
      by_cases disabled : found.2 = false
      · simp only [if_pos disabled]
        exact responds actorDisabled
      · simp only [if_neg disabled]
        exact goesOn found.1

theorem takeIn_asks {allowed : ChannelOp → Prop} {event : NewInboundEvent} (actor : ActorId)
    (refusal : String) (ingests : allowed (.ingest event))
    : (takeIn event actor refusal).Asks allowed := by
  refine ⟨ingests, fun answer => ?_⟩
  rcases answer with error | (_ | _ | _) <;> trivial

theorem attachmentWithRoute_ok {gateway externalId : String} {identity : LinkIdentity}
    {route : DeliveryRoute} {caption : Option String} {stored : Attachment}
    {event : NewInboundEvent}
    (made : attachmentWithRoute gateway externalId identity route caption stored = .ok event)
    : event.gateway = gateway ∧ event.externalId = .remote externalId
      ∧ event.audience = .actorPrivate := by
  simp only [attachmentWithRoute, Sqlite.bind_eq_ok] at made
  obtain ⟨_, _, same⟩ := made
  cases same
  exact ⟨rfl, rfl, rfl⟩

theorem takeInFile_asks {identity : LinkIdentity} (caption : Option String) (actor : ActorId)
    (stored : Attachment)
    : (takeInFile incoming identity caption actor stored).Asks (Ours (Incoming.key incoming)) := by
  unfold takeInFile
  split
  · trivial
  · rename_i event made
    obtain ⟨gateway, externalId, audience⟩ := attachmentWithRoute_ok made
    exact takeIn_asks actor _ ⟨gateway, externalId, audience⟩

theorem downloadFile_asks {identity : LinkIdentity} (caption : Option String)
    (displayName : String) (actor : ActorId) (path : Option String)
    : (downloadFile incoming identity caption displayName actor path).Asks
        (Ours (Incoming.key incoming)) := by
  cases path with
  | none => exact respond_asks incoming _
  | some path =>
      refine ⟨trivial, fun answer => ?_⟩
      cases answer with
      | error error => exact respond_asks incoming _
      | ok stored => exact takeInFile_asks incoming caption actor stored

theorem receiveFile_asks {identity : LinkIdentity} (caption : Option String)
    (attachment : TelegramInboundAttachment) (actor : ActorId)
    : (receiveFile incoming identity caption attachment actor).Asks
        (Ours (Incoming.key incoming)) := by
  unfold receiveFile
  split
  · exact respond_asks incoming _
  · refine ⟨trivial, fun answer => ?_⟩
    cases answer with
    | error error => exact respond_asks incoming _
    | ok remote => exact downloadFile_asks incoming caption _ actor _

end Asking

/-- Whatever an update asks for, its handler performs operations on it only. -/
theorem handle_asks (service : TelegramIngressService) (update : TelegramUpdate)
    : (handle service update).Asks (Ours (service.key update)) := by
  obtain ⟨inbound, classified, named⟩ := update.classify_total service.named
  have keyNamed : (service.key update).Named := ⟨telegram_named _, isBlank_toString _⟩
  simp only [handle, classified]
  cases inbound with
  | unsupported => trivial
  | attachment caption attachment identity route =>
      refine welcome_asks (service.incoming update route) trivial (respond_asks _) (fun actor => ?_)
      split
      · exact receiveFile_asks (service.incoming update route) caption attachment actor
      · trivial
  | link code identity route =>
      exact answerLink_asks (service.incoming update route) code keyNamed (named identity rfl)
  | text text identity route =>
      refine welcome_asks (service.incoming update route) trivial (respond_asks _) (fun actor => ?_)
      exact takeIn_asks actor _ ⟨rfl, rfl, rfl⟩

-----------------------------------------------------------------------------------------
-- What handlers fail over
-----------------------------------------------------------------------------------------

section Failing

variable {between : ChannelStore → ChannelStore → Prop} {digest : String → CodeHash}

/-- The exchanges over an update that nothing disturbs. -/
def Undisturbed (digest : String → CodeHash) (key : GatewayCommandKey)
    (exchange : Exchange channel ChannelStore)
    : Prop :=
  Serves digest key exchange ∧ Smooth key exchange

/-- An update that is not accepted yet could not be taken in, or its file was not in order. -/
def Blamed (key : GatewayCommandKey) (exchange : Exchange channel ChannelStore) : Prop :=
  ¬Accepted key exchange.before
    ∧ ((∃ event, exchange.op = .ingest event)
      ∨ ∃ actor displayName filePath, exchange.op = .download actor displayName filePath)

variable (incoming : Incoming)

/-- A response never fails where the one that is stored is the one asked for. -/
theorem respond_failsOver (text : String)
    : (incoming.respond text).FailsOver between (Undisturbed digest (Incoming.key incoming))
        (Blamed (Incoming.key incoming)) := by
  refine .perform (fun before answer after undisturbed => Or.inr ?_)
  obtain ⟨⟨performs, -⟩, smooth⟩ := undisturbed
  cases enqueued_of_performs performs rfl with
  | repeated found same => exact .done _
  | conflict found differs => exact absurd (smooth _ found) differs
  | queued new key same inserted => exact .done _

theorem answerLink_failsOver {identity : LinkIdentity} (argument : Option String)
    : (incoming.answerLink identity argument).FailsOver between
        (Undisturbed digest (Incoming.key incoming)) (Blamed (Incoming.key incoming)) := by
  cases argument with
  | none => exact respond_failsOver incoming notLinked
  | some code =>
      refine .perform (fun before answer after undisturbed => Or.inr ?_)
      obtain ⟨⟨performs, -, named, namedIdentity⟩, -⟩ := undisturbed
      obtain ⟨outcome, rfl, -⟩ := redeemed_of_performs performs named namedIdentity
      exact respond_failsOver incoming (redemptionText outcome)

theorem welcome_failsOver {identity : LinkIdentity} {next : ActorId → Handling}
    (goesOn
      : ∀ actor, (next actor).FailsOver between (Undisturbed digest (Incoming.key incoming))
        (Blamed (Incoming.key incoming)))
    : (incoming.welcome identity next).FailsOver between
        (Undisturbed digest (Incoming.key incoming)) (Blamed (Incoming.key incoming)) := by
  refine .perform (fun before answer after _ => Or.inr ?_)
  cases answer with
  | none => exact respond_failsOver incoming notLinked
  | some found =>
      by_cases disabled : found.2 = false
      · simp only [if_pos disabled]
        exact respond_failsOver incoming actorDisabled
      · simp only [if_neg disabled]
        exact goesOn found.1

/-- An update that is accepted is a duplicate. -/
theorem takeIn_failsOver {event : NewInboundEvent} (actor : ActorId) (refusal : String)
    : (takeIn event actor refusal).FailsOver between
        (Undisturbed digest (Incoming.key incoming)) (Blamed (Incoming.key incoming)) := by
  refine .perform (fun before answer after undisturbed => ?_)
  obtain ⟨⟨performs, gateway, externalId, audience⟩, -⟩ := undisturbed
  by_cases accepted : Accepted (Incoming.key incoming) before
  · rw [Accepted, ← gateway, ← externalId] at accepted
    obtain ⟨⟨id, sequence, rfl⟩, -⟩ := duplicate_of_performs performs audience accepted
    exact Or.inr (.done _)
  · exact Or.inl ⟨accepted, Or.inl ⟨event, rfl⟩⟩

theorem downloadFile_failsOver {identity : LinkIdentity} (caption : Option String)
    (displayName : String) (actor : ActorId) (path : Option String)
    : (downloadFile incoming identity caption displayName actor path).FailsOver between
        (Undisturbed digest (Incoming.key incoming)) (Blamed (Incoming.key incoming)) := by
  cases path with
  | none => exact respond_failsOver incoming _
  | some path =>
      refine .perform (fun before answer after undisturbed => ?_)
      cases answer with
      | error error => exact Or.inr (respond_failsOver incoming _)
      | ok stored =>
          by_cases accepted : Accepted (Incoming.key incoming) before
          · obtain ⟨attachment, same, valid⟩ := undisturbed.2 accepted
            cases same
            refine Or.inr ?_
            simp only [takeInFile, attachmentWithRoute, valid]
            exact takeIn_failsOver incoming actor _
          · exact Or.inl ⟨accepted, Or.inr ⟨actor, displayName, path, rfl⟩⟩

theorem receiveFile_failsOver {identity : LinkIdentity} (caption : Option String)
    (attachment : TelegramInboundAttachment) (actor : ActorId)
    : (receiveFile incoming identity caption attachment actor).FailsOver between
        (Undisturbed digest (Incoming.key incoming)) (Blamed (Incoming.key incoming)) := by
  unfold receiveFile
  split
  · exact respond_failsOver incoming _
  · refine .perform (fun before answer after _ => Or.inr ?_)
    cases answer with
    | error error => exact respond_failsOver incoming _
    | ok remote => exact downloadFile_failsOver incoming caption _ actor _

/-- A visit that nothing disturbs fails only over an update that is not accepted yet. -/
theorem handle_failsOver (service : TelegramIngressService) (update : TelegramUpdate)
    : (handle service update).FailsOver between (Undisturbed digest (service.key update))
        (Blamed (service.key update)) := by
  obtain ⟨inbound, classified, -⟩ := update.classify_total service.named
  simp only [handle, classified]
  cases inbound with
  | unsupported => exact .done _
  | attachment caption attachment identity route =>
      refine welcome_failsOver (service.incoming update route) (fun actor => ?_)
      split
      · exact receiveFile_failsOver (service.incoming update route) caption attachment actor
      · exact .done _
  | link code identity route => exact answerLink_failsOver (service.incoming update route) code
  | text text identity route =>
      exact welcome_failsOver (service.incoming update route)
        (fun actor => takeIn_failsOver (service.incoming update route) actor _)

end Failing

-----------------------------------------------------------------------------------------
-- Accepted updates
-----------------------------------------------------------------------------------------

/-- The updates that are taken in at all. -/
def Takes (service : TelegramIngressService) (update : TelegramUpdate) : Prop :=
  match update.classify service.botId service.botUsername with
  | .ok (.text _ _ _) => True
  | .ok (.attachment _ attachment _ _) =>
      service.attachmentIngress = true ∧ tooLarge attachment.fileSize = false
  | _ => False

/-- What is promised of an update that is accepted: nothing changes. -/
def unchanging (digest : String → CodeHash) (key : GatewayCommandKey)
    : Contract channel ChannelStore where
  Answers s op answer t := Undisturbed digest key ⟨s, op, answer, t⟩
  Relies := Undeleted key
  Guarantees s _ _ t := t = s

section Duplicates

variable {digest : String → CodeHash}

theorem stable_accepted (key : GatewayCommandKey)
    : (unchanging digest key).Stable (Accepted key) :=
  fun _ _ accepted change => change.2 accepted

variable (incoming : Incoming) {s : ChannelStore}

/-- The visit ends as one of a duplicate. -/
def Duplicate (value : Except HandleError HandleOutcome) (_ : ChannelStore) : Prop :=
  value = .ok .duplicate

theorem takeIn_duplicate {event : NewInboundEvent} (actor : ActorId) (refusal : String)
    (accepted : Accepted (Incoming.key incoming) s)
    : (takeIn event actor refusal).Meets (unchanging digest (Incoming.key incoming)) Duplicate s := by
  refine .perform (stable_accepted _) accepted (fun t accepted answer u undisturbed => ?_)
  obtain ⟨⟨performs, gateway, externalId, audience⟩, -⟩ := undisturbed
  rw [Accepted, ← gateway, ← externalId] at accepted
  obtain ⟨⟨id, sequence, rfl⟩, same⟩ := duplicate_of_performs performs audience accepted
  exact ⟨same, rfl⟩

/-- The sender of an accepted update is let in. -/
theorem welcome_duplicate {identity : LinkIdentity} {next : ActorId → Handling}
    (accepted : Accepted (Incoming.key incoming) s)
    (goesOn
      : ∀ actor t, Accepted (Incoming.key incoming) t →
        (next actor).Meets (unchanging digest (Incoming.key incoming)) Duplicate t)
    : (incoming.welcome identity next).Meets (unchanging digest (Incoming.key incoming)) Duplicate
        s := by
  refine .perform (stable_accepted _) accepted (fun t accepted answer u undisturbed => ?_)
  obtain ⟨⟨⟨circumstances, -, result⟩, -⟩, smooth⟩ := undisturbed
  obtain ⟨actor, found⟩ := smooth accepted
  obtain ⟨same, left⟩ := Prod.mk.inj result
  have resolved : answer = some (actor, true) := same.trans found
  have kept : u = t := left
  subst resolved kept
  exact ⟨rfl, goesOn actor u accepted⟩

/-- The file of an accepted update is fetched again. -/
theorem receiveFile_duplicate {identity : LinkIdentity} (caption : Option String)
    {attachment : TelegramInboundAttachment} (small : tooLarge attachment.fileSize = false)
    (actor : ActorId) (accepted : Accepted (Incoming.key incoming) s)
    : (receiveFile incoming identity caption attachment actor).Meets
        (unchanging digest (Incoming.key incoming)) Duplicate s := by
  rw [receiveFile, if_neg (by rw [small]; exact Bool.false_ne_true)]
  refine .perform (stable_accepted _) accepted (fun t accepted answer u undisturbed => ?_)
  obtain ⟨remote, path, same, located⟩ := undisturbed.2 accepted
  have kept : u = t := unchanged_of_performs undisturbed.1.1 (Or.inr (Or.inl ⟨_, rfl⟩))
  subst kept same
  refine ⟨rfl, ?_⟩
  simp only [located, downloadFile]
  refine .perform (stable_accepted _) accepted (fun t accepted answer u undisturbed => ?_)
  obtain ⟨stored, same, valid⟩ := undisturbed.2 accepted
  have kept : u = t := unchanged_of_performs undisturbed.1.1 (Or.inr (Or.inr ⟨_, _, _, rfl⟩))
  subst kept same
  refine ⟨rfl, ?_⟩
  simp only [takeInFile, attachmentWithRoute, valid]
  exact takeIn_duplicate incoming actor _ accepted

/-- A visit of an accepted update answers `Duplicate` and changes nothing. -/
theorem handle_duplicate {service : TelegramIngressService} {update : TelegramUpdate}
    (takes : Takes service update) (accepted : Accepted (service.key update) s)
    : (handle service update).Meets (unchanging digest (service.key update)) Duplicate s := by
  obtain ⟨inbound, classified, -⟩ := update.classify_total service.named
  simp only [Takes, classified] at takes
  simp only [handle, classified]
  cases inbound with
  | unsupported => exact takes.elim
  | attachment caption attachment identity route =>
      refine welcome_duplicate (service.incoming update route) accepted (fun actor t accepted => ?_)
      rw [if_pos takes.1]
      exact receiveFile_duplicate (service.incoming update route) caption takes.2 actor accepted
  | link code identity route => exact takes.elim
  | text text identity route =>
      exact welcome_duplicate (service.incoming update route) accepted (fun actor t accepted =>
        takeIn_duplicate (service.incoming update route) actor _ accepted)

end Duplicates

-----------------------------------------------------------------------------------------
-- Updates that are never taken in
-----------------------------------------------------------------------------------------

/-- Nothing is taken in. -/
def TakesNothing (op : ChannelOp) : Prop := ∀ event, op ≠ .ingest event

theorem respond_takesNothing (incoming : Incoming) (text : String)
    : (incoming.respond text).Asks TakesNothing := by
  refine ⟨fun event same => (by cases same), fun answer => ?_⟩
  cases answer <;> trivial

theorem answerLink_takesNothing (incoming : Incoming) (identity : LinkIdentity)
    (argument : Option String)
    : (incoming.answerLink identity argument).Asks TakesNothing := by
  cases argument with
  | none => exact respond_takesNothing incoming notLinked
  | some code =>
      refine ⟨fun event same => (by cases same), fun answer => ?_⟩
      cases answer with
      | error error => trivial
      | ok outcome => exact respond_takesNothing incoming _

/-- The handler of an update that is not taken in never asks for it. -/
theorem handle_takesNothing {service : TelegramIngressService} {update : TelegramUpdate}
    (refused : ¬Takes service update)
    : (handle service update).Asks TakesNothing := by
  obtain ⟨inbound, classified, -⟩ := update.classify_total service.named
  simp only [Takes, classified] at refused
  simp only [handle, classified]
  cases inbound with
  | unsupported => trivial
  | attachment caption attachment identity route =>
      refine welcome_asks (service.incoming update route) (fun event same => by cases same)
        (respond_takesNothing _) (fun actor => ?_)
      split
      · rename_i configured
        have large : tooLarge attachment.fileSize = true :=
          Bool.of_not_eq_false (fun small => refused ⟨configured, small⟩)
        rw [receiveFile, if_pos large]
        exact respond_takesNothing _ _
      · trivial
  | link code identity route =>
      exact answerLink_takesNothing (service.incoming update route) identity code
  | text text identity route => exact (refused trivial).elim

-----------------------------------------------------------------------------------------
-- All visits of an update
-----------------------------------------------------------------------------------------

/-- What happens: others do something, or the update is handled, which may be cut off by the end
of the daemon.
-/
inductive Happening
  | elsewhere
  | visit (exchanges : List (Exchange channel ChannelStore))
      (result : Option (Except HandleError HandleOutcome))

section Visits

variable (digest : String → CodeHash) (service : TelegramIngressService) (update : TelegramUpdate)

/-- The visits of an update, among others who do what `others` allows. The poller handles one
update at a time, and others may act between the operations of a visit as well.
-/
def redelivery (others : ChannelStore → ChannelStore → Prop) : System ChannelStore Happening where
  Initial s := ¬Accepted (service.key update) s ∧ ¬Answered (service.key update) s
  Step s happening t :=
    match happening with
    | .elsewhere => others s t
    | .visit exchanges result =>
        (handle service update).Runs others (Performs digest) s exchanges result t

/-- Nothing disturbs what happens. -/
def Calm (_ : ChannelStore) : Happening → Prop
  | .elsewhere => True
  | .visit exchanges _ => ∀ exchange ∈ exchanges, Smooth (service.key update) exchange

/-- All histories of an update whose event is not deleted and that nothing disturbs. -/
def calmly : System ChannelStore Happening :=
  (redelivery digest service update (Undeleted (service.key update))).restrict
    (Calm service update)

/-- What the visits of an update show. -/
def overVisits {α : Type} (made : Exchange channel ChannelStore → List α) (_ : ChannelStore)
    (happening : Happening) (_ : ChannelStore)
    : List α :=
  match happening with
  | .elsewhere => []
  | .visit exchanges _ => exchanges.flatMap made

variable {digest service update}

/-- A calm visit serves the update undisturbed. -/
theorem runs_undisturbed {others : ChannelStore → ChannelStore → Prop} {s t : ChannelStore}
    {exchanges : List (Exchange channel ChannelStore)}
    {result : Option (Except HandleError HandleOutcome)}
    (runs : (handle service update).Runs others (Performs digest) s exchanges result t)
    (smooth : ∀ exchange ∈ exchanges, Smooth (service.key update) exchange)
    : (handle service update).Runs others (Undisturbed digest (service.key update)) s exchanges
        result t := by
  have ours := runs.asks (handle_asks service update)
  exact runs.narrow (fun exchange mem performs =>
    ⟨⟨performs, ours exchange mem⟩, smooth exchange mem⟩)

/-- Only updates that are taken in are ever accepted. -/
theorem takes_of_accepted {s : ChannelStore} (reached : (calmly digest service update).Reachable s)
    (accepted : Accepted (service.key update) s)
    : Takes service update := by
  by_contra refused
  have never : ¬Accepted (service.key update) s := by
    refine reached.invariant (J := fun s => ¬Accepted (service.key update) s) ?_ ?_
    · rintro s ⟨unaccepted, -⟩
      exact unaccepted
    · intro s happening t _ unaccepted taken
      cases happening with
      | elsewhere => exact fun later => unaccepted (taken.2.1.accepted later)
      | visit exchanges result =>
          have asks := taken.2.asks (handle_takesNothing refused)
          refine (taken.2.preserves (P := fun s => ¬Accepted (service.key update) s)
            (fun s t change before later => before (change.1.accepted later)) ?_ unaccepted).2
          intro exchange mem performs before
          rw [Accepted, store_of_performs performs (asks exchange mem)]
          exact before
  exact never accepted

/-- What is made once in a visit is made once in all of them, by induction on the history. -/
theorem made_once {α : Type} {made : Exchange channel ChannelStore → List α}
    {Present : ChannelStore → Prop}
    (once : Program.MadeOnce (Undeleted (service.key update)) (Serves digest (service.key update))
      made Present)
    {s : ChannelStore} {log : List α}
    (recorded : ((calmly digest service update).recording (overVisits made)).Reachable (s, log))
    : log.length ≤ 1 ∧ (log ≠ [] → Present s) := by
  refine recorded.invariant (J := fun c => c.2.length ≤ 1 ∧ (c.2 ≠ [] → Present c.1)) ?_ ?_
  · rintro ⟨s, log⟩ ⟨-, rfl⟩
    exact ⟨Nat.zero_le 1, fun some => absurd rfl some⟩
  · rintro ⟨s, log⟩ happening ⟨t, log'⟩ - ⟨single, present⟩ ⟨taken, shown⟩
    simp only at shown single present ⊢
    subst shown
    cases happening with
    | elsewhere =>
        simp only [overVisits, List.append_nil]
        exact ⟨single, fun some => once.kept _ _ taken.2 (present some)⟩
    | visit exchanges result =>
        have ours := taken.2.asks (handle_asks service update)
        have serves : (handle service update).Runs _ (Serves digest (service.key update)) s
            exchanges result t :=
          taken.2.narrow (fun exchange mem performs => ⟨performs, ours exchange mem⟩)
        obtain ⟨noMore, fresh, appears⟩ := serves.makes once
        simp only [overVisits]
        by_cases none : log = []
        · rw [none, List.nil_append]
          exact ⟨fresh, appears⟩
        · obtain ⟨nothing, there⟩ := noMore (present none)
          rw [nothing, List.append_nil]
          exact ⟨single, fun _ => there⟩

end Visits

-----------------------------------------------------------------------------------------
-- An update that cannot be handled any more, and one that can
-----------------------------------------------------------------------------------------

namespace Lapsed

def bot : TelegramIngressService := ⟨"900", "codrik_bot", false, ⟨rfl, rfl⟩⟩

/-- A private text. -/
def hello : TelegramUpdate :=
  ⟨7, some ⟨some ⟨100, false, none⟩, ⟨100, "private"⟩, some "hello", none, [], none, none, none,
    none, none, none, none⟩⟩

theorem text_limited : 0 < 4096 := Nat.zero_lt_succ _

theorem caption_limited : 0 < 1024 := Nat.zero_lt_succ _

def route : DeliveryRoute :=
  ⟨"telegram:900", "100", none, 4096, 1024, rfl, rfl, text_limited, caption_limited⟩

def sender : LinkIdentity := ⟨"telegram:900", "100", none⟩

def incoming : Incoming := ⟨"telegram:900", "7", route⟩

def digest (_ : String) : CodeHash := Vector.replicate 32 0

def circumstances (delivery : Nat) : Circumstances where
  now := 5
  ids := ⟨⟨0⟩, ⟨0⟩, ⟨0⟩, fun _ => ⟨0⟩, fun _ => ⟨0⟩, fun _ _ => ⟨0⟩, fun _ _ => ⟨0⟩⟩
  deliveryId := ⟨delivery⟩
  file := .error ""
  attachment := .error ""

/-- The sender was told that it is not linked. -/
def told : ChannelStore :=
  (ChannelStore.empty.enqueueGatewayDelivery (incoming.response notLinked) (circumstances 1)).2

/-- The sender was linked since, and its actor disabled. -/
def disabled : ChannelStore where
  store := .initial ∅ ∅
  queue := told.queue
  links :=
    { actors := (∅ : Table ActorRow).insertOrIgnore ⟨⟨"owner"⟩, false, 0⟩
      identities := (∅ : Table IdentityLink.LinkedIdentityRow).insertOrIgnore
        ⟨"telegram:900", "100", ⟨"owner"⟩, none⟩
      codes := ∅
      attempts := ∅
      commands := ∅ }
  numbered := fun _ mem => absurd mem (Table.not_mem_empty _)
  linkCommands := fun _ mem => absurd mem (Table.not_mem_empty _)

theorem classified
    : hello.classify bot.botId bot.botUsername = .ok (.text "hello" sender route) := by
  rfl

theorem resolves : Performs digest ⟨.empty, .resolveIdentity "telegram:900" "100", none, .empty⟩ :=
  ⟨circumstances 0, ⟨fun _ mem => absurd mem (Table.not_mem_empty _),
    fun _ mem => absurd mem (Table.not_mem_empty _)⟩, rfl⟩

theorem tells : Performs digest ⟨.empty, .enqueueGatewayDelivery (incoming.response notLinked),
    (.ok ⟨1⟩ : Except StoreError GatewayDeliveryId), told⟩ :=
  ⟨circumstances 1, ⟨fun _ mem => absurd mem (Table.not_mem_empty _),
    fun _ mem => absurd mem (Table.not_mem_empty _)⟩, rfl⟩

theorem resolvesAgain : Performs digest ⟨disabled, .resolveIdentity "telegram:900" "100",
    some (⟨"owner"⟩, false), disabled⟩ :=
  ⟨circumstances 2, ⟨fun _ mem => absurd mem (Table.not_mem_empty _), by decide⟩, rfl⟩

theorem fails : Performs digest ⟨disabled, .enqueueGatewayDelivery (incoming.response actorDisabled),
    (.error keyReused : Except StoreError GatewayDeliveryId), disabled⟩ :=
  ⟨circumstances 2, ⟨fun _ mem => absurd mem (Table.not_mem_empty _), by decide⟩, rfl⟩

theorem handled : handle bot hello = incoming.welcome sender (fun actor =>
    takeIn (withLatestTelegramRouteTracking (textWithRoute "telegram:900" "7" sender route "hello"))
      actor becameUnauthorized) := by
  simp only [handle, classified]
  rfl

/-- The visit that answers the update. -/
def firstVisit : List (Exchange channel ChannelStore) :=
  [⟨.empty, .resolveIdentity "telegram:900" "100", (none : Option (ActorId × Bool)), .empty⟩,
    ⟨.empty, .enqueueGatewayDelivery (incoming.response notLinked),
      (.ok ⟨1⟩ : Except StoreError GatewayDeliveryId), told⟩]

/-- The visit that finds the answer of the first. -/
def secondVisit : List (Exchange channel ChannelStore) :=
  [⟨disabled, .resolveIdentity "telegram:900" "100",
      (some (⟨"owner"⟩, false) : Option (ActorId × Bool)), disabled⟩,
    ⟨disabled, .enqueueGatewayDelivery (incoming.response actorDisabled),
      (.error keyReused : Except StoreError GatewayDeliveryId), disabled⟩]

end Lapsed

namespace Steady
open Lapsed

/-- The sender is linked, and its actor enabled. -/
def enabled : ChannelStore where
  store := .initial ∅ ∅
  queue := .empty
  links :=
    { actors := (∅ : Table ActorRow).insertOrIgnore ⟨⟨"owner"⟩, true, 0⟩
      identities := (∅ : Table IdentityLink.LinkedIdentityRow).insertOrIgnore
        ⟨"telegram:900", "100", ⟨"owner"⟩, none⟩
      codes := ∅
      attempts := ∅
      commands := ∅ }
  numbered := fun _ mem => absurd mem (Table.not_mem_empty _)
  linkCommands := fun _ mem => absurd mem (Table.not_mem_empty _)

def event : NewInboundEvent :=
  withLatestTelegramRouteTracking (textWithRoute "telegram:900" "7" sender route "hello")

/-- The update was taken in. -/
def accepted : ChannelStore := (enabled.ingest event (circumstances 1)).2

/-- The visit that takes the update in. -/
def firstVisit : List (Exchange channel ChannelStore) :=
  [⟨enabled, .resolveIdentity "telegram:900" "100",
      (some (⟨"owner"⟩, true) : Option (ActorId × Bool)), enabled⟩,
    ⟨enabled, .ingest event, (.ok (.accepted ⟨0⟩ ⟨0⟩ 1) : Except StoreError IngressOutcome),
      accepted⟩]

def freshIds : FreshIds :=
  ⟨⟨1⟩, ⟨1⟩, ⟨1⟩, fun _ => ⟨1⟩, fun _ => ⟨1⟩, fun _ _ => ⟨1⟩, fun _ _ => ⟨1⟩⟩

/-- A visit after that. -/
def laterVisit : List (Exchange channel ChannelStore) :=
  [⟨accepted, .resolveIdentity "telegram:900" "100",
      (some (⟨"owner"⟩, true) : Option (ActorId × Bool)), accepted⟩,
    ⟨accepted, .ingest event, (.ok (.duplicate ⟨0⟩ 1) : Except StoreError IngressOutcome),
      accepted⟩]

theorem draws : enabled.Draws (circumstances 1) :=
  ⟨fun _ mem => absurd mem (Table.not_mem_empty _),
    fun _ mem => absurd mem (Table.not_mem_empty _)⟩

theorem drawsAgain : accepted.Draws { circumstances 1 with ids := freshIds } :=
  ⟨by decide, fun _ mem => absurd mem (Table.not_mem_empty _)⟩

theorem resolves : Performs digest ⟨enabled, .resolveIdentity "telegram:900" "100",
    (some (⟨"owner"⟩, true) : Option (ActorId × Bool)), enabled⟩ :=
  ⟨circumstances 1, draws, rfl⟩

theorem takes : Performs digest ⟨enabled, .ingest event,
    (.ok (.accepted ⟨0⟩ ⟨0⟩ 1) : Except StoreError IngressOutcome), accepted⟩ :=
  ⟨circumstances 1, draws, rfl⟩

theorem known : accepted.resolveIdentity "telegram:900" "100" = some (⟨"owner"⟩, true) := by
  decide +kernel

theorem resolvesAgain : Performs digest ⟨accepted, .resolveIdentity "telegram:900" "100",
    (some (⟨"owner"⟩, true) : Option (ActorId × Bool)), accepted⟩ := by
  refine ⟨{ circumstances 1 with ids := freshIds }, drawsAgain, ?_⟩
  exact congrArg (·, accepted) known.symm

theorem duplicates : Performs digest ⟨accepted, .ingest event,
    (.ok (.duplicate ⟨0⟩ 1) : Except StoreError IngressOutcome), accepted⟩ :=
  ⟨{ circumstances 1 with ids := freshIds }, drawsAgain, rfl⟩

theorem reached : (calmly digest bot hello).Reachable accepted := by
  have start : (calmly digest bot hello).Initial enabled :=
    ⟨fun accepted => accepted rfl, fun answered => answered rfl⟩
  have first : (calmly digest bot hello).Step enabled
      (.visit firstVisit (some (.ok (.accepted ⟨"owner"⟩ 1)))) accepted := by
    refine ⟨?_, ?_⟩
    · intro exchange mem
      rcases List.mem_cons.mp mem with rfl | mem
      · exact fun accepted => absurd rfl accepted
      · rw [List.mem_singleton.mp mem]
        trivial
    · change (handle bot hello).Runs _ _ _ _ _ _
      rw [handled]
      exact .perform Steady.resolves (.perform takes (.done _ _))
  exact .step (.initial start) first

theorem visited : (calmly digest bot hello).Step accepted
    (.visit laterVisit (some (.ok .duplicate))) accepted := by
  refine ⟨?_, ?_⟩
  · intro exchange mem
    rcases List.mem_cons.mp mem with rfl | mem
    · exact fun _ => ⟨⟨"owner"⟩, known⟩
    · rw [List.mem_singleton.mp mem]
      trivial
  · change (handle bot hello).Runs _ _ _ _ _ _
    rw [handled]
    exact .perform Steady.resolvesAgain (.perform duplicates (.done _ _))

end Steady

end Codrik.Interfaces.Telegram
