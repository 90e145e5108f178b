import Codrik.Interaction.Runs
import Codrik.Runtime.Sqlite.GatewayQueue
import Codrik.Runtime.Sqlite.LinkRedemption
import Codrik.Runtime.Sqlite.Mailboxes

/-! What the gateways have in common when a message of a peer comes in: the database as they see
it, what they ask it, and their answers (`interfaces/reticulum/ingress.rs`,
`interfaces/telegram/ingress.rs`, `runtime/identity_link.rs`).
-/

namespace Codrik.Interfaces

open Codrik.Interaction
open Codrik.Relational
open Codrik.Runtime
open Codrik.Runtime.Sqlite
open Codrik.Runtime.Sqlite.IdentityLink (LinkStore LinkIdentity LinkedIdentityRow
  GatewayCommandKey GatewayCommandOutcome CodeHash redeemLinkCodeOnce)

-----------------------------------------------------------------------------------------
-- The database
-----------------------------------------------------------------------------------------

/-- An identity without its username. -/
def identityRow (row : LinkedIdentityRow) : IdentityRow := ⟨row.provider, row.subject, row.actorId⟩

/-- The identities without their usernames. -/
def identityRows (identities : Table LinkedIdentityRow) : Table IdentityRow where
  rows := identities.rows.map identityRow
  distinct := List.pairwise_map.mpr identities.distinct

/-- The database as a gateway sees it. Actors and identities are those of `links`, the responses
of gateways are in `queue`, and everything else that messages come to is in `store`.
-/
structure ChannelStore where
  store : Store
  queue : GatewayQueue
  links : LinkStore
  /-- Events take their numbers from the counters of their actors. -/
  numbered : ∀ event ∈ store.events, event.mailboxSequence
    ≤ mailboxCount links.actors event.actorId
  /-- Gateways know one kind of command. -/
  linkCommands : ∀ command ∈ links.commands, command.kind = "identity_link"

namespace ChannelStore

/-- The tables that `ingest` reads and writes. -/
def database (s : ChannelStore) : Store :=
  { s.store with actors := s.links.actors, identities := identityRows s.links.identities }

/-- The database before anyone is known. -/
def empty : ChannelStore where
  store := .initial ∅ ∅
  queue := .empty
  links := ⟨∅, ∅, ∅, ∅, ∅⟩
  numbered := fun _ mem => absurd mem (Table.not_mem_empty _)
  linkCommands := fun _ mem => absurd mem (Table.not_mem_empty _)

/-- `resolve_identity`: the actor of an identity, and whether it is enabled. -/
def resolveIdentity (s : ChannelStore) (provider subject : String) : Option (ActorId × Bool) := do
  let identity ← s.links.identities.find? (·.Of ⟨provider, subject, none⟩)
  let actor ← s.links.actors.find? (·.id = identity.actorId)
  pure (actor.id, actor.enabled)

end ChannelStore

-----------------------------------------------------------------------------------------
-- Acceptance
-----------------------------------------------------------------------------------------

section Acceptance

variable {event : NewInboundEvent} {now : Timestamp} {ids : FreshIds} {outcome : IngressOutcome}
  {s s' : Store}

/-- The event a message was stored as. -/
def storedEvent (s : Store) (gateway : String) (externalId : ExternalId) : Option EventRow :=
  s.events.find? (fun row => row.gateway = gateway ∧ row.externalId = externalId)

/-- What `ingest` comes to. -/
inductive Ingested (event : NewInboundEvent) (s : Store) : IngressOutcome → Store → Prop
  | duplicate {row : EventRow} (stored : storedEvent s event.gateway event.externalId = some row)
    : Ingested event s (.duplicate row.id row.mailboxSequence) s
  | unauthorized (new : storedEvent s event.gateway event.externalId = none)
      (unknown : authorizedActor s event.identityProvider event.identitySubject = none)
    : Ingested event s .unauthorized s
  | accepted {actorId : ActorId} {row : EventRow} {eventId : EventId} {workItemId : WorkItemId}
      {sequence : Nat} {s' : Store}
      (new : storedEvent s event.gateway event.externalId = none)
      (known : authorizedActor s event.identityProvider event.identitySubject = some actorId)
      (key : row.gateway = event.gateway ∧ row.externalId = event.externalId)
      (shown : row.id = eventId ∧ row.mailboxSequence = sequence)
      (actor : row.actorId = actorId) (number : sequence = mailboxCount s.actors actorId + 1)
      (count : mailboxCount s'.actors actorId = sequence)
      (counts : ∀ id ≠ actorId, mailboxCount s'.actors id = mailboxCount s.actors id)
      (inserted : s.events.insert? row = some s'.events)
      (identities : s'.identities = s.identities)
    : Ingested event s (.accepted eventId workItemId sequence) s'

/-- `ingest` comes to one of the three. -/
theorem ingested_of_ok (ingested : ingest event now ids s = .ok (outcome, s'))
    : Ingested event s outcome s' := by
  simp only [ingest, Sqlite.bind_eq_ok] at ingested
  obtain ⟨_, _, ingested⟩ := ingested
  split at ingested
  · rename_i row stored
    cases ingested
    exact .duplicate stored
  · rename_i new
    split at ingested
    · rename_i unknown
      cases ingested
      exact .unauthorized new unknown
    · rename_i actorId known
      simp only [Sqlite.bind_eq_ok, execute_eq_ok] at ingested
      obtain ⟨_, _, ⟨sequence, actors⟩, taken, _, inserted, _, recorded, result⟩ := ingested
      cases result
      obtain ⟨_, _, _, rfl⟩ := recordRoute_ok recorded
      obtain ⟨number, count, counts⟩ := nextSequence_count taken
      exact .accepted new known ⟨rfl, rfl⟩ ⟨rfl, rfl⟩ rfl number count counts inserted rfl

/-- `ingest` leaves the identities alone. -/
theorem Ingested.identities (ingested : Ingested event s outcome s')
    : s'.identities = s.identities := by
  cases ingested with
  | duplicate stored => rfl
  | unauthorized new unknown => rfl
  | accepted _ _ _ _ _ _ _ _ _ identities => exact identities

/-- A message that is accepted is stored. -/
theorem Ingested.stored {eventId : EventId} {workItemId : WorkItemId} {sequence : Nat}
    (ingested : Ingested event s (.accepted eventId workItemId sequence) s')
    : storedEvent s' event.gateway event.externalId ≠ none := by
  cases ingested with
  | accepted new known key shown actor number count counts inserted =>
      intro absent
      exact Table.find?_eq_none.mp absent _ ((Table.mem_insert? inserted).mpr (Or.inr rfl)) key

/-- `ingest` stores its own message only. -/
theorem Ingested.origin (ingested : Ingested event s outcome s')
    : ∀ row ∈ s'.events, row ∈ s.events
      ∨ (row.gateway = event.gateway ∧ row.externalId = event.externalId) := by
  intro row mem
  cases ingested with
  | duplicate stored => exact Or.inl mem
  | unauthorized new unknown => exact Or.inl mem
  | accepted new known key shown actor number count counts inserted =>
      rcases (Table.mem_insert? inserted).mp mem with stored | same
      · exact Or.inl stored
      · exact Or.inr (same ▸ key)

/-- The events of a store are numbered by the counters of its actors. -/
def Numbered (s : Store) : Prop :=
  ∀ event ∈ s.events, event.mailboxSequence ≤ mailboxCount s.actors event.actorId

/-- Well-formed stores are. -/
theorem numbered_of_wellFormed {issued : List AttachedRun} (wf : Sqlite.WellFormed issued s)
    : Numbered s := by
  intro event mem
  obtain ⟨-, actor, stored, same, counted⟩ := wf.eventActor event mem
  rw [← same, mailboxCount_eq stored]
  exact counted

/-- `ingest` numbers the event it stores. -/
theorem Numbered.ingested (numbered : Numbered s) (ingested : Ingested event s outcome s')
    : Numbered s' := by
  cases ingested with
  | duplicate stored => exact numbered
  | unauthorized new unknown => exact numbered
  | @accepted _ row _ _ _ _ new known key shown actor number count counts inserted =>
      intro other mem
      rcases (Table.mem_insert? inserted).mp mem with stored | same
      · have before := numbered other stored
        by_cases same : other.actorId = row.actorId
        · rw [same, actor] at before ⊢
          omega
        · rw [counts _ (actor ▸ same)]
          exact before
      · rw [same, actor, count, shown.2]

/-- The actor of a message that is let in is enabled. -/
theorem enabled_of_authorized {provider subject : String} {actorId : ActorId}
    (known : authorizedActor s provider subject = some actorId)
    : actorIsEnabled s actorId := by
  simp only [authorizedActor, Option.bind_eq_bind, Option.bind_eq_some_iff] at known
  obtain ⟨identity, -, known⟩ := known
  split at known
  · rename_i enabled
    cases known
    exact enabled
  · cases known

/-- The work item of a message is there, or is inserted. -/
theorem upsertWorkItem_total (s : Store) (ids : FreshIds) (actorId : ActorId)
    (audience : Audience) (now : Timestamp)
    : ∃ workItems, upsertWorkItem s (workItemFor s actorId audience ids.workItem) actorId
        audience now = .ok workItems := by
  unfold upsertWorkItem
  split
  · exact ⟨_, rfl⟩
  · rename_i absent
    obtain ⟨workItems, inserted⟩ := Table.insert?_eq_some (t := s.workItems)
      (r := newWorkItem (workItemFor s actorId audience ids.workItem) actorId .interactive audience
        now)
      (fun row mem clash => absent ⟨row, mem, clash⟩)
    exact ⟨workItems, execute_eq_ok.mpr inserted⟩

/-- An actor with an identity has a counter. -/
theorem nextSequence_total {provider subject : String} {actorId : ActorId}
    (known : authorizedActor s provider subject = some actorId)
    : ∃ sequence actors, nextSequence s actorId = .ok (sequence, actors) := by
  obtain ⟨actor, stored, same, -⟩ := enabled_of_authorized known
  have found : s.actors.find? (·.id = actorId) = some actor :=
    Table.find?_eq_some_of_unique stored same
      (fun other mem also => Table.eq_of_clash mem stored (also.trans same.symm))
  exact ⟨actor.nextMailboxSequence + 1, _, by rw [nextSequence, found]⟩

/-- A message for one actor that is stored is a duplicate. -/
theorem ingest_stored {row : EventRow} (here : event.audience = .actorPrivate)
    (stored : storedEvent s event.gateway event.externalId = some row)
    : ingest event now ids s = .ok (.duplicate row.id row.mailboxSequence, s) := by
  rw [ingest, here, show s.events.find? (fun row => row.gateway = event.gateway
    ∧ row.externalId = event.externalId) = some row from stored]
  rfl

/-- A message for one actor, whose route is not recorded, is always taken. -/
theorem ingest_total (numbered : Numbered s)
    (fresh : ∀ event ∈ s.events, event.id ≠ ids.event) (here : event.audience = .actorPrivate)
    (unrecorded : event.recordLatestTelegramRoute = false)
    : ∃ outcome s', ingest event now ids s = .ok (outcome, s') := by
  cases stored : storedEvent s event.gateway event.externalId with
  | some row =>
      exact ⟨.duplicate row.id row.mailboxSequence, s, ingest_stored here stored⟩
  | none =>
      have new : ∀ row ∈ s.events, ¬(row.gateway = event.gateway
          ∧ row.externalId = event.externalId) := by
        intro row mem same
        exact Table.find?_eq_none.mp stored row mem same
      cases known : authorizedActor s event.identityProvider event.identitySubject with
      | none =>
          refine ⟨.unauthorized, s, ?_⟩
          simp only [ingest, here, known]
          rw [show s.events.find? (fun row => row.gateway = event.gateway
            ∧ row.externalId = event.externalId) = none from stored]
          rfl
      | some actorId =>
          obtain ⟨workItems, upserted⟩ := upsertWorkItem_total s ids actorId event.audience now
          obtain ⟨sequence, actors, taken⟩ := nextSequence_total known
          have number := (nextSequence_count taken).1
          obtain ⟨events, inserted⟩ := Table.insert?_eq_some (t := s.events)
            (r := { id := ids.event, actorId := actorId,
                    workItemId := some (workItemFor s actorId event.audience ids.workItem),
                    mailboxSequence := sequence, gateway := event.gateway,
                    externalId := event.externalId, kind := event.kind,
                    audience := event.audience, deliveryRoute := event.deliveryRoute,
                    executionPolicy := event.executionPolicy, ingressSource := none,
                    payloadJson := event.payloadJson, state := .pending, runId := none })
            (by
              rintro row mem (same | ⟨same, count⟩ | same)
              · exact fresh row mem same
              · have bound := numbered row mem
                simp only at same count
                rw [same] at bound
                omega
              · exact new row mem same)
          have recorded : recordRoute event actorId sequence now ids
              { s with workItems := workItems, actors := actors, events := events }
              = .ok { s with workItems := workItems, actors := actors, events := events } := by
            rw [recordRoute, unrecorded]
          refine ⟨.accepted ids.event (workItemFor s actorId event.audience ids.workItem) sequence,
            { s with workItems := workItems, actors := actors, events := events }, ?_⟩
          simp only [ingest, Sqlite.bind_eq_ok]
          refine ⟨(), by rw [here]; rfl, ?_⟩
          rw [show s.events.find? (fun row => row.gateway = event.gateway
            ∧ row.externalId = event.externalId) = none from stored, known]
          exact Sqlite.bind_eq_ok.mpr ⟨_, upserted, Sqlite.bind_eq_ok.mpr ⟨_, taken, Sqlite.bind_eq_ok.mpr
            ⟨_, execute_eq_ok.mpr inserted, Sqlite.bind_eq_ok.mpr ⟨_, recorded, rfl⟩⟩⟩⟩

end Acceptance

-----------------------------------------------------------------------------------------
-- Link codes
-----------------------------------------------------------------------------------------

/-- `LINK_CODE_ALPHABET` -/
def linkCodeAlphabet : List Char := "23456789ABCDEFGHJKMNPQRSTUVWXYZ".toList

/-- `u8::is_ascii_whitespace` -/
def isAsciiWhitespace (c : Char) : Bool := c.toNat ∈ [0x20, 0x9, 0xA, 0xC, 0xD]

/-- `normalize_link_code`. Characters outside ASCII keep all of their bytes, and none of these
is in the alphabet.
-/
def normalizeLinkCode (raw : String) : Option String :=
  let normalized := (raw.toList.filter (fun c => !isAsciiWhitespace c && c ≠ '-')).map
    Char.toUpper
  if normalized.length ≠ 8 ∨ normalized.any (· ∉ linkCodeAlphabet) then
    none
  else
    some (String.ofList normalized)

-----------------------------------------------------------------------------------------
-- Operations
-----------------------------------------------------------------------------------------

/-- What Telegram tells of a file. -/
structure RemoteFile where
  fileSize : Option Nat
  filePath : Option String
deriving DecidableEq

/-- What handling a message asks for. `download` is `download_file` and `store_stream` in one:
nothing else reads what they leave behind.
-/
inductive ChannelOp
  | resolveIdentity (provider subject : String)
  | redeemCodeOnce (key : GatewayCommandKey) (identity : LinkIdentity) (code : String)
  | enqueueGatewayDelivery (delivery : NewGatewayDelivery)
  | ingest (event : NewInboundEvent)
  | getFile (fileId : String)
  | download (actor : ActorId) (displayName filePath : String)

def channel : Interface where
  Op := ChannelOp
  Answer
    | .resolveIdentity _ _ => Option (ActorId × Bool)
    | .redeemCodeOnce _ _ _ => Except StoreError GatewayCommandOutcome
    | .enqueueGatewayDelivery _ => Except StoreError GatewayDeliveryId
    | .ingest _ => Except StoreError IngressOutcome
    | .getFile _ => Except String RemoteFile
    | .download _ _ _ => Except String Attachment

/-- What an operation meets with: the time, the identifiers it draws, and what Telegram sends. -/
structure Circumstances where
  now : Timestamp
  ids : FreshIds
  deliveryId : GatewayDeliveryId
  file : Except String RemoteFile
  attachment : Except String Attachment

namespace ChannelStore

variable {s : ChannelStore}

/-- Drawn identifiers are new. -/
def Draws (s : ChannelStore) (circumstances : Circumstances) : Prop :=
  (∀ event ∈ s.store.events, event.id ≠ circumstances.ids.event)
    ∧ ∀ delivery ∈ s.queue.deliveries, delivery.id ≠ circumstances.deliveryId

/-- A redemption leaves the counters alone, and records what it answers. -/
theorem redeemLinkCodeOnce_keeps {links links' : LinkStore} {key : GatewayCommandKey}
    {identity : LinkIdentity} {codeHash : Option CodeHash} {now : Timestamp}
    {outcome : GatewayCommandOutcome}
    (redeemed : redeemLinkCodeOnce key identity codeHash now links = .ok (outcome, links'))
    : links'.actors = links.actors
      ∧ ((∃ stored ∈ links.commands, stored.key = key ∧ stored.outcomeJson = outcome
          ∧ links' = links)
        ∨ (links.commands.find? (·.key = key) = none
          ∧ links.commands.insert? ⟨key, "identity_link", outcome, now⟩
            = some links'.commands)) := by
  simp only [redeemLinkCodeOnce, Sqlite.bind_eq_ok, require_eq_ok] at redeemed
  obtain ⟨_, _, _, _, redeemed⟩ := redeemed
  split at redeemed
  · rename_i stored found
    simp only [Sqlite.bind_eq_ok, require_eq_ok] at redeemed
    obtain ⟨_, _, same⟩ := redeemed
    cases same
    obtain ⟨mem, same⟩ := Table.find?_some found
    exact ⟨rfl, Or.inl ⟨stored, mem, same, rfl, rfl⟩⟩
  · rename_i new
    rw [IdentityLink.redeemInTransaction_eq] at redeemed
    simp only [Sqlite.bind_eq_ok, execute_eq_ok, Except.ok.injEq] at redeemed
    obtain ⟨_, rfl, commands, inserted, same⟩ := redeemed
    cases same
    rw [IdentityLink.redeemed_commands] at inserted
    exact ⟨IdentityLink.redeemed_actors _, Or.inr ⟨new, inserted⟩⟩

/-- Commands with names are answered. -/
theorem redeemLinkCodeOnce_total {links : LinkStore}
    (kinds : ∀ command ∈ links.commands, command.kind = "identity_link")
    {key : GatewayCommandKey} {identity : LinkIdentity} (codeHash : Option CodeHash)
    (now : Timestamp) (named : key.Named) (namedIdentity : identity.Named)
    : ∃ outcome links', redeemLinkCodeOnce key identity codeHash now links
        = .ok (outcome, links') := by
  cases found : links.commands.find? (·.key = key) with
  | some stored =>
      obtain ⟨mem, -⟩ := Table.find?_some found
      refine ⟨stored.outcomeJson, links, ?_⟩
      simp only [redeemLinkCodeOnce, Sqlite.bind_eq_ok, require_eq_ok]
      refine ⟨(), named, (), namedIdentity, ?_⟩
      rw [found]
      exact Sqlite.bind_eq_ok.mpr ⟨(), require_eq_ok.mpr (kinds stored mem), rfl⟩
  | none =>
      have absent := Table.find?_eq_none.mp found
      obtain ⟨commands, inserted⟩ := Table.insert?_eq_some (t := links.commands)
        (r := ⟨key, "identity_link",
          IdentityLink.gatewayOutcome (links.outcome identity codeHash now), now⟩)
        (fun row mem same => absent row mem same)
      refine ⟨IdentityLink.gatewayOutcome (links.outcome identity codeHash now),
        { links.redeemed identity now (links.outcome identity codeHash now) with
          commands := commands }, ?_⟩
      simp only [redeemLinkCodeOnce, Sqlite.bind_eq_ok, require_eq_ok]
      refine ⟨(), named, (), namedIdentity, ?_⟩
      rw [found]
      refine Sqlite.bind_eq_ok.mpr ⟨_, IdentityLink.redeemInTransaction_eq, Sqlite.bind_eq_ok.mpr
        ⟨commands, execute_eq_ok.mpr ?_, rfl⟩⟩
      rw [IdentityLink.redeemed_commands]
      exact inserted

/-- `ingest`, on the database as gateways see it. -/
def ingest (event : NewInboundEvent) (circumstances : Circumstances) (s : ChannelStore)
    : Except StoreError IngressOutcome × ChannelStore :=
  match done : Sqlite.ingest event circumstances.now circumstances.ids s.database with
  | .error error => (.error error, s)
  | .ok (outcome, store) =>
      (.ok outcome,
        { s with
          store := { store with actors := s.store.actors, identities := s.store.identities }
          links := { s.links with actors := store.actors }
          numbered := Numbered.ingested (s := s.database) s.numbered (ingested_of_ok done) })

/-- `redeem_code_once`, where `digest` is `hash_link_code`. -/
def redeemCodeOnce (digest : String → CodeHash) (key : GatewayCommandKey)
    (identity : LinkIdentity) (code : String) (now : Timestamp) (s : ChannelStore)
    : Except StoreError GatewayCommandOutcome × ChannelStore :=
  match done : redeemLinkCodeOnce key identity ((normalizeLinkCode code).map digest) now
      s.links with
  | .error error => (.error error, s)
  | .ok (outcome, links) =>
      (.ok outcome,
        { s with
          links := links
          numbered := by
            rw [(redeemLinkCodeOnce_keeps done).1]
            exact s.numbered
          linkCommands := by
            rcases (redeemLinkCodeOnce_keeps done).2 with ⟨_, _, _, _, same⟩ | ⟨_, inserted⟩
            · exact same ▸ s.linkCommands
            · intro command mem
              rcases (Table.mem_insert? inserted).mp mem with stored | rfl
              · exact s.linkCommands command stored
              · rfl })

/-- `enqueue_gateway_delivery` -/
def enqueueGatewayDelivery (delivery : NewGatewayDelivery) (circumstances : Circumstances)
    (s : ChannelStore)
    : Except StoreError GatewayDeliveryId × ChannelStore :=
  match Sqlite.enqueueGatewayDelivery delivery circumstances.deliveryId circumstances.now
      s.queue with
  | .error error => (.error error, s)
  | .ok (id, queue) => (.ok id, { s with queue := queue })

/-- An operation as it is answered. -/
def perform (digest : String → CodeHash) (circumstances : Circumstances) (s : ChannelStore)
    : (op : ChannelOp) → channel.Answer op × ChannelStore
  | .resolveIdentity provider subject => (s.resolveIdentity provider subject, s)
  | .redeemCodeOnce key identity code =>
      s.redeemCodeOnce digest key identity code circumstances.now
  | .enqueueGatewayDelivery delivery => s.enqueueGatewayDelivery delivery circumstances
  | .ingest event => s.ingest event circumstances
  | .getFile _ => (circumstances.file, s)
  | .download _ _ _ => (circumstances.attachment, s)

end ChannelStore

/-- The exchanges a gateway may have with the database. -/
def Performs (digest : String → CodeHash) (exchange : Exchange channel ChannelStore) : Prop :=
  ∃ circumstances, exchange.before.Draws circumstances
    ∧ (exchange.answer, exchange.after)
      = exchange.before.perform digest circumstances exchange.op

/-- There is a number beyond those of a list, by induction on the list. -/
theorem exists_above (numbers : List Nat) : ∃ n, ∀ m ∈ numbers, m < n := by
  induction numbers with
  | nil => exact ⟨0, fun _ mem => (List.not_mem_nil mem).elim⟩
  | cons m rest ih =>
      obtain ⟨n, above⟩ := ih
      refine ⟨n + m + 1, fun other mem => ?_⟩
      rcases List.mem_cons.mp mem with rfl | mem
      · omega
      · have := above other mem
        omega

/-- Every operation is answered: identifiers that are new can always be drawn. -/
theorem performs_total {digest : String → CodeHash} (s : ChannelStore) (op : ChannelOp)
    : ∃ answer after, Performs digest ⟨s, op, answer, after⟩ := by
  obtain ⟨n, newEvent⟩ := exists_above (s.store.events.rows.map (·.id.number))
  obtain ⟨m, newDelivery⟩ := exists_above (s.queue.deliveries.rows.map (·.id.number))
  let circumstances : Circumstances :=
    { now := 0
      ids := ⟨⟨0⟩, ⟨n⟩, ⟨0⟩, fun _ => ⟨0⟩, fun _ => ⟨0⟩, fun _ _ => ⟨0⟩, fun _ _ => ⟨0⟩⟩
      deliveryId := ⟨m⟩
      file := .error "", attachment := .error "" }
  have draws : s.Draws circumstances := by
    constructor
    · intro event mem same
      have := newEvent event.id.number (List.mem_map.mpr ⟨event, mem, rfl⟩)
      rw [same] at this
      exact Nat.lt_irrefl _ this
    · intro delivery mem same
      have := newDelivery delivery.id.number (List.mem_map.mpr ⟨delivery, mem, rfl⟩)
      rw [same] at this
      exact Nat.lt_irrefl _ this
  exact ⟨(s.perform digest circumstances op).1, (s.perform digest circumstances op).2,
    circumstances, draws, rfl⟩

-----------------------------------------------------------------------------------------
-- What the operations come to
-----------------------------------------------------------------------------------------

section Operations

variable {digest : String → CodeHash} {before after : ChannelStore}

/-- The delivery that is stored under a key. -/
def ChannelStore.stored (s : ChannelStore) (key : GatewayIntentKey) : Option QueuedDelivery :=
  s.queue.deliveries.find? (·.intentKey = key)

/-- The error of a key that is used again for another delivery. -/
def keyReused : StoreError :=
  .rejected "gateway delivery intent key was reused with different immutable data"

/-- What the request for a response comes to. -/
inductive Enqueued (delivery : NewGatewayDelivery) (s : ChannelStore)
    : Except StoreError GatewayDeliveryId → ChannelStore → Prop
  | repeated {row : QueuedDelivery} (found : s.stored delivery.intentKey = some row)
      (same : row.Repeats delivery)
    : Enqueued delivery s (.ok row.id) s
  | conflict {row : QueuedDelivery} (found : s.stored delivery.intentKey = some row)
      (differs : ¬row.Repeats delivery)
    : Enqueued delivery s (.error keyReused) s
  | queued {row : QueuedDelivery} {queue : GatewayQueue}
      (new : s.stored delivery.intentKey = none) (key : row.intentKey = delivery.intentKey)
      (same : row.Repeats delivery)
      (inserted : s.queue.deliveries.insert? row = some queue.deliveries)
    : Enqueued delivery s (.ok row.id) { s with queue := queue }

/-- A delivery whose key is stored is compared with what is stored. -/
theorem enqueueGatewayDelivery_stored {delivery : NewGatewayDelivery} {id : GatewayDeliveryId}
    {now : Timestamp} {q : GatewayQueue} {row : QueuedDelivery}
    (found : q.deliveries.find? (·.intentKey = delivery.intentKey) = some row)
    : Sqlite.enqueueGatewayDelivery delivery id now q
      = if row.Repeats delivery then .ok (row.id, q) else .error keyReused := by
  obtain ⟨mem, same⟩ := Table.find?_some found
  have kept : q.insertDelivery (newDelivery id delivery now) = .ok q := by
    rw [GatewayQueue.insertDelivery, if_pos ⟨row, mem, same⟩]
  rw [Sqlite.enqueueGatewayDelivery, kept]
  simp only [bind, Except.bind, found]
  by_cases repeats : row.Repeats delivery
  · rw [if_pos repeats]
    exact Sqlite.bind_eq_ok.mpr ⟨(), require_eq_ok.mpr repeats, rfl⟩
  · rw [if_neg repeats]
    simp only [require, if_neg repeats]
    rfl

/-- A delivery under a new key is inserted, unless it names a source. -/
theorem enqueueGatewayDelivery_new {delivery : NewGatewayDelivery} {id : GatewayDeliveryId}
    {now : Timestamp} {q : GatewayQueue}
    (new : q.deliveries.find? (·.intentKey = delivery.intentKey) = none)
    (fresh : ∀ row ∈ q.deliveries, row.id ≠ id) (own : delivery.sourceOutboxId = none)
    : ∃ deliveries, q.deliveries.insert? (newDelivery id delivery now) = some deliveries
      ∧ Sqlite.enqueueGatewayDelivery delivery id now q
        = .ok (id, { q with deliveries := deliveries }) := by
  have absent : ∀ row ∈ q.deliveries, row.intentKey ≠ delivery.intentKey :=
    fun row mem same => Table.find?_eq_none.mp new row mem same
  obtain ⟨deliveries, inserted⟩ := Table.insert?_eq_some (t := q.deliveries)
    (r := newDelivery id delivery now) (by
      rintro row mem (same | same | ⟨known, source, -⟩)
      · exact fresh row mem same
      · exact absent row mem same
      · exact known (source.trans own))
  have stored : q.insertDelivery (newDelivery id delivery now)
      = .ok { q with deliveries := deliveries } := by
    rw [GatewayQueue.insertDelivery, if_neg (fun ⟨row, mem, same⟩ => absent row mem same)]
    refine Sqlite.bind_eq_ok.mpr ⟨(), require_eq_ok.mpr ?_, Sqlite.bind_eq_ok.mpr
      ⟨deliveries, execute_eq_ok.mpr inserted, rfl⟩⟩
    intro outboxId source
    rw [show (newDelivery id delivery now).sourceOutboxId = none from own] at source
    cases source
  have mem : newDelivery id delivery now ∈ deliveries :=
    (Table.mem_insert? inserted).mpr (Or.inr rfl)
  have found : deliveries.find? (·.intentKey = delivery.intentKey)
      = some (newDelivery id delivery now) :=
    Table.find?_eq_some_of_unique mem rfl
      (fun other known same => Table.eq_of_clash known mem (Or.inr (Or.inl same)))
  refine ⟨deliveries, inserted, ?_⟩
  rw [Sqlite.enqueueGatewayDelivery]
  refine Sqlite.bind_eq_ok.mpr ⟨_, stored, ?_⟩
  rw [found]
  exact Sqlite.bind_eq_ok.mpr ⟨(), require_eq_ok.mpr ⟨rfl, rfl, rfl, rfl⟩, rfl⟩

/-- A request for a response that names no source comes to one of the three. -/
theorem enqueued_of_performs {delivery : NewGatewayDelivery}
    {answer : Except StoreError GatewayDeliveryId}
    (performs : Performs digest ⟨before, .enqueueGatewayDelivery delivery, answer, after⟩)
    (own : delivery.sourceOutboxId = none)
    : Enqueued delivery before answer after := by
  obtain ⟨circumstances, ⟨-, fresh⟩, result⟩ := performs
  change (answer, after) = before.enqueueGatewayDelivery delivery circumstances at result
  simp only [ChannelStore.enqueueGatewayDelivery] at result
  cases found : before.stored delivery.intentKey with
  | some row =>
      rw [enqueueGatewayDelivery_stored found] at result
      by_cases repeats : row.Repeats delivery
      · rw [if_pos repeats] at result
        cases result
        exact .repeated found repeats
      · rw [if_neg repeats] at result
        cases result
        exact .conflict found repeats
  | none =>
      obtain ⟨deliveries, inserted, queued⟩
        : ∃ deliveries, before.queue.deliveries.insert?
              (newDelivery circumstances.deliveryId delivery circumstances.now) = some deliveries
            ∧ Sqlite.enqueueGatewayDelivery delivery circumstances.deliveryId circumstances.now
                before.queue
              = .ok (circumstances.deliveryId, { before.queue with deliveries := deliveries }) :=
        enqueueGatewayDelivery_new found fresh own
      rw [queued] at result
      cases result
      have intended : (newDelivery circumstances.deliveryId delivery circumstances.now).intentKey
          = delivery.intentKey := rfl
      exact .queued found intended ⟨rfl, rfl, rfl, rfl⟩ inserted

/-- `ingest` comes to what it comes to on the tables it sees, or it fails. -/
theorem ingested_of_performs {event : NewInboundEvent}
    {answer : Except StoreError IngressOutcome}
    (performs : Performs digest ⟨before, .ingest event, answer, after⟩)
    : (∃ error, answer = .error error ∧ after = before)
      ∨ ∃ outcome, answer = .ok outcome
        ∧ Ingested event before.database outcome after.database
        ∧ after.queue = before.queue ∧ after.links.commands = before.links.commands := by
  obtain ⟨circumstances, -, result⟩ := performs
  change (answer, after) = before.ingest event circumstances at result
  simp only [ChannelStore.ingest] at result
  split at result
  · rename_i error _
    cases result
    exact Or.inl ⟨error, rfl, rfl⟩
  · rename_i outcome store done
    cases result
    have comes := ingested_of_ok done
    refine Or.inr ⟨outcome, rfl, ?_, rfl, rfl⟩
    change Ingested event before.database outcome
      { store with identities := before.database.identities }
    rw [← comes.identities]
    exact comes

/-- Only `ingest` writes the tables that messages come to. -/
theorem store_of_performs {exchange : Exchange channel ChannelStore}
    (performs : Performs digest exchange) (other : ∀ event, exchange.op ≠ .ingest event)
    : exchange.after.store = exchange.before.store := by
  obtain ⟨circumstances, -, result⟩ := performs
  obtain ⟨before, op, answer, after⟩ := exchange
  cases op with
  | ingest event => exact absurd rfl (other event)
  | resolveIdentity provider subject => exact congrArg ChannelStore.store (Prod.mk.inj result).2
  | getFile fileId => exact congrArg ChannelStore.store (Prod.mk.inj result).2
  | download actor displayName filePath => exact congrArg ChannelStore.store (Prod.mk.inj result).2
  | redeemCodeOnce key identity code =>
      change (answer, after) = before.redeemCodeOnce digest key identity code circumstances.now
        at result
      simp only [ChannelStore.redeemCodeOnce] at result
      split at result <;> cases result <;> rfl
  | enqueueGatewayDelivery delivery =>
      change (answer, after) = before.enqueueGatewayDelivery delivery circumstances at result
      simp only [ChannelStore.enqueueGatewayDelivery] at result
      split at result <;> cases result <;> rfl

/-- Only `enqueue_gateway_delivery` writes responses. -/
theorem queue_of_performs {exchange : Exchange channel ChannelStore}
    (performs : Performs digest exchange)
    (other : ∀ delivery, exchange.op ≠ .enqueueGatewayDelivery delivery)
    : exchange.after.queue = exchange.before.queue := by
  obtain ⟨circumstances, -, result⟩ := performs
  obtain ⟨before, op, answer, after⟩ := exchange
  cases op with
  | enqueueGatewayDelivery delivery => exact absurd rfl (other delivery)
  | resolveIdentity provider subject => exact congrArg ChannelStore.queue (Prod.mk.inj result).2
  | getFile fileId => exact congrArg ChannelStore.queue (Prod.mk.inj result).2
  | download actor displayName filePath => exact congrArg ChannelStore.queue (Prod.mk.inj result).2
  | redeemCodeOnce key identity code =>
      change (answer, after) = before.redeemCodeOnce digest key identity code circumstances.now
        at result
      simp only [ChannelStore.redeemCodeOnce] at result
      split at result <;> cases result <;> rfl
  | ingest event =>
      change (answer, after) = before.ingest event circumstances at result
      simp only [ChannelStore.ingest] at result
      split at result <;> cases result <;> rfl

/-- A message that is stored is a duplicate. -/
theorem duplicate_of_performs {event : NewInboundEvent} {answer : Except StoreError IngressOutcome}
    (performs : Performs digest ⟨before, .ingest event, answer, after⟩)
    (here : event.audience = .actorPrivate)
    (stored : storedEvent before.store event.gateway event.externalId ≠ none)
    : (∃ id sequence, answer = .ok (.duplicate id sequence)) ∧ after = before := by
  obtain ⟨row, stored⟩ := Option.ne_none_iff_exists'.mp stored
  obtain ⟨circumstances, -, result⟩ := performs
  change (answer, after) = before.ingest event circumstances at result
  have known : Sqlite.ingest event circumstances.now circumstances.ids before.database
      = .ok (.duplicate row.id row.mailboxSequence, before.database) :=
    ingest_stored here stored
  simp only [ChannelStore.ingest] at result
  split at result
  · rename_i failed
    rw [known] at failed
    cases failed
  · rename_i outcome store done
    rw [known] at done
    cases done
    cases result
    exact ⟨⟨_, _, rfl⟩, rfl⟩

/-- Looking someone up and fetching a file leave the database alone. -/
theorem unchanged_of_performs {op : ChannelOp} {answer : channel.Answer op}
    (performs : Performs digest ⟨before, op, answer, after⟩)
    (reads
      : (∃ provider subject, op = .resolveIdentity provider subject)
        ∨ (∃ fileId, op = .getFile fileId)
        ∨ ∃ actor displayName filePath, op = .download actor displayName filePath)
    : after = before := by
  obtain ⟨circumstances, -, result⟩ := performs
  rcases reads with ⟨_, _, rfl⟩ | ⟨_, rfl⟩ | ⟨_, _, _, rfl⟩
  · exact (Prod.mk.inj result).2
  · exact (Prod.mk.inj result).2
  · exact (Prod.mk.inj result).2

/-- A message for one actor whose route is not recorded never fails to be taken. -/
theorem ingested_of_total {event : NewInboundEvent} {answer : Except StoreError IngressOutcome}
    (performs : Performs digest ⟨before, .ingest event, answer, after⟩)
    (here : event.audience = .actorPrivate) (unrecorded : event.recordLatestTelegramRoute = false)
    : ∃ outcome, answer = .ok outcome ∧ Ingested event before.database outcome after.database := by
  rcases ingested_of_performs performs with ⟨error, failed, -⟩ | ⟨outcome, answered, comes, -⟩
  · obtain ⟨circumstances, ⟨fresh, -⟩, result⟩ := performs
    obtain ⟨outcome, store, total⟩
      : ∃ outcome store, Sqlite.ingest event circumstances.now circumstances.ids before.database
          = .ok (outcome, store) :=
      ingest_total before.numbered fresh here unrecorded
    change (answer, after) = before.ingest event circumstances at result
    simp only [ChannelStore.ingest] at result
    split at result
    · rename_i impossible
      rw [total] at impossible
      cases impossible
    · cases result
      cases failed
  · exact ⟨outcome, answered, comes⟩

/-- A redemption under a named key answers, and what it answers is recorded. -/
theorem redeemed_of_performs {key : GatewayCommandKey} {identity : LinkIdentity} {code : String}
    {answer : Except StoreError GatewayCommandOutcome}
    (performs : Performs digest ⟨before, .redeemCodeOnce key identity code, answer, after⟩)
    (named : key.Named) (namedIdentity : identity.Named)
    : ∃ outcome, answer = .ok outcome ∧ after.store = before.store
        ∧ after.queue = before.queue
        ∧ ((∃ command ∈ before.links.commands, command.key = key
            ∧ command.outcomeJson = outcome ∧ after = before)
          ∨ (before.links.commands.find? (·.key = key) = none
            ∧ ∃ now, before.links.commands.insert? ⟨key, "identity_link", outcome, now⟩
              = some after.links.commands)) := by
  obtain ⟨circumstances, -, result⟩ := performs
  change (answer, after) = before.redeemCodeOnce digest key identity code circumstances.now at result
  simp only [ChannelStore.redeemCodeOnce] at result
  obtain ⟨outcome, links, total⟩ := ChannelStore.redeemLinkCodeOnce_total before.linkCommands
    ((normalizeLinkCode code).map digest) circumstances.now named namedIdentity
  split at result
  · rename_i failed
    rw [total] at failed
    cases failed
  · rename_i outcome links done
    cases result
    refine ⟨outcome, rfl, rfl, rfl, ?_⟩
    rcases (ChannelStore.redeemLinkCodeOnce_keeps done).2 with
      ⟨command, mem, same, answers, kept⟩ | ⟨new, inserted⟩
    · refine Or.inl ⟨command, mem, same, answers, ?_⟩
      cases kept
      rfl
    · exact Or.inr ⟨new, circumstances.now, inserted⟩

end Operations

end Codrik.Interfaces
