import Codrik.Collections.Places
import Codrik.Runtime.Ipc.Protocol
import Codrik.Transition.System

/-! The hub that passes the text and the activity of runs on to the clients that follow them
(`runtime/stream_hub.rs`).
-/

namespace Codrik.Runtime.Stream

open Codrik.Runtime.Ipc
open Codrik.Transition

-----------------------------------------------------------------------------------------
-- Events
-----------------------------------------------------------------------------------------

inductive AgentActivityEvent
  | modelStepStarted
  | description (description : String)
  | toolStarted (name : String)
  | toolFinished (name : String) (succeeded : Bool)
  | completed | cancelled | failed
deriving DecidableEq

/-- `activity_event` -/
def activityEvent : AgentActivityEvent → ActivityEvent
  | .modelStepStarted => .modelStepStarted
  | .description description => .description description
  | .toolStarted name => .toolStarted name
  | .toolFinished name succeeded => .toolFinished name succeeded
  | .completed => .completed
  | .cancelled => .cancelled
  | .failed => .failed

inductive PublishedBody
  | text (delta : String)
  | activity (event : AgentActivityEvent)
deriving DecidableEq

namespace PublishedBody

def isText : PublishedBody → Bool
  | .text _ => true
  | .activity _ => false

def bytes : PublishedBody → Nat
  | .text delta => delta.utf8ByteSize
  | .activity (.description description) => description.utf8ByteSize
  | .activity (.toolStarted name) => name.utf8ByteSize
  | .activity (.toolFinished name _) => name.utf8ByteSize
  | .activity _ => 0

def event (requestId : RequestId) : PublishedBody → ServerEvent
  | .text delta => .textDelta requestId delta
  | .activity event => .activity requestId (activityEvent event)

/-- The text of a body. -/
def texts : PublishedBody → List String
  | .text delta => [delta]
  | .activity _ => []

end PublishedBody

-----------------------------------------------------------------------------------------
-- The hub
-----------------------------------------------------------------------------------------

/-- What `with_limits` accepts. -/
structure StreamLimits where
  eventLimit : Nat
  byteLimit : Nat
  globalByteLimit : Nat
  reservesGap : 2 ≤ eventLimit
  byteLimitPositive : 0 < byteLimit
  globalByteLimitPositive : 0 < globalByteLimit
  representable : byteLimit < 2 ^ 64 ∧ globalByteLimit < 2 ^ 64

structure QueuedEvent where
  event : ServerEvent
  bytes : Nat
deriving DecidableEq

structure SubscriptionQueue where
  events : List QueuedEvent
  queuedBytes : Nat
  gapEmitted : Bool
  suppressText : Bool
deriving DecidableEq

/-- How far the drop of a subscription is: it is first disconnected, then removed from the map,
and its state is dropped when nobody holds it any more.
-/
inductive Lifetime
  | connected | disconnected | removed | dropped
deriving DecidableEq

structure SubscriptionState where
  requestId : RequestId
  queue : SubscriptionQueue
  lifetime : Lifetime
deriving DecidableEq

/-- A call of `publish` under way: the requests that are left, and the subscribers that are left
of the first of them once they are known.
-/
structure Publication where
  body : PublishedBody
  requests : List RequestId
  subscribers : Option (List Nat)
deriving DecidableEq

/-- The subscriptions and the calls of `publish` so far, by number. Whatever a queue and the
global count go through under the lock of the queue is one step.
-/
structure StreamHub where
  queuedBytes : Nat
  subscriptions : List SubscriptionState
  publishing : List Publication
deriving DecidableEq

/-- `subscribe_inner` -/
def SubscriptionState.new (requestId : RequestId) : SubscriptionState :=
  ⟨requestId, ⟨[], 0, false, false⟩, .connected⟩

/-- `usize::saturating_add` -/
def saturatingAdd (a b : Nat) : Nat := min (a + b) (2 ^ 64 - 1)

/-- `reserve_global_bytes` -/
def reserveGlobalBytes (limits : StreamLimits) (queued bytes : Nat) : Option Nat :=
  (checkedAdd queued bytes).filter (fun next => decide (next ≤ limits.globalByteLimit))

/-- The global count with the bytes of an event that a queue has room for. -/
def reserve (limits : StreamLimits) (queuedBytes : Nat) (queue : SubscriptionQueue) (bytes : Nat)
    : Option Nat :=
  let normalCapacity := limits.eventLimit - 1
  if queue.events.length < normalCapacity
      ∧ saturatingAdd queue.queuedBytes bytes ≤ limits.byteLimit then
    reserveGlobalBytes limits queuedBytes bytes
  else
    none

def SubscriptionQueue.push (queue : SubscriptionQueue) (queued : QueuedEvent)
    : SubscriptionQueue :=
  { queue with
    queuedBytes := queue.queuedBytes + queued.bytes
    events := queue.events ++ [queued] }

/-- The queue once its first event is taken. -/
def SubscriptionQueue.pop (queue : SubscriptionQueue) (queued : QueuedEvent)
    (events : List QueuedEvent) : SubscriptionQueue :=
  { queue with
    events := events
    queuedBytes := queue.queuedBytes - queued.bytes }

def SubscriptionQueue.emitGap (queue : SubscriptionQueue) (request : RequestId)
    : SubscriptionQueue :=
  { queue with
    gapEmitted := true
    suppressText := true
    events := queue.events ++ [⟨.streamGap request, 0⟩] }

/-- `SubscriptionState::enqueue`, with the global count. -/
def SubscriptionState.enqueue (limits : StreamLimits) (queuedBytes : Nat)
    (request : RequestId) (body : PublishedBody) (s : SubscriptionState)
    : SubscriptionState × Nat :=
  if s.lifetime ≠ .connected then
    (s, queuedBytes)
  else if body.isText = true ∧ s.queue.suppressText = true then
    (s, queuedBytes)
  else
    match reserve limits queuedBytes s.queue body.bytes with
    | some next =>
        ({ s with queue := s.queue.push ⟨body.event request, body.bytes⟩ }, next)
    | none =>
        if s.queue.gapEmitted = true then
          (s, queuedBytes)
        else
          ({ s with queue := s.queue.emitGap request }, queuedBytes)

/-- `SubscriptionState::drop`: what a dropped state counts for. -/
def SubscriptionState.liveBytes (s : SubscriptionState) : Nat :=
  if s.lifetime = .dropped then 0 else (s.queue.events.map (·.bytes)).sum

/-- Its entry is in the map. -/
def SubscriptionState.Registered (s : SubscriptionState) : Prop :=
  s.lifetime = .connected ∨ s.lifetime = .disconnected

instance : DecidablePred SubscriptionState.Registered :=
  fun _ => inferInstanceAs (Decidable (_ ∨ _))

namespace StreamHub

/-- The hub with another state of a subscription, and another global count. -/
def change (hub : StreamHub) (number : Nat) (s : SubscriptionState) (queuedBytes : Nat)
    : StreamHub :=
  { hub with subscriptions := hub.subscriptions.set number s, queuedBytes := queuedBytes }

/-- The hub with a call of `publish` further on. -/
def proceed (hub : StreamHub) (number : Nat) (publication : Publication) : StreamHub :=
  { hub with publishing := hub.publishing.set number publication }

/-- `StreamHub::subscribers` -/
def subscribers (hub : StreamHub) (request : RequestId) : List Nat :=
  (List.range hub.subscriptions.length).filter (fun number =>
    hub.subscriptions[number]?.any (fun s => s.requestId = request ∧ s.Registered))

/-- One step of `StreamHub::publish`: it takes the subscribers of its next request, or it comes
to the next of them, or to the end of them.
-/
def advance (limits : StreamLimits) (hub : StreamHub) (number : Nat) : Option StreamHub := do
  let publication ← hub.publishing[number]?
  match publication.requests, publication.subscribers with
  | [], _ => none
  | request :: _, none =>
      some (hub.proceed number { publication with subscribers := some (hub.subscribers request) })
  | _ :: requests, some [] =>
      some (hub.proceed number { publication with requests := requests, subscribers := none })
  | request :: _, some (subscriber :: rest) => do
      let s ← hub.subscriptions[subscriber]?
      let (s, queuedBytes) := s.enqueue limits hub.queuedBytes request publication.body
      some ((hub.change subscriber s queuedBytes).proceed number
        { publication with subscribers := some rest })

/-- `publish_text` and `publish_activity`, called by a task that goes on with `advance`. -/
def publish (hub : StreamHub) (requests : List RequestId) (body : PublishedBody) : StreamHub :=
  if body = .text "" then hub
  else { hub with publishing := hub.publishing ++ [⟨body, requests, none⟩] }

/-- `try_recv` -/
def tryRecv (hub : StreamHub) (number : Nat) : Option (ServerEvent × StreamHub) := do
  let s ← hub.subscriptions[number]?
  if s.lifetime ≠ .connected then
    none
  else
    match s.queue.events with
    | [] => none
    | queued :: events =>
        some (queued.event, hub.change number { s with queue := s.queue.pop queued events }
          (hub.queuedBytes - queued.bytes))

/-- A call of `publish` still holds the state of a subscription. -/
def Holds (hub : StreamHub) (number : Nat) : Prop :=
  ∃ publication ∈ hub.publishing, ∃ rest ∈ publication.subscribers, number ∈ rest

instance (hub : StreamHub) : DecidablePred hub.Holds := fun number =>
  decidable_of_iff (∃ publication ∈ hub.publishing,
      publication.subscribers.any (fun rest => decide (number ∈ rest)) = true)
    (by simp [Holds, Option.any_eq_true])

/-- `StreamSubscription::drop` and then `SubscriptionState::drop`, a step at a time. -/
def drop (hub : StreamHub) (number : Nat) : Option StreamHub := do
  let s ← hub.subscriptions[number]?
  match s.lifetime with
  | .connected =>
      some (hub.change number { s with lifetime := .disconnected } hub.queuedBytes)
  | .disconnected =>
      some (hub.change number { s with lifetime := .removed } hub.queuedBytes)
  | .removed =>
      if hub.Holds number then
        none
      else
        some (hub.change number { s with lifetime := .dropped }
          (hub.queuedBytes - s.queue.queuedBytes))
  | .dropped => none

end StreamHub

-----------------------------------------------------------------------------------------
-- Steps
-----------------------------------------------------------------------------------------

inductive HubAction
  | subscribe (request : RequestId)
  | publish (requests : List RequestId) (body : PublishedBody)
  | advance (publication : Nat)
  | tryRecv (subscription : Nat)
  | drop (subscription : Nat)

/-- The hub after an action, if the action is possible. -/
def StreamHub.next (limits : StreamLimits) (hub : StreamHub) : HubAction → Option StreamHub
  | .subscribe request =>
      some { hub with subscriptions := hub.subscriptions ++ [.new request] }
  | .publish requests body => some (hub.publish requests body)
  | .advance publication => hub.advance limits publication
  | .tryRecv subscription => (hub.tryRecv subscription).map (·.2)
  | .drop subscription => hub.drop subscription

/-- Any number of clients and runs use the hub at once. -/
def streamHub (limits : StreamLimits) : System StreamHub HubAction where
  Initial hub := hub = ⟨0, [], []⟩
  Step hub action hub' := hub.next limits action = some hub'

-----------------------------------------------------------------------------------------
-- What an event comes to
-----------------------------------------------------------------------------------------

variable {limits : StreamLimits} {hub hub' : StreamHub} {s : SubscriptionState}
  {queuedBytes next : Nat} {request : RequestId} {body : PublishedBody}

/-- Bytes are reserved when the queue has room for them and the hub too. -/
theorem reserve_eq_some {queue : SubscriptionQueue} {bytes : Nat}
    (reserved : reserve limits queuedBytes queue bytes = some next)
    : queue.events.length + 1 < limits.eventLimit
      ∧ saturatingAdd queue.queuedBytes bytes ≤ limits.byteLimit
      ∧ next = queuedBytes + bytes ∧ next ≤ limits.globalByteLimit := by
  rw [reserve] at reserved
  split at reserved
  · rename_i room
    rw [reserveGlobalBytes, Option.filter_eq_some_iff, checkedAdd] at reserved
    obtain ⟨sum, within⟩ := reserved
    split at sum
    · cases sum
      exact ⟨by omega, room.2, rfl, of_decide_eq_true within⟩
    · cases sum
  · cases reserved

/-- An event is left out, or it is queued, or a gap is queued for it. -/
inductive Enqueued (limits : StreamLimits) (queuedBytes : Nat) (request : RequestId)
    (body : PublishedBody) (s : SubscriptionState)
    : SubscriptionState × Nat → Prop
  | leftOut (why : s.lifetime = .connected →
      s.queue.suppressText = true ∨ s.queue.gapEmitted = true)
    : Enqueued limits queuedBytes request body s (s, queuedBytes)
  | queued (connected : s.lifetime = .connected)
      (shown : body.isText = true → s.queue.suppressText = false)
      (room : s.queue.events.length + 1 < limits.eventLimit)
      (bytes : saturatingAdd s.queue.queuedBytes body.bytes ≤ limits.byteLimit)
      (within : queuedBytes + body.bytes ≤ limits.globalByteLimit)
    : Enqueued limits queuedBytes request body s
        ({ s with queue := s.queue.push ⟨body.event request, body.bytes⟩ },
          queuedBytes + body.bytes)
  | gap (connected : s.lifetime = .connected) (first : s.queue.gapEmitted = false)
    : Enqueued limits queuedBytes request body s
        ({ s with queue := s.queue.emitGap request }, queuedBytes)

/-- `enqueue` does one of the three. -/
theorem enqueue_cases
    : Enqueued limits queuedBytes request body s
        (s.enqueue limits queuedBytes request body) := by
  rw [SubscriptionState.enqueue]
  by_cases gone : s.lifetime ≠ .connected
  · rw [if_pos gone]
    exact .leftOut (fun connected => absurd connected gone)
  · rw [if_neg gone]
    have connected := not_not.mp gone
    by_cases hidden : body.isText = true ∧ s.queue.suppressText = true
    · rw [if_pos hidden]
      exact .leftOut (fun _ => Or.inl hidden.2)
    · rw [if_neg hidden]
      have shown : body.isText = true → s.queue.suppressText = false :=
        fun isText => Bool.eq_false_of_not_eq_true (fun hides => hidden ⟨isText, hides⟩)
      cases reserved : reserve limits queuedBytes s.queue body.bytes with
      | some next =>
          obtain ⟨room, bytes, rfl, within⟩ := reserve_eq_some reserved
          exact .queued connected shown room bytes within
      | none =>
          by_cases emitted : s.queue.gapEmitted = true
          · simp only [if_pos emitted]
            exact .leftOut (fun _ => Or.inr emitted)
          · simp only [if_neg emitted]
            exact .gap connected (Bool.eq_false_of_not_eq_true emitted)

-----------------------------------------------------------------------------------------
-- The bytes that are queued
-----------------------------------------------------------------------------------------

/-- A queue counts its bytes and keeps its limits: one place is left for the gap. -/
structure SubscriptionQueue.Bounded (limits : StreamLimits) (queue : SubscriptionQueue)
    : Prop where
  counted : queue.queuedBytes = (queue.events.map (·.bytes)).sum
  bytes : queue.queuedBytes ≤ limits.byteLimit
  events : queue.events.length ≤ limits.eventLimit
  reserved : queue.gapEmitted = false → queue.events.length < limits.eventLimit
  suppressed : queue.suppressText = queue.gapEmitted

/-- The bytes of all queues that are still there. -/
def StreamHub.liveBytes (hub : StreamHub) : Nat :=
  (hub.subscriptions.map SubscriptionState.liveBytes).sum

/-- The queues are bounded, and so is what they hold together. -/
structure StreamHub.Accounted (limits : StreamLimits) (hub : StreamHub) : Prop where
  total : hub.queuedBytes = hub.liveBytes
  within : hub.queuedBytes ≤ limits.globalByteLimit
  each : ∀ s ∈ hub.subscriptions, s.queue.Bounded limits

/-- A state that is not dropped counts for its queue. -/
theorem liveBytes_of_bounded (bounded : s.queue.Bounded limits) (live : s.lifetime ≠ .dropped)
    : s.liveBytes = s.queue.queuedBytes := by
  rw [SubscriptionState.liveBytes, if_neg live, bounded.counted]

/-- Room for an event, without saturation, as the queue is part of the hub. -/
theorem SubscriptionQueue.Bounded.push {queue : SubscriptionQueue}
    (bounded : queue.Bounded limits) {queued : QueuedEvent}
    (room : queue.events.length + 1 < limits.eventLimit)
    (bytes : saturatingAdd queue.queuedBytes queued.bytes ≤ limits.byteLimit)
    (within : queue.queuedBytes + queued.bytes ≤ limits.globalByteLimit)
    : (queue.push queued).Bounded limits := by
  have representable := limits.representable
  have length : (queue.push queued).events.length < limits.eventLimit := by
    simp only [SubscriptionQueue.push, List.length_append, List.length_singleton]
    exact room
  refine ⟨?_, ?_, length.le, fun _ => length, bounded.suppressed⟩
  · simp [SubscriptionQueue.push, bounded.counted]
  · rw [saturatingAdd] at bytes
    simp only [SubscriptionQueue.push]
    omega

/-- The place of the gap. -/
theorem SubscriptionQueue.Bounded.emitGap {queue : SubscriptionQueue}
    (bounded : queue.Bounded limits) (first : queue.gapEmitted = false)
    : (queue.emitGap request).Bounded limits := by
  have reserved := bounded.reserved first
  refine ⟨?_, bounded.bytes, ?_, (by intro unmarked; cases unmarked), rfl⟩
  · simp [SubscriptionQueue.emitGap, bounded.counted]
  · simp only [SubscriptionQueue.emitGap, List.length_append, List.length_singleton]
    omega

/-- A queue without its first event. -/
theorem SubscriptionQueue.Bounded.pop {queue : SubscriptionQueue} {queued : QueuedEvent}
    {events : List QueuedEvent} (bounded : queue.Bounded limits)
    (first : queue.events = queued :: events)
    : queued.bytes ≤ queue.queuedBytes
      ∧ (queue.pop queued events).Bounded limits := by
  have counted := bounded.counted
  have length : events.length < queue.events.length := by
    rw [first, List.length_cons]
    omega
  rw [first, List.map_cons, List.sum_cons] at counted
  refine ⟨by omega, ?_, (Nat.sub_le _ _).trans bounded.bytes, length.le.trans bounded.events,
    fun unmarked => length.trans (bounded.reserved unmarked), bounded.suppressed⟩
  simp only [SubscriptionQueue.pop, counted, Nat.add_sub_cancel_left]

/-- A change of one subscription that adds as much to the global count as to its queue. -/
theorem StreamHub.Accounted.change (accounted : hub.Accounted limits) {number : Nat}
    {s' : SubscriptionState} (found : hub.subscriptions[number]? = some s)
    (bounded : s'.queue.Bounded limits)
    (balanced : queuedBytes + s.liveBytes = hub.queuedBytes + s'.liveBytes)
    (within : queuedBytes ≤ limits.globalByteLimit)
    : (hub.change number s' queuedBytes).Accounted limits := by
  refine ⟨?_, within, ?_⟩
  · have sums := Collections.sum_map_set (f := SubscriptionState.liveBytes) (b := s') found
    have total := accounted.total
    simp only [StreamHub.liveBytes] at total
    simp only [StreamHub.change, StreamHub.liveBytes]
    omega
  · intro state mem
    rcases List.mem_or_eq_of_mem_set mem with mem | rfl
    · exact accounted.each state mem
    · exact bounded

/-- The bytes of a queue are among those of the hub. -/
theorem StreamHub.Accounted.le_queuedBytes (accounted : hub.Accounted limits) {number : Nat}
    (found : hub.subscriptions[number]? = some s)
    : s.liveBytes ≤ hub.queuedBytes := by
  have sums := Collections.sum_map_set (f := SubscriptionState.liveBytes)
    (b := { s with lifetime := .dropped }) found
  have total := accounted.total
  have none : ({ s with lifetime := .dropped } : SubscriptionState).liveBytes = 0 := rfl
  rw [StreamHub.liveBytes] at total
  omega

/-- An event that is offered to a subscription. -/
theorem StreamHub.Accounted.enqueue (accounted : hub.Accounted limits) (request : RequestId)
    (body : PublishedBody) {number : Nat} (found : hub.subscriptions[number]? = some s)
    : (hub.change number (s.enqueue limits hub.queuedBytes request body).1
        (s.enqueue limits hub.queuedBytes request body).2).Accounted limits := by
  have stored := List.mem_of_getElem? found
  have bounded := accounted.each s stored
  have cases : Enqueued limits hub.queuedBytes request body s
      (s.enqueue limits hub.queuedBytes request body) := enqueue_cases
  generalize s.enqueue limits hub.queuedBytes request body = result at cases
  cases cases with
  | leftOut why => exact accounted.change found bounded rfl accounted.within
  | queued connected shown room bytes within =>
      have live : s.lifetime ≠ .dropped := by
        rw [connected]
        decide
      have before := liveBytes_of_bounded bounded live
      have fits := accounted.le_queuedBytes found
      have pushed : (s.queue.push ⟨body.event request, body.bytes⟩).Bounded limits :=
        bounded.push room bytes (by simp only; omega)
      have after := liveBytes_of_bounded (s := { s with
        queue := s.queue.push ⟨body.event request, body.bytes⟩ }) pushed live
      refine accounted.change found pushed ?_ within
      simp only [SubscriptionQueue.push] at after ⊢
      omega
  | gap connected first =>
      have emitted : (s.queue.emitGap request).Bounded limits := bounded.emitGap first
      have live : s.lifetime ≠ .dropped := by
        rw [connected]
        decide
      have before := liveBytes_of_bounded bounded live
      have after := liveBytes_of_bounded (s := { s with queue := s.queue.emitGap request })
        emitted live
      refine accounted.change found emitted ?_ accounted.within
      simp only [SubscriptionQueue.emitGap] at after ⊢
      omega

-----------------------------------------------------------------------------------------
-- What a step does
-----------------------------------------------------------------------------------------

/-- What shows of the hub: a client subscribes, a text is published for a request, it reaches a
queue, and an event is received.
-/
inductive Observation
  | subscribed (subscription : Nat)
  | published (request : RequestId) (delta : String)
  | offered (subscription : Nat) (delta : String)
  | received (subscription : Nat) (event : ServerEvent)

/-- What the next step of a call of `publish` shows. -/
def Publication.observed (publication : Publication) : List Observation :=
  match publication.requests, publication.subscribers with
  | request :: _, none => publication.body.texts.map (.published request)
  | _ :: _, some (subscriber :: _) => publication.body.texts.map (.offered subscriber)
  | _, _ => []

/-- What an action shows. -/
def observe (hub : StreamHub) (action : HubAction) (_ : StreamHub) : List Observation :=
  match action with
  | .subscribe _ => [.subscribed hub.subscriptions.length]
  | .publish _ _ => []
  | .advance publication => (hub.publishing[publication]?).elim [] Publication.observed
  | .tryRecv subscription =>
      (hub.tryRecv subscription).elim [] (fun taken => [.received subscription taken.1])
  | .drop _ => []

/-- The actions by what they do. -/
inductive Takes (limits : StreamLimits) (hub : StreamHub)
    : HubAction → StreamHub → List Observation → Prop
  | subscribe (request : RequestId)
    : Takes limits hub (.subscribe request)
        { hub with subscriptions := hub.subscriptions ++ [.new request] }
        [.subscribed hub.subscriptions.length]
  | nothing (requests : List RequestId) (body : PublishedBody)
    : Takes limits hub (.publish requests body) hub []
  | publish (requests : List RequestId) (body : PublishedBody)
    : Takes limits hub (.publish requests body)
        { hub with publishing := hub.publishing ++ [⟨body, requests, none⟩] } []
  | snapshot {number : Nat} {body : PublishedBody} {request : RequestId}
      {requests : List RequestId}
      (found : hub.publishing[number]? = some ⟨body, request :: requests, none⟩)
    : Takes limits hub (.advance number)
        (hub.proceed number ⟨body, request :: requests, some (hub.subscribers request)⟩)
        (body.texts.map (.published request))
  | served {number : Nat} {body : PublishedBody} {request : RequestId}
      {requests : List RequestId}
      (found : hub.publishing[number]? = some ⟨body, request :: requests, some []⟩)
    : Takes limits hub (.advance number) (hub.proceed number ⟨body, requests, none⟩) []
  | enqueue {number subscriber : Nat} {body : PublishedBody} {request : RequestId}
      {requests : List RequestId} {rest : List Nat} {s : SubscriptionState}
      (found : hub.publishing[number]?
        = some ⟨body, request :: requests, some (subscriber :: rest)⟩)
      (stored : hub.subscriptions[subscriber]? = some s)
    : Takes limits hub (.advance number)
        ((hub.change subscriber (s.enqueue limits hub.queuedBytes request body).1
            (s.enqueue limits hub.queuedBytes request body).2).proceed number
          ⟨body, request :: requests, some rest⟩)
        (body.texts.map (.offered subscriber))
  | receive {number : Nat} {s : SubscriptionState} {queued : QueuedEvent}
      {events : List QueuedEvent} (stored : hub.subscriptions[number]? = some s)
      (connected : s.lifetime = .connected) (first : s.queue.events = queued :: events)
    : Takes limits hub (.tryRecv number)
        (hub.change number { s with queue := s.queue.pop queued events }
          (hub.queuedBytes - queued.bytes))
        [.received number queued.event]
  | leave {number : Nat} {s : SubscriptionState} {lifetime : Lifetime}
      (stored : hub.subscriptions[number]? = some s) (live : s.lifetime ≠ .dropped)
      (next : lifetime ≠ .connected ∧ lifetime ≠ .dropped)
      (ordered : lifetime = .disconnected → s.Registered)
    : Takes limits hub (.drop number)
        (hub.change number { s with lifetime := lifetime } hub.queuedBytes) []
  | release {number : Nat} {s : SubscriptionState}
      (stored : hub.subscriptions[number]? = some s) (removed : s.lifetime = .removed)
    : Takes limits hub (.drop number)
        (hub.change number { s with lifetime := .dropped }
          (hub.queuedBytes - s.queue.queuedBytes)) []

/-- A step of a call of `publish`. -/
theorem takes_of_advance {number : Nat} (advanced : hub.advance limits number = some hub')
    : Takes limits hub (.advance number) hub' (observe hub (.advance number) hub') := by
  rw [StreamHub.advance, Option.bind_eq_bind, Option.bind_eq_some_iff] at advanced
  obtain ⟨⟨body, requests, subscribers⟩, found, advanced⟩ := advanced
  simp only [observe, found, Option.elim_some, Publication.observed]
  cases requests with
  | nil => cases advanced
  | cons request requests =>
      rcases subscribers with _ | _ | ⟨subscriber, rest⟩
      · cases advanced
        exact .snapshot found
      · cases advanced
        exact .served found
      · simp only [Option.bind_eq_bind, Option.bind_eq_some_iff] at advanced
        obtain ⟨s, stored, advanced⟩ := advanced
        cases advanced
        exact .enqueue found stored

/-- An event is received. -/
theorem takes_of_tryRecv {number : Nat} {event : ServerEvent}
    (received : hub.tryRecv number = some (event, hub'))
    : Takes limits hub (.tryRecv number) hub' [.received number event] := by
  rw [StreamHub.tryRecv, Option.bind_eq_bind, Option.bind_eq_some_iff] at received
  obtain ⟨s, stored, received⟩ := received
  split at received
  · cases received
  · rename_i connected
    split at received
    · cases received
    · rename_i queued events first
      cases received
      exact .receive stored (not_not.mp connected) first

/-- A step of a drop. -/
theorem takes_of_drop {number : Nat} (dropped : hub.drop number = some hub')
    : Takes limits hub (.drop number) hub' [] := by
  rw [StreamHub.drop, Option.bind_eq_bind, Option.bind_eq_some_iff] at dropped
  obtain ⟨s, stored, dropped⟩ := dropped
  cases lifetime : s.lifetime with
  | connected =>
      rw [lifetime] at dropped
      cases dropped
      exact .leave stored (by simp [lifetime]) (by decide) (fun _ => Or.inl lifetime)
  | disconnected =>
      rw [lifetime] at dropped
      cases dropped
      exact .leave stored (by simp [lifetime]) (by decide) (by intro same; cases same)
  | removed =>
      rw [lifetime] at dropped
      simp only at dropped
      split at dropped
      · cases dropped
      · cases dropped
        exact .release stored lifetime
  | dropped =>
      rw [lifetime] at dropped
      cases dropped

/-- Every step is one of those. -/
theorem takes_of_step {action : HubAction} (taken : (streamHub limits).Step hub action hub')
    : Takes limits hub action hub' (observe hub action hub') := by
  change hub.next limits action = some hub' at taken
  cases action with
  | subscribe request =>
      cases taken
      exact .subscribe request
  | publish requests body =>
      rw [StreamHub.next, StreamHub.publish] at taken
      split at taken
      · cases taken
        exact .nothing requests body
      · cases taken
        exact .publish requests body
  | advance number => exact takes_of_advance taken
  | tryRecv number =>
      obtain ⟨⟨event, after⟩, received, rfl⟩ := Option.map_eq_some_iff.mp taken
      simp only [observe, received, Option.elim_some]
      exact takes_of_tryRecv received
  | drop number => exact takes_of_drop taken

/-- Every step keeps the bounds and the count. -/
theorem StreamHub.Accounted.step (accounted : hub.Accounted limits) {action : HubAction}
    {shown : List Observation} (taken : Takes limits hub action hub' shown)
    : hub'.Accounted limits := by
  cases taken with
  | subscribe request =>
      refine ⟨?_, accounted.within, ?_⟩
      · have total := accounted.total
        rw [StreamHub.liveBytes] at total
        simp only [StreamHub.liveBytes, List.map_append, List.sum_append, total]
        rfl
      · intro s mem
        rcases List.mem_append.mp mem with mem | new
        · exact accounted.each s mem
        · rw [List.mem_singleton.mp new]
          have reserves := limits.reservesGap
          exact ⟨rfl, Nat.zero_le _, Nat.zero_le _, fun _ => (by decide : 0 < 2).trans_le reserves, rfl⟩
  | nothing requests body => exact accounted
  | publish requests body => exact ⟨accounted.total, accounted.within, accounted.each⟩
  | snapshot found => exact ⟨accounted.total, accounted.within, accounted.each⟩
  | served found => exact ⟨accounted.total, accounted.within, accounted.each⟩
  | @enqueue number subscriber body request requests rest s found stored =>
      have kept := accounted.enqueue request body stored
      exact ⟨kept.total, kept.within, kept.each⟩
  | @receive number s queued events stored connected first =>
      have bounded := accounted.each s (List.mem_of_getElem? stored)
      have live : s.lifetime ≠ .dropped := by simp [connected]
      obtain ⟨held, popped⟩ := bounded.pop first
      have before := liveBytes_of_bounded bounded live
      have fits := accounted.le_queuedBytes stored
      have after := liveBytes_of_bounded (s := { s with queue := s.queue.pop queued events })
        popped live
      refine accounted.change stored popped ?_ ((Nat.sub_le _ _).trans accounted.within)
      simp only [SubscriptionQueue.pop] at after ⊢
      omega
  | @leave number s lifetime stored live next ordered =>
      have bounded := accounted.each s (List.mem_of_getElem? stored)
      have before := liveBytes_of_bounded bounded live
      have after := liveBytes_of_bounded (s := { s with lifetime := lifetime }) bounded next.2
      refine accounted.change stored bounded ?_ accounted.within
      simp only at after
      omega
  | @release number s stored removed =>
      have bounded := accounted.each s (List.mem_of_getElem? stored)
      have before := liveBytes_of_bounded bounded (by simp [removed])
      have fits := accounted.le_queuedBytes stored
      have after : ({ s with lifetime := .dropped } : SubscriptionState).liveBytes = 0 := rfl
      refine accounted.change stored bounded ?_ ((Nat.sub_le _ _).trans accounted.within)
      omega

/-- The bounds and the count hold in every run. -/
theorem reachable_accounted (reached : (streamHub limits).Reachable hub)
    : hub.Accounted limits := by
  refine reached.invariant ?_ ?_
  · rintro hub rfl
    exact ⟨rfl, Nat.zero_le _, by intro s mem; cases mem⟩
  · intro hub action hub' _ accounted taken
    exact accounted.step (takes_of_step taken)

end Codrik.Runtime.Stream
