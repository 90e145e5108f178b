import Codrik.Runtime.Sqlite.World

/-! The local IPC server (`runtime/ipc/server.rs`): its connection handlers, the two
registries by which they wait for one another, and the delivery sinks the outbox worker
waits for. Each handler is a program that other parties interrupt at every await and at
every lock.
-/

namespace Codrik.Runtime.Ipc

open Codrik.Relational
open Codrik.Runtime.Sqlite
open Codrik.Transition

-----------------------------------------------------------------------------------------
-- Local requests
-----------------------------------------------------------------------------------------

structure LocalRequestRecord where
  requestId : RequestId
  actorId : ActorId
  eventId : EventId
  sequence : Nat
  workItemId : Option WorkItemId
  state : LocalRequestState
  resultBundleId : Option BundleId
  resultBundleState : Option BundleState
deriving DecidableEq

/-- `resolve_local_request` -/
def resolveLocalRequest (s : Store) (actor : ActorId) (id : RequestId)
    : Option LocalRequestRecord := do
  let request ← s.localRequests.find? (fun row => row.requestId = id ∧ row.actorId = actor)
  let event ← s.events.find? (·.id = request.eventId)
  some
    { requestId := request.requestId, actorId := request.actorId, eventId := request.eventId,
      sequence := event.mailboxSequence, workItemId := request.workItemId,
      state := request.state, resultBundleId := request.resultBundleId,
      resultBundleState := request.resultBundleId.bind
        (fun bundle => (s.resultBundles.find? (·.id = bundle)).map (·.state)) }

-----------------------------------------------------------------------------------------
-- Handlers
-----------------------------------------------------------------------------------------

/-- A call of `SubmissionRegistry::wait_for`, by what its caller does next: a `Submit` whose
registration was refused, or a `Resume` before its first or its second lookup.
-/
inductive Wait
  | joining (command : LocalSubmission)
  | looking (request : RequestId)
  | lookingAgain (request : RequestId)

def Wait.request : Wait → RequestId
  | .joining command => command.requestId
  | .looking request => request
  | .lookingAgain request => request

/-- What follows `drop(decode)`; a submission says whether it holds a `SubmissionGuard`. -/
inductive Release
  | submit (command : LocalSubmission) (guarded : Bool)
  | resume (request : RequestId)
  | other
  | closed

/-- Where a handler stands. The entry of a registered submission bears the ticket of its
handler.
-/
inductive Phase
  | decoding
  | registering (command : LocalSubmission)
  | waitFor (wait : Wait)
  | joined (wait : Wait) (entry : Nat)
  | dropping (after : Release)
  | notifying (after : Release)
  | subscribing (command : LocalSubmission) (guarded : Bool)
  | transacting (command : LocalSubmission) (guarded : Bool)
  | completing (command : LocalSubmission)
  | removing (command : LocalSubmission)
  | answering (command : LocalSubmission)
  | resolving (request : RequestId) (again : Bool)
  | priors (request : RequestId)
  | listening (request : RequestId)
  | sleeping (request : RequestId)
  | attaching (request : RequestId) (record : LocalRequestRecord)
  | serving (request : RequestId) (record : LocalRequestRecord)
  | sending (request : RequestId) (record : LocalRequestRecord)
  | replaying (request : RequestId)
  | streaming (request : RequestId)
  | failing (request : RequestId) (code : String)
  | other
  | returned (request : Option RequestId)

/-- The request of a `Submit` or a `Resume`, once it is decoded. -/
def Release.request? : Release → Option RequestId
  | .submit command _ => some command.requestId
  | .resume request => some request
  | .other | .closed => none

def Phase.request? : Phase → Option RequestId
  | .decoding | .other => none
  | .registering command | .subscribing command _ | .transacting command _
  | .completing command | .removing command | .answering command => some command.requestId
  | .waitFor wait | .joined wait _ => some wait.request
  | .dropping after | .notifying after => after.request?
  | .resolving request _ | .priors request | .listening request | .sleeping request
  | .attaching request _ | .serving request _ | .sending request _ | .replaying request
  | .streaming request | .failing request _ => some request
  | .returned request => request

/-- A handler with its delivery sink: whether the sink is open, whether it is registered at
the stream hub, what `submit_for_actor` answered, and the codes of the request errors written
to the socket.
-/
structure Handler where
  phase : Phase
  isOpen : Bool
  subscribed : Bool
  outcome : Option LocalSubmitOutcome
  errors : List String

def Handler.accepted : Handler := ⟨.decoding, false, false, none, []⟩

/-- A handler goes on. -/
def Handler.goes (h : Handler) (phase : Phase) : Handler := { h with phase := phase }

/-- `open_delivery` -/
def Handler.openDelivery (h : Handler) : Handler := { h with isOpen := true }

/-- A handler registers its sink at the stream hub. -/
def Handler.subscribes (h : Handler) : Handler := { h with subscribed := true }

/-- A returning handler drops its subscriptions. -/
def Handler.returns (h : Handler) : Handler :=
  { h with phase := .returned h.phase.request?, subscribed := false }

/-- `sink.close()`, and the handler returns. -/
def Handler.closes (h : Handler) : Handler := h.openDelivery.returns

-----------------------------------------------------------------------------------------
-- The server
-----------------------------------------------------------------------------------------

/-- The shared state: the store, the handlers by ticket, `DecodeRegistry::pending`, the
handlers whose future of `changed.notified()` was woken since they made it, the map of the
`SubmissionRegistry`, the entries whose `complete` holds `true`, and the sinks some
transmission of the outbox worker waits for.
-/
structure Server where
  world : World
  handlers : List Handler
  pending : List Nat
  woken : List Nat
  submissions : List (RequestId × Nat)
  completed : List Nat
  awaited : List Nat

/-- The entry of a request in the submission registry. -/
def Server.entry? (s : Server) (request : RequestId) : Option Nat :=
  s.submissions.lookup request

/-- What a step of a handler changes besides the handler. -/
inductive Effect
  | quiet
  | release
  | wake
  | listen
  | register (request : RequestId)
  | complete
  | remove (request : RequestId)
  | commit (call : Call)

/-- `notify_waiters` reaches every future there is; a new future is not woken yet. -/
def Effect.apply (ticket : Nat) : Effect → Server → Server
  | .quiet, s => s
  | .release, s => { s with pending := s.pending.filter (· ≠ ticket) }
  | .wake, s => { s with woken := List.range s.handlers.length }
  | .listen, s => { s with woken := s.woken.filter (· ≠ ticket) }
  | .register request, s => { s with submissions := (request, ticket) :: s.submissions }
  | .complete, s => { s with completed := ticket :: s.completed }
  | .remove request, s =>
      { s with submissions := s.submissions.filter (· ≠ (request, ticket)) }
  | .commit call, s => { s with world := s.world.after call }

/-- How the operation a handler awaits ends: it succeeds, it fails (a socket write, a frame
or a database operation), or a branch of a `select!` is taken.
-/
inductive Outcome
  | done | fails | event | ended | disconnected | elapsed
deriving DecidableEq

/-- The outcomes of a submission that are answered by `Accepted`. -/
def accepts : LocalSubmitOutcome → Bool
  | .accepted _ _ _ => true
  | .duplicate _ work _ => work.isSome
  | .conflict | .actorUnavailable => false

/-- The error answers of `submit`. -/
def submitError : LocalSubmitOutcome → Option String
  | .conflict => some "request_conflict"
  | .actorUnavailable => some "actor_unavailable"
  | .accepted _ _ _ | .duplicate _ _ _ => none

/-- What follows a finished `wait_for`. -/
def Wait.after : Wait → Phase
  | .joining command => .dropping (.submit command false)
  | .looking request => .resolving request false
  | .lookingAgain request => .resolving request true

/-- What follows a dropped decode guard. -/
def Release.after : Release → Phase
  | .submit command guarded => .subscribing command guarded
  | .resume request => .waitFor (.looking request)
  | .other => .other
  | .closed => .returned none

/-- What follows the transaction of a submission: its guard is dropped. -/
def afterTransaction (command : LocalSubmission) (guarded : Bool) : Phase :=
  if guarded then .completing command else .answering command

/-- The answer of a transaction, unless it fails. -/
def outcomeOf (actor : ActorId) (command : LocalSubmission) (now : Timestamp) (ids : FreshIds)
    (s : Store)
    : Option LocalSubmitOutcome :=
  match submitForActor actor command now ids s with
  | .ok (outcome, _) => some outcome
  | .error _ => none

/-- The active request has no work item: `serve_durable_request` polls without opening the
sink.
-/
def LocalRequestRecord.Unassigned (record : LocalRequestRecord) : Prop :=
  record.state = .active ∧ record.workItemId = none

/-- The bundle of a finished request is on its way. -/
def LocalRequestRecord.Underway (record : LocalRequestRecord) : Prop :=
  record.state ≠ .active
  ∧ (record.resultBundleState = some .pending ∨ record.resultBundleState = some .delivering
    ∨ record.resultBundleState = some .failedRetryable)

/-- The steps of `handle_with_decode`, `submit`, `resume` and `serve_durable_request` for the
handler with this ticket: how an awaited operation ends, what it changes, and the handler
after it.
-/
inductive Moves (actor : ActorId) (s : Server) (ticket : Nat) (h : Handler)
    : Outcome → Effect → Handler → Prop
  -- `handle_with_decode`
  | unreadable (here : h.phase = .decoding)
    : Moves actor s ticket h .fails .quiet (h.openDelivery.goes (.dropping .closed))
  | submit (command : LocalSubmission) (here : h.phase = .decoding)
    : Moves actor s ticket h .done .quiet (h.goes (.registering command))
  | resume (request : RequestId) (here : h.phase = .decoding)
    : Moves actor s ticket h .done .quiet (h.goes (.dropping (.resume request)))
  | otherRequest (here : h.phase = .decoding)
    : Moves actor s ticket h .done .quiet (h.goes (.dropping .other))
  | otherCloses (here : h.phase = .other)
    : Moves actor s ticket h .done .quiet h.closes
  | otherFails (here : h.phase = .other)
    : Moves actor s ticket h .fails .quiet h.returns
  | registers {command} (here : h.phase = .registering command)
      (free : s.entry? command.requestId = none)
    : Moves actor s ticket h .done (.register command.requestId)
        (h.goes (.dropping (.submit command true)))
  | refused {command} {entry : Nat} (here : h.phase = .registering command)
      (taken : s.entry? command.requestId = some entry)
    : Moves actor s ticket h .done .quiet (h.goes (.waitFor (.joining command)))
  | drops {after} (here : h.phase = .dropping after)
    : Moves actor s ticket h .done .release (h.goes (.notifying after))
  | notifies {after} (here : h.phase = .notifying after)
    : Moves actor s ticket h .done .wake (h.goes after.after)
  -- `SubmissionRegistry::wait_for`
  | absent {wait} (here : h.phase = .waitFor wait) (free : s.entry? wait.request = none)
    : Moves actor s ticket h .done .quiet (h.goes wait.after)
  | joins {wait} {entry : Nat} (here : h.phase = .waitFor wait)
      (taken : s.entry? wait.request = some entry)
    : Moves actor s ticket h .done .quiet (h.goes (.joined wait entry))
  | learns {wait entry} (here : h.phase = .joined wait entry) (complete : entry ∈ s.completed)
    : Moves actor s ticket h .done .quiet (h.goes wait.after)
  -- `submit`
  | subscribes {command guarded} (here : h.phase = .subscribing command guarded)
    : Moves actor s ticket h .done .quiet (h.subscribes.goes (.transacting command guarded))
  | transacts {command guarded} (now : Timestamp) (ids : FreshIds)
      (here : h.phase = .transacting command guarded)
      (admissible : s.world.Admissible (.submitForActor actor command now ids))
    : Moves actor s ticket h .done (.commit (.submitForActor actor command now ids))
        { h.goes (afterTransaction command guarded) with
          outcome := outcomeOf actor command now ids s.world.store }
  | transactionFails {command guarded} (here : h.phase = .transacting command guarded)
    : Moves actor s ticket h .fails .quiet (h.goes (afterTransaction command guarded))
  | completes {command} (here : h.phase = .completing command)
    : Moves actor s ticket h .done .complete (h.goes (.removing command))
  | removes {command} (here : h.phase = .removing command)
    : Moves actor s ticket h .done (.remove command.requestId) (h.goes (.answering command))
  | accepts {command outcome} (here : h.phase = .answering command)
      (answered : h.outcome = some outcome) (accepted : accepts outcome = true)
    : Moves actor s ticket h .done .quiet (h.openDelivery.goes (.streaming command.requestId))
  | refuses {command outcome code} (here : h.phase = .answering command)
      (answered : h.outcome = some outcome) (refusal : submitError outcome = some code)
    : Moves actor s ticket h .done .quiet (h.goes (.failing command.requestId code))
  | detached {command event sequence record} (here : h.phase = .answering command)
      (answered : h.outcome = some (.duplicate event none sequence))
      (found : resolveLocalRequest s.world.store actor command.requestId = some record)
    : Moves actor s ticket h .done .quiet (h.goes (.serving command.requestId record))
  | detachedMisses {command event sequence} (here : h.phase = .answering command)
      (answered : h.outcome = some (.duplicate event none sequence))
      (missing : resolveLocalRequest s.world.store actor command.requestId = none)
    : Moves actor s ticket h .done .quiet
        (h.goes (.failing command.requestId "missing_request"))
  | answerFails {command} (here : h.phase = .answering command)
    : Moves actor s ticket h .fails .quiet h.returns
  | streams {request} (here : h.phase = .streaming request) (opened : h.isOpen = true)
    : Moves actor s ticket h .event .quiet h
  | streamFails {request} (here : h.phase = .streaming request) (opened : h.isOpen = true)
    : Moves actor s ticket h .fails .quiet h.returns
  | streamEnds {request} (here : h.phase = .streaming request)
    : Moves actor s ticket h .ended .quiet h.closes
  | streamLeaves {request} (here : h.phase = .streaming request)
    : Moves actor s ticket h .disconnected .quiet h.closes
  -- `resume`
  | finds {request again record} (here : h.phase = .resolving request again)
      (found : resolveLocalRequest s.world.store actor request = some record)
    : Moves actor s ticket h .done .quiet (h.goes (.attaching request record))
  | looksAgain {request} (here : h.phase = .resolving request false)
      (missing : resolveLocalRequest s.world.store actor request = none)
    : Moves actor s ticket h .done .quiet (h.goes (.priors request))
  | misses {request} (here : h.phase = .resolving request true)
      (missing : resolveLocalRequest s.world.store actor request = none)
    : Moves actor s ticket h .done .quiet (h.goes (.failing request "missing_request"))
  | lookupFails {request again} (here : h.phase = .resolving request again)
    : Moves actor s ticket h .fails .quiet h.returns
  | listens {request} (here : h.phase = .priors request)
    : Moves actor s ticket h .done .listen (h.goes (.listening request))
  | first {request} (here : h.phase = .listening request)
      (alone : ∀ prior ∈ s.pending, ticket ≤ prior)
    : Moves actor s ticket h .done .quiet (h.goes (.waitFor (.lookingAgain request)))
  | sleeps {request} {prior : Nat} (here : h.phase = .listening request)
      (pending : prior ∈ s.pending) (earlier : prior < ticket)
    : Moves actor s ticket h .done .quiet (h.goes (.sleeping request))
  | wakes {request} (here : h.phase = .sleeping request) (woken : ticket ∈ s.woken)
    : Moves actor s ticket h .done .quiet (h.goes (.priors request))
  | attaches {request record} (here : h.phase = .attaching request record)
    : Moves actor s ticket h .done .quiet (h.subscribes.goes (.serving request record))
  -- `serve_durable_request`
  | assigned {request record work} (here : h.phase = .serving request record)
      (active : record.state = .active) (owned : record.workItemId = some work)
    : Moves actor s ticket h .done .quiet (h.openDelivery.goes (.streaming request))
  | receives {request record} (here : h.phase = .serving request record)
      (unassigned : record.Unassigned)
    : Moves actor s ticket h .event .quiet (h.goes (.sending request record))
  | sends {request record} (here : h.phase = .sending request record) (opened : h.isOpen = true)
    : Moves actor s ticket h .done .quiet (h.goes (.serving request record))
  | sendFails {request record} (here : h.phase = .sending request record)
      (opened : h.isOpen = true)
    : Moves actor s ticket h .fails .quiet h.returns
  | transientEnds {request record} (here : h.phase = .serving request record)
      (unassigned : record.Unassigned)
    : Moves actor s ticket h .ended .quiet h.closes
  | opens {request record} (here : h.phase = .serving request record)
      (underway : record.Underway)
    : Moves actor s ticket h .done .quiet h.openDelivery
  | leaves {request record} (here : h.phase = .serving request record)
      (waits : record.Unassigned ∨ (record.Underway ∧ h.isOpen = true))
    : Moves actor s ticket h .disconnected .quiet h.closes
  | polls {request record updated} (here : h.phase = .serving request record)
      (waits : record.Unassigned ∨ (record.Underway ∧ h.isOpen = true))
      (found : resolveLocalRequest s.world.store actor request = some updated)
    : Moves actor s ticket h .elapsed .quiet (h.goes (.serving request updated))
  | pollMisses {request record} (here : h.phase = .serving request record)
      (waits : record.Unassigned ∨ (record.Underway ∧ h.isOpen = true))
      (missing : resolveLocalRequest s.world.store actor request = none)
    : Moves actor s ticket h .elapsed .quiet (h.goes (.failing request "missing_request"))
  | pollFails {request record} (here : h.phase = .serving request record)
      (waits : record.Unassigned ∨ (record.Underway ∧ h.isOpen = true))
    : Moves actor s ticket h .fails .quiet h.returns
  | acceptedFails {request record work} (here : h.phase = .serving request record)
      (active : record.state = .active) (owned : record.workItemId = some work)
    : Moves actor s ticket h .fails .quiet h.returns
  | delivered {request record} (here : h.phase = .serving request record)
      (ended : record.state ≠ .active) (bundle : record.resultBundleState = some .delivered)
    : Moves actor s ticket h .done .quiet (h.openDelivery.goes (.replaying request))
  | failedTerminal {request record} (here : h.phase = .serving request record)
      (ended : record.state ≠ .active)
      (bundle : record.resultBundleState = some .failedTerminal)
    : Moves actor s ticket h .done .quiet (h.goes (.failing request "result_failed_terminal"))
  | invalid {request record} (here : h.phase = .serving request record)
      (ended : record.state ≠ .active) (bundle : record.resultBundleState = none)
    : Moves actor s ticket h .done .quiet (h.goes (.failing request "invalid_request_state"))
  | replays {request} (here : h.phase = .replaying request)
    : Moves actor s ticket h .done .quiet h.closes
  | replayMissing {request} (here : h.phase = .replaying request)
    : Moves actor s ticket h .done .quiet (h.goes (.failing request "missing_result"))
  | replayFails {request} (here : h.phase = .replaying request)
    : Moves actor s ticket h .fails .quiet h.returns
  -- `send_control(request_error(..))`, then `sink.close()`
  | reports {request code} (here : h.phase = .failing request code)
    : Moves actor s ticket h .done .quiet { h.closes with errors := h.errors ++ [code] }
  | reportFails {request code} (here : h.phase = .failing request code)
    : Moves actor s ticket h .fails .quiet h.returns

/-- A step of the server or of a party around it: a connection is accepted, a handler goes
on, some party calls the store, the outbox worker takes a sink into a transmission, or its
send to a sink goes on.
-/
inductive Act
  | accept
  | move (ticket : Nat) (outcome : Outcome)
  | call (call : Call)
  | reserve (ticket : Nat)
  | passes (ticket : Nat)

/-- The calls of the server itself. -/
def Submits : Call → Prop
  | .submitForActor _ _ _ _ => True
  | _ => False

/-- The worker transmits a bundle once `load_claimed_bundle` has found that the request names
it as its result.
-/
inductive Server.Step (actor : ActorId) (s : Server) : Act → Server → Prop
  | accept
    : Server.Step actor s .accept
        { s with
          handlers := s.handlers ++ [.accepted]
          pending := s.pending ++ [s.handlers.length] }
  | move {ticket h outcome effect h'} (stands : s.handlers[ticket]? = some h)
      (moves : Moves actor s ticket h outcome effect h')
    : Server.Step actor s (.move ticket outcome)
        (effect.apply ticket { s with handlers := s.handlers.set ticket h' })
  | call {call} (admissible : s.world.Admissible call) (other : ¬Submits call)
    : Server.Step actor s (.call call) { s with world := s.world.after call }
  | reserve {ticket h bundle} (stands : s.handlers[ticket]? = some h)
      (subscribed : h.subscribed = true) (claimed : bundle ∈ s.world.store.resultBundles)
      (loaded : Reciprocal s.world.store bundle)
      (own : h.phase.request? = some bundle.requestId)
    : Server.Step actor s (.reserve ticket) { s with awaited := ticket :: s.awaited }
  | passes {ticket h} (stands : s.handlers[ticket]? = some h) (awaited : ticket ∈ s.awaited)
      (opened : h.isOpen = true)
    : Server.Step actor s (.passes ticket) { s with awaited := s.awaited.erase ticket }

/-- All histories of the server over the store, for the configured actor. -/
def server (actor : ActorId) : System Server Act where
  Initial s := runtime.Reachable s.world ∧ s.handlers = [] ∧ s.pending = [] ∧ s.woken = []
    ∧ s.submissions = [] ∧ s.completed = [] ∧ s.awaited = []
  Step := Server.Step actor

end Codrik.Runtime.Ipc
