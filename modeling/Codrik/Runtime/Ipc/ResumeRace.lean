import Codrik.Runtime.Ipc.Server
import Codrik.Runtime.Sqlite.BundleProtocol

/-! A `Resume` and the submissions of its request: what the decode and submission registries
make it wait for, and that the waits end.
-/

namespace Codrik.Runtime.Ipc

open Codrik.Relational
open Codrik.Runtime.Sqlite
open Codrik.Transition

variable {actor : ActorId} {s s' : Server} {t u e : Nat} {h h' g : Handler} {outcome : Outcome}
  {effect : Effect} {request : RequestId}

-----------------------------------------------------------------------------------------
-- Stored requests
-----------------------------------------------------------------------------------------

/-- The request is stored, with its event. -/
def Stored (actor : ActorId) (s : Store) (request : RequestId) : Prop :=
  ∃ row ∈ s.localRequests, row.requestId = request ∧ row.actorId = actor
    ∧ ∃ event ∈ s.events, event.id = row.eventId

/-- A lookup finds a stored request. -/
theorem Stored.resolved {s : Store} (stored : Stored actor s request)
    : resolveLocalRequest s actor request ≠ none := by
  obtain ⟨row, known, rfl, rfl, event, known', own⟩ := stored
  intro missing
  rw [resolveLocalRequest] at missing
  cases found : s.localRequests.find?
      (fun other => other.requestId = row.requestId ∧ other.actorId = row.actorId) with
  | none => exact Table.find?_eq_none.mp found row known ⟨rfl, rfl⟩
  | some other =>
      obtain ⟨stored, same, -⟩ := Table.find?_some found
      cases Table.eq_of_clash stored known (Or.inl same)
      rw [found] at missing
      cases found' : s.events.find? (·.id = row.eventId) with
      | none => exact Table.find?_eq_none.mp found' event known' own
      | some event' =>
          rw [Option.bind_eq_bind, Option.bind_some, found'] at missing
          cases missing

/-- Stored requests stay stored over every call. -/
theorem Stored.after {w : World} (stored : Stored actor w.store request) (call : Call)
    : Stored actor (w.after call).store request := by
  obtain ⟨row, known, rfl, rfl, event, known', own⟩ := stored
  obtain ⟨row', kept, same⟩ := w.after_requestsStay call row known
  have event' : ∃ event' ∈ (w.after call).store.events, event'.id = event.id := by
    rcases w.after_cases call with stays | ⟨answer, s, performed, moved⟩
    · exact ⟨event, stays.symm ▸ known', rfl⟩
    · rw [moved, World.commit_store]
      obtain ⟨event', stored, next⟩ := (perform_events performed).forward event known'
      exact ⟨event', stored, next.id⟩
  obtain ⟨event', stored, next⟩ := event'
  rw [same.row] at kept
  exact ⟨_, kept, rfl, rfl, event', stored, next.trans own⟩

/-- The transaction of a submission stored its request, or found it stored. -/
def Commits : LocalSubmitOutcome → Prop
  | .accepted _ _ _ | .duplicate _ _ _ => True
  | .conflict | .actorUnavailable => False

/-- A committed submission is stored. -/
theorem stored_of_outcome {w : World} {command : LocalSubmission} {now : Timestamp}
    {ids : FreshIds} {answer : LocalSubmitOutcome}
    (answered : outcomeOf actor command now ids w.store = some answer) (commits : Commits answer)
    : Stored actor (w.after (.submitForActor actor command now ids)).store command.requestId := by
  unfold outcomeOf at answered
  split at answered
  · rename_i outcome store submitted
    cases answered
    have performed : Call.perform (.submitForActor actor command now ids) w.store
        = .ok (.submitted answer, store) :=
      answering_eq_ok.mpr ⟨answer, submitted, rfl⟩
    simp only [World.after, performed, World.commit_store]
    unfold submitForActor at submitted
    split at submitted
    · split at submitted
      · rename_i row found
        obtain ⟨known, own, event, known', same⟩ := Table.find?_some found
        split at submitted
        · rename_i matching
          split at submitted
          · cases submitted
            exact ⟨row, known, own, matching.1, event, known', same⟩
          · cases submitted
        · cases submitted
          exact commits.elim
      · simp only [bind_eq_ok, execute_eq_ok] at submitted
        obtain ⟨_, _, _, _, events, inserted, requests, inserted', result⟩ := submitted
        cases result
        exact ⟨_, (Table.mem_insert? inserted').mpr (Or.inr rfl), rfl, rfl, _,
          (Table.mem_insert? inserted).mpr (Or.inr rfl), rfl⟩
    · cases submitted
      exact commits.elim
  · cases answered

-----------------------------------------------------------------------------------------
-- Where a handler stands
-----------------------------------------------------------------------------------------

/-- The request of a submission whose registration was refused. -/
def Wait.joins? : Wait → Option RequestId
  | .joining command => some command.requestId
  | .looking _ | .lookingAgain _ => none

def Wait.last? : Wait → Option RequestId
  | .lookingAgain request => some request
  | .joining _ | .looking _ => none

def Release.submits? (guard : Bool) : Release → Option RequestId
  | .submit command guarded => if guarded = guard then some command.requestId else none
  | .resume _ | .other | .closed => none

/-- The handler still holds its `DecodeGuard`. -/
def Phase.Decodes : Phase → Prop
  | .decoding | .registering _ | .dropping _ => True
  | .waitFor wait | .joined wait _ => wait.joins?.isSome
  | _ => False

/-- The request the handler is about to submit, with its `SubmissionGuard` or without one. -/
def Phase.submits? (guard : Bool) : Phase → Option RequestId
  | .dropping after | .notifying after => after.submits? guard
  | .subscribing command guarded | .transacting command guarded =>
      if guarded = guard then some command.requestId else none
  | _ => none

/-- The request whose `SubmissionGuard` the handler holds. -/
def Phase.inFlight? : Phase → Option RequestId
  | .completing command => some command.requestId
  | phase => phase.submits? true

/-- The request whose entry the handler has in the submission registry. -/
def Phase.entry? : Phase → Option RequestId
  | .removing command => some command.requestId
  | phase => phase.inFlight?

/-- The request of a submission that has not left its decode guard. -/
def Phase.enters? : Phase → Option RequestId
  | .registering command => some command.requestId
  | .waitFor wait | .joined wait _ => wait.joins?
  | _ => none

/-- The request whose record the handler has read. -/
def Phase.found? : Phase → Option RequestId
  | .attaching request _ | .serving request _ | .sending request _ => some request
  | _ => none

/-- The last phases of a handler: no guard is left. -/
def Phase.Settled : Phase → Prop
  | .removing _ | .answering _ | .serving _ _ | .sending _ _ | .replaying _ | .streaming _
  | .failing _ _ | .returned _ => True
  | _ => False

/-- The request of a `Resume` that has no other handler to wait for. -/
def Phase.last? : Phase → Option RequestId
  | .waitFor wait | .joined wait _ => wait.last?
  | .resolving request again => if again then some request else none
  | _ => none

/-- The handler has answered that its request does not exist, or is about to. -/
def Handler.Misses (h : Handler) (request : RequestId) : Prop :=
  h.phase = .failing request "missing_request"
    ∨ (h.phase.request? = some request ∧ "missing_request" ∈ h.errors)

/-- The transaction of the handler's submission stored the request, or found it stored. -/
def Handler.Committed (h : Handler) : Prop :=
  ∃ answer, h.outcome = some answer ∧ Commits answer

-----------------------------------------------------------------------------------------
-- What a step can do
-----------------------------------------------------------------------------------------

@[simp] theorem Effect.apply_handlers (effect : Effect) (s : Server)
    : (effect.apply t s).handlers = s.handlers := by
  cases effect <;> rfl

theorem Effect.mem_pending {prior : Nat}
    : prior ∈ (effect.apply t s).pending ↔ prior ∈ s.pending ∧ (effect = .release → prior ≠ t) := by
  cases effect <;> simp [Effect.apply]

/-- A handler that is not woken was not woken before, or has just made its future. -/
theorem Effect.not_woken {sleeper : Nat} (bound : sleeper < s.handlers.length)
    (asleep : sleeper ∉ (effect.apply t s).woken)
    : effect ≠ .wake ∧ (sleeper ≠ t → sleeper ∉ s.woken) := by
  cases effect with
  | wake => exact absurd (List.mem_range.mpr bound) asleep
  | listen =>
      refine ⟨nofun, fun other mem => asleep ?_⟩
      exact List.mem_filter.mpr ⟨mem, decide_eq_true other⟩
  | _ => exact ⟨nofun, fun _ => asleep⟩

theorem Effect.mem_submissions {entry : RequestId × Nat}
    : entry ∈ (effect.apply t s).submissions
      ↔ (entry ∈ s.submissions ∧ effect ≠ .remove entry.1)
        ∨ (entry ∈ s.submissions ∧ entry.2 ≠ t)
        ∨ (effect = .register entry.1 ∧ entry.2 = t) := by
  obtain ⟨request, ticket⟩ := entry
  cases effect <;> simp [Effect.apply] <;> grind

theorem Effect.mem_completed
    : e ∈ (effect.apply t s).completed ↔ e ∈ s.completed ∨ (effect = .complete ∧ e = t) := by
  cases effect <;> simp [Effect.apply, or_comm]

/-- Stored requests stay stored over every step. -/
theorem Stored.apply (stored : Stored actor s.world.store request)
    : Stored actor (effect.apply t s).world.store request := by
  cases effect with
  | commit call => exact stored.after call
  | _ => exact stored

section Moves

attribute [local grind cases] Wait Release

attribute [local grind] Handler.goes Handler.closes Handler.returns Handler.openDelivery
  Handler.subscribes Wait.after Release.after afterTransaction Wait.joins? Wait.last?
  Release.submits?

/-- The decode guard is held until it is dropped. -/
theorem Moves.decodes (moves : Moves actor s t h outcome effect h')
    : h'.phase.Decodes ↔ h.phase.Decodes ∧ effect ≠ .release := by
  cases moves <;> grind [Phase.Decodes]

/-- A guard is released by the handler that holds it, which then notifies. -/
theorem Moves.releases (moves : Moves actor s t h outcome effect h') (release : effect = .release)
    : ∃ after, h'.phase = .notifying after := by
  cases moves with
  | drops here => exact ⟨_, rfl⟩
  | _ => cases release

/-- A handler that was to notify has notified. -/
theorem Moves.notifying {after : Release} (moves : Moves actor s t h outcome effect h')
    (here : h.phase = .notifying after)
    : effect = .wake := by
  cases moves <;> grind

/-- An entry stands from its registration until it is removed. -/
theorem Moves.entry (moves : Moves actor s t h outcome effect h')
    : h'.phase.entry? = some request
      ↔ (h.phase.entry? = some request ∧ effect ≠ .remove request)
        ∨ effect = .register request := by
  cases moves <;> grind [Phase.entry?, Phase.inFlight?, Phase.submits?]

/-- Entries are registered for requests that have none. -/
theorem Moves.registers_free (moves : Moves actor s t h outcome effect h')
    (registers : effect = .register request)
    : s.entry? request = none ∧ h.phase.enters? = some request := by
  cases moves <;> grind [Phase.enters?]

/-- A submission is in flight from its registration until its entry is complete. -/
theorem Moves.inFlight (moves : Moves actor s t h outcome effect h')
    : h'.phase.inFlight? = some request
      ↔ (h.phase.inFlight? = some request ∧ effect ≠ .complete) ∨ effect = .register request := by
  cases moves <;> grind [Phase.inFlight?, Phase.submits?]

/-- The last phases are final. -/
theorem Moves.settled (moves : Moves actor s t h outcome effect h') (settled : h.phase.Settled)
    : h'.phase.Settled := by
  cases moves <;> grind [Phase.Settled]

/-- An entry is completed by the submission in flight, whose last phases begin. -/
theorem Moves.completes_settled (moves : Moves actor s t h outcome effect h')
    : (effect = .complete → h'.phase.Settled)
      ∧ ∀ command, h'.phase = .removing command → effect = .complete := by
  cases moves <;> grind [Phase.Settled]

/-- A handler joins the entry it finds. -/
theorem Moves.joined {wait : Wait} (moves : Moves actor s t h outcome effect h')
    (joined : h'.phase = .joined wait e)
    : effect = .quiet ∧ h.phase = .waitFor wait ∧ s.entry? wait.request = some e := by
  cases moves <;> grind

/-- A handler sleeps while an earlier one holds its decode guard. -/
theorem Moves.sleeping (moves : Moves actor s t h outcome effect h')
    (sleeping : h'.phase = .sleeping request)
    : effect = .quiet ∧ ∃ prior ∈ s.pending, prior < t := by
  cases moves <;> grind

/-- A request is decoded once. -/
theorem Moves.not_decoding (moves : Moves actor s t h outcome effect h')
    : h'.phase ≠ .decoding := by
  cases moves <;> grind

/-- The request of a handler is the one it decoded. -/
theorem Moves.keepsRequest (moves : Moves actor s t h outcome effect h')
    : h.phase = .decoding ∨ h'.phase.request? = h.phase.request? := by
  cases moves <;> grind [Phase.request?, Release.request?, Wait.request]

/-- What `submit_for_actor` answers is the outcome of the handler. -/
theorem Moves.answers (moves : Moves actor s t h outcome effect h')
    : h'.outcome = h.outcome
      ∨ ∃ command guarded now ids, h.phase = .transacting command guarded
        ∧ effect = .commit (.submitForActor actor command now ids)
        ∧ h'.outcome = outcomeOf actor command now ids s.world.store
        ∧ h'.phase.request? = some command.requestId := by
  cases moves <;> grind [Phase.request?]

/-- A handler submits without a guard after it has waited for another submission. -/
theorem Moves.unguarded (moves : Moves actor s t h outcome effect h')
    (submits : h'.phase.submits? false = some request)
    : h.phase.submits? false = some request
      ∨ ∃ command, command.requestId = request
        ∧ ((h.phase = .waitFor (.joining command) ∧ s.entry? command.requestId = none)
          ∨ ∃ entry ∈ s.completed, h.phase = .joined (.joining command) entry) := by
  cases moves <;> grind [Phase.submits?, Wait.request]

/-- A record is read from the store. -/
theorem Moves.found (moves : Moves actor s t h outcome effect h')
    (found : h'.phase.found? = some request)
    : h.phase.found? = some request
      ∨ ∃ record, resolveLocalRequest s.world.store actor request = some record := by
  cases moves <;> grind [Phase.found?]

/-- A submission leaves its decode guard once. -/
theorem Moves.enters (moves : Moves actor s t h outcome effect h')
    (enters : h'.phase.enters? = some request)
    : h.phase = .decoding ∨ h.phase.enters? = some request := by
  cases moves <;> grind [Phase.enters?]

/-- A handler submits what it was about to submit, or what it registered or waited for. -/
theorem Moves.submits {guard : Bool} (moves : Moves actor s t h outcome effect h')
    (submits : h'.phase.submits? guard = some request)
    : h.phase.submits? guard = some request ∨ h.phase.enters? = some request := by
  cases moves <;> grind [Phase.submits?, Phase.enters?]

/-- A `Resume` enters its second lookup when no earlier decode guard is left. -/
theorem Moves.last (moves : Moves actor s t h outcome effect h')
    (last : h'.phase.last? = some request)
    : h.phase.last? = some request
      ∨ (h.phase = .listening request ∧ ∀ prior ∈ s.pending, t ≤ prior) := by
  cases moves <;> grind [Phase.last?]

/-- A `Resume` looks again once the entry it saw is complete, or when there was none. -/
theorem Moves.resolving (moves : Moves actor s t h outcome effect h')
    (resolving : h'.phase = .resolving request true)
    : effect = .quiet
      ∧ ((h.phase = .waitFor (.lookingAgain request) ∧ s.entry? request = none)
        ∨ ∃ entry ∈ s.completed, h.phase = .joined (.lookingAgain request) entry) := by
  cases moves <;> grind [Wait.request]

/-- A handler finds its request missing when a lookup of it fails. -/
theorem Moves.finds_missing (moves : Moves actor s t h outcome effect h')
    (misses : h'.Misses request)
    : h.Misses request
      ∨ (h.phase = .decoding ∧ "missing_request" ∈ h.errors)
      ∨ (resolveLocalRequest s.world.store actor request = none
        ∧ (h.phase = .resolving request true ∨ h.phase.found? = some request
          ∨ (h.Committed ∧ h.phase.request? = some request))) := by
  unfold Handler.Misses at misses ⊢
  cases moves with
  | refuses here answered refusal =>
      rename_i answer code
      have other : code ≠ "missing_request" := by
        cases answer <;> cases refusal <;> decide
      grind [Phase.request?]
  | _ =>
      grind [Phase.request?, Release.request?, Wait.request, Phase.found?, Handler.Committed,
        Commits]

end Moves

-----------------------------------------------------------------------------------------
-- The registries
-----------------------------------------------------------------------------------------

/-- The handlers after one of them has moved. -/
theorem stands_set (stands : s.handlers[t]? = some h)
    : (s.handlers.set t h')[u]? = some g ↔ (u = t ∧ g = h') ∨ (u ≠ t ∧ s.handlers[u]? = some g) := by
  obtain ⟨bound, -⟩ := List.getElem?_eq_some_iff.mp stands
  rw [List.getElem?_set]
  by_cases same : t = u
  · subst same
    simp [bound, eq_comm]
  · simp [same, Ne.symm same]

/-- The handlers after a connection was accepted. -/
theorem stands_append {x : Handler}
    : (s.handlers ++ [x])[u]? = some g
      ↔ s.handlers[u]? = some g ∨ (u = s.handlers.length ∧ g = x) := by
  rw [List.getElem?_append]
  by_cases old : u < s.handlers.length
  · simp [old, Nat.ne_of_lt old]
  · rw [if_neg old, List.getElem?_eq_none (Nat.le_of_not_lt old)]
    simp only [List.getElem?_singleton]
    split <;> simp [eq_comm] <;> omega

theorem entry?_mem (found : s.entry? request = some e) : (request, e) ∈ s.submissions := by
  obtain ⟨before, after, same, -⟩ := List.lookup_eq_some_iff.mp found
  simp [same]

theorem entry?_none (free : s.entry? request = none) : (request, e) ∉ s.submissions := by
  intro mem
  have := List.lookup_eq_none_iff.mp free _ mem
  simp at this

/-- The registries tell where the handlers stand: `pending` holds the tickets of the decode
guards, `submissions` the entries of registered submissions, one for each request, and
`completed` those of settled ones. A handler that waits for an entry or for `changed` waits
for some handler to go on.
-/
structure Registries (s : Server) : Prop where
  pending : ∀ t, t ∈ s.pending ↔ ∃ h, s.handlers[t]? = some h ∧ h.phase.Decodes
  entries : ∀ request e,
    (request, e) ∈ s.submissions ↔ ∃ h, s.handlers[e]? = some h ∧ h.phase.entry? = some request
  unique : ∀ request e e', (request, e) ∈ s.submissions → (request, e') ∈ s.submissions → e = e'
  completed : ∀ e ∈ s.completed, ∃ h, s.handlers[e]? = some h ∧ h.phase.Settled
  published : ∀ (t : Nat) h command, s.handlers[t]? = some h → h.phase = .removing command →
    t ∈ s.completed
  joined : ∀ (t : Nat) (h : Handler) (wait : Wait) e, s.handlers[t]? = some h → h.phase = .joined wait e →
    e ∈ s.completed ∨ ∃ g, s.handlers[e]? = some g ∧ g.phase.inFlight? = some wait.request
  watched : ∀ (t : Nat) h request, s.handlers[t]? = some h → h.phase = .sleeping request →
    t ∉ s.woken →
    ∃ (u : Nat) (g : Handler), s.handlers[u]? = some g
      ∧ ((g.phase.Decodes ∧ u < t) ∨ ∃ after, g.phase = .notifying after)

/-- An entry is in flight or completed. -/
theorem Phase.entry?_cases {phase : Phase} (entry : phase.entry? = some request)
    : phase.inFlight? = some request ∨ ∃ command, phase = .removing command := by
  cases phase with
  | removing command => exact Or.inr ⟨command, rfl⟩
  | _ => exact Or.inl entry

theorem Phase.Settled.not_inFlight {phase : Phase} (settled : phase.Settled)
    : phase.inFlight? = none := by
  cases phase <;> first | rfl | exact settled.elim

/-- An entry of the map is in flight or completed. -/
theorem Registries.standing (registries : Registries s) (mem : (request, e) ∈ s.submissions)
    : e ∈ s.completed ∨ ∃ g, s.handlers[e]? = some g ∧ g.phase.inFlight? = some request := by
  obtain ⟨h, stands, entry⟩ := (registries.entries _ _).mp mem
  rcases Phase.entry?_cases entry with inFlight | ⟨command, removing⟩
  · exact Or.inr ⟨h, stands, inFlight⟩
  · exact Or.inl (registries.published _ _ _ stands removing)

/-- The registries are kept by every step of a handler. -/
theorem Registries.move (registries : Registries s) (stands : s.handlers[t]? = some h)
    (moves : Moves actor s t h outcome effect h')
    : Registries (effect.apply t { s with handlers := s.handlers.set t h' }) where
  pending u := by
    simp only [Effect.mem_pending, Effect.apply_handlers, stands_set stands, registries.pending u]
    by_cases same : u = t
    · subst same
      simp [stands, moves.decodes, and_comm]
    · simp [same]
  entries request u := by
    simp only [Effect.mem_submissions, Effect.apply_handlers, stands_set stands,
      registries.entries request u]
    by_cases same : u = t
    · subst same
      simp [stands, moves.entry]
    · simp [same]
      grind
  unique request e e' mem mem' := by
    simp only [Effect.mem_submissions] at mem mem'
    have old := registries.unique request e e'
    have free : effect = .register request → ∀ e, (request, e) ∉ s.submissions :=
      fun registers e => entry?_none (moves.registers_free registers).1
    grind
  completed e mem := by
    simp only [Effect.apply_handlers, stands_set stands]
    rcases Effect.mem_completed.mp mem with old | ⟨completes, rfl⟩
    · obtain ⟨g, stands', settled⟩ := registries.completed e old
      by_cases same : e = t
      · subst same
        cases stands.symm.trans stands'
        exact ⟨h', Or.inl ⟨rfl, rfl⟩, moves.settled settled⟩
      · exact ⟨g, Or.inr ⟨same, stands'⟩, settled⟩
    · exact ⟨h', Or.inl ⟨rfl, rfl⟩, moves.completes_settled.1 completes⟩
  published u g command stands' removing := by
    simp only [Effect.apply_handlers, stands_set stands] at stands'
    rw [Effect.mem_completed]
    rcases stands' with ⟨rfl, rfl⟩ | ⟨-, stands'⟩
    · exact Or.inr ⟨moves.completes_settled.2 command removing, rfl⟩
    · exact Or.inl (registries.published u g command stands' removing)
  joined u g wait e stands' joined := by
    have old : e ∈ s.completed
        ∨ ∃ g, s.handlers[e]? = some g ∧ g.phase.inFlight? = some wait.request := by
      simp only [Effect.apply_handlers, stands_set stands] at stands'
      rcases stands' with ⟨rfl, rfl⟩ | ⟨-, stands'⟩
      · exact registries.standing (entry?_mem (moves.joined joined).2.2)
      · exact registries.joined u g wait e stands' joined
    simp only [Effect.mem_completed, Effect.apply_handlers, stands_set stands]
    rcases old with completed | ⟨g, standing, inFlight⟩
    · exact Or.inl (Or.inl completed)
    · by_cases same : e = t
      · subst same
        cases stands.symm.trans standing
        by_cases completes : effect = .complete
        · exact Or.inl (Or.inr ⟨completes, rfl⟩)
        · exact Or.inr ⟨h', Or.inl ⟨rfl, rfl⟩, moves.inFlight.mpr (Or.inl ⟨inFlight, completes⟩)⟩
      · exact Or.inr ⟨g, Or.inr ⟨same, standing⟩, inFlight⟩
  watched u g request stands' sleeping asleep := by
    simp only [Effect.apply_handlers, stands_set stands] at stands' ⊢
    have bound : u < (s.handlers.set t h').length :=
      (List.getElem?_eq_some_iff.mp ((stands_set stands).mpr stands')).1
    obtain ⟨quiet, asleep⟩ := Effect.not_woken bound asleep
    rcases stands' with ⟨rfl, rfl⟩ | ⟨differs, stands'⟩
    · -- it has just seen an earlier decode guard
      obtain ⟨-, prior, pending, earlier⟩ := moves.sleeping sleeping
      obtain ⟨g, standing, decodes⟩ := (registries.pending prior).mp pending
      exact ⟨prior, g, Or.inr ⟨Nat.ne_of_lt earlier, standing⟩, Or.inl ⟨decodes, earlier⟩⟩
    · obtain ⟨v, x, standing, cause⟩ :=
        registries.watched u g request stands' sleeping (asleep differs)
      by_cases same : v = t
      · subst same
        cases stands.symm.trans standing
        rcases cause with ⟨decodes, earlier⟩ | ⟨after, notifying⟩
        · by_cases release : effect = .release
          · exact ⟨v, h', Or.inl ⟨rfl, rfl⟩, Or.inr (moves.releases release)⟩
          · exact ⟨v, h', Or.inl ⟨rfl, rfl⟩, Or.inl ⟨moves.decodes.mpr ⟨decodes, release⟩, earlier⟩⟩
        · exact absurd (moves.notifying notifying) quiet
      · exact ⟨v, x, Or.inr ⟨same, standing⟩, cause⟩

/-- A new connection holds its decode guard, and nothing else. -/
theorem Registries.accept (registries : Registries s)
    : Registries
        { s with
          handlers := s.handlers ++ [.accepted], pending := s.pending ++ [s.handlers.length] } where
  pending u := by
    simp only [List.mem_append, List.mem_singleton, stands_append, registries.pending u]
    constructor
    · rintro (⟨h, stands, decodes⟩ | rfl)
      · exact ⟨h, Or.inl stands, decodes⟩
      · exact ⟨_, Or.inr ⟨rfl, rfl⟩, trivial⟩
    · rintro ⟨h, stands | ⟨rfl, -⟩, decodes⟩
      · exact Or.inl ⟨h, stands, decodes⟩
      · exact Or.inr rfl
  entries request u := by
    simp only [stands_append, registries.entries request u]
    constructor
    · rintro ⟨h, stands, entry⟩
      exact ⟨h, Or.inl stands, entry⟩
    · rintro ⟨h, stands | ⟨-, rfl⟩, entry⟩
      · exact ⟨h, stands, entry⟩
      · cases entry
  unique := registries.unique
  completed e mem := by
    obtain ⟨h, stands, settled⟩ := registries.completed e mem
    exact ⟨h, stands_append.mpr (Or.inl stands), settled⟩
  published u g command stands removing := by
    rcases stands_append.mp stands with old | ⟨-, rfl⟩
    · exact registries.published u g command old removing
    · cases removing
  joined u g wait e stands joined := by
    rcases stands_append.mp stands with old | ⟨-, rfl⟩
    · refine (registries.joined u g wait e old joined).imp_right ?_
      rintro ⟨h, standing, inFlight⟩
      exact ⟨h, stands_append.mpr (Or.inl standing), inFlight⟩
    · cases joined
  watched u g request stands sleeping asleep := by
    rcases stands_append.mp stands with old | ⟨-, rfl⟩
    · obtain ⟨v, x, standing, cause⟩ := registries.watched u g request old sleeping asleep
      exact ⟨v, x, stands_append.mpr (Or.inl standing), cause⟩
    · cases sleeping

/-- The registries are kept by every step. -/
theorem Registries.step {act : Act} (registries : Registries s) (step : s.Step actor act s')
    : Registries s' := by
  cases step with
  | accept => exact registries.accept
  | move stands moves => exact registries.move stands moves
  | call _ _ => exact { registries with }
  | reserve _ _ _ _ _ => exact { registries with }
  | passes _ _ _ => exact { registries with }

/-- The registries tell where the handlers stand in every state. -/
theorem reachable_registries (reached : (server actor).Reachable s) : Registries s := by
  refine reached.invariant ?_ (fun _ _ _ _ registries step => registries.step step)
  rintro s ⟨-, handlers, pending, woken, submissions, completed, -⟩
  constructor <;> simp [*]

-----------------------------------------------------------------------------------------
-- Waiting
-----------------------------------------------------------------------------------------

/-- The handler waits for the entry of another one, or for `changed`. -/
def Server.Waits (s : Server) (t : Nat) : Prop :=
  ∃ h, s.handlers[t]? = some h
    ∧ ((∃ wait e, h.phase = .joined wait e ∧ e ∉ s.completed)
      ∨ ∃ request, h.phase = .sleeping request ∧ t ∉ s.woken)

/-- The wait of one handler ends by a step of the other: its entry is completed, or it drops
its decode guard, or notifies that it has.
-/
def Server.WaitsOn (s : Server) (t u : Nat) : Prop :=
  ∃ h, s.handlers[t]? = some h
    ∧ ((∃ wait, h.phase = .joined wait u ∧ u ∉ s.completed)
      ∨ ∃ request, h.phase = .sleeping request ∧ t ∉ s.woken
        ∧ ∃ g, s.handlers[u]? = some g
          ∧ ((g.phase.Decodes ∧ u < t) ∨ ∃ after, g.phase = .notifying after))

/-- The handler can go on without any other handler. -/
def Server.CanGo (actor : ActorId) (s : Server) (t : Nat) : Prop :=
  ∃ outcome s', s.Step actor (.move t outcome) s'

/-- A handler that holds its decode guard or its submission guard goes on, unless it has
joined another submission.
-/
theorem canGo (stands : s.handlers[t]? = some h)
    (holds : (h.phase.Decodes ∧ ∀ wait e, h.phase = .joined wait e → e ∈ s.completed)
      ∨ (∃ request, h.phase.inFlight? = some request) ∨ ∃ after, h.phase = .notifying after)
    : s.CanGo actor t := by
  suffices ∃ outcome effect h', Moves actor s t h outcome effect h' by
    obtain ⟨outcome, effect, h', moves⟩ := this
    exact ⟨outcome, _, .move stands moves⟩
  cases here : h.phase with
  | decoding => exact ⟨_, _, _, .unreadable here⟩
  | registering command =>
      cases free : s.entry? command.requestId with
      | none => exact ⟨_, _, _, .registers here free⟩
      | some entry => exact ⟨_, _, _, .refused here free⟩
  | waitFor wait =>
      cases free : s.entry? wait.request with
      | none => exact ⟨_, _, _, .absent here free⟩
      | some entry => exact ⟨_, _, _, .joins here free⟩
  | dropping after => exact ⟨_, _, _, .drops here⟩
  | notifying after => exact ⟨_, _, _, .notifies here⟩
  | joined wait e =>
      rcases holds with ⟨-, complete⟩ | ⟨request, inFlight⟩ | ⟨after, same⟩
      · exact ⟨_, _, _, .learns here (complete wait e here)⟩
      · rw [here] at inFlight
        cases inFlight
      · rw [here] at same
        cases same
  | subscribing command guarded => exact ⟨_, _, _, .subscribes here⟩
  | transacting command guarded => exact ⟨_, _, _, .transactionFails here⟩
  | completing command => exact ⟨_, _, _, .completes here⟩
  | _ =>
      rw [here] at holds
      rcases holds with ⟨decodes, -⟩ | ⟨request, inFlight⟩ | ⟨after, same⟩
      · exact decodes.elim
      · cases inFlight
      · cases same

/-- A submission in flight waits for no handler. -/
theorem not_waitsOn_of_inFlight (stands : s.handlers[t]? = some h)
    (inFlight : h.phase.inFlight? = some request)
    : ¬s.WaitsOn t u := by
  rintro ⟨g, stands', ⟨wait, joined, -⟩ | ⟨other, sleeping, -⟩⟩
  · cases stands.symm.trans stands'
    rw [joined] at inFlight
    cases inFlight
  · cases stands.symm.trans stands'
    rw [sleeping] at inFlight
    cases inFlight

/-- Whom a handler waits for: a submission in flight, a handler with its decode guard, or one
about to notify.
-/
theorem Registries.waitsOn (registries : Registries s) (waits : s.WaitsOn t u)
    : ∃ g, s.handlers[u]? = some g
      ∧ ((∃ request, g.phase.inFlight? = some request) ∨ g.phase.Decodes
        ∨ ∃ after, g.phase = .notifying after) := by
  obtain ⟨h, stands, ⟨wait, joined, incomplete⟩ | ⟨request, -, -, g, standing, cause⟩⟩ := waits
  · obtain ⟨g, standing, inFlight⟩ :=
      (registries.joined t h wait u stands joined).resolve_left incomplete
    exact ⟨g, standing, Or.inl ⟨_, inFlight⟩⟩
  · exact ⟨g, standing, Or.inr (cause.imp_left And.left)⟩

/-- A handler that is waited for waits itself, if at all, for a submission in flight. -/
theorem Registries.waitsOn_waitsOn {v : Nat} (registries : Registries s) (waits : s.WaitsOn t u)
    (again : s.WaitsOn u v)
    : ∃ g request, s.handlers[v]? = some g ∧ g.phase.inFlight? = some request := by
  obtain ⟨x, standing, holds⟩ := registries.waitsOn waits
  obtain ⟨h, stands, ⟨wait, joined, incomplete⟩ | ⟨request, sleeping, -⟩⟩ := again
  · obtain ⟨g, standing, inFlight⟩ :=
      (registries.joined u h wait v stands joined).resolve_left incomplete
    exact ⟨g, _, standing, inFlight⟩
  · cases stands.symm.trans standing
    rw [sleeping] at holds
    rcases holds with ⟨_, inFlight⟩ | decodes | ⟨after, same⟩
    · cases inFlight
    · exact decodes.elim
    · cases same

/-- Chains of waiting handlers have at most two links. -/
theorem Registries.chain {v x : Nat} (registries : Registries s) (waits : s.WaitsOn t u)
    (again : s.WaitsOn u v)
    : ¬s.WaitsOn v x := by
  obtain ⟨g, request, standing, inFlight⟩ := registries.waitsOn_waitsOn waits again
  exact not_waitsOn_of_inFlight standing inFlight

/-- Every waiting handler waits for one that can go on, or for one that waits for one that
can.
-/
theorem Registries.waits_end (registries : Registries s) (waits : s.Waits t)
    : ∃ u, s.WaitsOn t u
      ∧ (s.CanGo actor u ∨ ∃ v, s.WaitsOn u v ∧ s.CanGo actor v) := by
  have some' : ∃ u, s.WaitsOn t u := by
    obtain ⟨h, stands, ⟨wait, e, joined, incomplete⟩ | ⟨request, sleeping, asleep⟩⟩ := waits
    · exact ⟨e, h, stands, Or.inl ⟨wait, joined, incomplete⟩⟩
    · obtain ⟨u, g, standing, cause⟩ := registries.watched t h request stands sleeping asleep
      exact ⟨u, h, stands, Or.inr ⟨request, sleeping, asleep, g, standing, cause⟩⟩
  obtain ⟨u, waitsOn⟩ := some'
  refine ⟨u, waitsOn, ?_⟩
  obtain ⟨g, standing, holds⟩ := registries.waitsOn waitsOn
  by_cases joins : ∃ wait e, g.phase = .joined wait e ∧ e ∉ s.completed
  · obtain ⟨wait, e, joined, incomplete⟩ := joins
    have again : s.WaitsOn u e := ⟨g, standing, Or.inl ⟨wait, joined, incomplete⟩⟩
    obtain ⟨x, request, standing', inFlight⟩ := registries.waitsOn_waitsOn waitsOn again
    exact Or.inr ⟨e, again, canGo standing' (Or.inr (Or.inl ⟨request, inFlight⟩))⟩
  · simp only [not_exists, not_and, not_not] at joins
    rcases holds with inFlight | decodes | notifying
    · exact Or.inl (canGo standing (Or.inr (Or.inl inFlight)))
    · exact Or.inl (canGo standing (Or.inl ⟨decodes, joins⟩))
    · exact Or.inl (canGo standing (Or.inr (Or.inr notifying)))

-----------------------------------------------------------------------------------------
-- Missing requests
-----------------------------------------------------------------------------------------

/-- A submission whose registration was refused goes on only if its request is stored: the
submission it has waited for was committed.
-/
def JoinsStored (actor : ActorId) (s : Server) : Act → Prop
  | .move ticket _ => ∀ h command, s.handlers[ticket]? = some h →
      (h.phase = .waitFor (.joining command) ∧ s.entry? command.requestId = none)
        ∨ (∃ entry ∈ s.completed, h.phase = .joined (.joining command) entry) →
      Stored actor s.world.store command.requestId
  | _ => True

/-- What carries the race: unguarded submissions and read records are of stored requests, a
`Resume` in its second lookup has no earlier decode guard before it, and at the lookup itself
no earlier submission in flight; one that missed its request has no earlier submission before
it that may commit.
-/
structure Sound (actor : ActorId) (s : Server) : Prop where
  registries : Registries s
  fresh : ∀ (t : Nat) h, s.handlers[t]? = some h → h.phase = .decoding →
    h.errors = [] ∧ h.outcome = none
  stored : ∀ (t : Nat) (h : Handler) request, s.handlers[t]? = some h →
    h.phase.submits? false = some request ∨ h.phase.found? = some request
      ∨ (h.Committed ∧ h.phase.request? = some request) →
    Stored actor s.world.store request
  cleared : ∀ (t : Nat) (h : Handler) request, s.handlers[t]? = some h →
    h.phase.last? = some request → ∀ prior ∈ s.pending, t ≤ prior
  joinedLast : ∀ (t : Nat) (h : Handler) request e, s.handlers[t]? = some h →
    h.phase = .joined (.lookingAgain request) e →
    ∀ (u : Nat) (g : Handler), u < t → s.handlers[u]? = some g →
      g.phase.inFlight? = some request → u = e
  alone : ∀ (t : Nat) (h : Handler) request, s.handlers[t]? = some h →
    h.phase = .resolving request true →
    ∀ (u : Nat) (g : Handler), u < t → s.handlers[u]? = some g →
      g.phase.inFlight? ≠ some request
  missed : ∀ (t : Nat) (h : Handler) request, s.handlers[t]? = some h → h.Misses request →
    ∀ (u : Nat) (g : Handler), u < t → s.handlers[u]? = some g →
      ¬g.phase.Decodes ∧ (∀ guard, g.phase.submits? guard ≠ some request)
        ∧ (g.phase.request? = some request → ¬g.Committed)

theorem Phase.decodes_of_enters {phase : Phase} (enters : phase.enters? = some request)
    : phase.Decodes := by
  cases phase <;> first | trivial | cases enters | exact Option.isSome_of_mem enters

/-- An earlier handler than a `Resume` in its second lookup enters no submission. -/
theorem Sound.not_entering (sound : Sound actor s) (stands : s.handlers[t]? = some h)
    (last : h.phase.last? = some request) (earlier : u < t) (standing : s.handlers[u]? = some g)
    : ¬g.phase.Decodes := fun decodes =>
  absurd (sound.cleared t h request stands last u
    ((sound.registries.pending u).mpr ⟨g, standing, decodes⟩)) (Nat.not_le.mpr earlier)

/-- A handler that is in flight after a step was so before, or held its decode guard. -/
theorem Moves.inFlight_before (moves : Moves actor s t h outcome effect h')
    (inFlight : h'.phase.inFlight? = some request)
    : h.phase.inFlight? = some request ∨ h.phase.Decodes := by
  rcases moves.inFlight.mp inFlight with ⟨before, -⟩ | registers
  · exact Or.inl before
  · exact Or.inr (Phase.decodes_of_enters (moves.registers_free registers).2)

theorem stored_of_found {record : LocalRequestRecord} {store : Store}
    (found : resolveLocalRequest store actor request = some record)
    : Stored actor store request := by
  simp only [resolveLocalRequest, Option.bind_eq_bind, Option.bind_eq_some_iff] at found
  obtain ⟨row, first, event, second, -⟩ := found
  obtain ⟨known, own, owner⟩ := Table.find?_some first
  obtain ⟨known', same⟩ := Table.find?_some second
  exact ⟨row, known, own, owner, event, known', same⟩

/-- Unguarded submissions, read records and committed submissions stay those of stored
requests.
-/
theorem Sound.stored_move (sound : Sound actor s) (stands : s.handlers[t]? = some h)
    (allowed : JoinsStored actor s (.move t outcome))
    (moves : Moves actor s t h outcome effect h')
    (holds : h'.phase.submits? false = some request ∨ h'.phase.found? = some request
      ∨ (h'.Committed ∧ h'.phase.request? = some request))
    : Stored actor (effect.apply t { s with handlers := s.handlers.set t h' }).world.store
        request := by
  have keep : Stored actor s.world.store request →
      Stored actor (effect.apply t { s with handlers := s.handlers.set t h' }).world.store
        request :=
    fun stored => stored.apply (s := { s with handlers := s.handlers.set t h' })
  rcases holds with submits | found | ⟨⟨answer, answered, commits⟩, own⟩
  · rcases moves.unguarded submits with before | ⟨command, rfl, goes⟩
    · exact keep (sound.stored t h request stands (Or.inl before))
    · exact keep (allowed h command stands goes)
  · rcases moves.found found with before | ⟨record, resolved⟩
    · exact keep (sound.stored t h request stands (Or.inr (Or.inl before)))
    · exact keep (stored_of_found resolved)
  · rcases moves.answers with same | ⟨command, guarded, now, ids, here, commit, answers, request'⟩
    · rcases moves.keepsRequest with decoding | request'
      · rw [same, (sound.fresh t h stands decoding).2] at answered
        cases answered
      · exact keep (sound.stored t h request stands
          (Or.inr (Or.inr ⟨⟨answer, same ▸ answered, commits⟩, request' ▸ own⟩)))
    · cases own.symm.trans request'
      rw [answers] at answered
      rw [commit]
      exact stored_of_outcome answered commits

/-- A `Resume` that misses its request has no earlier submission of it that may commit. -/
theorem Sound.missed_move (sound : Sound actor s) (stands : s.handlers[t]? = some h)
    (moves : Moves actor s t h outcome effect h') (misses : h'.Misses request)
    (earlier : u < t) (standing : s.handlers[u]? = some g)
    : ¬g.phase.Decodes ∧ (∀ guard, g.phase.submits? guard ≠ some request)
      ∧ (g.phase.request? = some request → ¬g.Committed) := by
  rcases moves.finds_missing misses with before | ⟨decoding, missed⟩ | ⟨missing, holds⟩
  · exact sound.missed t h request stands before u g earlier standing
  · rw [(sound.fresh t h stands decoding).1] at missed
    exact absurd missed List.not_mem_nil
  · have absent : ¬Stored actor s.world.store request := fun stored => stored.resolved missing
    rcases holds with here | found | committed
    · have last : h.phase.last? = some request := by rw [here]; rfl
      refine ⟨sound.not_entering stands last earlier standing, fun guard submits => ?_,
        fun own committed => absent (sound.stored u g request standing
          (Or.inr (Or.inr ⟨committed, own⟩)))⟩
      cases guard with
      | false => exact absent (sound.stored u g request standing (Or.inl submits))
      | true =>
          refine sound.alone t h request stands here u g earlier standing ?_
          cases phase : g.phase <;> rw [phase] at submits <;> first | exact submits | cases submits
    · exact absurd (sound.stored t h request stands (Or.inr (Or.inl found))) absent
    · exact absurd (sound.stored t h request stands (Or.inr (Or.inr committed))) absent

/-- Sound servers stay sound over a step of a handler. -/
theorem Sound.move (sound : Sound actor s) (stands : s.handlers[t]? = some h)
    (allowed : JoinsStored actor s (.move t outcome))
    (moves : Moves actor s t h outcome effect h')
    : Sound actor (effect.apply t { s with handlers := s.handlers.set t h' }) where
  registries := sound.registries.move stands moves
  fresh u g standing decoding := by
    simp only [Effect.apply_handlers, stands_set stands] at standing
    rcases standing with ⟨rfl, rfl⟩ | ⟨-, old⟩
    · exact absurd decoding moves.not_decoding
    · exact sound.fresh u g old decoding
  stored u g request standing holds := by
    simp only [Effect.apply_handlers, stands_set stands] at standing
    rcases standing with ⟨rfl, rfl⟩ | ⟨-, old⟩
    · exact sound.stored_move stands allowed moves holds
    · exact (sound.stored u g request old holds).apply
        (s := { s with handlers := s.handlers.set t h' })
  cleared u g request standing last prior pending := by
    have pending := (Effect.mem_pending.mp pending).1
    simp only [Effect.apply_handlers, stands_set stands] at standing
    rcases standing with ⟨rfl, rfl⟩ | ⟨-, old⟩
    · rcases moves.last last with before | ⟨-, alone⟩
      · exact sound.cleared u h request stands before prior pending
      · exact alone prior pending
    · exact sound.cleared u g request old last prior pending
  joinedLast u g request e standing joined v x earlier standing' inFlight := by
    simp only [Effect.apply_handlers, stands_set stands] at standing standing'
    rcases standing with ⟨rfl, rfl⟩ | ⟨-, old⟩
    · rcases standing' with ⟨rfl, -⟩ | ⟨-, old'⟩
      · exact absurd earlier (Nat.lt_irrefl v)
      · have entry : x.phase.entry? = some request := by
          cases phase : x.phase <;> rw [phase] at inFlight <;> first | exact inFlight | cases inFlight
        exact sound.registries.unique request v e
          ((sound.registries.entries request v).mpr ⟨x, old', entry⟩)
          (entry?_mem (moves.joined joined).2.2)
    · rcases standing' with ⟨rfl, rfl⟩ | ⟨-, old'⟩
      · have last : g.phase.last? = some request := by rw [joined]; rfl
        exact sound.joinedLast u g request e old joined v h earlier stands
          ((moves.inFlight_before inFlight).resolve_right
            (sound.not_entering old last earlier stands))
      · exact sound.joinedLast u g request e old joined v x earlier old' inFlight
  alone u g request standing resolving v x earlier standing' inFlight := by
    simp only [Effect.apply_handlers, stands_set stands] at standing standing'
    rcases standing with ⟨rfl, rfl⟩ | ⟨-, old⟩
    · rcases standing' with ⟨rfl, -⟩ | ⟨-, old'⟩
      · exact absurd earlier (Nat.lt_irrefl v)
      · rcases (moves.resolving resolving).2 with ⟨-, free⟩ | ⟨e, completed, joined⟩
        · have entry : x.phase.entry? = some request := by
            cases phase : x.phase <;> rw [phase] at inFlight <;>
              first | exact inFlight | cases inFlight
          exact entry?_none free ((sound.registries.entries request v).mpr ⟨x, old', entry⟩)
        · obtain rfl := sound.joinedLast u h request e stands joined v x earlier old' inFlight
          obtain ⟨y, standing, settled⟩ := sound.registries.completed v completed
          cases old'.symm.trans standing
          exact nomatch settled.not_inFlight.symm.trans inFlight
    · have last : g.phase.last? = some request := by rw [resolving]; rfl
      rcases standing' with ⟨rfl, rfl⟩ | ⟨-, old'⟩
      · exact sound.alone u g request old resolving v h earlier stands
          ((moves.inFlight_before inFlight).resolve_right
            (sound.not_entering old last earlier stands))
      · exact sound.alone u g request old resolving v x earlier old' inFlight
  missed u g request standing misses v x earlier standing' := by
    simp only [Effect.apply_handlers, stands_set stands] at standing standing'
    rcases standing with ⟨rfl, rfl⟩ | ⟨-, old⟩
    · rcases standing' with ⟨rfl, -⟩ | ⟨-, old'⟩
      · exact absurd earlier (Nat.lt_irrefl v)
      · exact sound.missed_move stands moves misses earlier old'
    · rcases standing' with ⟨rfl, rfl⟩ | ⟨-, old'⟩
      · obtain ⟨past, submits, uncommitted⟩ :=
          sound.missed u g request old misses v h earlier stands
        refine ⟨fun decodes => past (moves.decodes.mp decodes).1, fun guard again => ?_,
          fun own => ?_⟩
        · exact (moves.submits again).elim (submits guard)
            (fun enters => past (Phase.decodes_of_enters enters))
        · rintro ⟨answer, answered, commits⟩
          rcases moves.answers with same | ⟨command, guarded, _, _, here, -, -, request'⟩
          · rcases moves.keepsRequest with decoding | request'
            · exact past (decoding ▸ trivial)
            · exact uncommitted (request' ▸ own) ⟨answer, same ▸ answered, commits⟩
          · cases own.symm.trans request'
            refine submits guarded ?_
            rw [here]
            exact if_pos rfl
      · exact sound.missed u g request old misses v x earlier old'

/-- Sound servers stay sound when a connection is accepted. -/
theorem Sound.accept (sound : Sound actor s)
    : Sound actor
        { s with
          handlers := s.handlers ++ [.accepted], pending := s.pending ++ [s.handlers.length] } where
  registries := sound.registries.accept
  fresh u g standing decoding := by
    rcases stands_append.mp standing with old | ⟨-, rfl⟩
    · exact sound.fresh u g old decoding
    · exact ⟨rfl, rfl⟩
  stored u g request standing holds := by
    rcases stands_append.mp standing with old | ⟨-, rfl⟩
    · exact sound.stored u g request old holds
    · rcases holds with same | same | ⟨-, same⟩ <;> cases same
  cleared u g request standing last prior pending := by
    rcases stands_append.mp standing with old | ⟨-, rfl⟩
    · rcases List.mem_append.mp pending with before | last'
      · exact sound.cleared u g request old last prior before
      · rw [List.mem_singleton.mp last']
        exact Nat.le_of_lt (List.getElem?_eq_some_iff.mp old).1
    · cases last
  joinedLast u g request e standing joined v x earlier standing' inFlight := by
    rcases stands_append.mp standing with old | ⟨-, rfl⟩
    · rcases stands_append.mp standing' with old' | ⟨-, rfl⟩
      · exact sound.joinedLast u g request e old joined v x earlier old' inFlight
      · cases inFlight
    · cases joined
  alone u g request standing resolving v x earlier standing' inFlight := by
    rcases stands_append.mp standing with old | ⟨-, rfl⟩
    · rcases stands_append.mp standing' with old' | ⟨-, rfl⟩
      · exact sound.alone u g request old resolving v x earlier old' inFlight
      · cases inFlight
    · cases resolving
  missed u g request standing misses v x earlier standing' := by
    rcases stands_append.mp standing with old | ⟨-, rfl⟩
    · rcases stands_append.mp standing' with old' | ⟨rfl, -⟩
      · exact sound.missed u g request old misses v x earlier old'
      · exact absurd (List.getElem?_eq_some_iff.mp old).1 (Nat.not_lt.mpr (Nat.le_of_lt earlier))
    · rcases misses with same | ⟨same, -⟩ <;> cases same

/-- Sound servers stay sound over every step in which refused submissions go on only for
stored requests.
-/
theorem Sound.step {act : Act} (sound : Sound actor s) (allowed : JoinsStored actor s act)
    (step : s.Step actor act s')
    : Sound actor s' := by
  cases step with
  | accept => exact sound.accept
  | move stands moves => exact sound.move stands allowed moves
  | call admissible other =>
      exact
        { sound with
          registries := { sound.registries with }
          stored := fun t h request stands holds =>
            (sound.stored t h request stands holds).after _ }
  | reserve _ _ _ _ _ => exact { sound with registries := { sound.registries with } }
  | passes _ _ _ => exact { sound with registries := { sound.registries with } }

theorem reachable_sound (reached : ((server actor).restrict (JoinsStored actor)).Reachable s)
    : Sound actor s := by
  refine reached.invariant ?_ (fun _ _ _ _ sound step => sound.step step.1 step.2)
  intro s start
  have reached : (server actor).Reachable s := .initial start
  have empty := reachable_registries reached
  obtain ⟨-, handlers, -⟩ := start
  constructor <;> simp [handlers, empty]

/-- In every run in which a submission that was refused by the registry goes on only once its
request is stored, a handler that has answered that its request does not exist has no
submission of that request on an earlier connection that was or will be committed. In every
state a waiting handler waits for one that can go on, or for one that waits for one that can,
and chains of waiting handlers have at most two links.
-/
theorem resume_race (reached : ((server actor).restrict (JoinsStored actor)).Reachable s)
    : (∀ (t u : Nat) (h g : Handler), s.handlers[t]? = some h → s.handlers[u]? = some g → u < t →
        ∀ request, h.phase.request? = some request → "missing_request" ∈ h.errors →
          g.phase.request? = some request → ¬g.Committed)
      ∧ (∀ t, s.Waits t →
        ∃ u, s.WaitsOn t u ∧ (s.CanGo actor u ∨ ∃ v, s.WaitsOn u v ∧ s.CanGo actor v))
      ∧ ∀ t u v w, s.WaitsOn t u → s.WaitsOn u v → ¬s.WaitsOn v w := by
  have sound := reachable_sound reached
  refine ⟨fun t u h g stands standing earlier request own missed same => ?_,
    fun t waits => sound.registries.waits_end waits,
    fun t u v w waits again => sound.registries.chain waits again⟩
  exact (sound.missed t h request stands (Or.inr ⟨own, missed⟩) u g earlier standing).2.2 same

-----------------------------------------------------------------------------------------
-- Overlapping submissions
-----------------------------------------------------------------------------------------

namespace Overlapping

def command : LocalSubmission := ⟨⟨1⟩, "hello", "sha"⟩

def idle : Server := ⟨World.single, [], [], [], [], [], []⟩

theorem connects {allowed : Server → Act → Prop}
    (reached : ((server localActor).restrict allowed).Reachable s) (holds : allowed s .accept)
    : ((server localActor).restrict allowed).Reachable
        { s with
          handlers := s.handlers ++ [.accepted], pending := s.pending ++ [s.handlers.length] } :=
  .step reached ⟨holds, .accept⟩

/-- A step of a handler, in any run. -/
theorem goes (t : Nat) {allowed : Server → Act → Prop}
    (reached : ((server localActor).restrict allowed).Reachable s)
    (stands : s.handlers[t]? = some h) (moves : Moves localActor s t h outcome effect h')
    (holds : allowed s (.move t outcome))
    : ((server localActor).restrict allowed).Reachable
        (effect.apply t { s with handlers := s.handlers.set t h' }) :=
  .step reached ⟨holds, .move stands moves⟩

/-- A handler that has not joined another submission goes on as it may. -/
theorem free (stands : s.handlers[t]? = some h)
    (apart : ∀ command, h.phase ≠ .waitFor (.joining command)
      ∧ ∀ e, h.phase ≠ .joined (.joining command) e)
    : JoinsStored localActor s (.move t outcome) := by
  rintro g command standing (⟨same, -⟩ | ⟨e, -, same⟩)
  · cases stands.symm.trans standing
    exact absurd same (apart command).1
  · cases stands.symm.trans standing
    exact absurd same ((apart command).2 e)

/-- A `Resume` waits for the submission that is in flight. -/
theorem resume_race_waiting
    : ∃ s, ((server localActor).restrict (JoinsStored localActor)).Reachable s ∧ s.Waits 1
      ∧ ∃ u, s.WaitsOn 1 u
        ∧ (s.CanGo localActor u ∨ ∃ v, s.WaitsOn u v ∧ s.CanGo localActor v) := by
  have run : ((server localActor).restrict (JoinsStored localActor)).Reachable idle :=
    .initial ⟨reachable_single, rfl, rfl, rfl, rfl, rfl, rfl⟩
  have run := connects run trivial
  have run := connects run trivial
  have run := goes 0 run rfl (.submit command rfl) (free rfl (fun _ => ⟨nofun, nofun⟩))
  have run := goes 0 run rfl (.registers rfl rfl) (free rfl (fun _ => ⟨nofun, nofun⟩))
  have run := goes 1 run rfl (.resume ⟨1⟩ rfl) (free rfl (fun _ => ⟨nofun, nofun⟩))
  have run := goes 1 run rfl (.drops rfl) (free rfl (fun _ => ⟨nofun, nofun⟩))
  have run := goes 1 run rfl (.notifies rfl) (free rfl (fun _ => ⟨nofun, nofun⟩))
  have run := goes 1 run rfl (.joins rfl rfl) (free rfl (fun _ => ⟨nofun, nofun⟩))
  have waits := (resume_race run).2.1 1 ⟨_, rfl, Or.inl ⟨_, _, rfl, List.not_mem_nil⟩⟩
  exact ⟨_, run, ⟨_, rfl, Or.inl ⟨_, _, rfl, List.not_mem_nil⟩⟩, waits⟩

/-- Two submissions of one request overlap. The first one fails; the second one, which waited
for it, is in neither registry when a later `Resume` looks the request up, and commits.
-/
theorem resume_misses_committed_submission
    : ¬∀ s, (server localActor).Reachable s →
      ∀ (t u : Nat) (h g : Handler), s.handlers[t]? = some h → s.handlers[u]? = some g → u < t →
        ∀ request, h.phase.request? = some request → "missing_request" ∈ h.errors →
          g.phase.request? = some request → ¬g.Committed := by
  intro never
  have run : ((server localActor).restrict (fun _ _ => True)).Reachable idle :=
    .initial ⟨reachable_single, rfl, rfl, rfl, rfl, rfl, rfl⟩
  have run := connects run trivial
  have run := connects run trivial
  have run := connects run trivial
  have run := goes 0 run rfl (.submit command rfl) trivial
  have run := goes 0 run rfl (.registers rfl rfl) trivial
  have run := goes 0 run rfl (.drops rfl) trivial
  have run := goes 0 run rfl (.notifies rfl) trivial
  have run := goes 1 run rfl (.submit command rfl) trivial
  have run := goes 1 run rfl (.refused rfl rfl) trivial
  have run := goes 1 run rfl (.joins rfl rfl) trivial
  have run := goes 2 run rfl (.resume ⟨1⟩ rfl) trivial
  have run := goes 2 run rfl (.drops rfl) trivial
  have run := goes 2 run rfl (.notifies rfl) trivial
  have run := goes 2 run rfl (.joins rfl rfl) trivial
  have run := goes 0 run rfl (.subscribes rfl) trivial
  have run := goes 0 run rfl (.transactionFails rfl) trivial
  have run := goes 0 run rfl (.completes rfl) trivial
  have run := goes 0 run rfl (.removes rfl) trivial
  have run := goes 1 run rfl (.learns rfl (by decide)) trivial
  have run := goes 1 run rfl (.drops rfl) trivial
  have run := goes 1 run rfl (.notifies rfl) trivial
  have run := goes 1 run rfl (.subscribes rfl) trivial
  have run := goes 2 run rfl (.learns rfl (by decide)) trivial
  have run := goes 2 run rfl (.looksAgain rfl (by decide +kernel)) trivial
  have run := goes 2 run rfl (.listens rfl) trivial
  have run := goes 2 run rfl (.first rfl (by decide)) trivial
  have run := goes 2 run rfl (.absent rfl rfl) trivial
  have run := goes 2 run rfl (.misses rfl (by decide +kernel)) trivial
  have run := goes 2 run rfl (.reports rfl) trivial
  have run := goes 1 run rfl (.transacts 10 (.numbered 1) rfl (by decide +kernel)) trivial
  exact never _ run.of_restrict 2 1 _ _ rfl rfl (by decide) ⟨1⟩ rfl (by decide) rfl
    ⟨.accepted ⟨1⟩ ⟨1⟩ 1, by decide +kernel, trivial⟩

end Overlapping

end Codrik.Runtime.Ipc
