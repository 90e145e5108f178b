import Codrik.Runtime.Runner.Quanta
import Codrik.Runtime.Runner.Script

/-! When a run is completed: its tool calls are settled and in the transcript, unless a
preempted quantum went on with another run that had unresolved ones.
-/

namespace Codrik.Runtime.Runner

open Codrik.Interaction
open Codrik.Relational
open Codrik.Runtime.Sqlite
open Codrik.Transition

-----------------------------------------------------------------------------------------
-- Open attempts
-----------------------------------------------------------------------------------------

/-- The unresolved attempts of the run are among the ids. -/
def OpenAttempts (ids : Set AttemptId) (run : AttachedRun) (w : World) : Prop :=
  ∀ attempt ∈ w.store.toolAttempts, attempt.runId = run.runId → ¬Resolved attempt →
    attempt.id ∈ ids

/-- A preempted quantum goes on with the run it had, with one whose attempts are all resolved,
or with a new one.
-/
def ResumesResolved (w : World) : Op → Prop
  | .call (some held) (.attachNextRun lease _ now _) =>
      ∀ row ∈ dueActiveRun w.store lease.actorId now, row.id = held.runId
        ∨ ∀ attempt ∈ w.store.toolAttempts, attempt.runId = row.id → Resolved attempt
  | _ => True

/-- A run is finalized when all its attempts are resolved. -/
def FinalizesResolved (w : World) : Op → Prop
  | .call _ (.finalizeRun command _ _) =>
      ∀ attempt ∈ w.store.toolAttempts, attempt.runId = command.run.runId → Resolved attempt
  | _ => True

section Open

variable {actorId : ActorId} {ids : Set AttemptId} {q : Quantum} {w : World}

/-- A call that prepares no attempt of the run opens none. -/
theorem OpenAttempts.commit {run : AttachedRun} (known : OpenAttempts ids run w) {call : Call}
    {answer : Sqlite.Answer} {s : Store} (performed : call.perform w.store = .ok (answer, s))
    (other : ¬call.Prepares run.runId)
    : OpenAttempts ids run (w.commit call answer s) := by
  intro attempt' mem here unresolved
  rw [World.commit_store] at mem
  rcases perform_unresolved performed mem unresolved with ⟨attempt, stored, same, open'⟩ | prepares
  · rw [same.id]
    exact known attempt stored (same.runId.symm.trans here) open'
  · exact absurd (here ▸ prepares) other

/-- A call that prepares an attempt presents its run. -/
theorem prepares_presents {s s' : Store} {call : Call} {answer : Sqlite.Answer}
    {runId : RunId} (prepares : call.Prepares runId)
    (performed : call.perform s = .ok (answer, s')) {run : RunRow} (stored : run ∈ s.runs)
    (here : run.id = runId)
    : call.actor? = some run.actorId := by
  cases call with
  | prepareAttempt presented attempt now =>
      simp only [Call.perform, answering_eq_ok] at performed
      obtain ⟨_, done, -⟩ := performed
      obtain ⟨row, work, valid⟩ := validateRun_ok (bind_eq_ok.mp done).choose_spec.1
      have : row = run :=
        Table.eq_of_clash valid.runStored stored (Or.inl ((valid.runId.trans prepares).trans here.symm))
      rw [Call.actor?, ← valid.actorId, this]
  | _ => exact prepares.elim

/-- What others do opens no attempt of the run in hand. -/
theorem OpenAttempts.relies {w' : World} (hand : InHand actorId q w)
    (known : OpenAttempts ids q.run w) (relies : Relies actorId w w')
    : OpenAttempts ids q.run w' := by
  obtain rfl | ⟨call, -, elsewhere, rfl⟩ := relies
  · exact known
  · rcases w.after_cases call with same | ⟨answer, s, performed, same⟩
    · rwa [same]
    · rw [same]
      obtain ⟨row, stored, sameId, actor, -⟩ := hand.row
      refine known.commit performed (fun prepares => elsewhere.1 ?_)
      rw [prepares_presents prepares performed stored sameId, actor]

theorem MovesAttempt.not_prepares {run : AttachedRun} {call : Call} {runId : RunId}
    (moving : MovesAttempt run call)
    : ¬call.Prepares runId := by
  cases call <;> first
    | exact fun prepares => prepares.elim
    | exact fun _ => moving.elim

theorem kept_openAttempts (actorId : ActorId) (ids : Set AttemptId)
    : Kept actorId (Run (OpenAttempts ids)) where
  relies _ _ _ hand known relies := OpenAttempts.relies hand known relies
  moves _ _ _ _ _ _ moving performed known := known.commit performed moving.not_prepares
  renew _ _ _ known := known
  progress _ _ _ known := known
  heartbeat _ _ _ known := known
  toolSteps _ _ _ known := known

/-- The run that is attached after a preemption has no open attempts. -/
theorem OpenAttempts.reattach {maxEvents : Nat} {now : Timestamp} {fresh : FreshIds}
    {run : AttachedRun} {s : Store} (hand : InHand actorId q w)
    (known : OpenAttempts ∅ q.run w)
    (resumes : ResumesResolved w (.call (some q.run) (.attachNextRun q.run.lease maxEvents now fresh)))
    (attached : attachNextRun q.run.lease maxEvents now fresh w.store = .ok (some run, s))
    : OpenAttempts ∅ run
        (w.commit (.attachNextRun q.run.lease maxEvents now fresh) (.attached run) s) := by
  intro attempt mem here unresolved
  rw [World.commit_store, (attachNextRun_sameLeases attached).toolAttempts] at mem
  obtain ⟨-, -, ⟨row, work, due, -, -, resumed⟩ | ⟨-, -, none, -⟩ |
    ⟨row, work, m, -, opened, resumed⟩⟩ := attachNextRun_ok attached
  · obtain ⟨t, -, ⟨none, -⟩ | ⟨_, same, reflects, -⟩⟩ :=
      resumeRun_ok (dueActiveRun_some due).2.1 resumed
    · cases none
    · cases same
      rw [reflects.runId] at here
      rcases resumes row due with same | resolved
      · exact known attempt mem (here.trans same) unresolved
      · exact absurd (resolved attempt mem here) unresolved
  · cases none
  · obtain ⟨m', assigned, ⟨-, none⟩ | ⟨event, work', runs, opens, some'⟩⟩ := openRun_ok opened
    · cases none
    · cases some'
      obtain ⟨t, -, ⟨none, -⟩ | ⟨_, same, reflects, -⟩⟩ := resumeRun_ok rfl resumed
      · cases none
      · cases same
        -- the id of a new run is not that of a stored one, and attempts belong to stored runs
        obtain ⟨owner, stored, sameId⟩ := reachable_attemptsOwned hand.reached attempt mem
        rw [← (assignUnassigned_sameExecution assigned).runs] at stored
        refine absurd (Or.inl ?_) (Table.fresh_of_insert? opens.inserted owner stored)
        rw [sameId, here, reflects.runId]

/-- A new attempt is the only one that is opened when it is prepared. -/
theorem OpenAttempts.prepare {run : AttachedRun} (known : OpenAttempts ids run w)
    {new : NewToolAttempt} {now : Timestamp} {attempt : ToolAttempt} {s : Store}
    (prepared : prepareAttempt run new now w.store = .ok (attempt, s))
    : OpenAttempts (insert attempt.id ids) run
        (w.commit (.prepareAttempt run new now) (.prepared attempt) s) := by
  intro attempt' mem here unresolved
  rw [World.commit_store] at mem
  simp only [prepareAttempt, bind_eq_ok, execute_eq_ok] at prepared
  obtain ⟨_, _, rows, inserted, row, found, _, _, result⟩ := prepared
  cases result
  rcases Table.mem_insertUnless inserted mem with stored | rfl
  · exact Or.inr (known attempt' stored here unresolved)
  · obtain ⟨stored, isRow⟩ := Table.find?_some found
    have : _ = row := Table.eq_of_clash mem stored (Or.inr ⟨isRow.1.symm, isRow.2.symm⟩)
    exact Or.inl (congrArg AttemptRow.id this)

/-- A checkpoint resolves the attempts it lists. -/
theorem OpenAttempts.checkpoint {run : AttachedRun} (known : OpenAttempts ids run w)
    {command : CheckpointRun} {now : Timestamp} {s : Store}
    (done : checkpointRun command now w.store = .ok ((), s))
    : OpenAttempts (ids \ {id | id ∈ command.checkpointedAttemptIds}) run
        (w.commit (.checkpointRun command now) .done s) := by
  have performed : (Call.checkpointRun command now).perform w.store = .ok (.done, s) := by
    rw [Call.perform, answering_eq_ok]
    exact ⟨(), done, rfl⟩
  intro attempt mem here unresolved
  refine ⟨known.commit performed (fun prepares => prepares) attempt mem here unresolved,
    fun listed => unresolved ?_⟩
  rw [World.commit_store] at mem
  simp only [checkpointRun, insertMessages, bind_eq_ok] at done
  obtain ⟨_, _, m, _, t, attempts, _, ⟨_, _, stored⟩, result⟩ := done
  cases stored
  cases result
  exact checkpointAttempts_resolves attempts mem (Or.inl listed)

/-- The attempts of the run that `unresolved_attempts` does not list are resolved. -/
theorem OpenAttempts.examine {run : AttachedRun} {attempts : List ToolAttempt}
    (examined : unresolvedAttempts run w.store = .ok attempts)
    : OpenAttempts {id | ∃ attempt ∈ attempts, attempt.id = id} run w := by
  intro row mem here unresolved
  simp only [unresolvedAttempts, bind_eq_ok] at examined
  obtain ⟨_, _, selected⟩ := examined
  cases selected
  refine ⟨decodeAttempt row, List.mem_map_of_mem (Table.mem_selectOrdered.mpr ⟨mem, here, ?_⟩), rfl⟩
  by_cases settled : AttemptState.Settled row.state
  · exact Or.inr (Bool.eq_false_iff.mpr (fun marked => unresolved ⟨settled, marked⟩))
  · exact Or.inl settled

end Open

theorem plain_finalizesResolved (w : World) (op : Op) (plain : Plain op)
    : FinalizesResolved w op := by
  unfold FinalizesResolved
  split
  · exact plain.elim
  · exact trivial

/-- Quanta finalize runs whose attempts are resolved. -/
theorem upkeep_resolved (actorId : ActorId)
    : Upkeep actorId ResumesResolved FinalizesResolved OpenAttempts OpenAttempts where
  keepsFresh := kept_openAttempts actorId
  keepsOpen := kept_openAttempts actorId
  grows _ _ _ _ within known := fun attempt mem here unresolved =>
    within (known attempt mem here unresolved)
  plain := plain_finalizesResolved
  attaches _ _ _ _ _ _ _ _ _ _ := fun _ _ _ _ => trivial
  reattaches _ _ _ _ _ _ _ hand resumes attached :=
    OpenAttempts.reattach hand.1 hand.2 resumes attached
  incorporates _ _ _ _ _ := trivial
  incorporated ids q w now s hand done := by
    have known := hand.2.checkpoint done
    exact fun attempt mem here unresolved => (known attempt mem here unresolved).1
  examines _ _ _ _ examined := OpenAttempts.examine examined
  prepares _ _ _ _ _ _ _ hand prepared := hand.2.prepare prepared
  starts _ _ _ _ _ _ _ _ := trivial
  checkpoints _ _ _ _ _ _ _ _ := trivial
  checkpointed _ _ _ _ _ _ _ hand done := hand.2.checkpoint done
  streams _ _ _ _ := trivial
  finalizes q w command now ids hand isRun _ := by
    intro attempt mem here
    by_contra unresolved
    exact hand.2 attempt mem (here.trans (congrArg AttachedRun.runId isRun)) unresolved

-----------------------------------------------------------------------------------------
-- Completed runs
-----------------------------------------------------------------------------------------

instance (w : World) : DecidablePred (ResumesResolved w) := fun op => by
  unfold ResumesResolved
  split <;> infer_instance

/-- In every run of the daemon whose preempted quanta go on with the run they had, with one
whose attempts are all resolved or with a new one, a run is only completed with all its tool
calls settled and in the transcript.
-/
theorem completed_runs_are_resolved {c c' : Daemon} {actorId : ActorId}
    {held : Option AttachedRun} {command : FinalizeRun} {now : Timestamp} {ids : FreshIds}
    (reached : (daemon.system.restrict (Performing ResumesResolved)).Reachable c)
    (completed
      : (daemon.system.restrict (Performing ResumesResolved)).Step c
        (.perform actorId (.call held (.finalizeRun command now ids))
          (.ok (.finalized .completed))) c')
    : ∀ attempt ∈ c'.state.store.toolAttempts, attempt.runId = command.run.runId →
      AttemptState.Settled attempt.state ∧ attempt.observationCheckpointed = true := by
  have resolved := (Upkeep.guarantees upkeep_resolved reached completed).2
  obtain ⟨-, next, -, ⟨s, performed, after⟩, -⟩ := completed
  simp only [Call.perform, answering_eq_ok] at performed
  obtain ⟨_, done, -⟩ := performed
  rw [after, World.commit_store, (finalizeRun_sameLeases done).toolAttempts]
  exact resolved

namespace Switched

/-- An actor with a chat identity. -/
def start : World :=
  World.initial World.single.store.actors
    ((∅ : Table IdentityRow).insertOrIgnore ⟨"telegram", "42", localActor⟩)

/-- A message in a group chat. -/
def message : NewInboundEvent where
  gateway := "telegram"
  externalId := .remote "1"
  identityProvider := "telegram"
  identitySubject := "42"
  kind := .userMessage
  audience := .conversationScoped "room"
  deliveryRoute := none
  executionPolicy := .actorTools
  recordLatestTelegramRoute := false
  payloadJson := .decoded (.text (some "hello"))

def webhook : NewWebhookEvent where
  endpoint := "ci"
  actorId := localActor
  idempotency := ⟨.explicit, 1⟩
  payloadJson := .decoded
    (.webhook (some "ci") (some "2026-07-15T12:00:00.000Z") (some "\"deployed\""))

def runner : ActorRunner where
  limits := ⟨8, 8, 8, 8, 100000⟩
  systemInstructions := none
  definitions := [⟨"clock", "tells the time"⟩]
  capabilities name :=
    if name = "clock" then some ⟨true, false, true, false, false, false⟩ else none
  describe _ := "refused"

/-- The surroundings at one moment. -/
def feed (position : Nat) (now : Timestamp) (response : Option LlmResponse) : Feed where
  now := now
  ids := .numbered position
  attemptId := ⟨position⟩
  outboxId := ⟨position⟩
  expiresAt := now + 100000
  response := response
  execution := none

/-- Two tool calls, of which the second names no tool. -/
def toolCalls : LlmResponse where
  content := ""
  toolCalls := [⟨"call-1", "clock", "\x7b\x7d"⟩, ⟨"call-2", "dial", "\x7b\x7d"⟩]

def answer : LlmResponse := ⟨"done", []⟩

/-- The quantum on the group message fails with an attempt prepared; while it is backed off, a
webhook event preempts the quantum on a private request.
-/
def failing : List Act :=
  [.outside (.ingest message 10 (.numbered 1)),
    .start localActor runner "daemon",
    .go localActor (feed 2 20 (some toolCalls)) 50,
    .finish localActor,
    .outside (.submitForActor localActor ⟨⟨1⟩, "hello", "sha"⟩ 30 (.numbered 3)),
    .start localActor runner "daemon",
    .go localActor (feed 4 40 none) 50,
    .outside (.ingestWebhook webhook 50 (.numbered 5)),
    .go localActor (feed 6 2000 (some answer)) 24]

def world : Daemon := (Daemon.initial start).play (fun _ _ => True) failing

/-- The private request alone, up to its finalization. -/
def answered : Daemon := (Daemon.initial start).play ResumesResolved
  [.outside (.submitForActor localActor ⟨⟨1⟩, "hello", "sha"⟩ 30 (.numbered 3)),
    .start localActor runner "daemon",
    .go localActor (feed 4 40 (some answer)) 21]

/-- A run is completed with an attempt that is not resolved. -/
def CompletesUnresolved (command : FinalizeRun) (outcome : FinalizeOutcome) (s : Store)
    : Prop :=
  outcome = .completed
    ∧ ∃ attempt ∈ s.toolAttempts, attempt.runId = command.run.runId ∧ ¬Resolved attempt

instance (command : FinalizeRun) (outcome : FinalizeOutcome) (s : Store)
    : Decidable (CompletesUnresolved command outcome s) :=
  inferInstanceAs (Decidable (_ ∧ _))

end Switched

theorem resumesResolved_finalizeRun (w : World) (held : Option AttachedRun)
    (command : FinalizeRun) (now : Timestamp) (ids : FreshIds)
    : ResumesResolved w (.call held (.finalizeRun command now ids)) := by
  cases held <;> exact trivial

/-- A private request is completed. -/
theorem completed_runs_are_resolved_answered
    : ∃ c' held command now ids,
      daemon.system.Step Switched.answered
        (.perform localActor (.call held (.finalizeRun command now ids))
          (.ok (.finalized .completed))) c'
      ∧ ∀ attempt ∈ c'.state.store.toolAttempts, attempt.runId = command.run.runId →
        AttemptState.Settled attempt.state ∧ attempt.observationCheckpointed = true := by
  obtain ⟨held, command, now, ids, _, c', step, rfl⟩ := Daemon.Finalizes.step
    (by decide +kernel : Switched.answered.Finalizes localActor (fun _ outcome _ => outcome = .completed))
  have reached : (daemon.system.restrict (Performing ResumesResolved)).Reachable
      Switched.answered :=
    Daemon.reachable_play (.initial ⟨⟨_, _, rfl⟩, fun _ => rfl⟩) _
  exact ⟨c', held, command, now, ids, step, completed_runs_are_resolved reached
    ⟨resumesResolved_finalizeRun _ held command now ids, step⟩⟩

/-- The preempted quantum goes on with the run that is backed off no more, and completes it
with its attempt prepared.
-/
theorem switched_run_completes_unresolved
    : ¬∀ (c c' : Daemon) actorId held command now ids, daemon.system.Reachable c →
      daemon.system.Step c
        (.perform actorId (.call held (.finalizeRun command now ids))
          (.ok (.finalized .completed))) c' →
      ∀ attempt ∈ c'.state.store.toolAttempts, attempt.runId = command.run.runId →
        AttemptState.Settled attempt.state ∧ attempt.observationCheckpointed = true := by
  intro settled
  obtain ⟨held, command, now, ids, _, c', step, rfl, attempt, mem, here, unresolved⟩ :=
    Daemon.Finalizes.step
      (by decide +kernel : Switched.world.Finalizes localActor Switched.CompletesUnresolved)
  have reached : daemon.system.Reachable Switched.world :=
    (Daemon.reachable_play (.initial ⟨⟨_, _, rfl⟩, fun _ => rfl⟩) _).of_restrict
  exact unresolved (settled _ c' _ held command now ids reached step attempt mem here)

end Codrik.Runtime.Runner
