import Codrik.Runtime.Runner.Daemon

/-! Histories of the daemon that can be run: what happens outside is given call by call, and
the surroundings of a quantum answer from a feed.
-/

namespace Codrik.Runtime.Runner

open Codrik.Interaction
open Codrik.Runtime.Sqlite
open Codrik.Transition

-----------------------------------------------------------------------------------------
-- Feeds
-----------------------------------------------------------------------------------------

/-- What the surroundings answer over a stretch of a quantum. Without a response or an
execution a quantum that asks for one waits.
-/
structure Feed where
  now : Timestamp
  ids : FreshIds
  attemptId : AttemptId
  outboxId : OutboxId
  expiresAt : Timestamp
  response : Option LlmResponse
  execution : Option (Except String ToolExecution)

/-- The answer to an operation and the world after it. -/
def Feed.answer (feed : Feed) (w : World) : (op : Op) → Option (op.Answer × World)
  | .call _ call =>
      match call.perform w.store with
      | .ok (answer, s) => some (.ok answer, w.commit call answer s)
      | .error error => some (.error (.refused error), w)
  | .recentContext actorId reader limit =>
      match loadRecentContext actorId reader limit w.store with
      | .ok messages => some (.ok messages, w)
      | .error error => some (.error (.refused error), w)
  | .now => some (feed.now, w)
  | .fresh => some (feed.ids, w)
  | .attemptId => some (feed.attemptId, w)
  | .outboxId => some (feed.outboxId, w)
  | .heartbeat => some (.ok feed.expiresAt, w)
  | .deadline => some (false, w)
  | .patience => some (1, w)
  | .forever => none
  | .stream _ => feed.response.map (fun response => (.finished (.ok response), w))
  | .execute _ _ _ => feed.execution.map (fun result => (.finished result, w))
  | .stage _ _ execution =>
      some (.ok ⟨⟨execution.observation, []⟩, [], fun _ => .error "no such file"⟩, w)

/-- A feed answers as the surroundings may. -/
theorem Feed.answer_sound {feed : Feed} {w w' : World} {op : Op} {answer : op.Answer}
    (answered : feed.answer w op = some (answer, w'))
    : Answers w op answer w' := by
  cases op with
  | call held call =>
      simp only [Feed.answer] at answered
      split at answered
      · rename_i given s performed
        cases answered
        exact ⟨s, performed, rfl⟩
      · rename_i error refused
        cases answered
        exact ⟨refused, rfl⟩
  | recentContext actorId reader limit =>
      simp only [Feed.answer] at answered
      split at answered
      · rename_i messages loaded
        cases answered
        exact ⟨loaded, rfl⟩
      · rename_i error refused
        cases answered
        exact ⟨refused, rfl⟩
  | forever => cases answered
  | stream request =>
      obtain ⟨response, -, same⟩ := Option.map_eq_some_iff.mp answered
      cases same
      rfl
  | execute name arguments context =>
      obtain ⟨result, -, same⟩ := Option.map_eq_some_iff.mp answered
      cases same
      rfl
  | _ =>
      cases answered
      rfl

-----------------------------------------------------------------------------------------
-- Acts
-----------------------------------------------------------------------------------------

/-- One act of a script: a call from outside, the start of a quantum, a number of operations
of it, or its end.
-/
inductive Act
  | outside (call : Call)
  | start (actorId : ActorId) (runner : ActorRunner) (owner : String)
  | go (actorId : ActorId) (feed : Feed) (operations : Nat)
  | finish (actorId : ActorId)
  | crash (actorId : ActorId)

section Play

variable {τ : Type} (permitted : World → Op → Prop) [∀ w, DecidablePred (permitted w)]
    (observe : Daemon → DaemonMove → Daemon → τ → τ)

/-- The session performs its next operation as the feed answers it. -/
def performNext (actorId : ActorId) (feed : Feed) (state : Daemon × τ) : Daemon × τ :=
  match state.1.sessions actorId with
  | some (.perform op next) =>
      if permitted state.1.state op then
        match feed.answer state.1.state op with
        | some (answer, w) =>
            let after : Daemon :=
              ⟨w, Function.update state.1.sessions actorId (some (next answer))⟩
            (after, observe state.1 (.perform actorId op answer) after state.2)
        | none => state
      else
        state
  | _ => state

/-- An act that is not possible leaves everything as it is. -/
def act (state : Daemon × τ) : Act → Daemon × τ
  | .outside call =>
      if OutsideCall call ∧ state.1.state.Admissible call then
        let after : Daemon := ⟨state.1.state.after call, state.1.sessions⟩
        (after, observe state.1 (.outside call) after state.2)
      else
        state
  | .start actorId runner owner =>
      match state.1.sessions actorId with
      | none =>
          let program := runQuantum runner actorId owner
          let after : Daemon :=
            ⟨state.1.state, Function.update state.1.sessions actorId (some program)⟩
          (after, observe state.1 (.start actorId program) after state.2)
      | some _ => state
  | .go actorId feed operations =>
      (performNext permitted observe actorId feed)^[operations] state
  | .finish actorId =>
      match state.1.sessions actorId with
      | some (.done value) =>
          let after : Daemon := ⟨state.1.state, Function.update state.1.sessions actorId none⟩
          (after, observe state.1 (.finish actorId value) after state.2)
      | _ => state
  | .crash actorId =>
      let after : Daemon := ⟨state.1.state, Function.update state.1.sessions actorId none⟩
      (after, observe state.1 (.crash actorId) after state.2)

/-- The acts of a script one after another. -/
def play (state : Daemon × τ) (acts : List Act) : Daemon × τ :=
  acts.foldl (act permitted observe) state

variable {permitted observe}

/-- What the steps of the daemon keep, one operation keeps. -/
theorem performNext_keeps {R : Daemon × τ → Prop}
    (closed
      : ∀ c seen move c', R (c, seen) → Performing permitted c move → daemon.Step c move c' →
        R (c', observe c move c' seen))
    {actorId : ActorId} {feed : Feed} {state : Daemon × τ} (holds : R state)
    : R (performNext permitted observe actorId feed state) := by
  unfold performNext
  split
  · rename_i op next running
    split
    · rename_i allowed
      split
      · rename_i answer w answered
        exact closed state.1 state.2 (.perform actorId op answer) _ holds allowed
          ⟨next, running, Feed.answer_sound answered, rfl⟩
      · exact holds
    · exact holds
  · exact holds

/-- What the steps of the daemon keep, an act keeps, by cases on the act. -/
theorem act_keeps {R : Daemon × τ → Prop}
    (closed
      : ∀ c seen move c', R (c, seen) → Performing permitted c move → daemon.Step c move c' →
        R (c', observe c move c' seen))
    {state : Daemon × τ} (holds : R state) (next : Act)
    : R (act permitted observe state next) := by
  cases next with
  | outside call =>
      simp only [act]
      split
      · rename_i possible
        exact closed state.1 state.2 (.outside call) _ holds trivial
          ⟨⟨possible.1, possible.2, rfl⟩, rfl⟩
      · exact holds
  | start actorId runner owner =>
      simp only [act]
      split
      · rename_i idle
        exact closed state.1 state.2 (.start actorId (runQuantum runner actorId owner)) _ holds
          trivial ⟨⟨runner, owner, rfl⟩, idle, rfl, rfl⟩
      · exact holds
  | go actorId feed operations =>
      simp only [act]
      induction operations generalizing state with
      | zero => exact holds
      | succ operations ih => exact ih (performNext_keeps closed holds)
  | finish actorId =>
      simp only [act]
      split
      · rename_i value ended
        exact closed state.1 state.2 (.finish actorId value) _ holds trivial ⟨ended, rfl, rfl⟩
      · exact holds
  | crash actorId =>
      exact closed state.1 state.2 (.crash actorId) _ holds trivial ⟨rfl, rfl⟩

/-- What the steps of the daemon keep, a script keeps, by induction on its acts. -/
theorem play_keeps {R : Daemon × τ → Prop}
    (closed
      : ∀ c seen move c', R (c, seen) → Performing permitted c move → daemon.Step c move c' →
        R (c', observe c move c' seen))
    {state : Daemon × τ} (holds : R state) (acts : List Act)
    : R (play permitted observe state acts) := by
  induction acts generalizing state with
  | nil => exact holds
  | cons next rest ih => exact ih (act_keeps closed holds next)

end Play

/-- The daemon before its first move. -/
def Daemon.initial (w : World) : Daemon := ⟨w, fun _ => none⟩

/-- The daemon after a script whose operations are permitted. -/
def Daemon.play (permitted : World → Op → Prop) [∀ w, DecidablePred (permitted w)]
    (c : Daemon) (acts : List Act)
    : Daemon :=
  (Runner.play permitted (fun _ _ _ (seen : Unit) => seen) (c, ()) acts).1

/-- A script leads to a reachable configuration. -/
theorem Daemon.reachable_play {permitted : World → Op → Prop}
    [∀ w, DecidablePred (permitted w)] {c : Daemon}
    (reached : (daemon.system.restrict (Performing permitted)).Reachable c) (acts : List Act)
    : (daemon.system.restrict (Performing permitted)).Reachable (c.play permitted acts) :=
  play_keeps (R := fun state =>
      (daemon.system.restrict (Performing permitted)).Reachable state.1)
    (fun _ _ _ _ reached allowed taken => .step reached ⟨allowed, taken⟩) reached acts

-----------------------------------------------------------------------------------------
-- Finalizations
-----------------------------------------------------------------------------------------

/-- The session of the actor is about to finalize a run, with the outcome and the store `P`
tells of.
-/
def Daemon.Finalizes (c : Daemon) (actorId : ActorId)
    (P : FinalizeRun → FinalizeOutcome → Store → Prop) : Prop :=
  match c.sessions actorId with
  | some (.perform (.call _ (.finalizeRun command now ids)) _) =>
      match finalizeRun command now ids c.state.store with
      | .ok (outcome, s) => P command outcome s
      | .error _ => False
  | _ => False

instance (c : Daemon) (actorId : ActorId) (P : FinalizeRun → FinalizeOutcome → Store → Prop)
    [∀ command outcome s, Decidable (P command outcome s)] : Decidable (c.Finalizes actorId P) := by
  unfold Daemon.Finalizes
  split
  · split <;> infer_instance
  · infer_instance

/-- A finalization that is about to happen is a step of the daemon. -/
theorem Daemon.Finalizes.step {c : Daemon} {actorId : ActorId}
    {P : FinalizeRun → FinalizeOutcome → Store → Prop} (finalizes : c.Finalizes actorId P)
    : ∃ held command now ids outcome c',
      daemon.system.Step c (.perform actorId (.call held (.finalizeRun command now ids))
        (.ok (.finalized outcome))) c'
      ∧ P command outcome c'.state.store := by
  unfold Daemon.Finalizes at finalizes
  split at finalizes
  · rename_i held command now ids next running
    split at finalizes
    · rename_i outcome s done
      have performed : (Call.finalizeRun command now ids).perform c.state.store
          = .ok (.finalized outcome, s) := by
        rw [Call.perform, answering_eq_ok]
        exact ⟨outcome, done, rfl⟩
      refine ⟨held, command, now, ids, outcome,
        ⟨c.state.commit (.finalizeRun command now ids) (.finalized outcome) s, _⟩,
        ⟨next, running, ⟨s, performed, rfl⟩, rfl⟩, ?_⟩
      rw [World.commit_store]
      exact finalizes
    · exact finalizes.elim
  · exact finalizes.elim

end Codrik.Runtime.Runner
