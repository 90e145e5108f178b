import Codrik.Runtime.Runner.Daemon
import Codrik.Runtime.Sqlite.Execution

/-! Rules for the pieces of a quantum: what a piece of work ensures when it goes through and
when it exits.
-/

namespace Codrik.Runtime.Runner

open Codrik.Interaction
open Codrik.Relational
open Codrik.Runtime.Sqlite

variable {α β : Type} {contract : Contract Ops World}

-----------------------------------------------------------------------------------------
-- Pieces of work
-----------------------------------------------------------------------------------------

/-- What holds after a piece of work: `post` of its value, or `exits` of the reason it ends
the quantum with.
-/
def After (post : α → Quantum → World → Prop) (exits : Exit → Quantum → World → Prop)
    : Except Exit α × Quantum → World → Prop
  | (.ok value, q), w => post value q w
  | (.error reason, q), w => exits reason q w

/-- The work keeps the contract, and `post` or `exits` holds when it is over. -/
def Ensures (contract : Contract Ops World) (post : α → Quantum → World → Prop)
    (exits : Exit → Quantum → World → Prop) (work : Work α) (q : Quantum) (w : World)
    : Prop :=
  (work q).Meets contract (After post exits) w

variable {post : α → Quantum → World → Prop} {exits : Exit → Quantum → World → Prop}
    {q : Quantum} {w : World}

theorem Ensures.mono {post' : α → Quantum → World → Prop} {work : Work α}
    (ensures : Ensures contract post exits work q w)
    (weaker : ∀ value q w, post value q w → post' value q w)
    : Ensures contract post' exits work q w := by
  refine Program.Meets.mono ensures (fun result t after => ?_)
  obtain ⟨value | reason, q'⟩ := result
  · exact after
  · exact weaker _ _ _ after

theorem Ensures.bind {mid : α → Quantum → World → Prop} {post : β → Quantum → World → Prop}
    {first : Work α} {next : α → Work β} (ensures : Ensures contract mid exits first q w)
    (rest : ∀ value q w, mid value q w → Ensures contract post exits (next value) q w)
    : Ensures contract post exits (first >>= next) q w := by
  refine Program.Meets.bind ensures (fun result t after => ?_)
  obtain ⟨reason | value, q'⟩ := result
  · exact after
  · exact rest value q' t after

@[simp] theorem ensures_pure {value : α}
    : Ensures contract post exits (pure value) q w ↔ post value q w :=
  Iff.rfl

@[simp] theorem ensures_exit {reason : Exit}
    : Ensures contract post exits (exit reason : Work α) q w ↔ exits reason q w :=
  Iff.rfl

@[simp] theorem ensures_fail {text : String}
    : Ensures contract post exits (fail text : Work α) q w
      ↔ exits (.fails (.failed text)) q w :=
  Iff.rfl

@[simp] theorem ensures_quantum_bind {next : Quantum → Work α}
    : Ensures contract post exits (quantum >>= next) q w
      ↔ Ensures contract post exits (next q) q w :=
  Iff.rfl

@[simp] theorem ensures_update_bind {change : Quantum → Quantum} {next : Unit → Work α}
    : Ensures contract post exits (update change >>= next) q w
      ↔ Ensures contract post exits (next ()) (change q) w :=
  Iff.rfl

@[simp] theorem ensures_update {change : Quantum → Quantum}
    {post : Unit → Quantum → World → Prop}
    : Ensures contract post exits (update change) q w ↔ post () (change q) w :=
  Iff.rfl

/-- An operation starts in whatever world a stable fact allows. -/
theorem Ensures.perform {op : Op} {post : op.Answer → Quantum → World → Prop}
    {P : World → Prop} (stable : contract.Stable P) (holds : P w)
    (answers
      : ∀ w, P w → ∀ answer w', contract.Answers w op answer w' →
        contract.Guarantees w op answer w' ∧ post answer q w')
    : Ensures contract post exits (Runner.perform op) q w :=
  Program.Meets.perform stable holds answers

-----------------------------------------------------------------------------------------
-- Quanta of an actor
-----------------------------------------------------------------------------------------

/-- What always holds of the quantum of an actor: the world is reachable and the run in hand
was handed out for the actor.
-/
structure InHand (actorId : ActorId) (q : Quantum) (w : World) : Prop where
  reached : runtime.Reachable w
  holds : w.Holds q.run
  actor : q.run.lease.actorId = actorId

/-- Runs that were handed out stay handed out. -/
theorem World.Holds.after {w : World} {run : AttachedRun} (holds : w.Holds run) (call : Call)
    : (w.after call).Holds run := by
  obtain ⟨issued, mem, same⟩ := holds
  refine ⟨issued, ?_, same⟩
  rcases w.after_cases call with unchanged | ⟨answer, s, performed, committed⟩
  · rwa [unchanged]
  · rw [committed, World.commit_issued w performed]
    exact List.mem_append_right _ mem

theorem World.Holds.renew {w : World} {run : AttachedRun} (holds : w.Holds run)
    (expiresAt : Timestamp)
    : w.Holds { run with lease := { run.lease with expiresAt := expiresAt } } := by
  obtain ⟨issued, mem, same⟩ := holds
  refine ⟨issued, mem, ?_⟩
  rw [same]

theorem InHand.after {actorId : ActorId} {q : Quantum} {w : World} (hand : InHand actorId q w)
    (call : Call) (admissible : w.Admissible call)
    : InHand actorId q (w.after call) :=
  ⟨.step hand.reached ⟨admissible, rfl⟩, World.Holds.after hand.holds call, hand.actor⟩

theorem InHand.relies {actorId other : ActorId} {q : Quantum} {w w' : World}
    (hand : InHand actorId q w) (relies : Relies other w w')
    : InHand actorId q w' := by
  obtain rfl | ⟨call, admissible, -, rfl⟩ := relies
  · exact hand
  · exact hand.after call admissible

-----------------------------------------------------------------------------------------
-- What the common pieces keep
-----------------------------------------------------------------------------------------

/-- The operations no promise singles out: all but checkpoints, finalizations, starts of
tools and requests to the model.
-/
def Plain : Op → Prop
  | .call _ (.checkpointRun _ _) | .call _ (.finalizeRun _ _ _)
  | .call _ (.markAttemptRunning _ _ _) | .stream _ => False
  | _ => True

/-- The calls that move an attempt of the run in hand. -/
def MovesAttempt (run : AttachedRun) : Call → Prop
  | .markAttemptRunning presented _ _ => presented = run
  | .rejectPreparedAttempt presented _ _ _ => presented = run
  | .finishAttempt presented _ _ _ => presented = run
  | .commitStagedExecution _ presented _ _ _ _ => presented = run
  | .blockUnknownAttempt presented _ _ => presented = run
  | .recoverAttempt _ => True
  | _ => False

/-- A fact about the quantum that others leave alone, and that neither renewals nor moves of
attempts nor the bookkeeping variables matter for.
-/
structure Kept (actorId : ActorId) (K : Quantum → World → Prop) : Prop where
  relies : ∀ q w w', InHand actorId q w → K q w → Relies actorId w w' → K q w'
  moves : ∀ q w call answer s, InHand actorId q w → MovesAttempt q.run call →
    call.perform w.store = .ok (answer, s) → K q w → K q (w.commit call answer s)
  renew : ∀ q w expiresAt, K q w → K (q.renew expiresAt) w
  progress : ∀ q w progress, K q w → K { q with progress := progress } w
  heartbeat : ∀ q w running, K q w → K { q with heartbeat := running } w
  toolSteps : ∀ q w steps, K q w → K { q with toolSteps := steps } w

/-- What holds of the quantum between two operations. -/
def Hand (actorId : ActorId) (K : Quantum → World → Prop) (q : Quantum) (w : World) : Prop :=
  InHand actorId q w ∧ K q w

/-- Wherever a quantum exits, its run is still in hand. -/
def Out (actorId : ActorId) (_reason : Exit) (q : Quantum) (w : World) : Prop :=
  InHand actorId q w

section Pieces

variable {actorId : ActorId} {permitted extra : World → Op → Prop} {K : Quantum → World → Prop}

theorem Hand.relies {w' : World} (kept : Kept actorId K) (hand : Hand actorId K q w)
    (relies : Relies actorId w w')
    : Hand actorId K q w' :=
  ⟨hand.1.relies relies, kept.relies q w w' hand.1 hand.2 relies⟩

theorem Kept.stable (kept : Kept actorId K) (q : Quantum)
    : (promise actorId permitted extra).Stable (Hand actorId K q) :=
  fun _ _ hand relies => Hand.relies kept hand relies

theorem Kept.true (actorId : ActorId) : Kept actorId (fun _ _ => True) :=
  ⟨fun _ _ _ _ _ _ => trivial, fun _ _ _ _ _ _ _ _ _ => trivial, fun _ _ _ _ => trivial,
    fun _ _ _ _ => trivial, fun _ _ _ _ => trivial, fun _ _ _ _ => trivial⟩

/-- A renewed run is still in hand. -/
theorem Hand.renew (kept : Kept actorId K) (hand : Hand actorId K q w) (expiresAt : Timestamp)
    : Hand actorId K (q.renew expiresAt) w :=
  ⟨⟨hand.1.reached, World.Holds.renew hand.1.holds expiresAt, hand.1.actor⟩,
    kept.renew q w expiresAt hand.2⟩

/-- An operation that is no call leaves everything in hand. -/
theorem perform_ensures {op : Op} (kept : Kept actorId K) (hand : Hand actorId K q w)
    (silent : ∀ held call, op ≠ .call held call)
    (promised : ∀ w, Hand actorId K q w → extra w op)
    : Ensures (promise actorId permitted extra) (fun _ q' w' => q' = q ∧ Hand actorId K q w')
        exits (Runner.perform op) q w := by
  refine Ensures.perform (kept.stable q) hand (fun t holds answer u answered => ?_)
  have lawful : Lawful actorId t op := by
    cases op with
    | call held call => exact absurd rfl (silent held call)
    | _ => exact trivial
  obtain rfl | ⟨held, call, rfl, -⟩ := answers_cases answered.2
  · exact ⟨⟨lawful, promised _ holds⟩, rfl, holds⟩
  · exact absurd rfl (silent held call)

/-- A store call of the quantum commits, or fails and changes nothing. -/
theorem callStore_ensures {call : Call} {post : Sqlite.Answer → Quantum → World → Prop}
    {P : World → Prop} (stable : (promise actorId permitted extra).Stable P) (holds : P w)
    (lawful
      : ∀ w, P w → (w.Admissible call ∧ ForActor actorId w call)
        ∧ extra w (.call (some q.run) call))
    (commits
      : ∀ w answer s, P w → permitted w (.call (some q.run) call) →
        call.perform w.store = .ok (answer, s) → post answer q (w.commit call answer s))
    (fails : ∀ w error, P w → exits (.fails (.call error)) q w)
    : Ensures (promise actorId permitted extra) post exits (callStore call) q w := by
  have asked : Ensures (promise actorId permitted extra)
      (fun answer q' w' => q' = q ∧ match answer with
        | .ok answer => post answer q w'
        | .error error => exits (.fails (.call error)) q w')
      exits (Runner.perform (.call (some q.run) call)) q w := by
    refine Ensures.perform stable holds (fun t here answer u answered => ?_)
    refine ⟨⟨(lawful t here).1, (lawful t here).2⟩, rfl, ?_⟩
    obtain ⟨allowed, answered⟩ := answered
    cases answer with
    | ok answer =>
        obtain ⟨s, performed, rfl⟩ := answered
        exact commits t answer s here allowed performed
    | error error =>
        have same : u = t := by
          cases error with
          | refused error => exact answered.2
          | database _ _ => exact answered
        rw [same]
        exact fails t error here
  unfold callStore
  rw [ensures_quantum_bind]
  refine Ensures.bind asked (fun answer q' w' done => ?_)
  obtain ⟨rfl, done⟩ := done
  cases answer with
  | ok answer => exact done
  | error error => exact done

end Pieces

section Common

variable {actorId : ActorId} {permitted extra : World → Op → Prop} {K : Quantum → World → Prop}

/-- A plain operation that is no call leaves everything in hand. -/
theorem plain_ensures {op : Op} (kept : Kept actorId K)
    (plain : ∀ w op, Plain op → extra w op) (hand : Hand actorId K q w) (isPlain : Plain op)
    (silent : ∀ held call, op ≠ .call held call)
    : Ensures (promise actorId permitted extra) (fun _ q' w' => q' = q ∧ Hand actorId K q w')
        (Out actorId) (perform op) q w :=
  perform_ensures kept hand silent (fun w _ => plain w op isPlain)

/-- A plain call that keeps the fact, whatever the store answers. -/
theorem plainCall_ensures {call : Call} (kept : Kept actorId K)
    (plain : ∀ w op, Plain op → extra w op) (hand : Hand actorId K q w)
    (isPlain : Plain (.call (some q.run) call))
    (lawful : ∀ w, Hand actorId K q w → w.Admissible call ∧ ForActor actorId w call)
    (keeps
      : ∀ w answer s, Hand actorId K q w → call.perform w.store = .ok (answer, s) →
        K q (w.commit call answer s))
    : Ensures (promise actorId permitted extra)
        (fun answer q' w' => q' = q ∧ Hand actorId K q w'
          ∧ ∃ (before : World) (s : Store), call.perform before.store = .ok (answer, s))
        (Out actorId) (callStore call) q w := by
  refine callStore_ensures (kept.stable q) hand
    (fun w hand => ⟨lawful w hand, plain w _ isPlain⟩) (fun w answer s hand _ performed => ?_)
    (fun w error hand => hand.1)
  refine ⟨rfl, ⟨?_, keeps w answer s hand performed⟩, w, s, performed⟩
  rw [← after_eq_commit performed]
  exact hand.1.after call (lawful w hand).1

theorem syncExecutionLease_ensures (kept : Kept actorId K)
    (plain : ∀ w op, Plain op → extra w op) (hand : Hand actorId K q w)
    : Ensures (promise actorId permitted extra) (fun _ => Hand actorId K) (Out actorId)
        syncExecutionLease q w := by
  refine Ensures.bind (plain_ensures kept plain hand trivial (fun _ _ => nofun))
    (fun answer q' w' known => ?_)
  obtain ⟨rfl, hand⟩ := known
  cases answer with
  | error text => exact hand.1
  | ok expiresAt => exact hand.renew kept expiresAt

/-- A call that presents the run in hand alone. -/
theorem forActor_of_run {call : Call} (hand : InHand actorId q w)
    (presents : call.actor? = some q.run.lease.actorId)
    : ForActor actorId w call := by
  refine ⟨fun presented same => ?_, fun id same => ?_⟩
  · rw [presents] at same
    exact (Option.some.inj same).symm.trans hand.actor
  · rw [same] at presents
    cases presents

theorem stopExecutionHeartbeat_ensures {runner : ActorRunner} (kept : Kept actorId K)
    (plain : ∀ w op, Plain op → extra w op) (hand : Hand actorId K q w)
    : Ensures (promise actorId permitted extra) (fun _ => Hand actorId K) (Out actorId)
        (stopExecutionHeartbeat runner) q w := by
  unfold stopExecutionHeartbeat
  rw [ensures_quantum_bind]
  split
  · rw [ensures_update_bind]
    have stopped : Hand actorId K { q with heartbeat := false } w :=
      ⟨⟨hand.1.reached, hand.1.holds, hand.1.actor⟩, kept.heartbeat q w false hand.2⟩
    refine Ensures.bind (syncExecutionLease_ensures kept plain stopped) (fun _ q w hand => ?_)
    refine Ensures.bind (plain_ensures kept plain hand trivial (fun _ _ => nofun))
      (fun now q' w known => ?_)
    obtain ⟨rfl, hand⟩ := known
    split
    · exact hand.1
    · rename_i millis _
      rw [ensures_quantum_bind]
      have renewed : Ensures (promise actorId permitted extra)
          (fun answer q'' w' => q'' = q' ∧ Hand actorId K q' w' ∧ ∀ lease,
            answer = .ok (.renewed lease) → ∃ expiresAt,
              lease = { q'.run.lease with expiresAt := expiresAt })
          (Out actorId)
          (perform (.call (some q'.run)
            (.renewLease q'.run.lease now (Timestamp.plusMillis now millis)))) q' w := by
        refine Ensures.perform (kept.stable q') hand (fun t here answer u answered => ?_)
        have lawful : Lawful actorId t (.call (some q'.run)
            (.renewLease q'.run.lease now (Timestamp.plusMillis now millis))) :=
          ⟨trivial, And.intro (fun _ same => by cases same) (fun _ same => by cases same)⟩
        have relies : Relies actorId t u := by
          obtain rfl | ⟨held, call, same, rfl⟩ := answers_cases answered.2
          · exact Or.inl rfl
          · cases same
            have outside : OutsideCall
                (.renewLease q'.run.lease now (Timestamp.plusMillis now millis)) := trivial
            exact Or.inr ⟨_, lawful.1, outside.elsewhere, rfl⟩
        refine ⟨⟨lawful, plain t _ trivial⟩, rfl, here.relies kept relies, ?_⟩
        intro lease same
        rw [same] at answered
        obtain ⟨-, s, performed, -⟩ := answered
        simp only [Call.perform, answering_eq_ok, renewLease, bind_eq_ok] at performed
        obtain ⟨value, ⟨_, -, _, -, result⟩, given⟩ := performed
        cases result
        cases given
        exact ⟨_, rfl⟩
      refine Ensures.bind renewed (fun answer q'' w known => ?_)
      obtain ⟨rfl, hand, renews⟩ := known
      split
      · exact hand.1
      · rename_i lease
        obtain ⟨expiresAt, same⟩ := renews lease rfl
        have renewed := hand.renew kept expiresAt
        rw [ensures_update, same]
        exact renewed
      · exact hand
  · exact hand

theorem newerControl_ensures (kept : Kept actorId K)
    (plain : ∀ w op, Plain op → extra w op) (hand : Hand actorId K q w)
    : Ensures (promise actorId permitted extra) (fun _ q' w' => q' = q ∧ Hand actorId K q w')
        (Out actorId) newerControl q w := by
  unfold newerControl
  rw [ensures_quantum_bind]
  refine Ensures.bind (plain_ensures kept plain hand trivial (fun _ _ => nofun))
    (fun now q' w known => ?_)
  obtain ⟨rfl, hand⟩ := known
  refine Ensures.bind (plainCall_ensures kept plain hand trivial
    (fun w hand => ⟨trivial, forActor_of_run hand.1 rfl⟩) (fun w answer s hand performed => ?_))
    (fun answer q'' w known => ?_)
  · simp only [Call.perform, reading_eq_ok] at performed
    obtain ⟨rfl, _, -, rfl⟩ := performed
    exact hand.2
  · obtain ⟨rfl, hand, -⟩ := known
    split
    · exact ⟨rfl, hand⟩
    · exact ⟨rfl, hand⟩

/-- A cancelled run is not looked at any more. -/
theorem cancelQuantum_ensures {control : ControlEvent}
    (plain : ∀ w op, Plain op → extra w op) (hand : InHand actorId q w)
    : Ensures (promise actorId permitted extra) (fun _ => InHand actorId) (Out actorId)
        (cancelQuantum control) q w := by
  have kept := Kept.true actorId
  unfold cancelQuantum
  rw [ensures_quantum_bind]
  refine Ensures.bind (plain_ensures kept plain ⟨hand, trivial⟩ trivial (fun _ _ => nofun))
    (fun now q' w known => ?_)
  obtain ⟨rfl, hand⟩ := known
  refine Ensures.bind (plain_ensures kept plain hand trivial (fun _ _ => nofun))
    (fun ids q' w known => ?_)
  obtain ⟨rfl, hand⟩ := known
  refine Ensures.bind (plainCall_ensures kept plain hand trivial
    (fun w hand => ⟨hand.1.holds, forActor_of_run hand.1 rfl⟩) (fun _ _ _ _ _ => trivial))
    (fun answer q'' w known => ?_)
  obtain ⟨rfl, hand, -⟩ := known
  unfold advanceProgress
  rw [ensures_update]
  split
  · exact ⟨hand.1.reached, hand.1.holds, hand.1.actor⟩
  · exact hand.1

/-- After the wall-time limit nothing goes on. -/
theorem expire_ensures {runner : ActorRunner} {post : α → Quantum → World → Prop}
    (plain : ∀ w op, Plain op → extra w op) (hand : InHand actorId q w)
    : Ensures (promise actorId permitted extra) post (Out actorId) (expire runner : Work α) q w := by
  have kept := Kept.true actorId
  unfold expire executionTimeout
  refine Ensures.bind (stopExecutionHeartbeat_ensures kept plain ⟨hand, trivial⟩)
    (fun _ q w hand => ?_)
  have timeout : Ensures (promise actorId permitted extra) (fun (_ : Bool) => InHand actorId)
      (Out actorId) executionTimeout q w := by
    refine Ensures.bind (newerControl_ensures kept plain hand) (fun control q' w known => ?_)
    obtain ⟨rfl, hand⟩ := known
    split
    · split
      · exact Ensures.bind (cancelQuantum_ensures plain hand.1) (fun _ _ _ hand => hand)
      · exact hand.1
    · exact hand.1
  refine Ensures.bind timeout (fun expired q w hand => ?_)
  split
  · exact hand
  · exact hand

theorem executionBoundary_ensures {runner : ActorRunner} (kept : Kept actorId K)
    (plain : ∀ w op, Plain op → extra w op) (hand : Hand actorId K q w)
    : Ensures (promise actorId permitted extra) (fun _ => Hand actorId K) (Out actorId)
        (executionBoundary runner) q w := by
  refine Ensures.bind (plain_ensures kept plain hand trivial (fun _ _ => nofun))
    (fun elapsed q' w known => ?_)
  obtain ⟨rfl, hand⟩ := known
  split
  · exact expire_ensures plain hand.1
  · exact syncExecutionLease_ensures kept plain hand

theorem interrupt_ensures {runner : ActorRunner} {control : ControlEvent}
    {post : α → Quantum → World → Prop}
    (plain : ∀ w op, Plain op → extra w op) (hand : InHand actorId q w)
    : Ensures (promise actorId permitted extra) post (Out actorId)
        (interrupt runner control : Work α) q w := by
  unfold interrupt
  split
  · exact Ensures.bind (cancelQuantum_ensures plain hand) (fun _ _ _ hand => hand)
  · refine Ensures.bind (plain_ensures (Kept.true actorId) plain ⟨hand, trivial⟩ trivial
      (fun _ _ => nofun)) (fun elapsed q' w known => ?_)
    obtain ⟨rfl, hand⟩ := known
    split
    · exact expire_ensures plain hand.1
    · exact hand.1
  · exact hand

/-- The select loop keeps everything in hand, by induction on the wake-ups in vain. -/
theorem awaitLoop_ensures {runner : ActorRunner} {poll : Work (Wake α)} (kept : Kept actorId K)
    (plain : ∀ w op, Plain op → extra w op)
    (polls
      : ∀ q w, Hand actorId K q w → Ensures (promise actorId permitted extra)
        (fun _ => Hand actorId K) (Out actorId) poll q w)
    {vain : Nat} (hand : Hand actorId K q w)
    : Ensures (promise actorId permitted extra) (fun _ => Hand actorId K) (Out actorId)
        (awaitLoop runner poll vain) q w := by
  induction vain generalizing q w with
  | zero =>
      refine Ensures.bind (plain_ensures kept plain hand trivial (fun _ _ => nofun))
        (fun never q' w known => ?_)
      cases never
  | succ vain ih =>
      refine Ensures.bind (polls q w hand) (fun wake q w hand => ?_)
      cases wake with
      | deadline => exact expire_ensures plain hand.1
      | heartbeat =>
          exact Ensures.bind (syncExecutionLease_ensures kept plain hand)
            (fun _ q w hand => ih hand)
      | finished result =>
          exact Ensures.bind (syncExecutionLease_ensures kept plain hand)
            (fun _ q w hand => hand)
      | signalled =>
          refine Ensures.bind (syncExecutionLease_ensures kept plain hand)
            (fun _ q w hand => ?_)
          refine Ensures.bind (newerControl_ensures kept plain hand)
            (fun control q' w known => ?_)
          obtain ⟨rfl, hand⟩ := known
          split
          · exact interrupt_ensures plain hand.1
          · exact ih hand
      | closed =>
          exact Ensures.bind (syncExecutionLease_ensures kept plain hand)
            (fun _ q w hand => ih hand)

theorem awaitExecution_ensures {runner : ActorRunner} {poll : Work (Wake α)}
    (kept : Kept actorId K) (plain : ∀ w op, Plain op → extra w op)
    (polls
      : ∀ q w, Hand actorId K q w → Ensures (promise actorId permitted extra)
        (fun _ => Hand actorId K) (Out actorId) poll q w)
    (hand : Hand actorId K q w)
    : Ensures (promise actorId permitted extra) (fun _ => Hand actorId K) (Out actorId)
        (awaitExecution runner poll) q w := by
  refine Ensures.bind (syncExecutionLease_ensures kept plain hand) (fun _ q w hand => ?_)
  refine Ensures.bind (plain_ensures kept plain hand trivial (fun _ _ => nofun))
    (fun elapsed q' w known => ?_)
  obtain ⟨rfl, hand⟩ := known
  split
  · exact expire_ensures plain hand.1
  · refine Ensures.bind (plain_ensures kept plain hand trivial (fun _ _ => nofun))
      (fun vain q'' w known => ?_)
    obtain ⟨rfl, hand⟩ := known
    exact awaitLoop_ensures kept plain polls hand

end Common

-----------------------------------------------------------------------------------------
-- Execution of attempts
-----------------------------------------------------------------------------------------

/-- The attempt is stored for the run, in whatever state. -/
def Stored (runId : RunId) (attempt : ToolAttempt) (w : World) : Prop :=
  ∃ row ∈ w.store.toolAttempts, row.runId = runId
    ∧ decodeAttempt row = { attempt with state := row.state }

theorem Stored.after {runId : RunId} {attempt : ToolAttempt} {w : World}
    (stored : Stored runId attempt w) (call : Call)
    : Stored runId attempt (w.after call) := by
  obtain ⟨row, mem, here, decoded⟩ := stored
  rcases w.after_cases call with same | ⟨answer, s, performed, same⟩
  · rw [same]
    exact ⟨row, mem, here, decoded⟩
  · obtain ⟨row', mem', next⟩ := (perform_attempts performed).forward row mem
    refine ⟨row', by rwa [same, World.commit_store], next.runId.trans here, ?_⟩
    rw [next.data]
    exact congrArg (fun decoded => { decoded with state := row'.state }) decoded

theorem Stored.id {runId : RunId} {attempt : ToolAttempt} {w : World}
    (stored : Stored runId attempt w)
    : ∃ row ∈ w.store.toolAttempts, row.id = attempt.id ∧ row.runId = runId
      ∧ row.toolName = attempt.toolName := by
  obtain ⟨row, mem, here, decoded⟩ := stored
  exact ⟨row, mem, congrArg ToolAttempt.id decoded, here, congrArg ToolAttempt.toolName decoded⟩

/-- The run in hand has a row of the actor. -/
theorem InHand.row {actorId : ActorId} (hand : InHand actorId q w)
    : ∃ row ∈ w.store.runs, row.id = q.run.runId ∧ row.actorId = actorId
      ∧ row.workItemId = q.run.workItemId := by
  obtain ⟨issued, mem, same⟩ := hand.holds
  obtain ⟨row, stored, sameId, work, actor, -⟩ :=
    (reachable_wellFormed hand.reached).issuedRun issued mem
  have owner := hand.actor
  rw [same] at owner ⊢
  exact ⟨row, stored, sameId, actor.trans owner, work⟩

/-- Recovering an attempt of the run in hand touches no other actor's work. -/
theorem forActor_recoverAttempt {actorId : ActorId} {attempt : ToolAttempt}
    (hand : InHand actorId q w) (stored : Stored q.run.runId attempt w)
    : ForActor actorId w (.recoverAttempt attempt.id) := by
  refine And.intro (fun _ same => by cases same)
    (fun id same row mem sameId run known sameRun => ?_)
  cases same
  obtain ⟨row', mem', sameId', here, -⟩ := stored.id
  have : row = row' := Table.eq_of_clash mem mem' (Or.inl (sameId.trans sameId'.symm))
  obtain ⟨own, stored', ownId, actor, -⟩ := hand.row
  rw [this, here, ← ownId] at sameRun
  have : run = own := Table.eq_of_clash known stored' (Or.inl sameRun)
  rw [this, actor]

section Execution

variable {actorId : ActorId} {permitted extra : World → Op → Prop} {K : Quantum → World → Prop}
    {attempt : ToolAttempt}

/-- A call that moves an attempt keeps everything in hand, whether it goes through or not. -/
theorem moving_ensures {call : Call} (kept : Kept actorId K)
    (hand : Hand actorId K q w) (moving : MovesAttempt q.run call)
    (lawful
      : ∀ w, Hand actorId K q w → (w.Admissible call ∧ ForActor actorId w call)
        ∧ extra w (.call (some q.run) call))
    : Ensures (promise actorId permitted extra) (fun _ q' w' => q' = q ∧ Hand actorId K q w')
        exits (perform (.call (some q.run) call)) q w := by
  refine Ensures.perform (kept.stable q) hand (fun t here answer u answered => ?_)
  refine ⟨⟨(lawful t here).1, (lawful t here).2⟩, rfl, ?_⟩
  obtain ⟨-, answered⟩ := answered
  cases answer with
  | ok answer =>
      obtain ⟨s, performed, rfl⟩ := answered
      have after := here.1.after call (lawful t here).1.1
      rw [after_eq_commit performed] at after
      exact ⟨after, kept.moves q t call answer s here.1 moving performed here.2⟩
  | error error =>
      have same : u = t := by
        cases error with
        | refused error => exact answered.2
        | database _ _ => exact answered
      rw [same]
      exact here

/-- The outcome of a staged execution, whose errors are outcomes as well. -/
theorem stageExecution_ensures {runner : ActorRunner} {execution : ToolExecution}
    (kept : Kept actorId K) (plain : ∀ w op, Plain op → extra w op)
    (stored : ∀ q w, Hand actorId K q w → Stored q.run.runId attempt w)
    (hand : Hand actorId K q w)
    : Ensures (promise actorId permitted extra) (fun _ q' w' => q' = q ∧ Hand actorId K q w')
        (Out actorId) (stageExecution runner attempt.id execution) q w := by
  unfold stageExecution
  rw [ensures_quantum_bind]
  refine Ensures.bind (plain_ensures kept plain hand trivial (fun _ _ => nofun))
    (fun staged q' w known => ?_)
  obtain ⟨rfl, hand⟩ := known
  split
  · exact ⟨rfl, hand⟩
  · refine Ensures.bind (plain_ensures kept plain hand trivial (fun _ _ => nofun))
      (fun now q'' w known => ?_)
    obtain ⟨rfl, hand⟩ := known
    refine Ensures.bind (moving_ensures kept hand rfl
      (fun w hand => ⟨⟨hand.1.holds, forActor_of_run hand.1 rfl⟩, plain w _ trivial⟩))
      (fun answer q' w known => ?_)
    obtain ⟨rfl, hand⟩ := known
    split
    · exact ⟨rfl, hand⟩
    · refine Ensures.bind (moving_ensures kept hand trivial
        (fun w hand => ⟨⟨trivial, forActor_recoverAttempt hand.1 (stored _ w hand)⟩,
          plain w _ trivial⟩)) (fun answer q'' w known => ?_)
      obtain ⟨rfl, hand⟩ := known
      split <;> exact ⟨rfl, hand⟩

/-- A call that moves an attempt of the run in hand. -/
theorem movingCall_ensures {call : Call} (kept : Kept actorId K)
    (hand : Hand actorId K q w) (moving : MovesAttempt q.run call)
    (lawful
      : ∀ w, Hand actorId K q w → (w.Admissible call ∧ ForActor actorId w call)
        ∧ extra w (.call (some q.run) call))
    : Ensures (promise actorId permitted extra)
        (fun _ q' w' => q' = q ∧ Hand actorId K q w')
        (Out actorId) (callStore call) q w := by
  unfold callStore
  rw [ensures_quantum_bind]
  refine Ensures.bind (moving_ensures kept hand moving lawful) (fun answer q' w known => ?_)
  obtain ⟨rfl, hand⟩ := known
  split
  · exact ⟨rfl, hand⟩
  · exact hand.1

theorem settleAttempt_ensures {id : AttemptId} {outcome : AttemptOutcome}
    (kept : Kept actorId K) (plain : ∀ w op, Plain op → extra w op) (hand : Hand actorId K q w)
    : Ensures (promise actorId permitted extra) (fun _ => Hand actorId K) (Out actorId)
        (settleAttempt id outcome) q w := by
  unfold settleAttempt
  split
  · exact hand
  all_goals
    rw [ensures_quantum_bind]
    refine Ensures.bind (plain_ensures kept plain hand trivial (fun _ _ => nofun))
      (fun now q' w known => ?_)
    obtain ⟨rfl, hand⟩ := known
    refine Ensures.bind (movingCall_ensures kept hand rfl
      (fun w hand => ⟨⟨hand.1.holds, forActor_of_run hand.1 rfl⟩, plain w _ trivial⟩))
      (fun _ q'' w known => ?_)
    obtain ⟨rfl, hand⟩ := known
    exact hand

/-- An attempt is started, awaited and settled. -/
theorem executeAttempt_ensures {runner : ActorRunner} {name arguments : String}
    {authorizedTools : List String} (kept : Kept actorId K)
    (plain : ∀ w op, Plain op → extra w op)
    (stored : ∀ q w, Hand actorId K q w → Stored q.run.runId attempt w)
    (starts
      : ∀ q w now, Hand actorId K q w →
        extra w (.call (some q.run) (.markAttemptRunning q.run attempt.id now)))
    (hand : Hand actorId K q w)
    : Ensures (promise actorId permitted extra) (fun _ => Hand actorId K) (Out actorId)
        (executeAttempt runner attempt.id name arguments authorizedTools) q w := by
  unfold executeAttempt
  rw [ensures_quantum_bind]
  refine Ensures.bind (plain_ensures kept plain hand trivial (fun _ _ => nofun))
    (fun now q' w known => ?_)
  obtain ⟨rfl, hand⟩ := known
  refine Ensures.bind (movingCall_ensures kept hand rfl
    (fun w hand => ⟨⟨hand.1.holds, forActor_of_run hand.1 rfl⟩, starts _ w now hand⟩))
    (fun _ q'' w known => ?_)
  obtain ⟨rfl, hand⟩ := known
  have polls : ∀ q w, Hand actorId K q w → Ensures (promise actorId permitted extra)
      (fun _ => Hand actorId K) (Out actorId)
      (perform (.execute name arguments ⟨attempt.id, authorizedTools⟩)) q w := by
    intro q w hand
    have isPlain : Plain (.execute name arguments ⟨attempt.id, authorizedTools⟩) := trivial
    refine Ensures.mono (plain_ensures kept plain hand isPlain (fun _ _ => nofun)) ?_
    exact fun _ _ _ known => known.1 ▸ known.2
  refine Ensures.bind (awaitExecution_ensures kept plain polls hand) (fun result q w hand => ?_)
  split
  · exact Ensures.bind (stageExecution_ensures kept plain stored hand)
      (fun outcome q w known => settleAttempt_ensures kept plain (known.1 ▸ known.2))
  · exact settleAttempt_ensures kept plain hand

end Execution

end Codrik.Runtime.Runner
