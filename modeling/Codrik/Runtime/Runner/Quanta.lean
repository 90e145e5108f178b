import Codrik.Runtime.Runner.Upkeep

/-! The tool calls, the model steps and the bookkeeping of a quantum, up to the theorem that
every quantum keeps the promise its upkeep is shown for.
-/

namespace Codrik.Runtime.Runner

open Codrik.Interaction
open Codrik.Relational
open Codrik.Runtime.Sqlite

section Walk

variable {actorId : ActorId} {permitted extra : World → Op → Prop}
    {Fresh Open : Set AttemptId → AttachedRun → World → Prop} {q : Quantum} {w : World}
    {runner : ActorRunner} {runId : RunId} {policy : ExecutionPolicy}

-----------------------------------------------------------------------------------------
-- Tool calls of a response
-----------------------------------------------------------------------------------------

/-- The attempts among the prepared calls. -/
def attemptsOf (prepared : List (LlmToolCall × Option ToolAttempt)) : List ToolAttempt :=
  prepared.filterMap (·.2)

/-- The ids of attempts. -/
def idsOf (attempts : List ToolAttempt) : Set AttemptId :=
  {id | ∃ attempt ∈ attempts, attempt.id = id}

/-- A new attempt is open, and stored under the name it is prepared with. -/
theorem prepareAttempt_ensures (upkeep : Upkeep actorId permitted extra Fresh Open)
    {ids : Set AttemptId} {attempts : List ToolAttempt} {new : NewToolAttempt}
    {now : Timestamp} (hand : Hand actorId (Working Open ids runId policy attempts) q w)
    : Ensures (promise actorId permitted extra)
        (fun answer q' w' => q' = q ∧ ∃ attempt, answer = .prepared attempt
          ∧ attempt.toolName = new.toolName
          ∧ Hand actorId
            (Working Open (insert attempt.id ids) runId policy (attempt :: attempts)) q w')
        (Out actorId) (callStore (.prepareAttempt q.run new now)) q w := by
  refine callStore_ensures ((upkeep.keepsWorking ids runId policy attempts).stable q) hand
    (fun w hand => ⟨⟨hand.1.holds, forActor_of_run hand.1 rfl⟩, upkeep.plain w _ trivial⟩)
    (fun w answer s hand _ performed => ⟨rfl, ?_⟩) (fun w error hand => hand.1)
  have after := hand.1.after (.prepareAttempt q.run new now) hand.1.holds
  rw [after_eq_commit performed] at after
  have carries := hand.2.2.commit performed
  simp only [Call.perform, answering_eq_ok] at performed
  obtain ⟨attempt, done, rfl⟩ := performed
  have opened := upkeep.prepares ids q w new now attempt s ⟨hand.1, hand.2.1⟩ done
  simp only [prepareAttempt, bind_eq_ok, execute_eq_ok, require_eq_ok] at done
  obtain ⟨_, _, rows, inserted, row, found, _, same, result⟩ := done
  cases result
  obtain ⟨stored, here, -⟩ := Table.find?_some found
  refine ⟨decodeAttempt row, rfl, same.1, after, opened, carries.sameRun, carries.samePolicy, ?_⟩
  intro other known
  rcases List.mem_cons.mp known with rfl | known
  · refine ⟨row, ?_, here.trans hand.2.2.sameRun, rfl⟩
    rw [World.commit_store]
    exact stored
  · exact carries.stored other known

/-- A call the policy allows gets an attempt. -/
theorem prepareCall_ensures (upkeep : Upkeep actorId permitted extra Fresh Open)
    {ids : Set AttemptId} {attempts : List ToolAttempt} {toolCall : LlmToolCall}
    (hand : Hand actorId (Working Open ids runId policy attempts) q w)
    : Ensures (promise actorId permitted extra)
        (fun prepared q w => (∀ attempt ∈ prepared, policy.allows attempt.toolName = true)
          ∧ Hand actorId (Working Open (ids ∪ idsOf prepared.toList) runId policy
            (prepared.toList ++ attempts)) q w)
        (Out actorId) (prepareCall runner toolCall) q w := by
  have kept := upkeep.keepsWorking ids runId policy attempts
  have unprepared : ∀ q w, Hand actorId (Working Open ids runId policy attempts) q w →
      (∀ attempt ∈ (none : Option ToolAttempt), policy.allows attempt.toolName = true)
        ∧ Hand actorId (Working Open (ids ∪ idsOf []) runId policy attempts) q w :=
    fun q w hand => ⟨fun _ mem => (Option.not_mem_none _ mem).elim, hand.1,
      upkeep.grows ids _ _ _ Set.subset_union_left hand.2.1, hand.2.2⟩
  unfold prepareCall
  rw [ensures_quantum_bind]
  split
  · rename_i allowed
    rw [hand.2.2.samePolicy] at allowed
    split
    · exact hand.1
    · refine Ensures.bind (plain_ensures kept upkeep.plain hand trivial (fun _ _ => nofun))
        (fun id q' w known => ?_)
      obtain ⟨rfl, hand⟩ := known
      refine Ensures.bind (plain_ensures kept upkeep.plain hand trivial (fun _ _ => nofun))
        (fun now q'' w known => ?_)
      obtain ⟨rfl, hand⟩ := known
      refine Ensures.bind (prepareAttempt_ensures upkeep hand) (fun answer q' w known => ?_)
      obtain ⟨rfl, attempt, rfl, name, hand⟩ := known
      refine ⟨fun other same => ?_, hand.1, upkeep.grows _ _ _ _ ?_ hand.2.1, hand.2.2⟩
      · obtain rfl := Option.mem_some.mp same
        rw [name]
        exact allowed
      · intro id mem
        rcases mem with rfl | mem
        · exact Or.inr ⟨attempt, List.mem_singleton_self _, rfl⟩
        · exact Or.inl mem
  · exact unprepared q w hand

theorem idsOf_append (first second : List ToolAttempt)
    : idsOf (first ++ second) = idsOf first ∪ idsOf second := by
  ext id
  simp only [idsOf, List.mem_append, Set.mem_ofPred_eq, Set.mem_union, or_and_right, exists_or]

/-- The calls the policy allows get attempts, by induction on the calls. -/
theorem prepareCalls_ensures (upkeep : Upkeep actorId permitted extra Fresh Open)
    {ids : Set AttemptId} {attempts : List ToolAttempt} {toolCalls : List LlmToolCall}
    (hand : Hand actorId (Working Open ids runId policy attempts) q w)
    : Ensures (promise actorId permitted extra)
        (fun prepared q w => (∀ attempt ∈ attemptsOf prepared,
            policy.allows attempt.toolName = true)
          ∧ Hand actorId (Working Open (ids ∪ idsOf (attemptsOf prepared)) runId policy
            (attemptsOf prepared ++ attempts)) q w)
        (Out actorId) (prepareCalls runner toolCalls) q w := by
  induction toolCalls generalizing ids attempts q w with
  | nil =>
      exact ⟨fun _ mem => absurd mem List.not_mem_nil, hand.1,
        upkeep.grows ids _ _ _ Set.subset_union_left hand.2.1, hand.2.2⟩
  | cons toolCall rest ih =>
      refine Ensures.bind (prepareCall_ensures upkeep hand) (fun prepared q w known => ?_)
      obtain ⟨allowed, hand⟩ := known
      refine Ensures.bind (ih hand) (fun others q w known => ?_)
      obtain ⟨othersAllowed, hand⟩ := known
      have split : attemptsOf ((toolCall, prepared) :: others)
          = prepared.toList ++ attemptsOf others := by
        cases prepared <;> rfl
      rw [ensures_pure, split]
      refine ⟨fun attempt mem => ?_, hand.1, upkeep.grows _ _ _ _ ?_ hand.2.1,
        hand.2.2.sameRun, hand.2.2.samePolicy, fun attempt mem => hand.2.2.stored attempt ?_⟩
      · rcases List.mem_append.mp mem with first | later
        · exact allowed attempt (Option.mem_toList.mp first)
        · exact othersAllowed attempt later
      · rw [idsOf_append, Set.union_assoc]
      · simp only [List.mem_append] at mem ⊢
        tauto

/-- The results so far are the runner's own messages, and name attempts only if there are any. -/
structure CallResults.Own (results : CallResults) : Prop where
  roles : ∀ message ∈ results.messages, message.role ≠ .user
  empty : results.messages = [] → results.attemptIds = []

/-- A tool result is the runner's own message. -/
theorem CallResults.Own.extend {results : CallResults} (own : results.Own)
    (toolCallId content : String) (attemptIds : List AttemptId)
    : CallResults.Own
        { results with
          messages := results.messages ++ [.toolResult toolCallId content]
          attemptIds := attemptIds } where
  roles message mem := by
    rcases List.mem_append.mp mem with mem | mem
    · exact own.roles message mem
    · rw [List.mem_singleton.mp mem]
      exact Role.noConfusion
  empty none := absurd (List.append_eq_nil_iff.mp none).2 (List.cons_ne_nil _ _)

/-- The loop over the prepared calls names every attempt unless the budget is spent, by
induction on the calls.
-/
theorem runCalls_ensures (upkeep : Upkeep actorId permitted extra Fresh Open)
    {ids : Set AttemptId} {attempts : List ToolAttempt}
    {prepared : List (LlmToolCall × Option ToolAttempt)} {results : CallResults}
    (known : ∀ attempt ∈ attemptsOf prepared,
      attempt ∈ attempts ∧ policy.allows attempt.toolName = true)
    (own : results.Own) (fresh : results.exhausted = false)
    (hand : Hand actorId (Working Open ids runId policy attempts) q w)
    : Ensures (promise actorId permitted extra)
        (fun results' q w => results'.Own
          ∧ (results'.exhausted = false →
            (∀ id ∈ results.attemptIds, id ∈ results'.attemptIds)
              ∧ ∀ attempt ∈ attemptsOf prepared, attempt.id ∈ results'.attemptIds)
          ∧ Hand actorId (Working Open ids runId policy attempts) q w)
        (Out actorId) (runCalls runner prepared results) q w := by
  have kept := upkeep.keepsWorking ids runId policy attempts
  induction prepared generalizing results q w with
  | nil =>
      exact ⟨own, fun _ => ⟨fun _ mem => mem, fun _ mem => absurd mem List.not_mem_nil⟩, hand⟩
  | cons call rest ih =>
      obtain ⟨toolCall, _ | attempt⟩ := call
      · have own' := own.extend toolCall.id (observationForOutcome (forbiddenTool toolCall.name))
          results.attemptIds
        exact ih known own' fresh hand
      · obtain ⟨mem, allowed⟩ := known attempt List.mem_cons_self
        simp only [runCalls]
        rw [ensures_quantum_bind]
        split
        · exact ⟨⟨own.roles, own.empty⟩, fun spent => Bool.noConfusion spent, hand⟩
        · rw [ensures_update_bind]
          have counted : Hand actorId (Working Open ids runId policy attempts)
              { q with toolSteps := q.toolSteps + 1 } w :=
            ⟨⟨hand.1.reached, hand.1.holds, hand.1.actor⟩, kept.toolSteps q w _ hand.2⟩
          refine Ensures.bind (allowedAttempt_ensures upkeep mem allowed counted)
            (fun outcome q w hand => ?_)
          have own' := own.extend toolCall.id (observationForOutcome outcome)
            (results.attemptIds ++ [attempt.id])
          have others := ih (fun other later => known other (List.mem_cons_of_mem _ later)) own'
            fresh hand
          refine others.mono (fun results' q w done => ⟨done.1, fun unspent => ?_, done.2.2⟩)
          obtain ⟨earlier, later⟩ := done.2.1 unspent
          refine ⟨fun id mem => earlier id (List.mem_append_left _ mem), fun other mem => ?_⟩
          rcases List.mem_cons.mp mem with rfl | mem
          · exact earlier _ (List.mem_append_right _ (List.mem_singleton_self _))
          · exact later other mem

/-- The results of the calls resolve the attempts they name. -/
theorem storeResults_ensures (upkeep : Upkeep actorId permitted extra Fresh Open)
    {ids : Set AttemptId} {attempts : List ToolAttempt} {results : CallResults}
    (own : results.Own) (hand : Hand actorId (Working Open ids runId policy attempts) q w)
    : Ensures (promise actorId permitted extra)
        (fun _ => Hand actorId
          (Working Open (ids \ {id | id ∈ results.attemptIds}) runId policy attempts))
        (Out actorId) (storeResults results) q w := by
  unfold storeResults
  split
  · refine Ensures.bind (ownCheckpoint_ensures upkeep _ own.roles hand) (fun _ q' w known => ?_)
    obtain ⟨rfl, hand⟩ := known
    refine Ensures.bind (advanceProgress_ensures (upkeep.keepsWorking _ _ _ _) hand)
      (fun _ q w hand => ?_)
    exact extendMessages_ensures hand
  · rename_i empty
    have none : ids \ {id | id ∈ results.attemptIds} = ids := by
      rw [own.empty (not_not.mp empty)]
      ext id
      simp
    rw [none]
    exact hand

/-- The part of a step after a response with tool calls leaves nothing open. -/
theorem useTools_ensures (upkeep : Upkeep actorId permitted extra Fresh Open)
    {response : LlmResponse} (hand : Hand actorId (Run (Open ∅)) q w)
    : Ensures (promise actorId permitted extra) (fun _ => Hand actorId (Run (Open ∅)))
        (Out actorId) (useTools runner response) q w := by
  have working : Hand actorId
      (Working Open ∅ q.run.runId q.run.executionPolicy []) q w :=
    ⟨hand.1, hand.2, rfl, rfl, fun _ mem => absurd mem List.not_mem_nil⟩
  unfold useTools
  refine Ensures.bind (prepareCalls_ensures upkeep working) (fun prepared q' w known => ?_)
  obtain ⟨allowed, hand⟩ := known
  rw [Set.empty_union, List.append_nil] at hand
  have own : ∀ message ∈ [Message.assistantToolCalls response.content response.toolCalls],
      message.role ≠ .user := by
    intro message mem
    rw [List.mem_singleton.mp mem]
    exact Role.noConfusion
  refine Ensures.bind (ownCheckpoint_ensures upkeep [] own hand) (fun _ q'' w known => ?_)
  obtain ⟨rfl, hand⟩ := known
  have all : (idsOf (attemptsOf prepared) \ {id | id ∈ ([] : List AttemptId)})
      = idsOf (attemptsOf prepared) := by
    ext id
    simp
  rw [all] at hand
  refine Ensures.bind (advanceProgress_ensures (upkeep.keepsWorking _ _ _ _) hand)
    (fun _ q w hand => ?_)
  refine Ensures.bind (extendMessages_ensures hand) (fun _ q w hand => ?_)
  refine Ensures.bind (runCalls_ensures upkeep
    (fun attempt mem => ⟨mem, allowed attempt mem⟩)
    ⟨fun _ mem => absurd mem List.not_mem_nil, fun _ => rfl⟩ rfl hand)
    (fun results q w known => ?_)
  obtain ⟨own, complete, hand⟩ := known
  refine Ensures.bind (storeResults_ensures upkeep own hand) (fun _ q w hand => ?_)
  split
  · exact Ensures.bind (executionBoundary_ensures (upkeep.keepsWorking _ _ _ _) upkeep.plain hand)
      (fun _ _ _ hand => hand.1)
  · rename_i unspent
    obtain ⟨-, named⟩ := complete (Bool.eq_false_iff.mpr unspent)
    refine ⟨hand.1, upkeep.grows _ ∅ _ _ (fun id mem => ?_) hand.2.1⟩
    obtain ⟨⟨attempt, known, rfl⟩, unnamed⟩ := mem
    exact absurd (named attempt known) unnamed

-----------------------------------------------------------------------------------------
-- Model steps
-----------------------------------------------------------------------------------------

/-- The run that is attached is in hand. -/
theorem inHand_of_attached {lease : ActorLease} {maxEvents : Nat} {now : Timestamp}
    {ids : FreshIds} {run : AttachedRun} {s : Store} (reached : runtime.Reachable w)
    (actor : lease.actorId = actorId)
    (attached : attachNextRun lease maxEvents now ids w.store = .ok (some run, s))
    (q : Quantum) (isRun : q.run = run)
    : InHand actorId q
        (w.commit (.attachNextRun lease maxEvents now ids) (.attached run) s) := by
  have performed : (Call.attachNextRun lease maxEvents now ids).perform w.store
      = .ok (.attached run, s) := by
    rw [Call.perform, answering_eq_ok]
    exact ⟨some run, attached, rfl⟩
  refine ⟨?_, ⟨run, ?_, ?_⟩, ?_⟩
  · have admissible : w.Admissible (.attachNextRun lease maxEvents now ids) := trivial
    rw [← after_eq_commit performed]
    exact .step reached ⟨admissible, rfl⟩
  · rw [World.commit_issued w performed]
    exact List.mem_append_left _ (List.mem_singleton_self run)
  · rw [isRun]
  · rw [isRun, ← actor]
    exact congrArg ActorLease.actorId (attachNextRun_lease attached)

/-- A preempted quantum has nothing open when it goes on. -/
theorem reattach_ensures (upkeep : Upkeep actorId permitted extra Fresh Open)
    (hand : Hand actorId (Run (Open ∅)) q w)
    : Ensures (promise actorId permitted extra) (fun _ => Hand actorId (Run (Open ∅)))
        (Out actorId) (reattach runner) q w := by
  have kept := upkeep.keepsOpen ∅
  unfold reattach
  rw [ensures_quantum_bind]
  refine Ensures.bind (plain_ensures kept upkeep.plain hand trivial (fun _ _ => nofun))
    (fun now q' w known => ?_)
  obtain ⟨rfl, hand⟩ := known
  refine Ensures.bind (plain_ensures kept upkeep.plain hand trivial (fun _ _ => nofun))
    (fun ids q'' w known => ?_)
  obtain ⟨rfl, hand⟩ := known
  have attaches : Ensures (promise actorId permitted extra)
      (fun answer q' w' => InHand actorId q' w' ∧ ∀ run, answer = .attached (some run) →
        Hand actorId (Run (Fresh ∅)) { q' with run := run } w')
      (Out actorId)
      (callStore (.attachNextRun q''.run.lease runner.limits.maxEvents now ids)) q'' w := by
    refine callStore_ensures (kept.stable q'') hand
      (fun w hand => ⟨⟨trivial, forActor_of_run hand.1 rfl⟩, upkeep.plain w _ trivial⟩)
      (fun w answer s hand allowed performed => ?_) (fun w error hand => hand.1)
    have after := hand.1.after
      (.attachNextRun q''.run.lease runner.limits.maxEvents now ids) trivial
    rw [after_eq_commit performed] at after
    refine ⟨after, fun run same => ?_⟩
    simp only [Call.perform, answering_eq_ok] at performed
    obtain ⟨_, done, rfl⟩ := performed
    cases same
    exact ⟨inHand_of_attached hand.1.reached hand.1.actor done _ rfl,
      upkeep.reattaches _ w _ now ids run s hand allowed done⟩
  refine Ensures.bind attaches (fun answer q w known => ?_)
  obtain ⟨hand, fresh⟩ := known
  split
  · rename_i run
    rw [ensures_update_bind]
    exact incorporate_ensures upkeep (fresh run rfl)
  · exact hand

/-- A finalization that is preempted changes nothing. -/
theorem finalize_ensures (upkeep : Upkeep actorId permitted extra Fresh Open)
    {command : FinalizeRun} {now : Timestamp} {ids : FreshIds} (isRun : command.run = q.run)
    (own : ∀ message ∈ command.finalMessages, message.role ≠ .user)
    (hand : Hand actorId (Run (Open ∅)) q w)
    : Ensures (promise actorId permitted extra)
        (fun answer q' w' => q' = q ∧ InHand actorId q w'
          ∧ ∀ newest, answer = .finalized (.preempted newest) →
            Hand actorId (Run (Open ∅)) q w')
        (Out actorId) (callStore (.finalizeRun command now ids)) q w := by
  have lawful : ∀ w, InHand actorId q w → w.Admissible (.finalizeRun command now ids)
      ∧ ForActor actorId w (.finalizeRun command now ids) := by
    intro w hand
    have presents : (Call.finalizeRun command now ids).actor? = some q.run.lease.actorId := by
      rw [Call.actor?, isRun]
    have holds : w.Holds command.run := isRun ▸ hand.holds
    exact ⟨holds, forActor_of_run hand presents⟩
  refine callStore_ensures ((upkeep.keepsOpen ∅).stable q) hand
    (fun w hand => ⟨lawful w hand.1, upkeep.finalizes q w command now ids hand isRun own⟩)
    (fun w answer s hand _ performed => ?_) (fun w error hand => hand.1)
  have after := hand.1.after _ (lawful w hand.1).1
  rw [after_eq_commit performed] at after
  refine ⟨rfl, after, fun newest same => ?_⟩
  simp only [Call.perform, answering_eq_ok] at performed
  obtain ⟨outcome, done, rfl⟩ := performed
  obtain ⟨-, ⟨_, -, -, rfl⟩ | ⟨-, completed, -⟩⟩ := finalizeRun_ok done
  · exact hand
  · rw [completed] at same
    cases same

/-- A final answer ends the quantum, or newer input is attached. -/
theorem conclude_ensures (upkeep : Upkeep actorId permitted extra Fresh Open)
    {content : String} (hand : Hand actorId (Run (Open ∅)) q w)
    : Ensures (promise actorId permitted extra) (fun _ => Hand actorId (Run (Open ∅)))
        (Out actorId) (conclude runner content) q w := by
  have kept := upkeep.keepsOpen ∅
  unfold conclude
  rw [ensures_quantum_bind]
  refine Ensures.bind (plain_ensures kept upkeep.plain hand trivial (fun _ _ => nofun))
    (fun id q' w known => ?_)
  obtain ⟨rfl, hand⟩ := known
  refine Ensures.bind (plain_ensures kept upkeep.plain hand trivial (fun _ _ => nofun))
    (fun now q'' w known => ?_)
  obtain ⟨rfl, hand⟩ := known
  refine Ensures.bind (plain_ensures kept upkeep.plain hand trivial (fun _ _ => nofun))
    (fun ids q' w known => ?_)
  obtain ⟨rfl, hand⟩ := known
  refine Ensures.bind (finalize_ensures upkeep rfl (fun message mem => ?_) hand)
    (fun answer q'' w known => ?_)
  · rw [List.mem_singleton.mp mem]
    exact Role.noConfusion
  obtain ⟨rfl, inHand, preempted⟩ := known
  split
  · exact reattach_ensures upkeep (preempted _ rfl)
  · refine Ensures.bind (advanceProgress_ensures (Kept.true actorId) ⟨inHand, trivial⟩)
      (fun _ q w hand => ?_)
    exact hand.1

/-- One step of the model leaves nothing open. -/
theorem modelStep_ensures (upkeep : Upkeep actorId permitted extra Fresh Open)
    (hand : Hand actorId (Run (Open ∅)) q w)
    : Ensures (promise actorId permitted extra) (fun _ => Hand actorId (Run (Open ∅)))
        (Out actorId) (modelStep runner) q w := by
  have kept := upkeep.keepsOpen ∅
  unfold modelStep
  refine Ensures.bind (executionBoundary_ensures kept upkeep.plain hand) (fun _ q w hand => ?_)
  refine Ensures.bind (newerControl_ensures kept upkeep.plain hand) (fun control q' w known => ?_)
  obtain ⟨rfl, hand⟩ := known
  split
  · split
    · exact Ensures.bind (cancelQuantum_ensures upkeep.plain hand.1) (fun _ _ _ hand => hand)
    · exact Ensures.bind (executionBoundary_ensures kept upkeep.plain hand)
        (fun _ _ _ hand => hand.1)
    · exact hand.1
  · rw [ensures_quantum_bind]
    have polls : ∀ q'' w, Hand actorId (Run (Open ∅)) q'' w →
        Ensures (promise actorId permitted extra) (fun _ => Hand actorId (Run (Open ∅)))
          (Out actorId) (perform (.stream (modelRequest runner q'))) q'' w := by
      intro q'' w hand
      refine Ensures.mono (perform_ensures kept hand (fun _ _ => nofun)
        (fun w hand => upkeep.streams q'' w _ hand)) ?_
      exact fun _ _ _ known => known.1 ▸ known.2
    refine Ensures.bind (awaitExecution_ensures kept upkeep.plain polls hand)
      (fun result q w hand => ?_)
    split
    · exact hand.1
    · split
      · exact conclude_ensures upkeep hand
      · exact useTools_ensures upkeep hand

/-- The loop over the model steps, by induction on their number. -/
theorem modelLoop_ensures (upkeep : Upkeep actorId permitted extra Fresh Open) {steps : Nat}
    (hand : Hand actorId (Run (Open ∅)) q w)
    : Ensures (promise actorId permitted extra) (fun _ => InHand actorId)
        (Out actorId) (modelLoop runner steps) q w := by
  induction steps generalizing q w with
  | zero =>
      exact Ensures.bind (executionBoundary_ensures (upkeep.keepsOpen ∅) upkeep.plain hand)
        (fun _ _ _ hand => hand.1)
  | succ steps ih =>
      exact Ensures.bind (modelStep_ensures upkeep hand) (fun _ q w hand => ih hand)

-----------------------------------------------------------------------------------------
-- Quanta
-----------------------------------------------------------------------------------------

theorem workOnRun_ensures (upkeep : Upkeep actorId permitted extra Fresh Open)
    (hand : Hand actorId (Run (Open Set.univ)) q w)
    : Ensures (promise actorId permitted extra) (fun _ => InHand actorId) (Out actorId)
        (workOnRun runner) q w := by
  have kept := upkeep.keepsOpen Set.univ
  unfold workOnRun
  rw [ensures_quantum_bind]
  have examined : Ensures (promise actorId permitted extra)
      (fun answer q' w' => q' = q ∧ InHand actorId q w' ∧ ∀ attempts,
        answer = .unresolved attempts →
        Hand actorId (Working Open (idsOf attempts) q.run.runId q.run.executionPolicy attempts)
          q w')
      (Out actorId) (callStore (.unresolvedAttempts q.run)) q w := by
    refine callStore_ensures (kept.stable q) hand
      (fun w hand => ⟨⟨hand.1.holds, forActor_of_run hand.1 rfl⟩, upkeep.plain w _ trivial⟩)
      (fun w answer s hand _ performed => ⟨rfl, ?_⟩) (fun w error hand => hand.1)
    have after := hand.1.after (.unresolvedAttempts q.run) hand.1.holds
    rw [after_eq_commit performed] at after
    refine ⟨after, fun attempts same => ⟨after, ?_⟩⟩
    simp only [Call.perform, reading_eq_ok] at performed
    obtain ⟨rfl, _, done, rfl⟩ := performed
    cases same
    refine ⟨upkeep.examines q w attempts hand done, rfl, rfl, fun attempt mem => ?_⟩
    simp only [unresolvedAttempts, bind_eq_ok] at done
    obtain ⟨_, _, selected⟩ := done
    cases selected
    obtain ⟨row, stored, rfl⟩ := List.mem_map.mp mem
    obtain ⟨known, here, -⟩ := Table.mem_selectOrdered.mp stored
    exact ⟨row, known, here, rfl⟩
  refine Ensures.bind examined (fun answer q' w known => ?_)
  obtain ⟨rfl, inHand, recovers⟩ := known
  split
  · rename_i attempts
    exact Ensures.bind (recoverAll_ensures upkeep (fun id mem => mem) (recovers attempts rfl))
      (fun _ q w hand => modelLoop_ensures upkeep hand)
  · exact inHand

/-- The clean-up keeps the run in hand as well. -/
theorem workAndCleanUp_ensures (upkeep : Upkeep actorId permitted extra Fresh Open)
    (hand : Hand actorId (Run (Open Set.univ)) q w)
    : Ensures (promise actorId permitted extra) (fun _ => InHand actorId) (Out actorId)
        (workAndCleanUp runner) q w := by
  refine Program.Meets.bind (workOnRun_ensures upkeep hand) (fun result w worked => ?_)
  obtain ⟨result, q⟩ := result
  have inHand : InHand actorId q w := by
    cases result <;> exact worked
  refine Program.Meets.bind
    (stopExecutionHeartbeat_ensures (Kept.true actorId) upkeep.plain ⟨inHand, trivial⟩)
    (fun stopped w after => ?_)
  obtain ⟨_ | _, q⟩ := stopped
  · exact after
  · cases result <;> exact after.1

theorem runAttached_ensures (upkeep : Upkeep actorId permitted extra Fresh Open)
    (hand : Hand actorId (Run (Fresh Set.univ)) q w)
    : Ensures (promise actorId permitted extra) (fun _ => InHand actorId) (Out actorId)
        (runAttached runner) q w := by
  unfold runAttached
  refine Ensures.bind (incorporate_ensures upkeep hand) (fun _ q w hand => ?_)
  rw [ensures_update_bind]
  exact workAndCleanUp_ensures upkeep
    ⟨⟨hand.1.reached, hand.1.holds, hand.1.actor⟩, hand.2⟩

/-- What is known between two quanta, and in one that has no run in hand. -/
def Idle (w : World) : Prop := runtime.Reachable w

theorem Idle.stable : (promise actorId permitted extra).Stable Idle :=
  fun _ _ idle relies => Relies.reachable relies idle

theorem Idle.after (idle : Idle w) (call : Call) (admissible : w.Admissible call)
    : Idle (w.after call) :=
  .step idle ⟨admissible, rfl⟩

/-- What `run_leased` leaves: the run in hand, if there is any. -/
def Left (actorId : ActorId) (left : Option Quantum) (w : World) : Prop :=
  match left with
  | none => Idle w
  | some q => InHand actorId q w

theorem Left.idle {left : Option Quantum} (here : Left actorId left w) : Idle w := by
  cases left with
  | none => exact here
  | some q => exact here.reached

theorem Left.stable (left : Option Quantum)
    : (promise actorId permitted extra).Stable (Left actorId left) := by
  cases left with
  | none => exact Idle.stable
  | some q => exact fun _ _ hand relies => hand.relies relies

/-- An operation that is no call, in the middle of a program. -/
theorem ask_meets {α : Type} {P : World → Prop} {post : α → World → Prop} {op : Op}
    {next : op.Answer → Program Ops α} (stable : (promise actorId permitted extra).Stable P)
    (holds : P w) (promised : ∀ w, extra w op) (silent : ∀ held call, op ≠ .call held call)
    (rest
      : ∀ w answer, P w → (next answer).Meets (promise actorId permitted extra) post w)
    : (Program.ask (I := Ops) op >>= next).Meets (promise actorId permitted extra) post w := by
  refine Program.Meets.perform stable holds (fun t here answer u answered => ?_)
  have lawful : Lawful actorId t op := by
    cases op with
    | call held call => exact absurd rfl (silent held call)
    | _ => exact trivial
  obtain rfl | ⟨held, call, rfl, -⟩ := answers_cases answered.2
  · exact ⟨⟨lawful, promised _⟩, rest _ answer here⟩
  · exact absurd rfl (silent held call)

/-- A store call in the middle of a program. -/
theorem call_meets {α : Type} {P : World → Prop} {post : α → World → Prop}
    {held : Option AttachedRun} {call : Call}
    {next : Except CallError Sqlite.Answer → Program Ops α}
    (stable : (promise actorId permitted extra).Stable P) (holds : P w)
    (lawful : ∀ w, P w → (w.Admissible call ∧ ForActor actorId w call) ∧ extra w (.call held call))
    (commits
      : ∀ w answer s, P w → call.perform w.store = .ok (answer, s) →
        (next (.ok answer)).Meets (promise actorId permitted extra) post (w.commit call answer s))
    (fails
      : ∀ w error, P w →
        (next (.error error)).Meets (promise actorId permitted extra) post w)
    : (Program.ask (I := Ops) (.call held call) >>= next).Meets
        (promise actorId permitted extra) post w := by
  refine Program.Meets.perform stable holds (fun t here answer u answered => ?_)
  refine ⟨⟨(lawful t here).1, (lawful t here).2⟩, ?_⟩
  obtain ⟨-, answered⟩ := answered
  cases answer with
  | ok answer =>
      obtain ⟨s, performed, rfl⟩ := answered
      exact commits t answer s here performed
  | error error =>
      have same : u = t := by
        cases error with
        | refused error => exact answered.2
        | database _ _ => exact answered
      rw [same]
      exact fails t error here

end Walk

-----------------------------------------------------------------------------------------
-- Whole quanta
-----------------------------------------------------------------------------------------

section Quanta

variable {actorId : ActorId} {permitted extra : World → Op → Prop}
    {Fresh Open : Set AttemptId → AttachedRun → World → Prop} {q : Quantum} {w : World}
    {runner : ActorRunner}

/-- The fence of a run that was handed out was handed out with it. -/
theorem World.Holds.fence {run : AttachedRun} (holds : w.Holds run) : w.HoldsFence run.fence := by
  obtain ⟨issued, mem, same⟩ := holds
  refine ⟨issued, mem, ?_⟩
  rw [same]
  rfl

theorem runLeased_meets (upkeep : Upkeep actorId permitted extra Fresh Open)
    {lease : ActorLease} (actor : lease.actorId = actorId) (idle : Idle w)
    : (runLeased runner lease).Meets (promise actorId permitted extra)
        (fun result => Left actorId result.2) w := by
  unfold runLeased
  refine ask_meets Idle.stable idle (fun w => upkeep.plain w _ trivial) (fun _ _ => nofun)
    (fun w now idle => ?_)
  refine ask_meets Idle.stable idle (fun w => upkeep.plain w _ trivial) (fun _ _ => nofun)
    (fun w ids idle => ?_)
  refine call_meets Idle.stable idle (fun w idle => ⟨⟨trivial, ?_⟩, upkeep.plain w _ trivial⟩)
    (fun w answer s idle performed => ?_) (fun w error idle => idle)
  · exact And.intro (fun _ same => (Option.some.inj same).symm.trans actor)
      (fun _ same => by cases same)
  have after := idle.after (.attachNextRun lease runner.limits.maxEvents now ids) trivial
  rw [after_eq_commit performed] at after
  simp only [Call.perform, answering_eq_ok] at performed
  obtain ⟨run, done, rfl⟩ := performed
  cases run with
  | none => exact after
  | some run =>
      have inHand := inHand_of_attached idle actor done
        { run := run, messages := [], progress := .none, toolSteps := 0, heartbeat := false } rfl
      have fresh := upkeep.attaches w lease _ now ids run s idle actor done
      refine Program.Meets.bind (runAttached_ensures upkeep ⟨inHand, fresh⟩)
        (fun result w left => ?_)
      obtain ⟨_ | _, q⟩ := result <;> exact left

/-- The bookkeeping after a quantum presents the fence of the run in hand. -/
theorem classify_meets (plain : ∀ w op, Plain op → extra w op)
    {result : Except RunnerError RunOnceOutcome × Option Quantum}
    (here : Left actorId result.2 w)
    : (classify runner result).Meets (promise actorId permitted extra)
        (fun _ => Left actorId result.2) w := by
  obtain ⟨_ | _, _ | q⟩ := result
  · exact here
  · simp only [classify, recordError]
    split
    · exact here
    · refine ask_meets (Left.stable _) here (fun w => plain w _ trivial) (fun _ _ => nofun)
        (fun w now here => ?_)
      refine ask_meets (Left.stable _) here (fun w => plain w _ trivial) (fun _ _ => nofun)
        (fun w ids here => ?_)
      have lawful : ∀ w, Left actorId (some q) w → w.Admissible (.recordFailure q.run.fence
          (runner.errorText ‹_›) q.progress now ids)
          ∧ ForActor actorId w (.recordFailure q.run.fence (runner.errorText ‹_›) q.progress now
            ids) :=
        fun w here => ⟨World.Holds.fence here.holds, forActor_of_run here rfl⟩
      refine call_meets (Left.stable _) here
        (fun w here => ⟨lawful w here, plain w _ trivial⟩)
        (fun w answer s here performed => ?_) (fun w error here => here)
      have after := here.after _ (lawful w here).1
      rw [after_eq_commit performed] at after
      simp only [Call.perform, answering_eq_ok] at performed
      obtain ⟨disposition, -, rfl⟩ := performed
      exact after
  · exact here
  · simp only [classify, recordOutcome]
    split
    · refine ask_meets (Left.stable _) here (fun w => plain w _ trivial) (fun _ _ => nofun)
        (fun w now here => ?_)
      refine call_meets (Left.stable _) here
        (fun w here => ⟨⟨World.Holds.fence here.holds, forActor_of_run here rfl⟩,
          plain w _ trivial⟩)
        (fun w answer s here performed => ?_) (fun w error here => here)
      have after := here.after (.recordProgress q.run.fence now)
        (World.Holds.fence here.holds)
      rw [after_eq_commit performed] at after
      exact after
    · exact here

/-- A lease that is acquired for an actor is the actor's. -/
theorem acquireReadyActorFor_actor {s s' : Store} {owner : String} {now leaseUntil : Timestamp}
    {lease : ActorLease}
    (acquired : acquireReadyActorFor actorId owner now leaseUntil s = .ok (some lease, s'))
    : lease.actorId = actorId := by
  simp only [acquireReadyActorFor, acquire, bind_eq_ok] at acquired
  obtain ⟨_, -, rest⟩ := acquired
  unfold readyActorFor at rest
  split at rest
  · cases rest
  · rename_i ready
    split at ready
    · cases ready
      unfold grantLease at rest
      split at rest
      · simp only [bind_eq_ok] at rest
        obtain ⟨_, -, result⟩ := rest
        cases result
        rfl
      · split at rest
        · cases rest
          rfl
        · split at rest
          · cases rest
            rfl
          · cases rest
    · cases ready

/-- Every quantum keeps the promise that its upkeep is shown for. -/
theorem Upkeep.quantum {owner : String} (upkeep : Upkeep actorId permitted extra Fresh Open)
    (reached : runtime.Reachable w)
    : (runQuantum runner actorId owner).Meets (promise actorId permitted extra)
        (fun _ _ => True) w := by
  have idle : Idle w := reached
  unfold runQuantum
  refine ask_meets Idle.stable idle (fun w => upkeep.plain w _ trivial) (fun _ _ => nofun)
    (fun w now idle => ?_)
  split
  · exact trivial
  · rename_i millis _
    refine call_meets Idle.stable idle (fun w idle => ⟨⟨trivial, ?_⟩, upkeep.plain w _ trivial⟩)
      (fun w answer s idle performed => ?_) (fun w error idle => trivial)
    · exact And.intro (fun _ same => (Option.some.inj same).symm) (fun _ same => by cases same)
    have after := idle.after (.acquireReadyActorFor actorId owner now
      (Timestamp.plusMillis now millis)) trivial
    rw [after_eq_commit performed] at after
    simp only [Call.perform, answering_eq_ok] at performed
    obtain ⟨lease, done, rfl⟩ := performed
    cases lease with
    | none => exact trivial
    | some lease =>
        have actor := acquireReadyActorFor_actor done
        refine Program.Meets.bind (runLeased_meets upkeep actor after) (fun result w here => ?_)
        refine Program.Meets.bind (classify_meets upkeep.plain here) (fun classified w here => ?_)
        refine call_meets (Left.stable _) here
          (fun w here => ⟨⟨trivial, ?_⟩, upkeep.plain w _ trivial⟩)
          (fun w answer s here _ => trivial) (fun w error here => ?_)
        · refine And.intro (fun _ same => (Option.some.inj same).symm.trans ?_)
            (fun _ same => by cases same)
          obtain ⟨_, _ | q⟩ := result
          · exact actor
          · exact here.actor
        · cases classified <;> exact trivial

end Quanta

/-- Whenever a quantum performs an operation, it keeps the promise its upkeep is shown for. -/
theorem Upkeep.guarantees {permitted extra : World → Op → Prop}
    {Fresh Open : Set AttemptId → AttachedRun → World → Prop}
    (upkeep : ∀ actorId, Upkeep actorId permitted extra Fresh Open) {c c' : Daemon}
    (reached : (daemon.system.restrict (Performing permitted)).Reachable c) {actorId : ActorId}
    {op : Op} {answer : op.Answer}
    (taken
      : (daemon.system.restrict (Performing permitted)).Step c (.perform actorId op answer) c')
    : runtime.Reachable c.state ∧ extra c.state op := by
  have certified : Certificate daemon (Performing permitted) runtime.Reachable
      (fun actorId => promise actorId permitted extra) (fun _ _ _ => True) :=
    certificate (fun _ _ _ _ allowed => allowed)
      (fun _ actorId _ _ reached => (upkeep actorId).quantum reached)
  have sound := certified.reachable reached
  obtain ⟨allowed, next, running, answered, -⟩ := taken
  exact ⟨sound.1, (certified.guaranteed sound allowed running answered).1.2⟩

end Codrik.Runtime.Runner
