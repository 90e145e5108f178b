import Codrik.Runtime.Sqlite.Invariant
import Codrik.Runtime.Sqlite.Frames

/-! The stored context of an audience: it holds what visible work items said, and nothing
else has an influence on it.
-/

namespace Codrik.Runtime.Sqlite

open Codrik.Relational
open Codrik.Transition

variable {s s' : Store}

-----------------------------------------------------------------------------------------
-- Loading
-----------------------------------------------------------------------------------------

/-- The audiences whose messages a reader's context takes in. -/
def InContext : Audience → Audience → Prop
  | .actorPrivate, written => written = .actorPrivate ∨ written = .shareable
  | .shareable, written => written = .shareable
  | .conversationScoped address, written =>
      written = .shareable ∨ written = .conversationScoped address

instance : (reader written : Audience) → Decidable (InContext reader written)
  | .actorPrivate, _ => inferInstanceAs (Decidable (_ ∨ _))
  | .shareable, _ => inferInstanceAs (Decidable (_ = _))
  | .conversationScoped _, _ => inferInstanceAs (Decidable (_ ∨ _))

/-- The stored messages of an actor that a reader may see, oldest first. -/
def visibleMessages (s : Store) (actorId : ActorId) (reader : Audience)
    : List (StoredJson Message) :=
  (s.recentMessages.filter
    (fun row => row.actorId = actorId ∧ InContext reader row.audience)).map (·.messageJson)

/-- Parses stored messages; one that does not decode fails the query. -/
def decodeMessages : List (StoredJson Message) → Except StoreError (List Message)
  | [] => .ok []
  | .malformed _ :: _ => .error .decode
  | .decoded message :: rest => do
      let messages ← decodeMessages rest
      .ok (message :: messages)

/-- `load_recent_context`: the newest `limit` messages, oldest first. -/
def loadRecentContext (actorId : ActorId) (reader : Audience) (limit : Nat) (s : Store)
    : Except StoreError (List Message) := do
  encodeAudience reader
  decodeMessages ((visibleMessages s actorId reader).reverse.take limit).reverse

/-- Only the given messages are parsed, by induction on them. -/
theorem mem_of_decodeMessages {stored : List (StoredJson Message)} {messages : List Message}
    (decoded : decodeMessages stored = .ok messages) {message : Message}
    (mem : message ∈ messages)
    : .decoded message ∈ stored := by
  induction stored generalizing messages with
  | nil =>
      cases decoded
      exact absurd mem List.not_mem_nil
  | cons head rest ih =>
      cases head with
      | malformed => cases decoded
      | decoded first =>
          simp only [decodeMessages, bind_eq_ok] at decoded
          obtain ⟨others, decodedRest, result⟩ := decoded
          cases result
          rcases List.mem_cons.mp mem with rfl | later
          · exact List.mem_cons_self
          · exact List.mem_cons_of_mem _ (ih decodedRest later)

theorem mem_of_loadRecentContext {actorId : ActorId} {reader : Audience} {limit : Nat}
    {messages : List Message} (loaded : loadRecentContext actorId reader limit s = .ok messages)
    {message : Message} (mem : message ∈ messages)
    : ∃ row ∈ s.recentMessages, row.messageJson = .decoded message ∧ row.actorId = actorId
      ∧ InContext reader row.audience := by
  simp only [loadRecentContext, bind_eq_ok] at loaded
  obtain ⟨_, -, decoded⟩ := loaded
  have stored := mem_of_decodeMessages decoded mem
  rw [List.mem_reverse] at stored
  have visible := List.mem_reverse.mp (List.mem_of_mem_take stored)
  obtain ⟨row, kept, same⟩ := List.mem_map.mp visible
  have facts := List.mem_filter.mp kept
  simp only [decide_eq_true_eq] at facts
  exact ⟨row, facts.1, same, facts.2⟩

-----------------------------------------------------------------------------------------
-- What runs say
-----------------------------------------------------------------------------------------

/-- The messages that a call stores for a run when it goes through: those of a checkpoint,
and the final ones of a finalization that is not preempted.
-/
def Call.speech (s : Store) : Call → Option (AttachedRun × List Message)
  | .checkpointRun command _ => some (command.run, command.messages)
  | .finalizeRun command _ _ =>
      if newestCompatibleInput s command.run = none then
        some (command.run, command.finalMessages)
      else
        none
  | _ => none

/-- The row of a message that a run stores. -/
def messageRow (run : AttachedRun) (message : Message) : MessageRow where
  actorId := run.lease.actorId
  workItemId := run.workItemId
  runId := run.runId
  audience := run.audience
  messageJson := .decoded message

/-- What a committed call adds to the stored messages. -/
inductive SpeechStep (call : Call) (s s' : Store) : Prop
  | silent (speech : call.speech s = none) (same : s'.recentMessages = s.recentMessages)
  | speaks {run : AttachedRun} {messages : List Message} {now : Timestamp} {row : RunRow}
      {work : WorkItemRow} (speech : call.speech s = some (run, messages))
      (valid : Validated s run now row work)
      (appended : s'.recentMessages = s.recentMessages ++ messages.map (messageRow run))

theorem attachNextRun_recentMessages {lease : ActorLease} {maxEvents : Nat} {now : Timestamp}
    {ids : FreshIds} {answer : Option AttachedRun}
    (attached : attachNextRun lease maxEvents now ids s = .ok (answer, s'))
    : s'.recentMessages = s.recentMessages := by
  have resumes : ∀ {m : Store} {row : RunRow} {work : WorkItemRow},
      resumeRun lease maxEvents row work now m = .ok (answer, s') →
        s'.recentMessages = m.recentMessages := by
    intro m row work resumed
    simp only [resumeRun, bind_eq_ok] at resumed
    obtain ⟨t, attached, _, _, rest⟩ := resumed
    obtain ⟨_, _, rfl, -⟩ := attachEvents_ok attached
    split at rest
    · cases rest
      rfl
    · split at rest <;> cases rest <;> rfl
  obtain ⟨-, -, ⟨row, work, -, -, -, resumed⟩ | ⟨-, -, -, rfl⟩ |
    ⟨row, work, m, -, opened, resumed⟩⟩ := attachNextRun_ok attached
  · exact resumes resumed
  · rfl
  · obtain ⟨m', assigned, ⟨-, none⟩ | ⟨event, work', runs, opens, some'⟩⟩ := openRun_ok opened
    · cases none
    · cases some'
      exact (resumes resumed).trans (assignUnassigned_sameExecution assigned).recentMessages

theorem incorporateEach_recentMessages {runId : RunId} {eventIds : List EventId}
    (marked : incorporateEach runId eventIds s = .ok s')
    : s'.recentMessages = s.recentMessages := by
  obtain ⟨_, rfl⟩ := incorporateEach_store marked
  rfl

theorem recoverCandidates_recentMessages (now : Timestamp)
    (candidates : List RecoveredUnknownOutcome)
    : (recoverCandidates now candidates s).2.recentMessages = s.recentMessages := by
  obtain ⟨_, _, same⟩ := recoverCandidates_store (s := s) now candidates
  rw [same]

theorem checkpointRun_speech {command : CheckpointRun} {now : Timestamp} {u : Unit}
    (stored : checkpointRun command now s = .ok (u, s'))
    : SpeechStep (.checkpointRun command now) s s' := by
  simp only [checkpointRun, incorporateEvents, insertMessages, bind_eq_ok] at stored
  obtain ⟨_, valid, m, ⟨_, _, marked⟩, t, attempts, _, ⟨_, _, appended⟩, result⟩ := stored
  obtain ⟨row, work, valid⟩ := validateRun_ok valid
  obtain ⟨_, rfl⟩ := checkpointAttempts_ok attempts
  have same := incorporateEach_recentMessages marked
  cases appended
  cases result
  refine .speaks rfl valid ?_
  rw [← same]
  rfl

theorem finalizeRun_speech {command : FinalizeRun} {now : Timestamp} {ids : FreshIds}
    {outcome : FinalizeOutcome}
    (finalized : finalizeRun command now ids s = .ok (outcome, s'))
    : SpeechStep (.finalizeRun command now ids) s s' := by
  simp only [finalizeRun, bind_eq_ok] at finalized
  obtain ⟨_, valid, rest⟩ := finalized
  obtain ⟨row, work, valid⟩ := validateRun_ok valid
  split at rest
  · rename_i newest preempted
    cases rest
    exact .silent (by simp only [Call.speech, preempted, reduceCtorEq, if_false]) rfl
  · rename_i free
    simp only [insertMessages, bind_eq_ok] at rest
    obtain ⟨_, _, m, ⟨_, _, appended⟩, _, _, ⟨_, t⟩, created, result⟩ := rest
    cases appended
    cases result
    obtain ⟨-, _, -, _, _, _, _, _, rfl⟩ := createTerminalBundles_ok created
    exact .speaks (by simp only [Call.speech, free, if_true]) valid rfl

/-- What each operation adds to the stored messages, by cases on the call. -/
theorem perform_speech {call : Call} {answer : Answer}
    (performed : call.perform s = .ok (answer, s'))
    : SpeechStep call s s' := by
  cases call <;> simp only [Call.perform, answering_eq_ok, reading_eq_ok] at performed
  case ingest =>
    obtain ⟨_, done, -⟩ := performed
    exact .silent rfl (ingest_sameExecution done).recentMessages
  case submitForActor =>
    obtain ⟨_, done, -⟩ := performed
    exact .silent rfl (submitForActor_sameExecution done).recentMessages
  case cancelForActor =>
    obtain ⟨_, done, -⟩ := performed
    exact .silent rfl (cancelForActor_sameExecution done).recentMessages
  case ingestWebhook =>
    obtain ⟨_, done, -⟩ := performed
    exact .silent rfl (ingestWebhook_sameExecution done).recentMessages
  case acquireReadyActor =>
    obtain ⟨_, done, -⟩ := performed
    obtain ⟨_, rfl⟩ := acquire_ok done
    exact .silent rfl rfl
  case acquireReadyActorFor =>
    obtain ⟨_, done, -⟩ := performed
    obtain ⟨_, rfl⟩ := acquire_ok done
    exact .silent rfl rfl
  case renewLease =>
    obtain ⟨_, done, -⟩ := performed
    obtain ⟨-, rfl⟩ := renewLease_ok done
    exact .silent rfl rfl
  case releaseLease =>
    obtain ⟨_, done, -⟩ := performed
    cases done
    exact .silent rfl rfl
  case attachNextRun =>
    obtain ⟨_, done, -⟩ := performed
    exact .silent rfl (attachNextRun_recentMessages done)
  case newerControlEvent =>
    exact .silent rfl (congrArg Store.recentMessages performed.1.symm)
  case checkpointRun =>
    obtain ⟨_, done, -⟩ := performed
    exact checkpointRun_speech done
  case finalizeRun =>
    obtain ⟨_, done, -⟩ := performed
    exact finalizeRun_speech done
  case cancelRun =>
    obtain ⟨_, done, -⟩ := performed
    obtain ⟨-, -, _, _, _, -, -, ⟨_, _, _, _, _, rfl⟩, rfl⟩ := cancelRun_ok done
    exact .silent rfl rfl
  case prepareAttempt =>
    obtain ⟨_, done, -⟩ := performed
    simp only [prepareAttempt, bind_eq_ok] at done
    obtain ⟨_, _, _, _, _, _, _, _, result⟩ := done
    cases result
    exact .silent rfl rfl
  case markAttemptRunning =>
    obtain ⟨_, done, -⟩ := performed
    obtain ⟨-, -, rfl⟩ := transitionAttempt_ok done
    exact .silent rfl rfl
  case rejectPreparedAttempt =>
    obtain ⟨_, done, -⟩ := performed
    unfold rejectPreparedAttempt at done
    split at done
    · cases done
    · obtain ⟨-, -, rfl⟩ := transitionAttempt_ok done
      exact .silent rfl rfl
  case finishAttempt =>
    obtain ⟨_, done, -⟩ := performed
    obtain ⟨-, -, rfl⟩ := transitionAttempt_ok done
    exact .silent rfl rfl
  case recoverAttempt =>
    obtain ⟨_, done, -⟩ := performed
    obtain ⟨_, rfl⟩ := recoverAttempt_ok done
    exact .silent rfl rfl
  case blockUnknownAttempt =>
    obtain ⟨_, done, -⟩ := performed
    simp only [blockUnknownAttempt, bind_eq_ok] at done
    obtain ⟨_, _, _, _, result⟩ := done
    cases result
    exact .silent rfl rfl
  case unresolvedAttempts =>
    exact .silent rfl (congrArg Store.recentMessages performed.1.symm)
  case beginStaging =>
    obtain ⟨_, done, -⟩ := performed
    simp only [beginStaging, bind_eq_ok] at done
    obtain ⟨_, _, _, _, _, _, result⟩ := done
    cases result
    exact .silent rfl rfl
  case commitStagedExecution =>
    obtain ⟨_, done, -⟩ := performed
    obtain ⟨-, -, _, _, rfl⟩ := commitStagedExecution_ok done
    exact .silent rfl rfl
  case recordFailure =>
    obtain ⟨_, done, -⟩ := performed
    obtain ⟨row, work, -, -, -, ⟨-, -, rfl⟩ | ⟨-, -, fails⟩⟩ := recordFailure_ok done
    · exact .silent rfl rfl
    · obtain ⟨_, _, _, -, -, ⟨_, _, _, _, _, rfl⟩, rfl⟩ := fails
      exact .silent rfl rfl
  case recordProgress =>
    obtain ⟨_, done, -⟩ := performed
    simp only [recordProgress, bind_eq_ok] at done
    obtain ⟨_, _, result⟩ := done
    cases result
    exact .silent rfl rfl
  case deliverBundle step =>
    obtain ⟨_, done, -⟩ := performed
    obtain ⟨_, rfl, -⟩ := step.perform_ok done
    exact .silent rfl rfl
  case recoverStartup now =>
    obtain ⟨_, done, -⟩ := performed
    cases done
    exact .silent rfl (recoverCandidates_recentMessages now (recoveryCandidates s now))
  case recoverShutdown =>
    obtain ⟨_, done, -⟩ := performed
    cases done
    exact .silent rfl rfl

-----------------------------------------------------------------------------------------
-- Labels
-----------------------------------------------------------------------------------------

/-- Every stored message carries actor, work item and audience of a run that was handed out.
-/
def Labelled (w : World) : Prop :=
  ∀ row ∈ w.store.recentMessages, ∃ run ∈ w.issued, row.actorId = run.lease.actorId
    ∧ row.workItemId = run.workItemId ∧ row.runId = run.runId ∧ row.audience = run.audience

/-- Whoever speaks holds the run. -/
theorem World.Admissible.holds_of_speech {w : World} {call : Call}
    (admissible : w.Admissible call) {run : AttachedRun} {messages : List Message}
    (speech : call.speech w.store = some (run, messages))
    : w.Holds run := by
  cases call <;> simp only [Call.speech, reduceCtorEq] at speech
  case checkpointRun =>
    cases speech
    exact admissible
  case finalizeRun =>
    split at speech
    · cases speech
      exact admissible
    · cases speech

theorem reachable_labelled {w : World} (reached : runtime.Reachable w) : Labelled w := by
  induction reached with
  | initial start =>
      obtain ⟨_, _, rfl⟩ := start
      exact fun row mem => absurd mem List.not_mem_nil
  | @step w call w' before taken labelled =>
      obtain ⟨admissible, rfl⟩ := taken
      rcases w.after_cases call with same | ⟨answer, s, performed, committed⟩
      · rwa [same]
      · intro row mem
        rw [committed, World.commit_issued w performed]
        rw [committed, World.commit_store] at mem
        have old : row ∈ w.store.recentMessages → ∃ run ∈ answer.issues ++ w.issued,
            row.actorId = run.lease.actorId ∧ row.workItemId = run.workItemId
              ∧ row.runId = run.runId ∧ row.audience = run.audience := by
          intro mem
          obtain ⟨run, issued, labels⟩ := labelled row mem
          exact ⟨run, List.mem_append_right _ issued, labels⟩
        cases perform_speech performed with
        | silent _ same => exact old (same ▸ mem)
        | @speaks run messages now _ _ speech valid appended =>
            rw [appended] at mem
            rcases List.mem_append.mp mem with kept | new
            · exact old kept
            · obtain ⟨message, -, rfl⟩ := List.mem_map.mp new
              obtain ⟨issued, handed, same⟩ := admissible.holds_of_speech speech
              refine ⟨issued, List.mem_append_right _ handed, ?_⟩
              rw [same]
              exact ⟨rfl, rfl, rfl, rfl⟩

/-- The message was stored for a run of a work item of the actor that the reader may see, and
all events attached to that run are the actor's and have the audience of the work item.
-/
def StemsFromVisible (s : Store) (actorId : ActorId) (reader : Audience) (message : Message)
    : Prop :=
  ∃ row ∈ s.recentMessages, row.messageJson = .decoded message ∧ row.actorId = actorId
    ∧ ∃ run ∈ s.runs, run.id = row.runId ∧ run.actorId = actorId
      ∧ ∃ work ∈ s.workItems, work.id = run.workItemId ∧ work.id = row.workItemId
        ∧ work.actorId = actorId ∧ InContext reader work.audience
        ∧ ∀ event ∈ s.events, Attached s run.id event.id →
          event.workItemId = some work.id ∧ event.actorId = actorId
            ∧ event.audience = work.audience

/-- An attached event belongs to the work item of its run. -/
theorem WellFormed.attachedWork {issued : List AttachedRun} (wf : WellFormed issued s)
    {run : RunRow} {event : EventRow} {work : WorkItemRow} (runStored : run ∈ s.runs)
    (eventStored : event ∈ s.events) (attached : Attached s run.id event.id)
    (workStored : work ∈ s.workItems) (workId : work.id = run.workItemId)
    : event.workItemId = some work.id ∧ event.actorId = work.actorId
      ∧ event.audience = work.audience := by
  obtain ⟨link, linked, ofRun, ofEvent⟩ := attached
  obtain ⟨run', runStored', runId, event', eventStored', eventId, -, -, ofWork, -⟩ :=
    wf.rowRun link linked
  have sameRun : run' = run :=
    Table.eq_of_clash runStored' runStored (Or.inl (runId.trans ofRun))
  have sameEvent : event' = event :=
    Table.eq_of_clash eventStored' eventStored (Or.inl (eventId.trans ofEvent))
  subst sameRun sameEvent
  obtain ⟨work', workStored', workId', actor, audience⟩ :=
    wf.eventWork event' eventStored _ ofWork
  have sameWork : work' = work :=
    Table.eq_of_clash workStored' workStored (workId'.trans workId.symm)
  subst sameWork
  exact ⟨workId ▸ ofWork, actor.symm, audience.symm⟩

theorem stemsFromVisible_of_load {w : World} (reached : runtime.Reachable w)
    {actorId : ActorId} {reader : Audience} {limit : Nat} {messages : List Message}
    (loaded : loadRecentContext actorId reader limit w.store = .ok messages)
    {message : Message} (mem : message ∈ messages)
    : StemsFromVisible w.store actorId reader message := by
  have wf := reachable_wellFormed reached
  obtain ⟨row, stored, decoded, own, visible⟩ := mem_of_loadRecentContext loaded mem
  obtain ⟨handed, issued, sameActor, sameWork, sameRun, sameAudience⟩ :=
    reachable_labelled reached row stored
  obtain ⟨run, runStored, runId, runWork, runActor, -⟩ := wf.issuedRun handed issued
  obtain ⟨work, workStored, workId, workActor, audience⟩ := wf.issuedAudience handed issued
  have workOfRun : work.id = run.workItemId := workId.trans runWork.symm
  have actor : work.actorId = actorId := workActor.trans (sameActor.symm.trans own)
  refine ⟨row, stored, decoded, own, run, runStored, runId.trans sameRun.symm,
    runActor.trans (sameActor.symm.trans own), work, workStored, workOfRun,
    workId.trans sameWork.symm, actor, ?_, fun event eventStored attached => ?_⟩
  · rw [audience, ← sameAudience]
    exact visible
  · have facts := wf.attachedWork runStored eventStored attached workStored workOfRun
    exact ⟨facts.1, facts.2.1.trans actor, facts.2.2⟩

-----------------------------------------------------------------------------------------
-- Two histories
-----------------------------------------------------------------------------------------

/-- The run belongs to a work item of the actor that the reader may see. -/
def VisibleRun (s : Store) (actorId : ActorId) (reader : Audience) (runId : RunId) : Prop :=
  ∃ row ∈ s.runs, row.id = runId ∧ ∃ work ∈ s.workItems, work.id = row.workItemId
    ∧ work.actorId = actorId ∧ InContext reader work.audience

instance (s : Store) (actorId : ActorId) (reader : Audience) (runId : RunId)
    : Decidable (VisibleRun s actorId reader runId) :=
  inferInstanceAs (Decidable (∃ row ∈ s.runs, _))

/-- The messages that a call stores for runs the reader may see. -/
def overheard (actorId : ActorId) (reader : Audience) (w : World) (call : Call) (_after : World)
    : List Message :=
  match call.speech w.store with
  | some (run, messages) =>
      if (call.perform w.store).isOk ∧ VisibleRun w.store actorId reader run.runId then
        messages
      else
        []
  | none => []

/-- A run that passes validation is visible just when its label is. -/
theorem Validated.visible_iff {issued : List AttachedRun} (wf : WellFormed issued s)
    {run : AttachedRun} {now : Timestamp} {row : RunRow} {work : WorkItemRow}
    (valid : Validated s run now row work) (actorId : ActorId) (reader : Audience)
    : VisibleRun s actorId reader run.runId
      ↔ run.lease.actorId = actorId ∧ InContext reader run.audience := by
  obtain ⟨owner, ownerStored, ownerId, ownerActor, -⟩ := wf.runWork row valid.runStored
  have sameWork : owner = work :=
    Table.eq_of_clash ownerStored valid.workStored (ownerId.trans valid.workId.symm)
  subst sameWork
  have actor : owner.actorId = run.lease.actorId := ownerActor.trans valid.matching.1
  have audience : owner.audience = run.audience := valid.matching.2.2.2.1
  constructor
  · intro visible
    obtain ⟨row', stored', sameId, work', workStored', workId', own, inContext⟩ := visible
    have sameRow : row' = row :=
      Table.eq_of_clash stored' valid.runStored (Or.inl (sameId.trans valid.runId.symm))
    subst sameRow
    have sameWork : work' = owner :=
      Table.eq_of_clash workStored' valid.workStored (workId'.trans valid.workId.symm)
    subst sameWork
    exact ⟨actor.symm.trans own, audience ▸ inContext⟩
  · intro labels
    exact ⟨row, valid.runStored, valid.runId, owner, valid.workStored, valid.workId,
      actor.trans labels.1, audience.symm ▸ labels.2⟩

/-- A call adds to the visible messages what is overheard of it. -/
theorem visibleMessages_after {w : World} (reached : runtime.Reachable w) (call : Call)
    (actorId : ActorId) (reader : Audience)
    : visibleMessages (w.after call).store actorId reader
      = visibleMessages w.store actorId reader
        ++ (overheard actorId reader w call (w.after call)).map .decoded := by
  cases performed : call.perform w.store with
  | error error =>
      have same : w.after call = w := by simp only [World.after, performed]
      have silent : overheard actorId reader w call w = [] := by
        unfold overheard
        split
        · simp [performed, Except.isOk, Except.toBool]
        · rfl
      rw [same, silent, List.map_nil, List.append_nil]
  | ok committed =>
      obtain ⟨answer, s⟩ := committed
      have after : (w.after call).store = s := by simp only [World.after, performed,
        World.commit_store]
      rw [after]
      cases perform_speech performed with
      | silent speech same =>
          have silent : overheard actorId reader w call (w.after call) = [] := by
            simp only [overheard, speech]
          rw [silent, List.map_nil, List.append_nil]
          simp only [visibleMessages, same]
      | @speaks run messages now row work speech valid appended =>
          have visible := valid.visible_iff (reachable_wellFormed reached) actorId reader
          have isOk : (call.perform w.store).isOk = true := by rw [performed]; rfl
          simp only [visibleMessages, appended, List.filter_append, List.map_append, overheard,
            speech, isOk, true_and, visible]
          congr 1
          by_cases labels : run.lease.actorId = actorId ∧ InContext reader run.audience
          · rw [if_pos labels, List.filter_eq_self.mpr, List.map_map]
            · rfl
            · intro row mem
              obtain ⟨message, -, rfl⟩ := List.mem_map.mp mem
              exact decide_eq_true labels
          · rw [if_neg labels, List.filter_eq_nil_iff.mpr]
            · rfl
            · intro row mem
              obtain ⟨message, -, rfl⟩ := List.mem_map.mp mem
              exact fun hit => labels (of_decide_eq_true hit)

/-- The context holds what was overheard, by induction on the history. -/
theorem visibleMessages_recorded {actorId : ActorId} {reader : Audience}
    {state : World × List Message}
    (recorded : (runtime.recording (overheard actorId reader)).Reachable state)
    : visibleMessages state.1.store actorId reader = state.2.map .decoded := by
  induction recorded with
  | initial start =>
      obtain ⟨⟨_, _, initial⟩, none⟩ := start
      rw [initial, none]
      rfl
  | @step before call after reached taken ih =>
      obtain ⟨⟨-, moved⟩, grown⟩ := taken
      rw [grown, moved, visibleMessages_after reached.of_recording call, ih, List.map_append]

-----------------------------------------------------------------------------------------
-- Confidentiality
-----------------------------------------------------------------------------------------

/-- Every value of a successful `mapM` comes from an element, by induction on the list. -/
theorem mem_of_mapM_ok {ε α β : Type} {f : α → Except ε β} {xs : List α} {ys : List β}
    (mapped : xs.mapM f = .ok ys) {y : β} (mem : y ∈ ys)
    : ∃ x ∈ xs, f x = .ok y := by
  induction xs generalizing ys with
  | nil =>
      cases mapped
      exact absurd mem List.not_mem_nil
  | cons x rest ih =>
      rw [List.mapM_cons, bind_eq_ok] at mapped
      obtain ⟨first, atFirst, others⟩ := mapped
      obtain ⟨tail, mappedTail, result⟩ := bind_eq_ok.mp others
      cases result
      rcases List.mem_cons.mp mem with rfl | later
      · exact ⟨x, List.mem_cons_self, atFirst⟩
      · obtain ⟨z, zMem, same⟩ := ih mappedTail later
        exact ⟨z, List.mem_cons_of_mem _ zMem, same⟩

/-- The message decodes an event attached to the run, and the event has the actor, the work
item and the audience of the run.
-/
def StemsFromEvent (s : Store) (run : AttachedRun) (message : Message) : Prop :=
  ∃ event ∈ s.events, Attached s run.runId event.id
    ∧ eventMessage event.payloadJson = .ok message
    ∧ event.workItemId = some run.workItemId ∧ event.actorId = run.lease.actorId
    ∧ event.audience = run.audience

/-- `attach_next_run` hands out messages of the run's own events only. -/
theorem attachNextRun_stemsFromEvent {issued : List AttachedRun} (wf : WellFormed issued s)
    {lease : ActorLease} {maxEvents : Nat} {now : Timestamp} {ids : FreshIds}
    {run : AttachedRun} (attached : attachNextRun lease maxEvents now ids s = .ok (some run, s'))
    {message : Message} (mem : message ∈ run.messages)
    : StemsFromEvent s' run message := by
  have wf' : WellFormed (run :: issued) s' := attachNextRun_wellFormed wf attached
  have resumes : ∀ {m : Store} {row : RunRow} {work : WorkItemRow},
      row.actorId = lease.actorId →
      resumeRun lease maxEvents row work now m = .ok (some run, s') →
        ∃ event ∈ s'.events, Attached s' run.runId event.id
          ∧ eventMessage event.payloadJson = .ok message := by
    intro m row work actor resumed
    obtain ⟨t, -, ⟨none, -⟩ | ⟨run', same, reflects, rfl⟩⟩ := resumeRun_ok actor resumed
    · cases none
    · cases same
      obtain ⟨event, loaded, decoded⟩ := mem_of_mapM_ok reflects.messages mem
      obtain ⟨stored, attached⟩ := mem_loadRunEvents.mp (List.mem_of_mem_filter loaded)
      rw [← reflects.runId] at attached
      exact ⟨event, stored, attached, decoded⟩
  obtain ⟨event, stored, linked, decoded⟩ : ∃ event ∈ s'.events,
      Attached s' run.runId event.id ∧ eventMessage event.payloadJson = .ok message := by
    obtain ⟨-, -, ⟨row, work, due, -, -, resumed⟩ | ⟨-, -, none, -⟩ |
      ⟨row, work, m, -, opened, resumed⟩⟩ := attachNextRun_ok attached
    · exact resumes (dueActiveRun_some due).2.1 resumed
    · cases none
    · obtain ⟨m', -, ⟨-, none⟩ | ⟨_, _, _, -, some'⟩⟩ := openRun_ok opened
      · cases none
      · cases some'
        exact resumes rfl resumed
  obtain ⟨row, runStored, runId, runWork, -⟩ := wf'.issuedRun run List.mem_cons_self
  obtain ⟨work, workStored, workId, workActor, audience⟩ :=
    wf'.issuedAudience run List.mem_cons_self
  have facts := wf'.attachedWork runStored stored (runId.symm ▸ linked) workStored
    (workId.trans runWork.symm)
  exact ⟨event, stored, linked, decoded, by rw [facts.1, workId], facts.2.1.trans workActor,
    facts.2.2.trans audience⟩

/-- Whatever an actor's context hands to a reader stems from runs of the actor's work items
that the reader may see, and the messages handed to a run from events of its audience; and two
histories in which the visible runs store the same messages give the reader the same context,
whatever else happens in them.
-/
theorem context_is_confidential {actorId : ActorId} {reader : Audience} {w w' : World}
    {log log' : List Message}
    (recorded : (runtime.recording (overheard actorId reader)).Reachable (w, log))
    (recorded' : (runtime.recording (overheard actorId reader)).Reachable (w', log'))
    : (∀ limit messages, loadRecentContext actorId reader limit w.store = .ok messages →
        ∀ message ∈ messages, StemsFromVisible w.store actorId reader message)
      ∧ (∀ lease maxEvents now ids run s,
        attachNextRun lease maxEvents now ids w.store = .ok (some run, s) →
          ∀ message ∈ run.messages, StemsFromEvent s run message)
      ∧ (log = log' → ∀ limit, loadRecentContext actorId reader limit w.store
        = loadRecentContext actorId reader limit w'.store) := by
  have reached : runtime.Reachable w := recorded.of_recording
  refine ⟨?_, ?_, ?_⟩
  · intro limit messages loaded message mem
    exact stemsFromVisible_of_load reached loaded mem
  · intro lease maxEvents now ids run s attached message mem
    exact attachNextRun_stemsFromEvent (reachable_wellFormed reached) attached mem
  · intro same limit
    have visible := visibleMessages_recorded recorded
    have visible' := visibleMessages_recorded recorded'
    simp only at visible visible'
    simp only [loadRecentContext, visible, visible', same]

namespace Eavesdropping

/-- An actor with a chat identity. -/
def start : World :=
  World.initial World.single.store.actors
    ((∅ : Table IdentityRow).insertOrIgnore ⟨"telegram", "42", localActor⟩)

def room : Audience := .conversationScoped "room"

/-- A message in a group chat. -/
def message : NewInboundEvent where
  gateway := "telegram"
  externalId := .remote "1"
  identityProvider := "telegram"
  identitySubject := "42"
  kind := .userMessage
  audience := room
  deliveryRoute := none
  executionPolicy := .actorTools
  recordLatestTelegramRoute := false
  payloadJson := .decoded (.text (some "hello"))

def lease : ActorLease := ⟨localActor, "daemon", 1, 100000⟩

def run (id sequence : Nat) (audience : Audience) (requestIds : List RequestId) (text : String)
    : AttachedRun where
  runId := ⟨id⟩
  workItemId := ⟨sequence⟩
  lease := lease
  audience := audience
  sourceEventIds := [⟨sequence⟩]
  requestIds := requestIds
  messages := [.user (textParts text)]
  observedSequence := sequence
  deliveryRoute := none
  executionPolicy := .actorTools
  ingressSource := none

/-- The group message is put into the transcript. -/
def spoken : List Call :=
  [.ingest message 10 (.numbered 1),
    .acquireReadyActor "daemon" 20 100000,
    .attachNextRun lease 8 30 (.numbered 3),
    .checkpointRun ⟨run 3 1 room [] "hello", [⟨1⟩], [], [.user (textParts "hello")]⟩ 40]

/-- The same after a private request, which is put into the transcript first. -/
def confided : List Call :=
  [.submitForActor localActor ⟨⟨1⟩, "secret", "sha"⟩ 5 (.numbered 1),
    .ingest message 10 (.numbered 2),
    .acquireReadyActor "daemon" 20 100000,
    .attachNextRun lease 8 30 (.numbered 4),
    .checkpointRun ⟨run 4 1 .actorPrivate [⟨1⟩] "secret", [⟨1⟩], [],
      [.user (textParts "secret")]⟩ 40,
    .finalizeRun ⟨run 4 1 .actorPrivate [⟨1⟩] "secret", [⟨1⟩], [.assistant "noted"], []⟩ 50
      (.numbered 6),
    .attachNextRun lease 8 60 (.numbered 7),
    .checkpointRun ⟨run 7 2 room [] "hello", [⟨2⟩], [], [.user (textParts "hello")]⟩ 70]

theorem recorded {calls : List Call} (lawful : start.Lawful calls)
    (keeps : start.Keeps (fun _ _ => True) calls)
    : (runtime.recording (overheard localActor room)).Reachable
      (start.play calls, start.shown (overheard localActor room) calls) :=
  (recorded_play (.initial ⟨⟨_, _, rfl⟩, rfl⟩) lawful keeps).recording_of_restrict

end Eavesdropping

/-- The private request leaves no trace in the context of the group. -/
theorem context_is_confidential_eavesdropping
    : Eavesdropping.start.shown (overheard localActor Eavesdropping.room) Eavesdropping.confided
        = [.user (textParts "hello")]
      ∧ ∀ limit, loadRecentContext localActor Eavesdropping.room limit
          (Eavesdropping.start.play Eavesdropping.confided).store
        = loadRecentContext localActor Eavesdropping.room limit
          (Eavesdropping.start.play Eavesdropping.spoken).store :=
  ⟨by decide +kernel,
    (context_is_confidential (Eavesdropping.recorded (by decide +kernel) (by decide +kernel))
      (Eavesdropping.recorded (by decide +kernel) (by decide +kernel))).2.2 (by decide +kernel)⟩

end Codrik.Runtime.Sqlite
