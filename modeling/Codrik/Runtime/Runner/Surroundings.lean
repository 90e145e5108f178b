import Codrik.Interaction.Program
import Codrik.Runtime.Sqlite.Context

/-! What a runner asks of its surroundings: the store, the clock, the model, the tools, the
artifact directory and the tasks that run beside it (`runtime/runner.rs`, `llm/client.rs`,
`agent/tool.rs`).
-/

namespace Codrik.Runtime.Runner

open Codrik.Interaction
open Codrik.Runtime.Sqlite

-----------------------------------------------------------------------------------------
-- Model and tools
-----------------------------------------------------------------------------------------

/-- `Tool`, as far as the runner reads it. -/
structure Tool where
  name : String
  description : String
deriving DecidableEq, Repr

structure LlmRequest where
  messages : List Message
  tools : List Tool
deriving DecidableEq

structure LlmResponse where
  content : String
  toolCalls : List LlmToolCall
deriving DecidableEq, Repr

structure ToolCallContext where
  attemptId : AttemptId
  authorizedTools : List String
deriving DecidableEq, Repr

/-- What the artifact directory holds of a tool execution before it is committed: the durable
execution, the staging leases of its artifacts, and the files that are found on disk.
-/
structure StagedExecution where
  execution : DurableToolExecution
  leases : List ArtifactLease
  files : String → Except String FileMetadata

/-- Why the select loop of `await_execution` goes on: the wall-time limit has passed, the
heartbeat reported an error, the execution has a result, the actor was signalled, or its
signal channel is gone.
-/
inductive Wake (α : Type)
  | deadline
  | heartbeat
  | finished (result : α)
  | signalled
  | closed

-----------------------------------------------------------------------------------------
-- Operations
-----------------------------------------------------------------------------------------

/-- The errors of a store operation: it was refused, or the database itself failed.
`recognized` says whether `is_authority_failure` counts the failure.
-/
inductive CallError
  | refused (error : StoreError)
  | database (recognized : Bool) (text : String)

/-- The operations of a runner. `call` names the run that is held when the store is called;
the store does not see it. `heartbeat` reads the watch channels of the heartbeat task,
`patience` is how often an execution is woken up in vain, and `forever` never returns.
-/
inductive Op
  | call (held : Option AttachedRun) (call : Call)
  | recentContext (actorId : ActorId) (reader : Audience) (limit : Nat)
  | now
  | fresh
  | attemptId
  | outboxId
  | heartbeat
  | deadline
  | patience
  | forever
  | stream (request : LlmRequest)
  | execute (name arguments : String) (context : ToolCallContext)
  | stage (run : AttachedRun) (attempt : AttemptId) (execution : ToolExecution)

/-- The answers of the operations. -/
abbrev Op.Answer : Op → Type
  | .call _ _ => Except CallError Sqlite.Answer
  | .recentContext _ _ _ => Except CallError (List Message)
  | .now => Timestamp
  | .fresh => FreshIds
  | .attemptId => AttemptId
  | .outboxId => OutboxId
  | .heartbeat => Except String Timestamp
  | .deadline => Bool
  | .patience => Nat
  | .forever => Empty
  | .stream _ => Wake (Except String LlmResponse)
  | .execute _ _ _ => Wake (Except String ToolExecution)
  | .stage _ _ _ => Except String StagedExecution

/-- The interface of the runner. -/
abbrev Ops : Interface := ⟨Op, Op.Answer⟩

/-- An answer of the store to a query that changes nothing, or a failure of the database. -/
def Reads {α : Type} (result : Except StoreError α) : Except CallError α → Prop
  | .ok value => result = .ok value
  | .error (.refused error) => result = .error error
  | .error (.database _ _) => True

/-- How an operation is answered and what it does to the world. A store call commits, or is
refused, or fails in the database, and only in the first case changes anything. Everything
else is up to the surroundings.
-/
def Answers (w : World) : (op : Op) → op.Answer → World → Prop
  | .call _ call, .ok answer, w' =>
      ∃ s, call.perform w.store = .ok (answer, s) ∧ w' = w.commit call answer s
  | .call _ call, .error (.refused error), w' => call.perform w.store = .error error ∧ w' = w
  | .call _ _, .error (.database _ _), w' => w' = w
  | .recentContext actorId reader limit, answer, w' =>
      Reads (loadRecentContext actorId reader limit w.store) answer ∧ w' = w
  | .now, _, w' => w' = w
  | .fresh, _, w' => w' = w
  | .attemptId, _, w' => w' = w
  | .outboxId, _, w' => w' = w
  | .heartbeat, _, w' => w' = w
  | .deadline, _, w' => w' = w
  | .patience, _, w' => w' = w
  | .forever, _, w' => w' = w
  | .stream _, _, w' => w' = w
  | .execute _ _ _, _, w' => w' = w
  | .stage _ _ _, _, w' => w' = w

end Codrik.Runtime.Runner
