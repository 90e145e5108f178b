import Codrik.Collections.SortedMap
import Codrik.Runtime.Message
import Mathlib.Data.Prod.Lex

/-! Responses of the model and their streaming (`llm/openai.rs`). -/

namespace Codrik.Llm

open Codrik.Collections
open Codrik.Runtime (LlmToolCall)

-----------------------------------------------------------------------------------------
-- Responses
-----------------------------------------------------------------------------------------

structure FunctionToolCall where
  callId : String
  name : String
  arguments : String
deriving DecidableEq

inductive OutputMessageContent
  | outputText (text : String)
  | refusal (refusal : String)
deriving DecidableEq

/-- The items of an output; those the client does not look at are one. -/
inductive OutputItem
  | message (content : List OutputMessageContent)
  | functionCall (functionCall : FunctionToolCall)
  | other
deriving DecidableEq

inductive Status
  | completed | failed | inProgress | cancelled | queued | incomplete
deriving DecidableEq

def Status.debug : Status → String
  | .completed => "Completed"
  | .failed => "Failed"
  | .inProgress => "InProgress"
  | .cancelled => "Cancelled"
  | .queued => "Queued"
  | .incomplete => "Incomplete"

structure Response where
  status : Status
  output : List OutputItem
deriving DecidableEq

structure LlmResponse where
  content : String
  toolCalls : List LlmToolCall
deriving DecidableEq

/-- The tool call of an output item. -/
def FunctionToolCall.toToolCall (functionCall : FunctionToolCall) : LlmToolCall :=
  ⟨functionCall.callId, functionCall.name, functionCall.arguments⟩

/-- The loop over the parts of a message. -/
def pushText (content : String) (part : OutputMessageContent) : String :=
  match part with
  | .outputText text => content ++ text
  | .refusal _ => content

/-- The loop over the output. -/
def pushItem (response : LlmResponse) (item : OutputItem) : LlmResponse :=
  match item with
  | .message content => { response with content := content.foldl pushText response.content }
  | .functionCall functionCall =>
      { response with toolCalls := response.toolCalls ++ [functionCall.toToolCall] }
  | .other => response

/-- `to_llm_response` -/
def toLlmResponse (response : Response) : Except String LlmResponse :=
  if response.status ≠ .completed then
    .error s!"OpenAI response ended with status {response.status.debug}"
  else
    .ok (response.output.foldl pushItem ⟨"", []⟩)

-----------------------------------------------------------------------------------------
-- Streaming
-----------------------------------------------------------------------------------------

/-- The events of a stream; `failed`, `incomplete` and `error` carry the text of their cause. -/
inductive ResponseStreamEvent
  | responseOutputTextDelta (outputIndex contentIndex : Nat) (delta : String)
  | responseOutputTextDone (outputIndex contentIndex : Nat) (text : String)
  | responseOutputItemAdded (outputIndex : Nat) (item : OutputItem)
  | responseFunctionCallArgumentsDelta (outputIndex : Nat) (delta : String)
  | responseFunctionCallArgumentsDone (outputIndex : Nat) (name : Option String)
      (arguments : String)
  | responseOutputItemDone (outputIndex : Nat) (item : OutputItem)
  | responseCompleted (response : Response)
  | responseFailed (error : String)
  | responseIncomplete (details : String)
  | responseError (message : String)
  | other
deriving DecidableEq

structure LlmToolCallDelta where
  index : Nat
  id : Option String
  name : Option String
  arguments : Option String
deriving DecidableEq

/-- What the sink of a stream is told. -/
inductive LlmStreamEvent
  | textDelta (delta : String)
  | toolCallDelta (delta : LlmToolCallDelta)
deriving DecidableEq

structure StreamAccumulator where
  completed : Option Response
  text : SortedMap (Nat ×ₗ Nat) String
  toolCalls : SortedMap Nat LlmToolCall

/-- `StreamAccumulator::default` -/
def StreamAccumulator.default : StreamAccumulator := ⟨none, .empty, .empty⟩

/-- The call that stands for one whose item has not been seen. -/
def blankCall : LlmToolCall := ⟨"", "", ""⟩

/-- `StreamAccumulator::push`, with the events for the sink. -/
def StreamAccumulator.push (acc : StreamAccumulator)
    : ResponseStreamEvent → Except String (StreamAccumulator × List LlmStreamEvent)
  | .responseOutputTextDelta outputIndex contentIndex delta =>
      if delta = "" then
        .ok (acc, [])
      else
        let key := toLex (outputIndex, contentIndex)
        .ok ({ acc with text := acc.text.insert key ((acc.text.find? key).getD "" ++ delta) },
          [.textDelta delta])
  | .responseOutputTextDone outputIndex contentIndex text =>
      .ok ({ acc with text := acc.text.insert (toLex (outputIndex, contentIndex)) text }, [])
  | .responseOutputItemAdded outputIndex (.functionCall functionCall) =>
      .ok ({ acc with toolCalls := acc.toolCalls.insert outputIndex functionCall.toToolCall },
        [.toolCallDelta ⟨outputIndex, some functionCall.callId, some functionCall.name, none⟩])
  | .responseFunctionCallArgumentsDelta outputIndex delta =>
      if delta = "" then
        .ok (acc, [])
      else
        let toolCall := (acc.toolCalls.find? outputIndex).getD blankCall
        .ok ({ acc with
            toolCalls := acc.toolCalls.insert outputIndex
              { toolCall with arguments := toolCall.arguments ++ delta } },
          [.toolCallDelta ⟨outputIndex, none, none, some delta⟩])
  | .responseFunctionCallArgumentsDone outputIndex name arguments =>
      let toolCall := (acc.toolCalls.find? outputIndex).getD blankCall
      .ok ({ acc with
          toolCalls := acc.toolCalls.insert outputIndex
            { toolCall with name := name.getD toolCall.name, arguments := arguments } }, [])
  | .responseOutputItemDone outputIndex (.functionCall functionCall) =>
      .ok ({ acc with toolCalls := acc.toolCalls.insert outputIndex functionCall.toToolCall },
        [])
  | .responseCompleted response => .ok ({ acc with completed := some response }, [])
  | .responseFailed error => .error s!"OpenAI Responses stream failed: {error}"
  | .responseIncomplete details =>
      .error s!"OpenAI Responses stream was incomplete: {details}"
  | .responseError message => .error s!"OpenAI Responses stream error: {message}"
  | _ => .ok (acc, [])

/-- `StreamAccumulator::into_response` -/
def StreamAccumulator.intoResponse (acc : StreamAccumulator) : Except String LlmResponse :=
  match acc.completed with
  | none => .error "OpenAI Responses stream ended before response.completed"
  | some completed => do
      let response ← toLlmResponse completed
      let fallback := String.join acc.text.values
      let response :=
        if response.content = "" ∧ fallback ≠ "" then { response with content := fallback }
        else response
      .ok (if response.toolCalls = [] then { response with toolCalls := acc.toolCalls.values }
        else response)

/-- The loop of `collect_stream_response`, with what the sink was told. -/
def StreamAccumulator.pushAll (acc : StreamAccumulator)
    : List ResponseStreamEvent → Except String (StreamAccumulator × List LlmStreamEvent)
  | [] => .ok (acc, [])
  | event :: rest => do
      let (acc, told) ← acc.push event
      let (acc, later) ← acc.pushAll rest
      .ok (acc, told ++ later)

/-- `collect_stream_response` on the events of a stream that is not cancelled, with a sink that
takes all it is told.
-/
def collectStreamResponse (events : List ResponseStreamEvent) : Except String LlmResponse := do
  let (acc, _) ← StreamAccumulator.default.pushAll events
  acc.intoResponse

end Codrik.Llm
