import Codrik.Llm.OpenAi

/-! A streamed response is the response that would have been read whole: whatever the completed
response lacks is put together from the events before it.
-/

namespace Codrik.Llm

open Codrik.Collections
open Codrik.Runtime (LlmToolCall)

-----------------------------------------------------------------------------------------
-- Whole responses
-----------------------------------------------------------------------------------------

def OutputMessageContent.text? : OutputMessageContent → Option String
  | .outputText text => some text
  | .refusal _ => none

def OutputItem.content : OutputItem → List OutputMessageContent
  | .message content => content
  | _ => []

def OutputItem.toolCall? : OutputItem → Option LlmToolCall
  | .functionCall call => some call.toToolCall
  | _ => none

/-- The texts of an output, in order. -/
def texts (output : List OutputItem) : List String :=
  output.flatMap (fun item => item.content.filterMap OutputMessageContent.text?)

/-- The calls of an output, in order. -/
def calls (output : List OutputItem) : List LlmToolCall :=
  output.filterMap OutputItem.toolCall?

/-- The parts of a message are appended one after the other, by induction on them. -/
theorem foldl_pushText (content : String) (parts : List OutputMessageContent)
    : parts.foldl pushText content
      = content ++ String.join (parts.filterMap OutputMessageContent.text?) := by
  induction parts generalizing content with
  | nil => simp
  | cons part rest ih =>
      rw [List.foldl_cons, ih]
      cases part with
      | outputText text => simp [pushText, OutputMessageContent.text?, String.append_assoc]
      | refusal => simp [pushText, OutputMessageContent.text?, List.filterMap_cons]

/-- The items of an output are appended one after the other, by induction on them. -/
theorem foldl_pushItem (response : LlmResponse) (output : List OutputItem)
    : output.foldl pushItem response
      = ⟨response.content ++ String.join (texts output), response.toolCalls ++ calls output⟩ := by
  induction output generalizing response with
  | nil => simp [texts, calls]
  | cons item rest ih =>
      rw [List.foldl_cons, ih]
      cases item with
      | message content =>
          simp [pushItem, texts, calls, foldl_pushText, OutputItem.content, OutputItem.toolCall?,
            List.filterMap_cons, String.append_assoc]
      | functionCall call =>
          simp [pushItem, texts, calls, OutputItem.content, OutputItem.toolCall?]
      | other =>
          simp [pushItem, texts, calls, OutputItem.content, OutputItem.toolCall?,
            List.filterMap_cons]

theorem toLlmResponse_eq (response : Response)
    : toLlmResponse response
      = if response.status ≠ .completed then
          .error s!"OpenAI response ended with status {response.status.debug}"
        else .ok ⟨String.join (texts response.output), calls response.output⟩ := by
  rw [toLlmResponse, foldl_pushItem]
  simp

-----------------------------------------------------------------------------------------
-- Places
-----------------------------------------------------------------------------------------

/-- The text part at a place of an output. -/
def textAt (output : List OutputItem) (key : Nat ×ₗ Nat) : Option String :=
  ((output[(ofLex key).1]?.map OutputItem.content).getD [])[(ofLex key).2]?.bind
    OutputMessageContent.text?

/-- The call at a place of an output. -/
def callAt (output : List OutputItem) (outputIndex : Nat) : Option LlmToolCall :=
  output[outputIndex]?.bind OutputItem.toolCall?

/-- The places of the parts of an output, in order. -/
def places (output : List OutputItem) : List (Nat ×ₗ Nat) :=
  (List.range output.length).flatMap (fun outputIndex =>
    (List.range ((output[outputIndex]?.map OutputItem.content).getD []).length).map
      (fun contentIndex => toLex (outputIndex, contentIndex)))

theorem places_increasing (output : List OutputItem) : (places output).Pairwise (· < ·) := by
  rw [places, List.pairwise_flatMap]
  constructor
  · intro outputIndex _
    rw [List.pairwise_map]
    refine List.pairwise_lt_range.imp (fun less => ?_)
    exact Prod.Lex.toLex_lt_toLex.mpr (Or.inr ⟨rfl, less⟩)
  · refine List.pairwise_lt_range.imp (fun less first mem second mem' => ?_)
    obtain ⟨_, -, rfl⟩ := List.mem_map.mp mem
    obtain ⟨_, -, rfl⟩ := List.mem_map.mp mem'
    exact Prod.Lex.toLex_lt_toLex.mpr (Or.inl less)

theorem mem_places_of_textAt {output : List OutputItem} {key : Nat ×ₗ Nat} {text : String}
    (found : textAt output key = some text)
    : key ∈ places output := by
  obtain ⟨part, known, -⟩ := Option.bind_eq_some_iff.mp found
  obtain ⟨inside, -⟩ := List.getElem?_eq_some_iff.mp known
  rw [places, List.mem_flatMap]
  refine ⟨(ofLex key).1, ?_, List.mem_map.mpr ⟨(ofLex key).2, List.mem_range.mpr inside, rfl⟩⟩
  rw [List.mem_range]
  by_contra outside
  rw [List.getElem?_eq_none (Nat.le_of_not_lt outside)] at inside
  exact absurd inside (Nat.not_lt_zero _)

/-- The elements of a list, looked up one after the other. -/
theorem map_range_getElem? {α : Type} (elements : List α)
    : (List.range elements.length).map (fun i => elements[i]?) = elements.map some := by
  apply List.ext_getElem
  · simp
  · intro i inside inside'
    simp at inside ⊢

theorem filterMap_range {α β : Type} (f : α → Option β) (elements : List α)
    : (List.range elements.length).filterMap (fun i => elements[i]?.bind f)
      = elements.filterMap f := by
  calc (List.range elements.length).filterMap (fun i => elements[i]?.bind f)
      = ((List.range elements.length).map (fun i => elements[i]?)).filterMap (·.bind f) := by
        rw [List.filterMap_map]
        rfl
    _ = elements.filterMap f := by
        rw [map_range_getElem?, List.filterMap_map]
        rfl

theorem filterMap_places (output : List OutputItem)
    : (places output).filterMap (textAt output) = texts output := by
  have parts : ∀ outputIndex,
      ((List.range ((output[outputIndex]?.map OutputItem.content).getD []).length).map
        (fun contentIndex => toLex (outputIndex, contentIndex))).filterMap (textAt output)
      = ((output[outputIndex]?.map OutputItem.content).getD []).filterMap
        OutputMessageContent.text? := by
    intro outputIndex
    rw [List.filterMap_map, ← filterMap_range OutputMessageContent.text?]
    rfl
  rw [places, List.filterMap_flatMap]
  simp only [parts]
  calc (List.range output.length).flatMap (fun i =>
        ((output[i]?.map OutputItem.content).getD []).filterMap OutputMessageContent.text?)
      = ((List.range output.length).map (fun i => output[i]?)).flatMap (fun item =>
        ((item.map OutputItem.content).getD []).filterMap OutputMessageContent.text?) := by
        rw [List.flatMap_map]
    _ = texts output := by
        rw [map_range_getElem?, List.flatMap_map]
        rfl

-----------------------------------------------------------------------------------------
-- Moves
-----------------------------------------------------------------------------------------

/-- What an event does to a text part. -/
inductive TextMove
  | delta (delta : String)
  | done (text : String)

def TextMove.apply (known : Option String) : TextMove → Option String
  | .delta chunk => if chunk = "" then known else some (known.getD "" ++ chunk)
  | .done text => some text

/-- What an event does to a call. -/
inductive CallMove
  | item (call : LlmToolCall)
  | delta (delta : String)
  | argumentsDone (name : Option String) (arguments : String)

def CallMove.apply (known : Option LlmToolCall) : CallMove → Option LlmToolCall
  | .item call => some call
  | .delta chunk =>
      if chunk = "" then known
      else
        let call := known.getD blankCall
        some { call with arguments := call.arguments ++ chunk }
  | .argumentsDone name arguments =>
      let call := known.getD blankCall
      some { call with name := name.getD call.name, arguments := arguments }

namespace ResponseStreamEvent

/-- The move an event makes at a place of the text. -/
def textMove (key : Nat ×ₗ Nat) : ResponseStreamEvent → Option TextMove
  | responseOutputTextDelta outputIndex contentIndex delta =>
      if key = toLex (outputIndex, contentIndex) then some (.delta delta) else none
  | responseOutputTextDone outputIndex contentIndex text =>
      if key = toLex (outputIndex, contentIndex) then some (.done text) else none
  | _ => none

/-- The move an event makes at a place of the output. -/
def callMove (key : Nat) : ResponseStreamEvent → Option CallMove
  | responseOutputItemAdded outputIndex item | responseOutputItemDone outputIndex item =>
      if key = outputIndex then item.toolCall?.map .item else none
  | responseFunctionCallArgumentsDelta outputIndex delta =>
      if key = outputIndex then some (.delta delta) else none
  | responseFunctionCallArgumentsDone outputIndex name arguments =>
      if key = outputIndex then some (.argumentsDone name arguments) else none
  | _ => none

/-- The response is still under way after the event. -/
def UnderWay : ResponseStreamEvent → Prop
  | responseCompleted _ | responseFailed _ | responseIncomplete _ | responseError _ => False
  | _ => True

end ResponseStreamEvent

open ResponseStreamEvent

/-- An event of a response under way makes its moves, by cases on it. -/
theorem push_underWay {acc : StreamAccumulator} {event : ResponseStreamEvent}
    (underWay : event.UnderWay)
    : ∃ acc' told, acc.push event = .ok (acc', told)
      ∧ (∀ key, acc'.text.find? key
        = (event.textMove key).elim (acc.text.find? key) (TextMove.apply (acc.text.find? key)))
      ∧ ∀ key, acc'.toolCalls.find? key
        = (event.callMove key).elim (acc.toolCalls.find? key)
          (CallMove.apply (acc.toolCalls.find? key)) := by
  cases event with
  | responseCompleted | responseFailed | responseIncomplete | responseError =>
      exact absurd underWay id
  | other => exact ⟨acc, [], rfl, fun _ => rfl, fun _ => rfl⟩
  | responseOutputTextDelta outputIndex contentIndex delta =>
      rw [StreamAccumulator.push]
      split
      · rename_i empty
        refine ⟨acc, [], rfl, fun key => ?_, fun _ => rfl⟩
        rw [textMove]
        split
        · simp [TextMove.apply, empty]
        · rfl
      · rename_i some
        refine ⟨_, _, rfl, fun key => ?_, fun _ => rfl⟩
        rw [SortedMap.find?_insert, textMove]
        split
        · rename_i same
          simp [TextMove.apply, some, same]
        · rfl
  | responseOutputTextDone outputIndex contentIndex text =>
      refine ⟨_, _, rfl, fun key => ?_, fun _ => rfl⟩
      rw [SortedMap.find?_insert, textMove]
      split <;> rfl
  | responseOutputItemAdded outputIndex item | responseOutputItemDone outputIndex item =>
      cases item with
      | functionCall call =>
          refine ⟨_, _, rfl, fun _ => rfl, fun key => ?_⟩
          rw [SortedMap.find?_insert, callMove]
          split <;> rfl
      | message | other =>
          refine ⟨acc, [], rfl, fun _ => rfl, fun key => ?_⟩
          rw [callMove]
          split <;> rfl
  | responseFunctionCallArgumentsDelta outputIndex delta =>
      rw [StreamAccumulator.push]
      split
      · rename_i empty
        refine ⟨acc, [], rfl, fun _ => rfl, fun key => ?_⟩
        rw [callMove]
        split
        · simp [CallMove.apply, empty]
        · rfl
      · rename_i some
        refine ⟨_, _, rfl, fun _ => rfl, fun key => ?_⟩
        rw [SortedMap.find?_insert, callMove]
        split
        · rename_i same
          simp [CallMove.apply, some, same]
        · rfl
  | responseFunctionCallArgumentsDone outputIndex name arguments =>
      refine ⟨_, _, rfl, fun _ => rfl, fun key => ?_⟩
      rw [SortedMap.find?_insert, callMove]
      split
      · rename_i same
        simp [CallMove.apply, same]
      · rfl

/-- The events of a response under way make their moves in turn, by induction on them. -/
theorem pushAll_underWay {acc : StreamAccumulator} {events : List ResponseStreamEvent}
    (underWay : ∀ event ∈ events, event.UnderWay) (last : List ResponseStreamEvent)
    : ∃ (acc' : StreamAccumulator) (told : List LlmStreamEvent), acc.pushAll (events ++ last)
        = (acc'.pushAll last).map (fun (acc, later) => (acc, told ++ later))
      ∧ (∀ key, acc'.text.find? key
        = (events.filterMap (textMove key)).foldl TextMove.apply (acc.text.find? key))
      ∧ ∀ key, acc'.toolCalls.find? key
        = (events.filterMap (callMove key)).foldl CallMove.apply (acc.toolCalls.find? key) := by
  induction events generalizing acc with
  | nil =>
      refine ⟨acc, [], ?_, fun _ => rfl, fun _ => rfl⟩
      rw [List.nil_append]
      cases acc.pushAll last <;> rfl
  | cons event rest ih =>
      obtain ⟨next, told, pushed, text, call⟩ :=
        @push_underWay acc event (underWay event List.mem_cons_self)
      obtain ⟨acc', later, run, restText, restCall⟩ :=
        @ih next (fun event mem => underWay event (List.mem_cons_of_mem _ mem))
      refine ⟨acc', told ++ later, ?_, fun key => ?_, fun key => ?_⟩
      · rw [List.cons_append, StreamAccumulator.pushAll, pushed]
        simp only [bind, Except.bind, run]
        cases acc'.pushAll last <;> simp [Except.map, List.append_assoc]
      · rw [restText, text, List.filterMap_cons]
        cases event.textMove key <;> rfl
      · rw [restCall, call, List.filterMap_cons]
        cases event.callMove key <;> rfl

-----------------------------------------------------------------------------------------
-- Trails
-----------------------------------------------------------------------------------------

/-- How a text part was streamed. -/
structure TextTrail where
  deltas : List String
  done : Bool

namespace TextTrail

def moves (trail : TextTrail) (text : String) : List TextMove :=
  trail.deltas.map .delta ++ if trail.done then [.done text] else []

/-- The deltas of the part spell a beginning of its text. -/
def Follows (trail : TextTrail) (text : String) : Prop :=
  ∃ rest, String.join trail.deltas ++ rest = text

/-- The deltas of the part spell its text, or its done event says it. -/
def Carries (trail : TextTrail) (text : String) : Prop :=
  String.join trail.deltas = text ∨ trail.done = true

theorem foldl_deltas (known : Option String) (deltas : List String)
    : ((deltas.map TextMove.delta).foldl TextMove.apply known).getD ""
      = known.getD "" ++ String.join deltas := by
  induction deltas generalizing known with
  | nil => simp
  | cons delta rest ih =>
      rw [List.map_cons, List.foldl_cons, ih, TextMove.apply]
      split
      · rename_i empty
        simp [empty]
      · simp [String.append_assoc]

/-- The trail of a part leaves the text of its done event, or else that of its deltas. -/
theorem foldl_moves (trail : TextTrail) (text : String)
    : ((trail.moves text).foldl TextMove.apply none).getD ""
      = if trail.done then text else String.join trail.deltas := by
  rw [moves, List.foldl_append]
  split
  · rfl
  · rw [List.foldl_nil, foldl_deltas]
    simp

end TextTrail

/-- How a call was streamed: the arguments its item was added with, their deltas, whether the
event that ends them names the call, and whether the item was done.
-/
structure CallTrail where
  added : Option String
  deltas : List String
  argumentsDone : Option Bool
  done : Bool

namespace CallTrail

def moves (trail : CallTrail) (call : LlmToolCall) : List CallMove :=
  (trail.added.map (fun start => CallMove.item { call with arguments := start })).toList
    ++ trail.deltas.map .delta
    ++ (trail.argumentsDone.map (fun named =>
      CallMove.argumentsDone (if named then some call.name else none) call.arguments)).toList
    ++ if trail.done then [.item call] else []

/-- The arguments that were streamed are a beginning of those of the call. -/
def Follows (trail : CallTrail) (call : LlmToolCall) : Prop :=
  ∃ rest, trail.added.getD "" ++ String.join trail.deltas ++ rest = call.arguments

/-- The call was done, or it was added and its arguments were streamed or are done. -/
def Carries (trail : CallTrail) (call : LlmToolCall) : Prop :=
  trail.done = true ∨ ∃ start, trail.added = some start
    ∧ (start ++ String.join trail.deltas = call.arguments ∨ trail.argumentsDone.isSome)

theorem foldl_deltas (known : LlmToolCall) (deltas : List String)
    : (deltas.map CallMove.delta).foldl CallMove.apply (some known)
      = some { known with arguments := known.arguments ++ String.join deltas } := by
  induction deltas generalizing known with
  | nil => simp
  | cons delta rest ih =>
      rw [List.map_cons, List.foldl_cons, CallMove.apply]
      split
      · rename_i empty
        rw [ih]
        simp [empty]
      · rw [ih]
        simp [String.append_assoc]

/-- A trail that carries a call leaves it, by cases on how it does. -/
theorem foldl_moves {trail : CallTrail} {call : LlmToolCall} (carried : trail.Carries call)
    : (trail.moves call).foldl CallMove.apply none = some call := by
  rw [moves, List.foldl_append]
  rcases carried with done | ⟨start, added, whole⟩
  · rw [done]
    rfl
  · have before : ((trail.added.map
          (fun start => CallMove.item { call with arguments := start })).toList
          ++ trail.deltas.map CallMove.delta).foldl CallMove.apply none
        = some { call with arguments := start ++ String.join trail.deltas } := by
      rw [List.foldl_append, added]
      exact foldl_deltas _ _
    have ended : ∀ known : LlmToolCall, known = call →
        (if trail.done then [CallMove.item call] else []).foldl CallMove.apply (some known)
          = some call := by
      rintro known rfl
      split <;> rfl
    rw [List.foldl_append, before]
    cases end' : trail.argumentsDone with
    | none =>
        rw [end'] at whole
        apply ended
        rw [whole.resolve_right (by simp)]
    | some named =>
        apply ended { call with name := (if named then some call.name else none).getD call.name }
        cases named <;> rfl

end CallTrail

-----------------------------------------------------------------------------------------
-- Streams
-----------------------------------------------------------------------------------------

/-- The events stream the text parts of an output, and no others. -/
def FollowsText (output : List OutputItem) (events : List ResponseStreamEvent) : Prop :=
  ∀ key, match textAt output key with
    | none => events.filterMap (textMove key) = []
    | some text => ∃ trail : TextTrail,
        trail.Follows text ∧ events.filterMap (textMove key) = trail.moves text

/-- Each text part was streamed in full. -/
def CarriesText (output : List OutputItem) (events : List ResponseStreamEvent) : Prop :=
  ∀ key text, textAt output key = some text → ∃ trail : TextTrail,
    trail.Carries text ∧ events.filterMap (textMove key) = trail.moves text

/-- The events stream the calls of an output, and no others. -/
def FollowsCalls (output : List OutputItem) (events : List ResponseStreamEvent) : Prop :=
  ∀ key, match callAt output key with
    | none => events.filterMap (callMove key) = []
    | some call => ∃ trail : CallTrail,
        trail.Follows call ∧ events.filterMap (callMove key) = trail.moves call

/-- Each call was streamed in full. -/
def CarriesCalls (output : List OutputItem) (events : List ResponseStreamEvent) : Prop :=
  ∀ key call, callAt output key = some call → ∃ trail : CallTrail,
    trail.Carries call ∧ events.filterMap (callMove key) = trail.moves call

/-- Texts that agree up to absence join to the same text, by induction on their places. -/
theorem join_filterMap_congr {κ : Type} {keys : List κ} {f g : κ → Option String}
    (same : ∀ key, (f key).getD "" = (g key).getD "")
    : String.join (keys.filterMap f) = String.join (keys.filterMap g) := by
  induction keys with
  | nil => rfl
  | cons key rest ih =>
      have here := same key
      rw [List.filterMap_cons, List.filterMap_cons]
      cases known : f key <;> cases known' : g key <;> rw [known, known'] at here
      · exact ih
      · simp_all
      · simp_all
      · simp_all

section Accumulated

variable {output : List OutputItem} {events : List ResponseStreamEvent}
  {acc : StreamAccumulator}

/-- The texts of an accumulator stand at places of the output. -/
theorem text_placed (follows : FollowsText output events)
    (streamed : ∀ key, acc.text.find? key
      = (events.filterMap (textMove key)).foldl TextMove.apply none)
    : acc.text.values = (places output).filterMap acc.text.find? := by
  apply SortedMap.values_eq (places_increasing output)
  intro key text found
  have here := follows key
  cases known : textAt output key with
  | some text => exact mem_places_of_textAt known
  | none =>
      rw [known] at here
      rw [streamed, here] at found
      cases found

/-- Texts streamed in full join to those of the output. -/
theorem join_text_values (follows : FollowsText output events)
    (streamed : ∀ key, acc.text.find? key
      = (events.filterMap (textMove key)).foldl TextMove.apply none)
    (carried : CarriesText output events)
    : String.join acc.text.values = String.join (texts output) := by
  rw [text_placed follows streamed, ← filterMap_places output]
  apply join_filterMap_congr
  intro key
  have here := follows key
  cases known : textAt output key with
  | none =>
      rw [known] at here
      rw [streamed, here]
      rfl
  | some text =>
      obtain ⟨trail, whole, moves⟩ := carried key text known
      rw [streamed, moves, trail.foldl_moves, Option.getD_some]
      split
      · rfl
      · exact whole.resolve_right ‹_›

/-- Texts that join to nothing are empty, by induction on them. -/
theorem eq_empty_of_join {texts : List String} (empty : String.join texts = "") {text : String}
    (mem : text ∈ texts)
    : text = "" := by
  induction texts with
  | nil => exact absurd mem List.not_mem_nil
  | cons first rest ih =>
      rw [String.join_cons, String.append_eq_empty_iff] at empty
      rcases List.mem_cons.mp mem with rfl | later
      · exact empty.1
      · exact ih empty.2 later

/-- The parts of an output without text are streamed as empty. -/
theorem join_text_values_empty (follows : FollowsText output events)
    (streamed : ∀ key, acc.text.find? key
      = (events.filterMap (textMove key)).foldl TextMove.apply none)
    (empty : String.join (texts output) = "")
    : String.join acc.text.values = "" := by
  rw [← empty, text_placed follows streamed, ← filterMap_places output]
  apply join_filterMap_congr
  intro key
  have here := follows key
  cases known : textAt output key with
  | none =>
      rw [known] at here
      rw [streamed, here]
      rfl
  | some text =>
      have listed : text ∈ texts output := by
        rw [← filterMap_places]
        exact List.mem_filterMap.mpr ⟨key, mem_places_of_textAt known, known⟩
      have blank := eq_empty_of_join empty listed
      rw [known] at here
      obtain ⟨trail, ⟨rest, spelled⟩, moves⟩ := here
      rw [blank, String.append_eq_empty_iff] at spelled
      rw [streamed, moves, trail.foldl_moves, blank, spelled.1, ite_self]
      rfl

/-- Calls streamed in full are those of the output. -/
theorem toolCalls_values (follows : FollowsCalls output events)
    (streamed : ∀ key, acc.toolCalls.find? key
      = (events.filterMap (callMove key)).foldl CallMove.apply none)
    (carried : CarriesCalls output events)
    : acc.toolCalls.values = calls output := by
  have same : ∀ key, acc.toolCalls.find? key = callAt output key := by
    intro key
    have here := follows key
    cases known : callAt output key with
    | none =>
        rw [known] at here
        rw [streamed, here]
        rfl
    | some call =>
        obtain ⟨trail, whole, moves⟩ := carried key call known
        rw [streamed, moves, CallTrail.foldl_moves whole]
  rw [SortedMap.values_eq (List.pairwise_lt_range (n := output.length)), calls,
    ← filterMap_range OutputItem.toolCall?]
  · exact List.filterMap_congr (fun key _ => same key)
  · intro key call found
    rw [same] at found
    obtain ⟨item, known, -⟩ := Option.bind_eq_some_iff.mp found
    exact List.mem_range.mpr (List.getElem?_eq_some_iff.mp known).1

/-- An output without calls is carried by any events that follow it. -/
theorem carriesCalls_of_none (none' : calls output = []) : CarriesCalls output events := by
  intro key call known
  obtain ⟨item, found, isCall⟩ := Option.bind_eq_some_iff.mp known
  have listed : call ∈ calls output :=
    List.mem_filterMap.mpr ⟨item, List.mem_of_getElem? found, isCall⟩
  rw [none'] at listed
  exact absurd listed List.not_mem_nil

end Accumulated

/-- A response is completed with the text and the calls that it lacks. -/
theorem intoResponse_eq (completed : Response) (acc : StreamAccumulator)
    : { acc with completed := some completed }.intoResponse
      = (toLlmResponse completed).map (fun response =>
        ⟨if response.content = "" then String.join acc.text.values else response.content,
          if response.toolCalls = [] then acc.toolCalls.values else response.toolCalls⟩) := by
  rw [StreamAccumulator.intoResponse]
  cases read : toLlmResponse completed with
  | error error => simp only [bind, Except.bind, Except.map, read]
  | ok response =>
      obtain ⟨content, toolCalls⟩ := response
      simp only [bind, Except.bind, Except.map, read]
      have filled : (if content = "" ∧ String.join acc.text.values ≠ "" then
            LlmResponse.mk (String.join acc.text.values) toolCalls
          else ⟨content, toolCalls⟩)
          = ⟨if content = "" then String.join acc.text.values else content, toolCalls⟩ := by
        split
        · rename_i lacking
          rw [if_pos lacking.1]
        · rename_i enough
          split
          · rename_i spoken
            rw [not_and_not_right.mp enough spoken, spoken]
          · rfl
      rw [filled]
      by_cases silent : toolCalls = []
      · rw [if_pos silent, if_pos silent]
      · rw [if_neg silent, if_neg silent]

/-- A streamed response is the full one whenever the completed response carries all or none of
the texts and all or none of the calls, and the events before it carry in full what it lacks.
-/
theorem stream_agrees {full completed : Response} {events : List ResponseStreamEvent}
    (status : completed.status = full.status) (underWay : ∀ event ∈ events, event.UnderWay)
    (followsText : FollowsText full.output events)
    (followsCalls : FollowsCalls full.output events)
    (text : texts completed.output = texts full.output
      ∨ texts completed.output = [] ∧ CarriesText full.output events)
    (call : calls completed.output = calls full.output
      ∨ calls completed.output = [] ∧ CarriesCalls full.output events)
    : collectStreamResponse (events ++ [.responseCompleted completed]) = toLlmResponse full := by
  obtain ⟨acc, told, pushed, texted, called⟩ :=
    @pushAll_underWay .default _ underWay [.responseCompleted completed]
  have ended : collectStreamResponse (events ++ [.responseCompleted completed])
      = { acc with completed := some completed }.intoResponse := by
    rw [collectStreamResponse, pushed]
    rfl
  have content : (if String.join (texts completed.output) = "" then String.join acc.text.values
      else String.join (texts completed.output)) = String.join (texts full.output) := by
    rcases text with all | ⟨lacking, carried⟩
    · rw [all]
      split
      · rename_i empty
        rw [join_text_values_empty followsText texted empty, empty]
      · rfl
    · rw [lacking, if_pos String.join_nil, join_text_values followsText texted carried]
  have toolCalls : (if calls completed.output = [] then acc.toolCalls.values
      else calls completed.output) = calls full.output := by
    split
    · rename_i none'
      apply toolCalls_values followsCalls called
      rcases call with all | ⟨-, carried⟩
      · exact carriesCalls_of_none (all ▸ none')
      · exact carried
    · rename_i some
      exact call.resolve_right (fun lacking => some lacking.1)
  rw [ended, intoResponse_eq, toLlmResponse_eq, toLlmResponse_eq, status]
  split
  · rfl
  · simp only [Except.map, content, toolCalls]

/-! A question is answered with a text and a call; the completed response carries neither. -/

namespace Recorded

def message : OutputItem := .message [.refusal "no", .outputText "hello"]

def weather : FunctionToolCall := ⟨"call_1", "weather", "\x7b\x7d"⟩

def whole : Response := ⟨.completed, [message, .functionCall weather]⟩

/-- The deltas of the two items are mixed. -/
def events : List ResponseStreamEvent :=
  [.responseOutputItemAdded 1 (.functionCall { weather with arguments := "" }),
    .responseOutputTextDelta 0 1 "hel", .responseFunctionCallArgumentsDelta 1 "\x7b",
    .responseOutputTextDelta 0 1 "lo", .responseFunctionCallArgumentsDelta 1 "\x7d",
    .responseOutputItemDone 0 message]

def textTrail : TextTrail := ⟨["hel", "lo"], false⟩

def callTrail : CallTrail := ⟨some "", ["\x7b", "\x7d"], none, false⟩

theorem textMoves (key : Nat ×ₗ Nat)
    : match textAt whole.output key with
      | none => events.filterMap (textMove key) = []
      | some text => textTrail.Follows text ∧ textTrail.Carries text
        ∧ events.filterMap (textMove key) = textTrail.moves text := by
  obtain ⟨outputIndex, contentIndex⟩ := key
  match outputIndex, contentIndex with
  | 0, 0 => rfl
  | 0, 1 => exact ⟨⟨"", rfl⟩, Or.inl rfl, rfl⟩
  | 0, _ + 2 => rfl
  | 1, _ => rfl
  | _ + 2, _ => rfl

theorem callMoves (key : Nat)
    : match callAt whole.output key with
      | none => events.filterMap (callMove key) = []
      | some call => callTrail.Follows call ∧ callTrail.Carries call
        ∧ events.filterMap (callMove key) = callTrail.moves call := by
  match key with
  | 0 => rfl
  | 1 => exact ⟨⟨"", rfl⟩, Or.inr ⟨"", rfl, Or.inl rfl⟩, rfl⟩
  | _ + 2 => rfl

theorem followsText : FollowsText whole.output events := by
  intro key
  have moves := textMoves key
  cases known : textAt whole.output key with
  | none => rwa [known] at moves
  | some text =>
      rw [known] at moves
      exact ⟨textTrail, moves.1, moves.2.2⟩

theorem followsCalls : FollowsCalls whole.output events := by
  intro key
  have moves := callMoves key
  cases known : callAt whole.output key with
  | none => rwa [known] at moves
  | some call =>
      rw [known] at moves
      exact ⟨callTrail, moves.1, moves.2.2⟩

theorem carriesText : CarriesText whole.output events := by
  intro key text known
  have moves := textMoves key
  rw [known] at moves
  exact ⟨textTrail, moves.2⟩

theorem carriesCalls : CarriesCalls whole.output events := by
  intro key call known
  have moves := callMoves key
  rw [known] at moves
  exact ⟨callTrail, moves.2⟩

theorem stream_agrees_recorded
    : collectStreamResponse (events ++ [.responseCompleted ⟨.completed, []⟩])
      = toLlmResponse whole :=
  stream_agrees rfl
    (fun event mem => by
      rcases mem with _ | ⟨_, _ | ⟨_, _ | ⟨_, _ | ⟨_, _ | ⟨_, _ | ⟨_, mem⟩⟩⟩⟩⟩⟩
      all_goals trivial)
    followsText followsCalls (Or.inr ⟨rfl, carriesText⟩) (Or.inr ⟨rfl, carriesCalls⟩)

end Recorded

end Codrik.Llm
