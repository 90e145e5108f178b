import Codrik.Runtime.Sqlite.Context

/-! Windows of the stored context: the newest messages of a transcript are a transcript of
their own unless the window starts inside a tool exchange.
-/

namespace Codrik.Runtime.Sqlite

open Codrik.Relational

-----------------------------------------------------------------------------------------
-- Tool exchanges
-----------------------------------------------------------------------------------------

/-- The assistant message made the call that the tool message answers. -/
def Makes (caller result : Message) : Prop :=
  caller.role = .assistant ∧ ∃ call ∈ caller.toolCalls, result.toolCallId = some call.id

instance (caller result : Message) : Decidable (Makes caller result) :=
  inferInstanceAs (Decidable (_ ∧ _))

/-- Every tool result of a transcript that continues `seen` follows the assistant message that
made its call.
-/
def PairedAfter (seen : List Message) : List Message → Prop
  | [] => True
  | message :: rest =>
      (message.role = .tool → ∃ caller ∈ seen, Makes caller message)
      ∧ PairedAfter (seen ++ [message]) rest

instance : (seen messages : List Message) → Decidable (PairedAfter seen messages)
  | _, [] => inferInstanceAs (Decidable True)
  | seen, message :: rest =>
      have := instDecidablePairedAfter (seen ++ [message]) rest
      inferInstanceAs (Decidable (_ ∧ _))

/-- A transcript in which every tool result follows the message that made its call. -/
abbrev Paired (messages : List Message) : Prop := PairedAfter [] messages

/-- An exchange lies across the cut between two parts of a transcript: a call made in the older
part is answered in the newer one, and not made again before.
-/
def Straddled (older newer : List Message) : Prop :=
  ∃ before result after, newer = before ++ result :: after ∧ result.role = .tool
    ∧ (∃ caller ∈ older, Makes caller result) ∧ ∀ caller ∈ before, ¬Makes caller result

/-- A transcript is paired if each of its results follows its call, by induction on it. -/
theorem pairedAfter_iff {seen messages : List Message}
    : PairedAfter seen messages ↔
      ∀ before result after, messages = before ++ result :: after → result.role = .tool →
        ∃ caller ∈ seen ++ before, Makes caller result := by
  induction messages generalizing seen with
  | nil =>
      refine ⟨fun _ before result after split => ?_, fun _ => trivial⟩
      exact absurd split.symm (List.append_ne_nil_of_right_ne_nil _ (List.cons_ne_nil _ _))
  | cons message rest ih =>
      rw [PairedAfter, ih]
      constructor
      · rintro ⟨here, later⟩ before result after split tool
        cases before with
        | nil =>
            cases split
            rw [List.append_nil]
            exact here tool
        | cons first before =>
            cases split
            obtain ⟨caller, mem, makes⟩ := later before result after rfl tool
            refine ⟨caller, ?_, makes⟩
            rwa [List.append_assoc, List.singleton_append] at mem
      · intro whole
        refine ⟨fun tool => ?_, fun before result after split tool => ?_⟩
        · have found := whole [] message rest rfl tool
          rwa [List.append_nil] at found
        · subst split
          obtain ⟨caller, mem, makes⟩ := whole (message :: before) result after rfl tool
          refine ⟨caller, ?_, makes⟩
          rwa [List.append_assoc, List.singleton_append]

/-- The parts of a paired transcript are paired in their places, by the split of the results. -/
theorem PairedAfter.newer {seen older newer : List Message}
    (paired : PairedAfter seen (older ++ newer))
    : PairedAfter (seen ++ older) newer := by
  rw [pairedAfter_iff] at *
  rintro before result after rfl tool
  rw [List.append_assoc]
  apply paired (older ++ before) result after _ tool
  rw [List.append_assoc]

/-- Messages that are no tool results keep a transcript paired, and make none paired. -/
theorem pairedAfter_append_incoming {seen messages incoming : List Message}
    (untooled : ∀ message ∈ incoming, message.role ≠ .tool)
    : PairedAfter seen (messages ++ incoming) ↔ PairedAfter seen messages := by
  induction messages generalizing seen with
  | nil =>
      refine ⟨fun _ => trivial, fun _ => pairedAfter_iff.mpr ?_⟩
      rintro before result after split tool
      refine absurd tool (untooled result ?_)
      rw [List.nil_append] at split
      rw [split]
      exact List.mem_append_right _ List.mem_cons_self
  | cons message rest ih =>
      rw [List.cons_append, PairedAfter, PairedAfter, ih]

/-- The newer part of a paired transcript is paired by itself unless an exchange lies across
the cut.
-/
theorem paired_newer_iff {older newer : List Message} (paired : PairedAfter older newer)
    : Paired newer ↔ ¬Straddled older newer := by
  rw [Paired, pairedAfter_iff]
  constructor
  · rintro own ⟨before, result, after, split, tool, -, unmade⟩
    obtain ⟨caller, mem, makes⟩ := own before result after split tool
    exact unmade caller mem makes
  · intro apart before result after split tool
    by_contra unmade
    have made := pairedAfter_iff.mp paired before result after split tool
    refine apart ⟨before, result, after, split, tool, ?_, fun caller mem makes => ?_⟩
    · obtain ⟨caller, mem, makes⟩ := made
      rcases List.mem_append.mp mem with old | recent
      · exact ⟨caller, old, makes⟩
      · exact absurd ⟨caller, recent, makes⟩ unmade
    · exact unmade ⟨caller, mem, makes⟩

-----------------------------------------------------------------------------------------
-- The loaded window
-----------------------------------------------------------------------------------------

/-- Messages that decode are handed out as they were stored, by induction on them. -/
theorem decodeMessages_decoded (messages : List Message)
    : decodeMessages (messages.map .decoded) = .ok messages := by
  induction messages with
  | nil => rfl
  | cons message rest ih => exact bind_eq_ok.mpr ⟨rest, ih, rfl⟩

/-- The window is what follows the cut. -/
theorem loadRecentContext_window {s : Store} {actorId : ActorId} {reader : Audience}
    {limit : Nat} {full messages : List Message}
    (stored : visibleMessages s actorId reader = full.map .decoded)
    (loaded : loadRecentContext actorId reader limit s = .ok messages)
    : messages = full.drop (full.length - limit) := by
  simp only [loadRecentContext, bind_eq_ok] at loaded
  obtain ⟨_, -, decoded⟩ := loaded
  rw [stored, ← List.map_reverse, ← List.map_take, ← List.map_reverse, List.take_reverse,
    List.reverse_reverse, decodeMessages_decoded] at decoded
  exact (Except.ok.inj decoded).symm

/-- The window of a paired transcript, with or without the messages of the run after it, is
paired exactly if no exchange lies across the place where the transcript is cut.
-/
theorem recent_context_keeps_exchanges {s : Store} {actorId : ActorId} {reader : Audience}
    {limit : Nat} {full messages : List Message}
    (stored : visibleMessages s actorId reader = full.map .decoded) (paired : Paired full)
    (loaded : loadRecentContext actorId reader limit s = .ok messages)
    : (Paired messages ↔
        ¬Straddled (full.take (full.length - limit)) (full.drop (full.length - limit)))
      ∧ ∀ incoming : List Message, (∀ message ∈ incoming, message.role ≠ .tool) →
        (Paired (messages ++ incoming) ↔
          ¬Straddled (full.take (full.length - limit)) (full.drop (full.length - limit))) := by
  have window := loadRecentContext_window stored loaded
  have newer : PairedAfter (full.take (full.length - limit)) messages := by
    rw [Paired, ← List.take_append_drop (full.length - limit) full] at paired
    rw [window]
    exact paired.newer
  have own : Paired messages ↔
      ¬Straddled (full.take (full.length - limit)) (full.drop (full.length - limit)) := by
    rw [← window]
    exact paired_newer_iff newer
  exact ⟨own, fun incoming untooled => (pairedAfter_append_incoming untooled).trans own⟩

/-! An actor asks for the date, and a tool is called to answer. -/

namespace Halfway

def question : Message := .user (textParts "date?")

def call : Message := .assistantToolCalls "" [⟨"call_1", "datetime", "{}"⟩]

def result : Message := .toolResult "call_1" "2026-06-26"

def asking : AttachedRun := Eavesdropping.run 3 1 .actorPrivate [⟨1⟩] "date?"

/-- The question, the call and its result are put into the transcript one after the other. -/
def exchange : List Call :=
  [.submitForActor localActor ⟨⟨1⟩, "date?", "sha"⟩ 5 (.numbered 1),
    .acquireReadyActor "daemon" 20 100000,
    .attachNextRun Eavesdropping.lease 8 30 (.numbered 3),
    .checkpointRun ⟨asking, [⟨1⟩], [], [question]⟩ 40,
    .checkpointRun ⟨asking, [⟨1⟩], [], [call]⟩ 50,
    .checkpointRun ⟨asking, [⟨1⟩], [], [result]⟩ 60]

def store : Store := (World.single.play exchange).store

theorem stored_exchange
    : visibleMessages store localActor .actorPrivate = [question, call, result].map .decoded := by
  decide +kernel

theorem loaded_result : loadRecentContext localActor .actorPrivate 1 store = .ok [result] := by
  decide +kernel

theorem loaded_exchange
    : loadRecentContext localActor .actorPrivate 2 store = .ok [call, result] := by
  decide +kernel

end Halfway

/-- A window of one message holds the result of a call without the call. -/
theorem recent_context_splits_exchange
    : ¬∀ (s : Store) (actorId : ActorId) (reader : Audience) (limit : Nat)
        (full messages : List Message),
        visibleMessages s actorId reader = full.map .decoded → Paired full →
        loadRecentContext actorId reader limit s = .ok messages → Paired messages :=
  fun whole => absurd
    (whole Halfway.store localActor .actorPrivate 1 _ _ Halfway.stored_exchange (by decide)
      Halfway.loaded_result)
    (by decide)

/-- A window of two messages holds the call and its result. -/
theorem recent_context_keeps_exchanges_halfway : Paired [Halfway.call, Halfway.result] := by
  refine (recent_context_keeps_exchanges Halfway.stored_exchange (by decide)
    Halfway.loaded_exchange).1.mpr ?_
  rintro ⟨_, _, _, _, _, ⟨caller, mem, makes⟩, _⟩
  rw [List.mem_singleton.mp mem] at makes
  exact absurd makes.1 (by decide)

end Codrik.Runtime.Sqlite
