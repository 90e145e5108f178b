import Codrik.Runtime.Ipc.ResumeRace
import Codrik.Transition.Paths

/-! The sinks the outbox worker waits for: every wait ends by a bounded number of steps of
the connection's own handler, as long as the handler does not return early.
-/

namespace Codrik.Runtime.Ipc

open Codrik.Relational
open Codrik.Runtime.Sqlite
open Codrik.Transition

variable {actor : ActorId} {s s' : Server} {t u : Nat} {h h' g : Handler} {outcome : Outcome}
  {effect : Effect} {request : RequestId}

-----------------------------------------------------------------------------------------
-- Handlers with a registered sink
-----------------------------------------------------------------------------------------

/-- The phases in which the sink is registered at the stream hub. -/
def Phase.Registered : Phase → Prop
  | .transacting _ _ | .completing _ | .removing _ | .answering _ | .serving _ _ | .sending _ _
  | .replaying _ | .streaming _ | .failing _ _ => True
  | _ => False

/-- The phases that are entered with the sink registered. -/
def Phase.Serves : Phase → Prop
  | .transacting _ _ | .completing _ | .removing _ | .answering _ | .serving _ _
  | .sending _ _ => True
  | _ => False

/-- How many steps the handler is from opening its sink. -/
def Phase.toOpen : Phase → Nat
  | .failing _ _ => 1
  | .serving _ record => if record.state = .active ∧ record.workItemId = none then 3 else 2
  | .answering _ => 4
  | .removing _ => 5
  | .completing _ => 6
  | _ => 7

/-- No socket write and no database operation of a handler fails, and it receives no
transient event, while its sink is registered and not open.
-/
def Opens (s : Server) : Act → Prop
  | .move ticket outcome => ∀ h, s.handlers[ticket]? = some h → h.subscribed = true →
      h.isOpen = false → outcome ≠ .fails ∧ outcome ≠ .event
  | _ => True

/-- What the handlers keep of their sinks: a registered sink belongs to certain phases, some
of them have one, and streaming, replaying and sending need an open one.
-/
structure Sinks (s : Server) : Prop where
  registered : ∀ (t : Nat) h, s.handlers[t]? = some h → h.subscribed = true →
    h.phase.Registered
  serves : ∀ (t : Nat) h, s.handlers[t]? = some h → h.phase.Serves → h.subscribed = true
  streaming : ∀ (t : Nat) h request, s.handlers[t]? = some h →
    h.phase = .streaming request ∨ h.phase = .replaying request → h.isOpen = true
  sending : ∀ (t : Nat) h request record, s.handlers[t]? = some h →
    h.phase = .sending request record → h.isOpen = true

section Moves

attribute [local grind cases] Wait Release

attribute [local grind] Handler.goes Handler.closes Handler.returns Handler.openDelivery
  Handler.subscribes Wait.after Release.after afterTransaction

/-- A sink is registered in the phases after its registration. -/
theorem Moves.registered (moves : Moves actor s t h outcome effect h')
    (before : h.subscribed = true → h.phase.Registered) (subscribed : h'.subscribed = true)
    : h'.phase.Registered := by
  -- the phase after, the phase before, or the sink decides
  cases moves <;> first
    | exact trivial
    | (simp only [*, Phase.Registered] at before; exact (before subscribed).elim)
    | grind [Phase.Registered]

/-- Submissions and records are served with the sink registered. -/
theorem Moves.serves (moves : Moves actor s t h outcome effect h')
    (before : h.phase.Serves → h.subscribed = true) (serves : h'.phase.Serves)
    : h'.subscribed = true := by
  cases moves <;> grind [Phase.Serves]

/-- Open sinks stay open. -/
theorem Moves.stays_open (moves : Moves actor s t h outcome effect h') (opened : h.isOpen = true)
    : h'.isOpen = true := by
  cases moves <;> grind

/-- Streams and replays begin with an open sink. -/
theorem Moves.streaming (moves : Moves actor s t h outcome effect h')
    (streams : h'.phase = .streaming request ∨ h'.phase = .replaying request)
    : h'.isOpen = true ∨ h.phase = .streaming request := by
  cases moves <;> grind

/-- An event is received before it is sent. -/
theorem Moves.sending {record : LocalRequestRecord} (moves : Moves actor s t h outcome effect h')
    (sends : h'.phase = .sending request record)
    : outcome = .event ∧ h'.isOpen = h.isOpen ∧ h.phase = .serving request record := by
  cases moves <;> grind

/-- A handler with a registered sink that does not fail and receives no event comes nearer to
opening it, once its request has ended.
-/
theorem Moves.nearer (moves : Moves actor s t h outcome effect h')
    (subscribed : h.subscribed = true) (registered : h.phase.Registered)
    (closed : h.isOpen = false) (streaming : ∀ request, h.phase ≠ .streaming request)
    (replaying : ∀ request, h.phase ≠ .replaying request)
    (plain : outcome ≠ .fails ∧ outcome ≠ .event)
    (ended : ∀ request record, h.phase.request? = some request →
      resolveLocalRequest s.world.store actor request = some record → record.state ≠ .active)
    : h'.isOpen = true ∨ (h'.subscribed = true ∧ h'.phase.toOpen < h.phase.toOpen) := by
  cases moves <;>
    grind [Phase.Registered, Phase.toOpen, Phase.request?, LocalRequestRecord.Unassigned,
      LocalRequestRecord.Underway]

end Moves

/-- The handlers keep their sinks over the steps of one of them. -/
theorem Sinks.move (sinks : Sinks s) (stands : s.handlers[t]? = some h)
    (allowed : Opens s (.move t outcome)) (moves : Moves actor s t h outcome effect h')
    : Sinks (effect.apply t { s with handlers := s.handlers.set t h' }) where
  registered u g standing subscribed := by
    simp only [Effect.apply_handlers, stands_set stands] at standing
    rcases standing with ⟨rfl, rfl⟩ | ⟨-, old⟩
    · exact moves.registered (sinks.registered u h stands) subscribed
    · exact sinks.registered u g old subscribed
  serves u g standing serves := by
    simp only [Effect.apply_handlers, stands_set stands] at standing
    rcases standing with ⟨rfl, rfl⟩ | ⟨-, old⟩
    · exact moves.serves (sinks.serves u h stands) serves
    · exact sinks.serves u g old serves
  streaming u g request standing streams := by
    simp only [Effect.apply_handlers, stands_set stands] at standing
    rcases standing with ⟨rfl, rfl⟩ | ⟨-, old⟩
    · rcases moves.streaming streams with opened | before
      · exact opened
      · exact moves.stays_open (sinks.streaming u h request stands (Or.inl before))
    · exact sinks.streaming u g request old streams
  sending u g request record standing sends := by
    simp only [Effect.apply_handlers, stands_set stands] at standing
    rcases standing with ⟨rfl, rfl⟩ | ⟨-, old⟩
    · obtain ⟨event, same, serving⟩ := moves.sending sends
      have subscribed : h.subscribed = true :=
        sinks.serves u h stands (by rw [serving]; trivial)
      rw [same]
      by_contra closed
      exact (allowed h stands subscribed (Bool.eq_false_of_not_eq_true closed)).2 event
    · exact sinks.sending u g request record old sends

theorem Sinks.step {act : Act} (sinks : Sinks s) (allowed : Opens s act)
    (step : s.Step actor act s')
    : Sinks s' := by
  cases step with
  | accept =>
      constructor
      · intro u g standing subscribed
        rcases stands_append.mp standing with old | ⟨-, rfl⟩
        · exact sinks.registered u g old subscribed
        · cases subscribed
      · intro u g standing serves
        rcases stands_append.mp standing with old | ⟨-, rfl⟩
        · exact sinks.serves u g old serves
        · exact serves.elim
      · intro u g request standing streams
        rcases stands_append.mp standing with old | ⟨-, rfl⟩
        · exact sinks.streaming u g request old streams
        · rcases streams with same | same <;> cases same
      · intro u g request record standing sends
        rcases stands_append.mp standing with old | ⟨-, rfl⟩
        · exact sinks.sending u g request record old sends
        · cases sends
  | move stands moves => exact sinks.move stands allowed moves
  | call _ _ => exact { sinks with }
  | reserve _ _ _ _ _ => exact { sinks with }
  | passes _ _ _ => exact { sinks with }

theorem reachable_sinks (reached : ((server actor).restrict Opens).Reachable s) : Sinks s := by
  refine reached.invariant ?_ (fun _ _ _ _ sinks step => sinks.step step.1 step.2)
  rintro s ⟨-, handlers, -⟩
  constructor <;> simp [handlers]

/-- The store of a server is a reachable one. -/
theorem reachable_world (reached : (server actor).Reachable s) : runtime.Reachable s.world := by
  refine reached.invariant (J := fun s => runtime.Reachable s.world) ?_ ?_
  · rintro s ⟨world, -⟩
    exact world
  rintro s act s' - before step
  cases step with
  | move stands moves =>
      cases moves with
      | transacts now ids here admissible => exact .step before ⟨admissible, rfl⟩
      | _ => exact before
  | call admissible other => exact .step before ⟨admissible, rfl⟩
  | _ => exact before

-----------------------------------------------------------------------------------------
-- Ended requests
-----------------------------------------------------------------------------------------

/-- The request names a bundle as its result. -/
def Resulted (s : Store) (request : RequestId) : Prop :=
  ∃ row ∈ s.localRequests, row.requestId = request ∧ row.resultBundleId ≠ none

/-- A result stays over every call. -/
theorem Resulted.after {w : World} (reached : runtime.Reachable w)
    (resulted : Resulted w.store request) (call : Call)
    : Resulted (w.after call).store request := by
  obtain ⟨row, known, own, result⟩ := resulted
  obtain ⟨row', kept, same⟩ := w.after_requestsStay call row known
  have ended : row.state ≠ .active := fun active =>
    result (((reachable_settled reached).ended row known).mp active)
  refine ⟨row', kept, ?_, (same.ended ended).2 ▸ result⟩
  rw [same.row]
  exact own

/-- A request with a result is not looked up as active. -/
theorem Resulted.not_active {w : World} (reached : runtime.Reachable w)
    (resulted : Resulted w.store request) {record : LocalRequestRecord}
    (found : resolveLocalRequest w.store actor request = some record)
    : record.state ≠ .active := by
  simp only [resolveLocalRequest, Option.bind_eq_bind, Option.bind_eq_some_iff] at found
  obtain ⟨row, first, event, -, same⟩ := found
  cases same
  obtain ⟨known, own, -⟩ := Table.find?_some first
  obtain ⟨row', known', own', result⟩ := resulted
  cases Table.eq_of_clash known known' (Or.inl (own.trans own'.symm))
  exact fun active => result (((reachable_settled reached).ended row known).mp active)

-----------------------------------------------------------------------------------------
-- Waiting for a sink
-----------------------------------------------------------------------------------------

/-- The sink of the handler is open. -/
def Server.IsOpen (s : Server) (t : Nat) : Prop :=
  ∃ h, s.handlers[t]? = some h ∧ h.isOpen = true

/-- The sink of the handler is open, or some steps of the handler from being so. -/
def Server.Due (t : Nat) (s : Server) (n : Nat) : Prop :=
  ∃ h, s.handlers[t]? = some h
    ∧ (h.isOpen = true
      ∨ (h.subscribed = true ∧ h.phase.toOpen ≤ n
        ∧ ∃ request, h.phase.request? = some request ∧ Resulted s.world.store request))

def Act.isMoveOf (t : Nat) : Act → Bool
  | .move ticket _ => ticket = t
  | _ => false

theorem Phase.toOpen_pos {phase : Phase} : 0 < phase.toOpen := by
  unfold Phase.toOpen
  split <;> first | omega | (split <;> omega)

/-- A sink that is due at once is open. -/
theorem Server.Due.isOpen (due : s.Due t 0) : s.IsOpen t := by
  obtain ⟨h, stands, opened | ⟨-, near, -⟩⟩ := due
  · exact ⟨h, stands, opened⟩
  · exact absurd near (Nat.not_le.mpr Phase.toOpen_pos)

/-- A due sink comes nearer to its opening by the steps of its handler, and no other step
brings it further away.
-/
theorem Server.Due.step {act : Act} {n : Nat} (reached : (server actor).Reachable s)
    (sinks : Sinks s) (due : s.Due t n) (allowed : Opens s act) (step : s.Step actor act s')
    : s'.Due t (n - (if act.isMoveOf t then 1 else 0)) := by
  obtain ⟨h, stands, holds⟩ := due
  have world := reachable_world reached
  cases step with
  | accept => exact ⟨h, stands_append.mpr (Or.inl stands), holds⟩
  | call admissible other =>
      refine ⟨h, stands, holds.imp_right ?_⟩
      rintro ⟨subscribed, near, request, own, resulted⟩
      exact ⟨subscribed, near, request, own, resulted.after world _⟩
  | reserve _ _ _ _ _ => exact ⟨h, stands, holds⟩
  | passes _ _ _ => exact ⟨h, stands, holds⟩
  | @move ticket g outcome effect g' standing moves =>
      have kept : ∀ request, Resulted s.world.store request →
          Resulted (effect.apply ticket
            { s with handlers := s.handlers.set ticket g' }).world.store request := by
        intro request resulted
        cases effect with
        | commit call => exact resulted.after world call
        | _ => exact resulted
      by_cases own : ticket = t
      · subst own
        cases stands.symm.trans standing
        refine ⟨g', by simp [stands_set stands], ?_⟩
        rcases holds with opened | ⟨subscribed, near, request, own, resulted⟩
        · exact Or.inl (moves.stays_open opened)
        · cases closed : h.isOpen with
          | true => exact Or.inl (moves.stays_open closed)
          | false =>
              have streams : ∀ request,
                  ¬(h.phase = .streaming request ∨ h.phase = .replaying request) := by
                intro other same
                cases closed.symm.trans (sinks.streaming _ h other stands same)
              have registered := sinks.registered _ h stands subscribed
              refine (moves.nearer subscribed registered closed
                (fun other same => streams other (Or.inl same))
                (fun other same => streams other (Or.inr same))
                (allowed h stands subscribed closed) ?_).imp_right ?_
              · intro other record same found
                cases own.symm.trans same
                exact resulted.not_active world found
              · rintro ⟨subscribed', nearer⟩
                refine ⟨subscribed', ?_, request, ?_, kept request resulted⟩
                · simp only [Act.isMoveOf, decide_true, if_true]
                  omega
                · refine (moves.keepsRequest.resolve_left ?_).trans own
                  intro decoding
                  rw [decoding] at registered
                  exact registered
      · refine ⟨h, by simp [stands_set standing, Ne.symm own, stands], holds.imp_right ?_⟩
        rintro ⟨subscribed, near, request, mine, resulted⟩
        refine ⟨subscribed, ?_, request, mine, kept request resulted⟩
        simpa [Act.isMoveOf, own] using near

theorem Phase.toOpen_le (phase : Phase) : phase.toOpen ≤ 7 := by
  unfold Phase.toOpen
  split <;> first | omega | (split <;> omega)

theorem Server.Due.mono {n m : Nat} (due : s.Due t n) (le : n ≤ m) : s.Due t m := by
  obtain ⟨h, stands, holds⟩ := due
  exact ⟨h, stands, holds.imp_right (fun ⟨subscribed, near, rest⟩ =>
    ⟨subscribed, near.trans le, rest⟩)⟩

@[simp] theorem Effect.apply_awaited (effect : Effect) (s : Server)
    : (effect.apply t s).awaited = s.awaited := by
  cases effect <;> rfl

/-- Every sink the worker waits for is due, by induction on the run. -/
theorem reachable_due (reached : ((server actor).restrict Opens).Reachable s)
    : ∀ t ∈ s.awaited, s.Due t 7 := by
  refine reached.invariant (J := fun s => ∀ t ∈ s.awaited, s.Due t 7) ?_ ?_
  · rintro s ⟨-, -, -, -, -, -, awaited⟩ t mem
    rw [awaited] at mem
    exact absurd mem List.not_mem_nil
  · rintro s act s' before due ⟨allowed, step⟩ t mem
    have keeps : t ∈ s.awaited → s'.Due t 7 := fun old =>
      ((due t old).step before.of_restrict (reachable_sinks before) allowed step).mono
        (Nat.sub_le _ _)
    cases step with
    | move stands moves => exact keeps (by simpa using mem)
    | reserve stands subscribed claimed loaded own =>
        rename_i ticket h bundle
        rcases List.mem_cons.mp mem with rfl | old
        · obtain ⟨row, known, same, result⟩ := loaded
          exact ⟨h, stands, Or.inr ⟨subscribed, h.phase.toOpen_le, bundle.requestId, own, row, known,
            same, by simp [result]⟩⟩
        · exact keeps old
    | passes stands awaited opened => exact keeps (List.mem_of_mem_erase mem)
    | accept => exact keeps mem
    | call _ _ => exact keeps mem

/-- A handler with a registered sink is not blocked. -/
theorem Sinks.canGo (sinks : Sinks s) (stands : s.handlers[t]? = some h)
    (subscribed : h.subscribed = true)
    : s.CanGo actor t := by
  suffices ∃ outcome effect h', Moves actor s t h outcome effect h' by
    obtain ⟨outcome, effect, h', moves⟩ := this
    exact ⟨outcome, _, .move stands moves⟩
  have registered := sinks.registered t h stands subscribed
  cases here : h.phase with
  | transacting command guarded => exact ⟨_, _, _, .transactionFails here⟩
  | completing command => exact ⟨_, _, _, .completes here⟩
  | removing command => exact ⟨_, _, _, .removes here⟩
  | answering command => exact ⟨_, _, _, .answerFails here⟩
  | replaying request => exact ⟨_, _, _, .replays here⟩
  | streaming request => exact ⟨_, _, _, .streamEnds here⟩
  | failing request code => exact ⟨_, _, _, .reports here⟩
  | sending request record =>
      exact ⟨_, _, _, .sends here (sinks.sending t h request record stands here)⟩
  | serving request record =>
      by_cases active : record.state = .active
      · cases work : record.workItemId with
        | none => exact ⟨_, _, _, .transientEnds here ⟨active, work⟩⟩
        | some id => exact ⟨_, _, _, .assigned here active work⟩
      · cases bundle : record.resultBundleState with
        | none => exact ⟨_, _, _, .invalid here active bundle⟩
        | some state =>
            cases state with
            | delivered => exact ⟨_, _, _, .delivered here active bundle⟩
            | failedTerminal => exact ⟨_, _, _, .failedTerminal here active bundle⟩
            | pending => exact ⟨_, _, _, .opens here ⟨active, Or.inl bundle⟩⟩
            | delivering => exact ⟨_, _, _, .opens here ⟨active, Or.inr (Or.inl bundle)⟩⟩
            | failedRetryable => exact ⟨_, _, _, .opens here ⟨active, Or.inr (Or.inr bundle)⟩⟩
  | _ =>
      rw [here] at registered
      exact registered.elim

/-- In every run in which no handler fails or receives an event between the registration of
its sink and its opening, a handler that returns leaves no sink registered, none sends to a
sink of its own that is closed, and a sink the outbox worker waits for is open or its handler
can go on; in every continuation it is open after at most seven steps of that handler.
-/
theorem sinks_open (reached : ((server actor).restrict Opens).Reachable s)
    : (∀ (t : Nat) h request, s.handlers[t]? = some h → h.phase = .returned request →
        h.subscribed = false)
      ∧ (∀ (t : Nat) h request record, s.handlers[t]? = some h →
        h.phase = .sending request record → h.isOpen = true)
      ∧ ∀ t ∈ s.awaited, (s.IsOpen t ∨ s.CanGo actor t)
        ∧ ∀ acts s', ((server actor).restrict Opens).Path s acts s' →
          7 ≤ acts.countP (·.isMoveOf t) → s'.IsOpen t := by
  have sinks := reachable_sinks reached
  refine ⟨fun t h request stands here => ?_, sinks.sending, fun t mem => ⟨?_, ?_⟩⟩
  · by_contra subscribed
    have registered := sinks.registered t h stands (Bool.eq_true_of_not_eq_false subscribed)
    rw [here] at registered
    exact registered
  · obtain ⟨h, stands, opened | ⟨subscribed, -⟩⟩ := reachable_due reached t mem
    · exact Or.inl ⟨h, stands, opened⟩
    · exact Or.inr (sinks.canGo stands subscribed)
  · intro acts s' path enough
    have due : s'.Due t (7 - acts.countP (·.isMoveOf t)) :=
      path.countdown
        (fun _ _ _ _ before due step =>
          due.step before.of_restrict (reachable_sinks before) step.1 step.2)
        reached (reachable_due reached t mem)
    rw [Nat.sub_eq_zero_of_le enough] at due
    exact due.isOpen

-----------------------------------------------------------------------------------------
-- A lost connection
-----------------------------------------------------------------------------------------

namespace Unanswered

/-- The request that was answered is submitted again. -/
def command : LocalSubmission := ⟨⟨1⟩, "hello", "sha"⟩

/-- A server over a store in which a request has its result. -/
def idle : Server := ⟨Answered.world, [], [], [], [], [], []⟩

/-- The run up to the moment at which the worker takes the sink of the submission. -/
theorem reserved {allowed : Server → Act → Prop} (accept : ∀ s, allowed s .accept)
    (reserve : ∀ s t, allowed s (.reserve t))
    (quiet : ∀ s t outcome h, s.handlers[t]? = some h → h.subscribed = false →
      allowed s (.move t outcome))
    : ((server localActor).restrict allowed).Reachable
        { idle with
          handlers := [⟨.transacting command true, false, true, none, []⟩]
          woken := [0]
          submissions := [(⟨1⟩, 0)]
          awaited := [0] } := by
  have run : ((server localActor).restrict allowed).Reachable idle :=
    .initial ⟨Answered.reachable, rfl, rfl, rfl, rfl, rfl, rfl⟩
  have run := Overlapping.connects run (accept _)
  have run := Overlapping.goes 0 run rfl (.submit command rfl) (quiet _ _ _ _ rfl rfl)
  have run := Overlapping.goes 0 run rfl (.registers rfl rfl) (quiet _ _ _ _ rfl rfl)
  have run := Overlapping.goes 0 run rfl (.drops rfl) (quiet _ _ _ _ rfl rfl)
  have run := Overlapping.goes 0 run rfl (.notifies rfl) (quiet _ _ _ _ rfl rfl)
  have run := Overlapping.goes 0 run rfl (.subscribes rfl) (quiet _ _ _ _ rfl rfl)
  obtain ⟨bundle, known, reciprocal, own⟩ :
      ∃ bundle ∈ Answered.world.store.resultBundles,
        Reciprocal Answered.world.store bundle ∧ bundle.requestId = ⟨1⟩ := by
    decide +kernel
  exact run.step ⟨reserve _ 0, .reserve rfl rfl known reciprocal (by rw [own]; rfl)⟩

/-- The worker waits for the sink of a submission whose transaction runs. -/
theorem sinks_open_reserved
    : ∃ s, ((server localActor).restrict Opens).Reachable s ∧ 0 ∈ s.awaited
      ∧ (s.IsOpen 0 ∨ s.CanGo localActor 0) := by
  have run : ((server localActor).restrict Opens).Reachable _ := reserved (fun _ => trivial) (fun _ _ => trivial)
    (fun s t outcome h stands closed g standing subscribed => by
      cases stands.symm.trans standing
      cases closed.symm.trans subscribed)
  exact ⟨_, run, List.mem_singleton_self 0,
    ((sinks_open run).2.2 0 (List.mem_singleton_self 0)).1⟩

/-- The client of a repeated submission is gone when `Accepted` is written: the handler
returns without opening its sink, and the worker waits for it for ever.
-/
theorem returned_handler_leaves_sink_closed
    : ¬∀ s, (server localActor).Reachable s → ∀ t ∈ s.awaited, ∀ h request,
        s.handlers[t]? = some h → h.phase = .returned request → h.isOpen = true := by
  intro opens
  have run : ((server localActor).restrict (fun _ _ => True)).Reachable _ :=
    reserved (fun _ => trivial) (fun _ _ => trivial) (fun _ _ _ _ _ _ => trivial)
  have run := Overlapping.goes 0 run rfl
    (.transacts 60 (.numbered 6) rfl (by decide +kernel)) trivial
  have run := Overlapping.goes 0 run rfl (.completes rfl) trivial
  have run := Overlapping.goes 0 run rfl (.removes rfl) trivial
  have run := Overlapping.goes 0 run rfl (.answerFails rfl) trivial
  exact nomatch opens _ run.of_restrict 0 (List.mem_singleton_self 0) _ _ rfl rfl

end Unanswered

end Codrik.Runtime.Ipc
