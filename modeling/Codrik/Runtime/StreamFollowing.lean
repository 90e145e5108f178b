import Codrik.Runtime.StreamHub
import Codrik.Streaming.Passage

/-! Every client that follows a stream sees the beginning of its text, up to one gap at most
(`runtime/stream_hub.rs`).
-/

namespace Codrik.Runtime.Stream

open Codrik.Runtime.Ipc
open Codrik.Streaming
open Codrik.Transition

variable {limits : StreamLimits} {hub hub' : StreamHub} {log : List Observation}
  {s s' : SubscriptionState} {number : Nat} {request : RequestId} {body : PublishedBody}

-----------------------------------------------------------------------------------------
-- What a client sees
-----------------------------------------------------------------------------------------

def eventTexts : ServerEvent → List String
  | .textDelta _ delta => [delta]
  | _ => []

/-- The text of events. -/
def textOf (events : List ServerEvent) : List String := events.flatMap eventTexts

def IsGap : ServerEvent → Prop
  | .streamGap _ => True
  | _ => False

/-- A gap is followed by neither a gap nor text. -/
def OneGap (events : List ServerEvent) : Prop :=
  events.Pairwise (fun earlier later => IsGap earlier → ¬IsGap later ∧ eventTexts later = [])

/-- The events that a client received. -/
def receivedBy (number : Nat) (log : List Observation) : List ServerEvent :=
  log.flatMap (fun
    | .received subscription event => if subscription = number then [event] else []
    | _ => [])

/-- The text that reached the queue of a client. -/
def offeredTo (number : Nat) (log : List Observation) : List String :=
  log.flatMap (fun
    | .offered subscription delta => if subscription = number then [delta] else []
    | _ => [])

/-- The text that was published for a request. -/
def publishedFor (request : RequestId) (log : List Observation) : List String :=
  log.flatMap (fun
    | .published requestId delta => if requestId = request then [delta] else []
    | _ => [])

/-- The text that was published for a request since a client subscribed. -/
def publishedSince (number : Nat) (request : RequestId) : List Observation → List String
  | [] => []
  | .subscribed subscription :: rest =>
      if subscription = number then publishedFor request rest
      else publishedSince number request rest
  | _ :: rest => publishedSince number request rest

@[simp] theorem receivedBy_append (log more : List Observation)
    : receivedBy number (log ++ more) = receivedBy number log ++ receivedBy number more :=
  List.flatMap_append

@[simp] theorem offeredTo_append (log more : List Observation)
    : offeredTo number (log ++ more) = offeredTo number log ++ offeredTo number more :=
  List.flatMap_append

@[simp] theorem publishedFor_append (log more : List Observation)
    : publishedFor request (log ++ more) = publishedFor request log ++ publishedFor request more :=
  List.flatMap_append

@[simp] theorem textOf_append (events more : List ServerEvent)
    : textOf (events ++ more) = textOf events ++ textOf more :=
  List.flatMap_append

@[simp] theorem textOf_singleton (event : ServerEvent) : textOf [event] = eventTexts event :=
  List.append_nil _

/-- Before a client subscribed nothing was published for it, by induction on the record. -/
theorem publishedSince_append_of_not_mem (absent : .subscribed number ∉ log)
    (more : List Observation)
    : publishedSince number request (log ++ more) = publishedSince number request more := by
  induction log with
  | nil => rfl
  | cons observation rest ih =>
      have later := ih (fun mem => absent (List.mem_cons_of_mem _ mem))
      cases observation with
      | subscribed subscription =>
          have other : subscription ≠ number := by
            rintro rfl
            exact absent List.mem_cons_self
          rw [List.cons_append, publishedSince, if_neg other]
          exact later
      | published requestId delta => exact later
      | offered subscription delta => exact later
      | received subscription event => exact later

/-- Since then everything is, by induction on the record. -/
theorem publishedSince_append (subscribed : .subscribed number ∈ log) (more : List Observation)
    : publishedSince number request (log ++ more)
      = publishedSince number request log ++ publishedFor request more := by
  induction log with
  | nil => cases subscribed
  | cons observation rest ih =>
      cases observation with
      | subscribed subscription =>
          by_cases same : subscription = number
          · simp only [List.cons_append, publishedSince, if_pos same, publishedFor_append]
          · rcases List.mem_cons.mp subscribed with first | later
            · cases first
              exact absurd rfl same
            · simp only [List.cons_append, publishedSince, if_neg same, ih later]
      | published requestId delta =>
          exact ih ((List.mem_cons.mp subscribed).resolve_left (by intro same; cases same))
      | offered subscription delta =>
          exact ih ((List.mem_cons.mp subscribed).resolve_left (by intro same; cases same))
      | received subscription event =>
          exact ih ((List.mem_cons.mp subscribed).resolve_left (by intro same; cases same))

/-- A text is published for its request only. -/
@[simp] theorem publishedFor_published (requestId : RequestId) (texts : List String)
    : publishedFor request (texts.map (.published requestId))
      = if requestId = request then texts else [] := by
  induction texts with
  | nil => simp [publishedFor]
  | cons text rest ih =>
      simp only [List.map_cons, publishedFor, List.flatMap_cons] at ih ⊢
      rw [ih]
      split <;> rfl

/-- And it reaches one queue. -/
@[simp] theorem offeredTo_offered (subscription : Nat) (texts : List String)
    : offeredTo number (texts.map (.offered subscription))
      = if subscription = number then texts else [] := by
  induction texts with
  | nil => simp [offeredTo]
  | cons text rest ih =>
      simp only [List.map_cons, offeredTo, List.flatMap_cons] at ih ⊢
      rw [ih]
      split <;> rfl

@[simp] theorem offeredTo_published (requestId : RequestId) (texts : List String)
    : offeredTo number (texts.map (.published requestId)) = [] := by
  simp [offeredTo, List.flatMap_map]

@[simp] theorem publishedFor_offered (subscription : Nat) (texts : List String)
    : publishedFor request (texts.map (.offered subscription)) = [] := by
  simp [publishedFor, List.flatMap_map]

@[simp] theorem receivedBy_published (requestId : RequestId) (texts : List String)
    : receivedBy number (texts.map (.published requestId)) = [] := by
  simp [receivedBy, List.flatMap_map]

@[simp] theorem receivedBy_offered (subscription : Nat) (texts : List String)
    : receivedBy number (texts.map (.offered subscription)) = [] := by
  simp [receivedBy, List.flatMap_map]

-----------------------------------------------------------------------------------------
-- What a queue shows
-----------------------------------------------------------------------------------------

/-- The events of a client, received or queued, show the text that reached its queue up to a gap.
-/
structure Shows (s : SubscriptionState) (events : List ServerEvent) (offered : List String)
    : Prop where
  oneGap : OneGap events
  unmarked : s.queue.gapEmitted = false → ∀ event ∈ events, ¬IsGap event
  text : textOf events <+: offered
  whole : s.queue.gapEmitted = false → s.lifetime = .connected → textOf events = offered

/-- The event of a body shows its text, and it is no gap. -/
theorem eventTexts_event : eventTexts (body.event request) = body.texts := by
  cases body <;> rfl

theorem not_isGap_event : ¬IsGap (body.event request) := by
  cases body <;> exact not_false

/-- After events without a gap any event may come. -/
theorem oneGap_concat_of_unmarked {events : List ServerEvent} {event : ServerEvent}
    (unmarked : ∀ event ∈ events, ¬IsGap event)
    : OneGap (events ++ [event]) := by
  rw [OneGap, List.pairwise_append]
  refine ⟨?_, List.pairwise_singleton _ _, ?_⟩
  · refine List.Pairwise.imp_of_mem ?_ (List.pairwise_of_forall (fun _ _ => trivial))
    intro earlier later mem _ _ gap
    exact absurd gap (unmarked earlier mem)
  · intro earlier mem later _ gap
    exact absurd gap (unmarked earlier mem)

/-- An event without text goes on after a gap. -/
theorem OneGap.concat {events : List ServerEvent} {event : ServerEvent} (oneGap : OneGap events)
    (noGap : ¬IsGap event) (noText : eventTexts event = [])
    : OneGap (events ++ [event]) := by
  rw [OneGap, List.pairwise_append]
  refine ⟨oneGap, List.pairwise_singleton _ _, ?_⟩
  intro earlier _ later mem _
  rw [List.mem_singleton.mp mem]
  exact ⟨noGap, noText⟩

/-- What becomes of the queue when text is offered to it. -/
theorem Shows.enqueue {events : List ServerEvent} {offered : List String} {queuedBytes : Nat}
    (shows : Shows s (events ++ s.queue.events.map (·.event)) offered)
    (suppressed : s.queue.suppressText = s.queue.gapEmitted)
    {result : SubscriptionState × Nat}
    (enqueued : Enqueued limits queuedBytes request body s result)
    : Shows result.1 (events ++ result.1.queue.events.map (·.event)) (offered ++ body.texts) := by
  have reaches := shows.text.trans (List.prefix_append offered body.texts)
  cases enqueued with
  | leftOut why =>
      refine ⟨shows.oneGap, shows.unmarked, reaches, ?_⟩
      intro unmarked connected
      rcases why connected with hidden | emitted
      · rw [suppressed, unmarked] at hidden
        cases hidden
      · rw [unmarked] at emitted
        cases emitted
  | queued connected shown room bytes within =>
      simp only [SubscriptionQueue.push, List.map_append, List.map_cons, List.map_nil]
      rw [← List.append_assoc]
      have text : textOf (events ++ s.queue.events.map (·.event) ++ [body.event request])
          = textOf (events ++ s.queue.events.map (·.event)) ++ body.texts := by
        rw [textOf_append, textOf_singleton, eventTexts_event]
      have unmarked : s.queue.gapEmitted = false →
          ∀ event ∈ events ++ s.queue.events.map (·.event) ++ [body.event request],
            ¬IsGap event := by
        intro unmarked event mem
        rcases List.mem_append.mp mem with earlier | last
        · exact shows.unmarked unmarked event earlier
        · rw [List.mem_singleton.mp last]
          exact not_isGap_event
      have whole : s.queue.gapEmitted = false →
          textOf (events ++ s.queue.events.map (·.event) ++ [body.event request])
            = offered ++ body.texts := by
        intro unmarked
        rw [text, shows.whole unmarked connected]
      have silent : s.queue.gapEmitted = true → body.texts = [] := by
        intro emitted
        cases body with
        | text delta =>
            have hidden := shown rfl
            rw [suppressed, emitted] at hidden
            cases hidden
        | activity event => rfl
      have oneGap : OneGap (events ++ s.queue.events.map (·.event) ++ [body.event request]) := by
        cases emitted : s.queue.gapEmitted with
        | false => exact oneGap_concat_of_unmarked (shows.unmarked emitted)
        | true =>
            exact shows.oneGap.concat not_isGap_event (eventTexts_event.trans (silent emitted))
      have reached : textOf (events ++ s.queue.events.map (·.event) ++ [body.event request])
          <+: offered ++ body.texts := by
        cases emitted : s.queue.gapEmitted with
        | false => exact (whole emitted).symm ▸ List.prefix_refl _
        | true =>
            rw [text, silent emitted, List.append_nil, List.append_nil]
            exact shows.text
      exact ⟨oneGap, unmarked, reached, fun unmarked _ => whole unmarked⟩
  | gap connected first =>
      simp only [SubscriptionQueue.emitGap, List.map_append, List.map_cons, List.map_nil]
      rw [← List.append_assoc]
      refine ⟨oneGap_concat_of_unmarked (shows.unmarked first), ?_, ?_, ?_⟩
      · intro unmarked
        cases unmarked
      · have none : textOf [ServerEvent.streamGap request] = [] := rfl
        rw [textOf_append, none, List.append_nil]
        exact reaches
      · intro unmarked
        cases unmarked

-----------------------------------------------------------------------------------------
-- From publishers to a queue
-----------------------------------------------------------------------------------------

/-- The text that a call of `publish` still has for a subscription. -/
def Publication.textsFor (number : Nat) (publication : Publication) : List String :=
  match publication.subscribers with
  | some rest => if number ∈ rest then publication.body.texts else []
  | none => []

/-- The text of a request on its way to a subscription. -/
def passage (hub : StreamHub) (log : List Observation) (number : Nat) (request : RequestId)
    : Passage String :=
  ⟨publishedSince number request log, hub.publishing.flatMap (·.textsFor number),
    offeredTo number log⟩

/-- No two calls of `publish` under way have the request in common. -/
def StreamHub.TakesTurns (hub : StreamHub) (request : RequestId) : Prop :=
  hub.publishing.Pairwise (fun first second =>
    request ∈ first.requests → request ∉ second.requests)

/-- The calls of `publish` have subscribers of their requests, and the record tells of the
subscriptions there are.
-/
structure Coherent (hub : StreamHub) (log : List Observation) : Prop where
  nodup : ∀ publication ∈ hub.publishing, ∀ rest ∈ publication.subscribers, rest.Nodup
  follow : ∀ publication ∈ hub.publishing, ∀ rest ∈ publication.subscribers, ∀ number ∈ rest,
    ∃ s, hub.subscriptions[number]? = some s ∧ s.requestId ∈ publication.requests
  marked : ∀ number, .subscribed number ∈ log ↔ number < hub.subscriptions.length
  silent : ∀ number, hub.subscriptions.length ≤ number →
    offeredTo number log = [] ∧ receivedBy number log = []

/-- The subscribers of a request are its registered subscriptions. -/
theorem mem_subscribers
    : number ∈ hub.subscribers request
      ↔ ∃ s, hub.subscriptions[number]? = some s ∧ s.requestId = request ∧ s.Registered := by
  rw [StreamHub.subscribers, List.mem_filter, List.mem_range]
  constructor
  · rintro ⟨inside, hit⟩
    obtain ⟨s, stored, hit⟩ := (Option.any_eq_true _ _).mp hit
    exact ⟨s, stored, of_decide_eq_true hit⟩
  · rintro ⟨s, stored, hit⟩
    obtain ⟨inside, -⟩ := List.getElem?_eq_some_iff.mp stored
    exact ⟨inside, (Option.any_eq_true _ _).mpr ⟨s, stored, decide_eq_true hit⟩⟩

theorem nodup_subscribers : (hub.subscribers request).Nodup :=
  List.Nodup.filter _ List.nodup_range

/-- A call of `publish` without the request has nothing for the subscription. -/
theorem Coherent.textsFor_eq_nil (coherent : Coherent hub log) {publication : Publication}
    (mem : publication ∈ hub.publishing) (stored : hub.subscriptions[number]? = some s)
    (without : s.requestId ∉ publication.requests)
    : publication.textsFor number = [] := by
  rw [Publication.textsFor]
  cases known : publication.subscribers with
  | none => rfl
  | some rest =>
      refine if_neg (fun waits => without ?_)
      obtain ⟨state, stored', follows⟩ := coherent.follow publication mem rest known number waits
      rw [stored] at stored'
      cases stored'
      exact follows

/-- A call of `publish` that takes its turn is alone with the text of its requests. -/
theorem Coherent.alone (coherent : Coherent hub log) (turns : hub.TakesTurns s.requestId)
    {before after : List Publication} {publication : Publication}
    (parts : hub.publishing = before ++ publication :: after)
    (stored : hub.subscriptions[number]? = some s)
    (carries : s.requestId ∈ publication.requests)
    : before.flatMap (·.textsFor number) = [] ∧ after.flatMap (·.textsFor number) = [] := by
  rw [StreamHub.TakesTurns, parts, List.pairwise_append] at turns
  obtain ⟨-, later, earlier⟩ := turns
  constructor
  · refine List.flatMap_eq_nil_iff.mpr (fun other mem => ?_)
    refine coherent.textsFor_eq_nil ?_ stored (fun shares => ?_)
    · rw [parts]
      exact List.mem_append_left _ mem
    · exact earlier other mem publication List.mem_cons_self shares carries
  · refine List.flatMap_eq_nil_iff.mpr (fun other mem => ?_)
    refine coherent.textsFor_eq_nil ?_ stored ?_
    · rw [parts]
      exact List.mem_append_right _ (List.mem_cons_of_mem _ mem)
    · exact (List.pairwise_cons.mp later).1 other mem carries

-----------------------------------------------------------------------------------------
-- What a step does for one client
-----------------------------------------------------------------------------------------

/-- A subscription goes on with its request, and it is registered no longer than before. -/
def SubscriptionState.GoesOn (s s' : SubscriptionState) : Prop :=
  s'.requestId = s.requestId ∧ (s'.Registered → s.Registered)

/-- The queue is all that an event changes of a subscription. -/
theorem goesOn_enqueue (request : RequestId) (body : PublishedBody) (queuedBytes : Nat)
    : s.GoesOn (s.enqueue limits queuedBytes request body).1 := by
  have cases : Enqueued limits queuedBytes request body s
      (s.enqueue limits queuedBytes request body) := enqueue_cases
  generalize s.enqueue limits queuedBytes request body = result at cases
  cases cases <;> exact ⟨rfl, id⟩

/-- Every subscription goes on, or it is the one that subscribes. -/
theorem Takes.goesOn {action : HubAction} {shown : List Observation}
    (taken : Takes limits hub action hub' shown)
    (stored' : hub'.subscriptions[number]? = some s')
    : (∃ s, hub.subscriptions[number]? = some s ∧ s.GoesOn s')
      ∨ (number = hub.subscriptions.length ∧ shown = [.subscribed number]
          ∧ hub'.publishing = hub.publishing) := by
  have same : ∀ {states : List SubscriptionState}, states[number]? = some s' →
      ∃ s, states[number]? = some s ∧ s.GoesOn s' :=
    fun stored => ⟨s', stored, rfl, id⟩
  have changed : ∀ {changed : Nat} {s next : SubscriptionState},
      hub.subscriptions[changed]? = some s →
      (hub.subscriptions.set changed next)[number]? = some s' → s.GoesOn next →
      ∃ s, hub.subscriptions[number]? = some s ∧ s.GoesOn s' := by
    intro changed s next stored stored' goesOn
    rw [List.getElem?_set] at stored'
    split at stored'
    · rename_i place
      split at stored'
      · cases stored'
        exact ⟨s, place ▸ stored, goesOn⟩
      · cases stored'
    · exact same stored'
  cases taken with
  | subscribe request =>
      rw [List.getElem?_append] at stored'
      split at stored'
      · exact Or.inl (same stored')
      · rename_i outside
        obtain ⟨inside, -⟩ := List.getElem?_eq_some_iff.mp stored'
        rw [List.length_singleton] at inside
        have place : number = hub.subscriptions.length := by omega
        exact Or.inr ⟨place, by rw [place], rfl⟩
  | nothing requests body => exact Or.inl (same stored')
  | publish requests body => exact Or.inl (same stored')
  | snapshot found => exact Or.inl (same stored')
  | served found => exact Or.inl (same stored')
  | enqueue found stored => exact Or.inl (changed stored stored' (goesOn_enqueue _ _ _))
  | receive stored connected first => exact Or.inl (changed stored stored' ⟨rfl, id⟩)
  | leave stored live next ordered =>
      refine Or.inl (changed stored stored' ⟨rfl, fun registered => ?_⟩)
      rcases registered with connected | disconnected
      · exact absurd connected next.1
      · exact ordered disconnected
  | release stored removed =>
      refine Or.inl (changed stored stored' ⟨rfl, fun registered => ?_⟩)
      rcases registered with connected | disconnected
      · cases connected
      · cases disconnected

/-- The number of subscriptions grows by those that subscribe. -/
theorem Takes.length {action : HubAction} {shown : List Observation}
    (taken : Takes limits hub action hub' shown)
    : (shown = [.subscribed hub.subscriptions.length]
        ∧ hub'.subscriptions.length = hub.subscriptions.length + 1)
      ∨ ((∀ number, .subscribed number ∉ shown)
        ∧ hub'.subscriptions.length = hub.subscriptions.length) := by
  cases taken with
  | subscribe request => exact Or.inl ⟨rfl, List.length_append⟩
  | nothing requests body => exact Or.inr ⟨fun _ => List.not_mem_nil, rfl⟩
  | publish requests body => exact Or.inr ⟨fun _ => List.not_mem_nil, rfl⟩
  | snapshot found => exact Or.inr ⟨by simp, rfl⟩
  | served found => exact Or.inr ⟨fun _ => List.not_mem_nil, rfl⟩
  | enqueue found stored => exact Or.inr ⟨by simp, List.length_set⟩
  | receive stored connected first => exact Or.inr ⟨by simp, List.length_set⟩
  | leave stored live next ordered => exact Or.inr ⟨by simp, List.length_set⟩
  | release stored removed => exact Or.inr ⟨by simp, List.length_set⟩

/-- What is shown of a subscription is shown of one that exists. -/
theorem Takes.silent {action : HubAction} {shown : List Observation}
    (taken : Takes limits hub action hub' shown) (outside : hub'.subscriptions.length ≤ number)
    : offeredTo number shown = [] ∧ receivedBy number shown = [] := by
  have apart : ∀ {subscription : Nat} {s : SubscriptionState},
      hub.subscriptions[subscription]? = some s →
      hub.subscriptions.length ≤ number → subscription ≠ number := by
    rintro subscription s stored beyond rfl
    obtain ⟨inside, -⟩ := List.getElem?_eq_some_iff.mp stored
    omega
  cases taken with
  | subscribe request => exact ⟨rfl, rfl⟩
  | nothing requests body => exact ⟨rfl, rfl⟩
  | publish requests body => exact ⟨rfl, rfl⟩
  | snapshot found => exact ⟨offeredTo_published _ _, receivedBy_published _ _⟩
  | served found => exact ⟨rfl, rfl⟩
  | enqueue found stored =>
      have other := apart stored (List.length_set ▸ outside)
      exact ⟨by rw [offeredTo_offered, if_neg other], receivedBy_offered _ _⟩
  | receive stored connected first =>
      have other := apart stored (List.length_set ▸ outside)
      exact ⟨rfl, by simp [receivedBy, other]⟩
  | leave stored live next ordered => exact ⟨rfl, rfl⟩
  | release stored removed => exact ⟨rfl, rfl⟩

/-- Every subscription is still there after a step. -/
theorem Takes.stays {action : HubAction} {shown : List Observation}
    (taken : Takes limits hub action hub' shown) (stored : hub.subscriptions[number]? = some s)
    : ∃ s', hub'.subscriptions[number]? = some s' ∧ s.GoesOn s' := by
  obtain ⟨inside, -⟩ := List.getElem?_eq_some_iff.mp stored
  have inside' : number < hub'.subscriptions.length := by
    rcases taken.length with ⟨-, more⟩ | ⟨-, same⟩ <;> omega
  have stored' := List.getElem?_eq_getElem inside'
  rcases taken.goesOn stored' with ⟨s, found, goesOn⟩ | ⟨last, -, -⟩
  · rw [stored] at found
    cases found
    exact ⟨_, stored', goesOn⟩
  · omega

/-- The calls of `publish` keep to subscribers of their requests. -/
theorem Coherent.step (coherent : Coherent hub log) {action : HubAction}
    {shown : List Observation} (taken : Takes limits hub action hub' shown)
    : Coherent hub' (log ++ shown) := by
  have stays : ∀ {publication : Publication}, publication ∈ hub.publishing →
      ∀ rest ∈ publication.subscribers, ∀ number ∈ rest,
        ∃ s', hub'.subscriptions[number]? = some s' ∧ s'.requestId ∈ publication.requests := by
    intro publication mem rest known number waits
    obtain ⟨s, stored, follows⟩ := coherent.follow publication mem rest known number waits
    obtain ⟨s', stored', same, -⟩ := taken.stays stored
    exact ⟨s', stored', same ▸ follows⟩
  have publishing : ∀ publication ∈ hub'.publishing, ∀ rest ∈ publication.subscribers,
      rest.Nodup ∧ ∀ number ∈ rest,
        ∃ s', hub'.subscriptions[number]? = some s' ∧ s'.requestId ∈ publication.requests := by
    have kept : ∀ publication ∈ hub.publishing, ∀ rest ∈ publication.subscribers,
        rest.Nodup ∧ ∀ number ∈ rest,
          ∃ s', hub'.subscriptions[number]? = some s' ∧ s'.requestId ∈ publication.requests :=
      fun publication mem rest known =>
        ⟨coherent.nodup publication mem rest known, stays mem rest known⟩
    cases taken with
    | subscribe request => exact kept
    | nothing requests body => exact kept
    | publish requests body =>
        intro publication mem rest known
        rcases List.mem_append.mp mem with mem | new
        · exact kept publication mem rest known
        · rw [List.mem_singleton.mp new] at known
          cases known
    | @snapshot number body request requests found =>
        intro publication mem rest known
        rcases List.mem_or_eq_of_mem_set mem with mem | rfl
        · exact kept publication mem rest known
        · cases known
          refine ⟨nodup_subscribers, fun number waits => ?_⟩
          obtain ⟨s, stored, rfl, -⟩ := mem_subscribers.mp waits
          exact ⟨s, stored, List.mem_cons_self⟩
    | served found =>
        intro publication mem rest known
        rcases List.mem_or_eq_of_mem_set mem with mem | rfl
        · exact kept publication mem rest known
        · cases known
    | @enqueue number subscriber body request requests left s found stored =>
        intro publication mem rest known
        rcases List.mem_or_eq_of_mem_set mem with mem | rfl
        · exact kept publication mem rest known
        · cases known
          have before := kept _ (List.mem_of_getElem? found) _ rfl
          exact ⟨(List.nodup_cons.mp before.1).2,
            fun number waits => before.2 number (List.mem_cons_of_mem _ waits)⟩
    | receive stored connected first => exact kept
    | leave stored live next ordered => exact kept
    | release stored removed => exact kept
  refine ⟨fun publication mem rest known => (publishing publication mem rest known).1,
    fun publication mem rest known => (publishing publication mem rest known).2, ?_, ?_⟩
  · intro number
    rw [List.mem_append, coherent.marked]
    rcases taken.length with ⟨same, more⟩ | ⟨none, same⟩
    · rw [same, more, List.mem_singleton, Observation.subscribed.injEq]
      omega
    · rw [same]
      exact or_iff_left (none number)
  · intro number outside
    have before : hub.subscriptions.length ≤ number := by
      rcases taken.length with ⟨-, more⟩ | ⟨-, same⟩ <;> omega
    have earlier := coherent.silent number before
    have now := taken.silent outside
    rw [offeredTo_append, receivedBy_append, earlier.1, earlier.2, now.1, now.2]
    exact ⟨rfl, rfl⟩

/-- A step of the hub is a step of the passage of every subscription. -/
theorem Coherent.passage_step (coherent : Coherent hub log) {action : HubAction}
    {shown : List Observation} (taken : Takes limits hub action hub' shown)
    (stored : hub.subscriptions[number]? = some s)
    : (passage hub log number s.requestId).Step (hub.TakesTurns s.requestId) s.Registered
        (passage hub' (log ++ shown) number s.requestId) := by
  obtain ⟨inside, -⟩ := List.getElem?_eq_some_iff.mp stored
  have since (more : List Observation)
      : publishedSince number s.requestId (log ++ more)
        = publishedSince number s.requestId log ++ publishedFor s.requestId more :=
    publishedSince_append ((coherent.marked number).mpr inside) more
  have still : publishedFor s.requestId shown = [] → offeredTo number shown = [] →
      hub'.publishing.flatMap (·.textsFor number) = hub.publishing.flatMap (·.textsFor number) →
      (passage hub log number s.requestId).Step (hub.TakesTurns s.requestId) s.Registered
        (passage hub' (log ++ shown) number s.requestId) := by
    intro published offered underway
    rw [passage, passage, since, offeredTo_append, published, offered, underway,
      List.append_nil, List.append_nil]
    exact .still _
  cases taken with
  | subscribe request => exact still rfl rfl rfl
  | nothing requests body => exact still rfl rfl rfl
  | publish requests body => exact still rfl rfl (by simp [Publication.textsFor])
  | @snapshot place body request requests found =>
      obtain ⟨before, after, parts, changed⟩ := Collections.exists_set found
      have underway : hub.publishing.flatMap (·.textsFor number)
          = before.flatMap (·.textsFor number) ++ after.flatMap (·.textsFor number) := by
        rw [parts, List.flatMap_append, List.flatMap_cons]
        rfl
      by_cases joins : number ∈ hub.subscribers request
      · obtain ⟨s₁, stored₁, follows, registered⟩ := mem_subscribers.mp joins
        rw [stored] at stored₁
        cases stored₁
        have underway' : (hub.proceed place ⟨body, request :: requests,
            some (hub.subscribers request)⟩).publishing.flatMap (·.textsFor number)
            = before.flatMap (·.textsFor number)
              ++ (body.texts ++ after.flatMap (·.textsFor number)) := by
          rw [StreamHub.proceed, changed, List.flatMap_append, List.flatMap_cons,
            Publication.textsFor]
          simp only [if_pos joins]
        rw [passage, passage, since, offeredTo_append, publishedFor_published,
          offeredTo_published, if_pos follows.symm, List.append_nil, underway, underway']
        exact .published registered (fun turns _ =>
          coherent.alone turns parts stored (follows ▸ List.mem_cons_self))
      · have underway' : (hub.proceed place ⟨body, request :: requests,
            some (hub.subscribers request)⟩).publishing.flatMap (·.textsFor number)
            = hub.publishing.flatMap (·.textsFor number) := by
          rw [StreamHub.proceed, changed, underway, List.flatMap_append, List.flatMap_cons,
            Publication.textsFor]
          simp only [if_neg joins, List.nil_append]
        by_cases follows : request = s.requestId
        · have left : ¬s.Registered := fun registered =>
            joins (mem_subscribers.mpr ⟨s, stored, follows.symm, registered⟩)
          rw [passage, passage, since, offeredTo_append, publishedFor_published,
            offeredTo_published, if_pos follows, List.append_nil, underway']
          exact .missed body.texts left
        · refine still ?_ (offeredTo_published _ _) underway'
          rw [publishedFor_published, if_neg follows]
  | @served place body request requests found =>
      obtain ⟨before, after, parts, changed⟩ := Collections.exists_set found
      refine still rfl rfl ?_
      rw [StreamHub.proceed, changed, parts, List.flatMap_append, List.flatMap_append,
        List.flatMap_cons, List.flatMap_cons]
      rfl
  | @enqueue place subscriber body request requests rest state found stored' =>
      obtain ⟨before, after, parts, changed⟩ := Collections.exists_set found
      have underway : hub.publishing.flatMap (·.textsFor number)
          = before.flatMap (·.textsFor number)
            ++ ((if number ∈ subscriber :: rest then body.texts else [])
              ++ after.flatMap (·.textsFor number)) := by
        rw [parts, List.flatMap_append, List.flatMap_cons]
        rfl
      have underway' : (((hub.change subscriber
            (state.enqueue limits hub.queuedBytes request body).1
            (state.enqueue limits hub.queuedBytes request body).2).proceed place
          ⟨body, request :: requests, some rest⟩).publishing).flatMap (·.textsFor number)
          = before.flatMap (·.textsFor number)
            ++ ((if number ∈ rest then body.texts else [])
              ++ after.flatMap (·.textsFor number)) := by
        rw [StreamHub.proceed, StreamHub.change, changed, List.flatMap_append,
          List.flatMap_cons]
        rfl
      by_cases reaches : subscriber = number
      · subst reaches
        rw [stored] at stored'
        cases stored'
        have mem := List.mem_of_getElem? found
        have once : subscriber ∉ rest :=
          (List.nodup_cons.mp (coherent.nodup _ mem _ rfl)).1
        obtain ⟨s₁, stored₁, carries⟩ := coherent.follow _ mem _ rfl subscriber List.mem_cons_self
        rw [stored] at stored₁
        cases stored₁
        rw [passage, passage, since, offeredTo_append, publishedFor_offered, offeredTo_offered,
          if_pos rfl, List.append_nil, underway, underway', if_pos List.mem_cons_self,
          if_neg once, List.nil_append]
        exact .arrived (fun turns _ => coherent.alone turns parts stored carries)
      · refine still (publishedFor_offered _ _) ?_ ?_
        · rw [offeredTo_offered, if_neg reaches]
        · have same : number ∈ subscriber :: rest ↔ number ∈ rest :=
            List.mem_cons.trans (or_iff_right (fun first => reaches first.symm))
          rw [underway, underway', if_congr same rfl rfl]
  | receive stored connected first => exact still rfl rfl rfl
  | leave stored live next ordered => exact still rfl rfl rfl
  | release stored removed => exact still rfl rfl rfl

-----------------------------------------------------------------------------------------
-- Runs
-----------------------------------------------------------------------------------------

/-- Every client sees the text that reached its queue, up to a gap. -/
def Shown (hub : StreamHub) (log : List Observation) : Prop :=
  ∀ number s, hub.subscriptions[number]? = some s →
    Shows s (receivedBy number log ++ s.queue.events.map (·.event)) (offeredTo number log)

/-- A change of one subscription keeps what the others show. -/
theorem Shown.change (holds : Shown hub log) {changed queuedBytes : Nat}
    {next : SubscriptionState} {shown : List Observation}
    (others : ∀ number, changed ≠ number →
      receivedBy number shown = [] ∧ offeredTo number shown = [])
    (shows : Shows next
      (receivedBy changed (log ++ shown) ++ next.queue.events.map (·.event))
      (offeredTo changed (log ++ shown)))
    : Shown (hub.change changed next queuedBytes) (log ++ shown) := by
  intro number s' stored'
  rw [StreamHub.change, List.getElem?_set] at stored'
  split at stored'
  · rename_i place
    subst place
    split at stored'
    · cases stored'
      exact shows
    · cases stored'
  · rename_i other
    obtain ⟨received, offered⟩ := others number other
    rw [receivedBy_append, offeredTo_append, received, offered, List.append_nil,
      List.append_nil]
    exact holds number s' stored'

/-- A client that leaves keeps what it saw. -/
theorem Shows.leave {events : List ServerEvent} {offered : List String} {lifetime : Lifetime}
    (shows : Shows s events offered) (leaves : lifetime ≠ .connected)
    : Shows { s with lifetime := lifetime } events offered :=
  ⟨shows.oneGap, shows.unmarked, shows.text, fun _ connected => absurd connected leaves⟩

/-- Every step keeps what the clients see. -/
theorem Shown.step (holds : Shown hub log) (accounted : hub.Accounted limits)
    (coherent : Coherent hub log) {action : HubAction} {shown : List Observation}
    (taken : Takes limits hub action hub' shown)
    : Shown hub' (log ++ shown) := by
  have quiet : (∀ number, receivedBy number shown = [] ∧ offeredTo number shown = []) →
      Shown hub (log ++ shown) := by
    intro silent number s stored
    rw [receivedBy_append, offeredTo_append, (silent number).1, (silent number).2,
      List.append_nil, List.append_nil]
    exact holds number s stored
  cases taken with
  | subscribe request =>
      intro number s' stored'
      rw [List.getElem?_append] at stored'
      split at stored'
      · exact quiet (fun _ => ⟨rfl, rfl⟩) number s' stored'
      · rename_i outside
        obtain ⟨offered, received⟩ := coherent.silent number (Nat.le_of_not_lt outside)
        have fresh : s'.queue = ⟨[], 0, false, false⟩ := by
          have new := List.mem_of_getElem? stored'
          rw [List.mem_singleton.mp new]
          rfl
        rw [receivedBy_append, offeredTo_append, offered, received, fresh]
        exact ⟨.nil, (by intro _ _ mem; cases mem), List.prefix_refl _, fun _ _ => rfl⟩
  | nothing requests body => exact quiet (fun _ => ⟨rfl, rfl⟩)
  | publish requests body => exact quiet (fun _ => ⟨rfl, rfl⟩)
  | snapshot found =>
      exact quiet (fun _ => ⟨receivedBy_published _ _, offeredTo_published _ _⟩)
  | served found => exact quiet (fun _ => ⟨rfl, rfl⟩)
  | @enqueue place subscriber body request requests rest s found stored =>
      have suppressed := (accounted.each s (List.mem_of_getElem? stored)).suppressed
      have enqueued : Enqueued limits hub.queuedBytes request body s
          (s.enqueue limits hub.queuedBytes request body) := enqueue_cases
      have shows := (holds subscriber s stored).enqueue suppressed enqueued
      have next : Shown (hub.change subscriber
            (s.enqueue limits hub.queuedBytes request body).1
            (s.enqueue limits hub.queuedBytes request body).2)
          (log ++ body.texts.map (.offered subscriber)) := by
        refine holds.change (fun number other => ⟨receivedBy_offered _ _, ?_⟩) ?_
        · rw [offeredTo_offered, if_neg other]
        · rw [receivedBy_append, offeredTo_append, receivedBy_offered, offeredTo_offered,
            if_pos rfl, List.append_nil]
          exact shows
      exact next
  | @receive place s queued events stored connected first =>
      have shows := holds place s stored
      refine holds.change (fun number other => ⟨by simp [receivedBy, other], rfl⟩) ?_
      have one : receivedBy place [.received place queued.event] = [queued.event] := by
        simp [receivedBy]
      have none : offeredTo place [.received place queued.event] = [] := rfl
      rw [receivedBy_append, offeredTo_append, one, none, List.append_nil, List.append_assoc]
      rw [first, List.map_cons] at shows
      exact ⟨shows.oneGap, shows.unmarked, shows.text, shows.whole⟩
  | @leave place s lifetime stored live next ordered =>
      refine holds.change (fun number other => ⟨rfl, rfl⟩) ?_
      rw [List.append_nil]
      exact (holds place s stored).leave next.1
  | @release place s stored removed =>
      refine holds.change (fun number other => ⟨rfl, rfl⟩) ?_
      rw [List.append_nil]
      exact (holds place s stored).leave (by decide)

/-- Nothing has been published for a client that subscribes. -/
theorem Coherent.passage_eq_empty (coherent : Coherent hub log)
    (place : number = hub.subscriptions.length) (same : hub'.publishing = hub.publishing)
    : passage hub' (log ++ [.subscribed number]) number request = ⟨[], [], []⟩ := by
  have absent : .subscribed number ∉ log := by
    rw [coherent.marked]
    omega
  have underway : hub.publishing.flatMap (·.textsFor number) = [] := by
    refine List.flatMap_eq_nil_iff.mpr (fun publication mem => ?_)
    rw [Publication.textsFor]
    cases known : publication.subscribers with
    | none => rfl
    | some rest =>
        refine if_neg (fun waits => ?_)
        obtain ⟨s, stored, -⟩ := coherent.follow publication mem rest known number waits
        obtain ⟨inside, -⟩ := List.getElem?_eq_some_iff.mp stored
        omega
  have offered := (coherent.silent number place.ge).1
  rw [passage, publishedSince_append_of_not_mem absent, offeredTo_append, offered, same,
    underway, publishedSince, if_pos rfl]
  rfl

/-- Nothing is lost, doubled or made up on the way to any client. -/
def AllConserved (hub : StreamHub) (log : List Observation) : Prop :=
  ∀ number s, hub.subscriptions[number]? = some s →
    (passage hub log number s.requestId).Conserved

/-- The texts of a request reach its clients in order. -/
def AllOrdered (request : RequestId) (hub : StreamHub) (log : List Observation) : Prop :=
  ∀ number s, hub.subscriptions[number]? = some s → s.requestId = request →
    (passage hub log number request).Ordered s.Registered

theorem AllConserved.step (conserved : AllConserved hub log) (coherent : Coherent hub log)
    {action : HubAction} {shown : List Observation}
    (taken : Takes limits hub action hub' shown)
    : AllConserved hub' (log ++ shown) := by
  intro number s' stored'
  rcases taken.goesOn stored' with ⟨s, stored, goesOn⟩ | ⟨place, rfl, same⟩
  · rw [goesOn.1]
    exact (conserved number s stored).step (coherent.passage_step taken stored)
  · rw [coherent.passage_eq_empty place same]
    exact List.Subperm.refl _

theorem AllOrdered.step (ordered : AllOrdered request hub log) (coherent : Coherent hub log)
    (turns : hub.TakesTurns request) {action : HubAction} {shown : List Observation}
    (taken : Takes limits hub action hub' shown)
    : AllOrdered request hub' (log ++ shown) := by
  intro number s' stored' follows
  rcases taken.goesOn stored' with ⟨s, stored, goesOn⟩ | ⟨place, rfl, same⟩
  · have follows' : s.requestId = request := goesOn.1.symm.trans follows
    have step := coherent.passage_step taken stored
    rw [follows'] at step
    exact ((ordered number s stored follows').step turns step).leave goesOn.2
  · rw [coherent.passage_eq_empty place same]
    exact ⟨List.prefix_refl _, fun _ => rfl⟩

/-- No call of `publish` starts while another one has the request. -/
def OrderlyFor (request : RequestId) (hub : StreamHub) : HubAction → Prop
  | .publish requests _ =>
      request ∈ requests → ∀ publication ∈ hub.publishing, request ∉ publication.requests
  | _ => True

/-- So they take turns: a call of `publish` never has more requests than before. -/
theorem StreamHub.TakesTurns.step (turns : hub.TakesTurns request) {action : HubAction}
    {shown : List Observation} (taken : Takes limits hub action hub' shown)
    (orderly : OrderlyFor request hub action)
    : hub'.TakesTurns request := by
  have fewer : ∀ {place : Nat} {publication next : Publication},
      hub.publishing[place]? = some publication →
      (∀ request ∈ next.requests, request ∈ publication.requests) →
      (hub.proceed place next).TakesTurns request := by
    intro place publication next found less
    obtain ⟨before, after, parts, changed⟩ := Collections.exists_set found
    rw [StreamHub.TakesTurns, parts, List.pairwise_append, List.pairwise_cons] at turns
    obtain ⟨first, ⟨own, last⟩, between⟩ := turns
    rw [StreamHub.TakesTurns, StreamHub.proceed, changed, List.pairwise_append,
      List.pairwise_cons]
    refine ⟨first, ⟨fun other mem carries => own other mem (less _ carries), last⟩, ?_⟩
    intro earlier mem later mem' carries carries'
    rcases List.mem_cons.mp mem' with rfl | mem'
    · exact between earlier mem publication List.mem_cons_self carries (less _ carries')
    · exact between earlier mem later (List.mem_cons_of_mem _ mem') carries carries'
  cases taken with
  | subscribe request => exact turns
  | nothing requests body => exact turns
  | publish requests body =>
      rw [StreamHub.TakesTurns, List.pairwise_append]
      refine ⟨turns, List.pairwise_singleton _ _, ?_⟩
      intro earlier mem later new carries carries'
      rw [List.mem_singleton.mp new] at carries'
      exact orderly carries' earlier mem carries
  | snapshot found => exact fewer found (fun _ mem => mem)
  | served found => exact fewer found (fun _ mem => List.mem_cons_of_mem _ mem)
  | enqueue found stored => exact fewer found (fun _ mem => mem)
  | receive stored connected first => exact turns
  | leave stored live next ordered => exact turns
  | release stored removed => exact turns

/-- What every run keeps. -/
theorem reachable_shown
    (reached : ((streamHub limits).recording observe).Reachable (hub, log))
    : Coherent hub log ∧ Shown hub log ∧ AllConserved hub log := by
  refine reached.invariant
    (J := fun pair => Coherent pair.1 pair.2 ∧ Shown pair.1 pair.2 ∧ AllConserved pair.1 pair.2)
    ?_ ?_
  · rintro ⟨hub, log⟩ ⟨rfl, rfl⟩
    refine ⟨⟨?_, ?_, ?_, ?_⟩, ?_, ?_⟩
    · intro publication mem
      cases mem
    · intro publication mem
      cases mem
    · intro number
      exact iff_of_false List.not_mem_nil (Nat.not_lt_zero _)
    · exact fun _ _ => ⟨rfl, rfl⟩
    · intro number s stored
      cases stored
    · intro number s stored
      cases stored
  · rintro ⟨hub, log⟩ action ⟨hub', log'⟩ before ⟨coherent, shown, conserved⟩ ⟨taken, shows⟩
    obtain rfl : log' = log ++ observe hub action hub' := shows
    have accounted := reachable_accounted before.of_recording
    have takes := takes_of_step taken
    exact ⟨coherent.step takes, shown.step accounted coherent takes,
      conserved.step coherent takes⟩

/-- What every run keeps whose calls of `publish` take turns with a request. -/
theorem reachable_ordered
    (reached : (((streamHub limits).restrict (OrderlyFor request)).recording observe).Reachable
      (hub, log))
    : hub.TakesTurns request ∧ AllOrdered request hub log := by
  refine reached.invariant
    (J := fun pair => pair.1.TakesTurns request ∧ AllOrdered request pair.1 pair.2) ?_ ?_
  · rintro ⟨hub, log⟩ ⟨rfl, rfl⟩
    refine ⟨.nil, fun number s stored => ?_⟩
    cases stored
  · rintro ⟨hub, log⟩ action ⟨hub', log'⟩ before ⟨turns, ordered⟩ ⟨⟨orderly, taken⟩, shows⟩
    obtain rfl : log' = log ++ observe hub action hub' := shows
    have takes := takes_of_step taken
    have coherent := (reachable_shown before.recording_of_restrict).1
    exact ⟨turns.step takes orderly, ordered.step coherent turns takes⟩

/-- Text that was received reached the queue. -/
theorem Shows.received {received queued : List ServerEvent} {offered : List String}
    (shows : Shows s (received ++ queued) offered)
    : OneGap received ∧ textOf received <+: offered := by
  refine ⟨(List.pairwise_append.mp shows.oneGap).1, List.IsPrefix.trans ?_ shows.text⟩
  rw [textOf_append]
  exact List.prefix_append _ _

/-- **Every queue and all queues together keep their limits, and every client sees the beginning
of the text of its request, with one gap at the end of it at most.** The text is that published
since the client subscribed: in the order of the calls that publish it if these take turns, and
else in some order.
-/
theorem clients_see_the_beginning (limits : StreamLimits)
    : (∀ hub log, ((streamHub limits).recording observe).Reachable (hub, log) →
        hub.queuedBytes = hub.liveBytes ∧ hub.queuedBytes ≤ limits.globalByteLimit
        ∧ ∀ number s, hub.subscriptions[number]? = some s →
          s.queue.events.length ≤ limits.eventLimit
          ∧ s.queue.queuedBytes = (s.queue.events.map (·.bytes)).sum
          ∧ s.queue.queuedBytes ≤ limits.byteLimit
          ∧ OneGap (receivedBy number log)
          ∧ ∃ order, order.Perm (publishedSince number s.requestId log)
            ∧ textOf (receivedBy number log) <+: order)
      ∧ ∀ request hub log,
        (((streamHub limits).restrict (OrderlyFor request)).recording observe).Reachable
          (hub, log) →
        ∀ number s, hub.subscriptions[number]? = some s → s.requestId = request →
          textOf (receivedBy number log) <+: publishedSince number request log := by
  constructor
  · intro hub log reached
    have accounted := reachable_accounted reached.of_recording
    obtain ⟨coherent, shown, conserved⟩ := reachable_shown reached
    refine ⟨accounted.total, accounted.within, fun number s stored => ?_⟩
    have bounded := accounted.each s (List.mem_of_getElem? stored)
    obtain ⟨oneGap, text⟩ := (shown number s stored).received
    obtain ⟨order, perm, arrived⟩ := (conserved number s stored).exists_order
    exact ⟨bounded.events, bounded.counted, bounded.bytes, oneGap, order, perm,
      text.trans arrived⟩
  · intro request hub log reached number s stored follows
    obtain ⟨-, shown, -⟩ := reachable_shown reached.recording_of_restrict
    obtain ⟨-, text⟩ := (shown number s stored).received
    obtain ⟨-, ordered⟩ := reachable_ordered reached
    have arrived := (ordered number s stored follows).inOrder
    exact text.trans ((List.prefix_append _ _).trans arrived)

-----------------------------------------------------------------------------------------
-- Histories
-----------------------------------------------------------------------------------------

instance (request : RequestId) (hub : StreamHub) : DecidablePred (OrderlyFor request hub) :=
  fun action => by cases action <;> unfold OrderlyFor <;> infer_instance

/-- The hub and what it shows after a history in which a request has its turns. -/
def play (limits : StreamLimits) (request : RequestId)
    : List HubAction → StreamHub × List Observation → Option (StreamHub × List Observation)
  | [], pair => some pair
  | action :: rest, (hub, log) =>
      if OrderlyFor request hub action then
        (hub.next limits action).bind (fun hub' =>
          play limits request rest (hub', log ++ observe hub action hub'))
      else
        none

/-- A history is a run, by induction on it. -/
theorem reachable_play {pair pair' : StreamHub × List Observation}
    (reached : (((streamHub limits).restrict (OrderlyFor request)).recording observe).Reachable
      pair)
    (history : List HubAction) (played : play limits request history pair = some pair')
    : (((streamHub limits).restrict (OrderlyFor request)).recording observe).Reachable
        pair' := by
  induction history generalizing pair with
  | nil =>
      cases played
      exact reached
  | cons action rest ih =>
      rw [play] at played
      split at played
      · rename_i orderly
        obtain ⟨hub', taken, played⟩ := Option.bind_eq_some_iff.mp played
        have next : (((streamHub limits).restrict (OrderlyFor request)).recording observe).Step
            pair action (hub', pair.2 ++ observe pair.1 action hub') :=
          ⟨⟨orderly, taken⟩, rfl⟩
        exact ih (.step reached next) played
      · cases played

namespace Overflown

/-- A queue with room for one event and a gap. -/
def narrow : StreamLimits where
  eventLimit := 2
  byteLimit := 64
  globalByteLimit := 128
  reservesGap := by decide
  byteLimitPositive := by decide
  globalByteLimitPositive := by decide
  representable := by decide

def key : RequestId := ⟨7⟩

/-- Two texts are published to a client that receives only then. -/
def history : List HubAction :=
  [.subscribe key, .publish [key] (.text "hello"), .advance 0, .advance 0, .advance 0,
    .publish [key] (.text " world"), .advance 1, .advance 1, .tryRecv 0, .tryRecv 0]

end Overflown

theorem clients_see_the_beginning_overflown
    : ∃ (hub : StreamHub) (log : List Observation), receivedBy 0 log
          = [.textDelta Overflown.key "hello", .streamGap Overflown.key]
        ∧ publishedSince 0 Overflown.key log = ["hello", " world"]
        ∧ hub.queuedBytes = hub.liveBytes
        ∧ textOf (receivedBy 0 log) <+: publishedSince 0 Overflown.key log := by
  have played : (play Overflown.narrow Overflown.key Overflown.history (⟨0, [], []⟩, [])).any
      (fun pair => receivedBy 0 pair.2
          = [.textDelta Overflown.key "hello", .streamGap Overflown.key]
        ∧ publishedSince 0 Overflown.key pair.2 = ["hello", " world"]
        ∧ pair.1.subscriptions[0]?.any (·.requestId = Overflown.key)) = true := by
    decide +kernel
  obtain ⟨⟨hub, log⟩, played, ended⟩ := (Option.any_eq_true _ _).mp played
  obtain ⟨received, published, follows⟩ := of_decide_eq_true ended
  obtain ⟨s, stored, follows⟩ := (Option.any_eq_true _ _).mp follows
  have initial : (((streamHub Overflown.narrow).restrict
      (OrderlyFor Overflown.key)).recording observe).Initial (⟨0, [], []⟩, []) :=
    ⟨rfl, rfl⟩
  have reached := reachable_play (.initial initial) Overflown.history played
  exact ⟨hub, log, received, published,
    ((clients_see_the_beginning Overflown.narrow).1 hub log reached.recording_of_restrict).1,
    (clients_see_the_beginning Overflown.narrow).2 Overflown.key hub log reached 0 s stored
      (of_decide_eq_true follows)⟩

end Codrik.Runtime.Stream
