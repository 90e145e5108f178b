import Codrik.Transition.System
import Mathlib.Algebra.GroupWithZero.Nat
import Mathlib.Algebra.Ring.Int.Defs
import Mathlib.Data.List.Pairwise
import Mathlib.Data.List.Sort
import Mathlib.Order.Interval.Set.Basic

/-! The worker that polls Telegram for updates (`interfaces/telegram/polling.rs`), and the service
it polls: an update is kept there until a poll asks for later ones. Requests and responses may be
lost or late, and the worker may stop anywhere and be started again.
-/

namespace Codrik.Interfaces.Telegram.Polling

open Codrik.Transition

-----------------------------------------------------------------------------------------
-- The worker
-----------------------------------------------------------------------------------------

def pollLimit : Nat := 100

/-- `i64::MAX` -/
def maxUpdateId : Int := 2 ^ 63 - 1

/-- `retry_delay`, in seconds -/
def retryDelay (failures : Nat) (retryAfter : Option Nat) : Nat :=
  retryAfter.getD (min (if failures < 64 then 2 ^ failures else 2 ^ 64 - 1) 30)

/-- `u32::saturating_add(1)` -/
def saturatingSucc (failures : Nat) : Nat := min (failures + 1) (2 ^ 32 - 1)

/-- The variables of `run`. -/
structure Poller where
  offset : Option Int
  pollFailures : Nat
  ingressFailures : Nat
deriving DecidableEq

def Poller.initial : Poller := ⟨none, 0, 0⟩

/-- `offset.map_or(next, |current| current.max(next))` -/
def Poller.advance (p : Poller) (next : Int) : Poller :=
  { p with offset := some (p.offset.elim next (max · next)) }

/-- Where `run` is: at the head of its loop, waiting for the response to a request, handling the
updates of a response, waiting before it tries again, or not running.
-/
inductive Phase
  | down
  | polling (p : Poller)
  | asking (p : Poller) (token : Nat)
  | handling (p : Poller) (updates : List Int)
  | resting (p : Poller) (delay : Nat)
deriving DecidableEq

def Phase.poller? : Phase → Option Poller
  | .down => none
  | .polling p | .asking p _ | .handling p _ | .resting p _ => some p

/-- The ingress was given an update in some run of the worker, and has handled it or failed. -/
structure Handled where
  run : Nat
  id : Int
  ok : Bool
deriving DecidableEq

/-- The service with the ids of all updates so far and of those it still keeps, the requests and
responses on their way with the token that pairs them, the worker, and what the ingress was given.
-/
structure World where
  posted : List Int
  waiting : List Int
  requests : List (Nat × Option Int)
  responses : List (Nat × List Int)
  tokens : Nat
  phase : Phase
  run : Nat
  log : List Handled

/-- What the service keeps when it is asked with an offset. -/
def World.kept (w : World) (offset : Option Int) : List Int :=
  w.waiting.filter (fun id => offset.all (fun o => o ≤ id))

inductive Act
  | post | serve | start | ask | receive | fail | interrupt | handle | refuse | rest | finish | stop

inductive Step (w : World) : Act → World → Prop
  -- the service
  | posts {id} (newer : ∀ other ∈ w.posted, other < id) (small : id ≤ maxUpdateId)
    : Step w .post { w with posted := w.posted ++ [id], waiting := w.waiting ++ [id] }
  | serves {token offset n answer} (sent : (token, offset) ∈ w.requests) (within : n ≤ pollLimit)
      (order : answer.Perm ((w.kept offset).take n))
    : Step w .serve { w with
        waiting := w.kept offset
        requests := w.requests.erase (token, offset)
        responses := (token, answer) :: w.responses }
  -- the loop of `run`
  | starts (here : w.phase = .down)
    : Step w .start { w with phase := .polling .initial, run := w.run + 1 }
  | asks {p} (here : w.phase = .polling p)
    : Step w .ask { w with
        requests := (w.tokens, p.offset) :: w.requests
        tokens := w.tokens + 1
        phase := .asking p w.tokens }
  | receives {p token answer} (here : w.phase = .asking p token)
      (arrived : (token, answer) ∈ w.responses)
    : Step w .receive { w with
        phase := .handling { p with pollFailures := 0 } (answer.mergeSort (· ≤ ·)) }
  | fails {p token} (here : w.phase = .asking p token) (retryAfter : Option Nat)
    : Step w .fail { w with
        phase := .resting { p with pollFailures := saturatingSucc p.pollFailures }
          (retryDelay p.pollFailures retryAfter) }
  -- the shutdown channel changed, but not to `true`
  | interrupted {p token} (here : w.phase = .asking p token)
    : Step w .interrupt { w with phase := .polling p }
  | handles {p update rest} (here : w.phase = .handling p (update :: rest))
      (small : update < maxUpdateId)
    : Step w .handle { w with
        log := w.log ++ [⟨w.run, update, true⟩]
        phase := .handling { p.advance (update + 1) with ingressFailures := 0 } rest }
  -- the next offset overflows
  | overflows {p update rest} (here : w.phase = .handling p (update :: rest))
      (last : update = maxUpdateId)
    : Step w .handle { w with log := w.log ++ [⟨w.run, update, true⟩], phase := .down }
  | refuses {p update rest} (here : w.phase = .handling p (update :: rest))
    : Step w .refuse { w with
        log := w.log ++ [⟨w.run, update, false⟩]
        phase := .resting
          { p.advance update with ingressFailures := saturatingSucc p.ingressFailures }
          (retryDelay p.ingressFailures none) }
  | rests {p delay} (here : w.phase = .resting p delay)
    : Step w .rest { w with phase := .polling p }
  | finishes {p} (here : w.phase = .handling p [])
    : Step w .finish { w with phase := .polling p }
  -- shutdown, an error that ends the worker, or a crash
  | stops : Step w .stop { w with phase := .down }

/-- The service and the worker, from the time when the bot has no updates. -/
def polling : System World Act where
  Initial w := w.posted = [] ∧ w.waiting = [] ∧ w.requests = [] ∧ w.responses = []
    ∧ w.phase = .down ∧ w.log = []
  Step := Step

-----------------------------------------------------------------------------------------
-- No update is lost
-----------------------------------------------------------------------------------------

variable {w w' : World} {act : Act} {id o : Int} {ids : List Int}

/-- The ingress has handled the update. -/
def World.Done (w : World) (id : Int) : Prop := ∃ entry ∈ w.log, entry.id = id ∧ entry.ok = true

/-- Whatever comes before the offset is done, and the offset is not ahead of the updates. -/
def World.Confirms (w : World) (o : Int) : Prop :=
  (∀ id ∈ w.posted, id < o → w.Done id) ∧ ∃ id ∈ w.posted, o ≤ id + 1

/-- Whatever comes before one of the updates is done or is one of them. -/
def World.Complete (w : World) (ids : List Int) : Prop :=
  (∀ update ∈ ids, update ∈ w.posted)
    ∧ ∀ update ∈ ids, ∀ id ∈ w.posted, id < update → w.Done id ∨ id ∈ ids

/-- The service has forgotten done updates only, everybody knows of such offsets only, and no
update was handled before an earlier one.
-/
structure Sound (w : World) : Prop where
  ascending : w.posted.Pairwise (· < ·)
  kept : w.waiting.Sublist w.posted
  forgotten : ∀ id ∈ w.posted, id ∉ w.waiting → w.Done id
  requests : ∀ token o, (token, some o) ∈ w.requests → w.Confirms o
  responses : ∀ token answer, (token, answer) ∈ w.responses →
    w.Complete answer ∧ answer.Nodup
  poller : ∀ p ∈ w.phase.poller?, ∀ o ∈ p.offset, w.Confirms o
  handling : ∀ p updates, w.phase = .handling p updates →
    updates.Pairwise (· < ·) ∧ w.Complete updates
  logged : ∀ entry ∈ w.log, w.Confirms entry.id

/-- Nothing is undone, and the updates stay. -/
structure World.Extends (w w' : World) : Prop where
  posted : ∀ id, id ∈ w'.posted ↔ id ∈ w.posted
  log : ∀ entry ∈ w.log, entry ∈ w'.log

theorem World.Extends.done (extends' : w.Extends w') (done : w.Done id) : w'.Done id := by
  obtain ⟨entry, mem, own⟩ := done
  exact ⟨entry, extends'.log entry mem, own⟩

theorem World.Extends.confirms (extends' : w.Extends w') (confirms : w.Confirms o)
    : w'.Confirms o := by
  obtain ⟨before, last, mem, near⟩ := confirms
  exact ⟨fun id posted below => extends'.done (before id ((extends'.posted id).mp posted) below),
    last, (extends'.posted last).mpr mem, near⟩

theorem World.Extends.complete (extends' : w.Extends w') (complete : w.Complete ids)
    : w'.Complete ids := by
  refine ⟨fun update mem => (extends'.posted update).mpr (complete.1 update mem), ?_⟩
  intro update mem id posted below
  exact (complete.2 update mem id ((extends'.posted id).mp posted) below).imp_left extends'.done

/-- A step of the worker keeps what is known of the service and of what is on its way. -/
theorem Sound.works (sound : Sound w) (extends' : w.Extends w') (posted : w'.posted = w.posted)
    (waiting : w'.waiting = w.waiting)
    (requests : ∀ token o, (token, some o) ∈ w'.requests →
      (token, some o) ∈ w.requests ∨ w'.Confirms o)
    (responses : w'.responses = w.responses)
    (poller : ∀ p ∈ w'.phase.poller?, ∀ o ∈ p.offset, w'.Confirms o)
    (handling : ∀ p updates, w'.phase = .handling p updates →
      updates.Pairwise (· < ·) ∧ w'.Complete updates)
    (logged : ∀ entry ∈ w'.log, entry ∈ w.log ∨ w'.Confirms entry.id)
    : Sound w' where
  ascending := posted ▸ sound.ascending
  kept := posted ▸ waiting ▸ sound.kept
  forgotten id mem gone :=
    extends'.done (sound.forgotten id ((extends'.posted id).mp mem) (waiting ▸ gone))
  requests token o mem := (requests token o mem).elim
    (fun old => extends'.confirms (sound.requests token o old)) id
  responses token answer mem := by
    obtain ⟨complete, nodup⟩ := sound.responses token answer (responses ▸ mem)
    exact ⟨extends'.complete complete, nodup⟩
  poller := poller
  handling := handling
  logged entry mem := (logged entry mem).elim
    (fun old => extends'.confirms (sound.logged entry old)) id

/-- What is asked for is answered with the first of the updates that are left. -/
theorem Sound.answer {offset : Option Int} {n : Nat} {answer : List Int} (sound : Sound w)
    (confirms : ∀ o ∈ offset, w.Confirms o) (order : answer.Perm ((w.kept offset).take n))
    : w.Complete answer ∧ answer.Nodup := by
  have sub : ((w.kept offset).take n).Sublist w.posted :=
    (List.take_sublist _ _).trans (List.filter_sublist.trans sound.kept)
  have keptAscending : (w.kept offset).Pairwise (· < ·) :=
    sound.ascending.sublist (List.filter_sublist.trans sound.kept)
  refine ⟨⟨fun update mem => sub.subset (order.mem_iff.mp mem), ?_⟩,
    order.nodup_iff.mpr ((sound.ascending.sublist sub).imp (fun less => ne_of_lt less))⟩
  intro update mem id posted below
  by_cases waits : id ∈ w.waiting
  · by_cases confirmed : ∃ o ∈ offset, id < o
    · obtain ⟨o, known, before⟩ := confirmed
      exact Or.inl ((confirms o known).1 id posted before)
    · -- it is kept before one that is among the first
      have kept : id ∈ w.kept offset := by
        refine List.mem_filter.mpr ⟨waits, ?_⟩
        cases offset with
        | none => rfl
        | some o => exact decide_eq_true (not_lt.mp (fun less => confirmed ⟨o, rfl, less⟩))
      right
      have first := order.mem_iff.mp mem
      rw [← List.take_append_drop n (w.kept offset)] at kept keptAscending
      rcases List.mem_append.mp kept with among | later
      · exact order.mem_iff.mpr among
      · have less := (List.pairwise_append.mp keptAscending).2.2 update first id later
        exact absurd less (not_lt.mpr (le_of_lt below))
  · exact Or.inl (sound.forgotten id posted waits)

/-- A later update is not before an offset that was confirmed. -/
theorem World.Confirms.post (confirms : w.Confirms o) (newer : ∀ other ∈ w.posted, other < id)
    : { w with posted := w.posted ++ [id], waiting := w.waiting ++ [id] }.Confirms o := by
  obtain ⟨before, last, mem, near⟩ := confirms
  refine ⟨?_, last, List.mem_append_left _ mem, near⟩
  intro other mem' below
  rcases List.mem_append.mp mem' with old | new
  · exact before other old below
  · obtain rfl := List.mem_singleton.mp new
    have := newer last mem
    omega

theorem World.Complete.post (complete : w.Complete ids) (newer : ∀ other ∈ w.posted, other < id)
    : { w with posted := w.posted ++ [id], waiting := w.waiting ++ [id] }.Complete ids := by
  refine ⟨fun update mem => List.mem_append_left _ (complete.1 update mem), ?_⟩
  intro update mem other mem' below
  rcases List.mem_append.mp mem' with old | new
  · exact complete.2 update mem other old below
  · obtain rfl := List.mem_singleton.mp new
    exact absurd (newer update (complete.1 update mem)) (not_lt.mpr (le_of_lt below))

theorem Sound.posts (sound : Sound w) (newer : ∀ other ∈ w.posted, other < id)
    : Sound { w with posted := w.posted ++ [id], waiting := w.waiting ++ [id] } where
  ascending := by
    refine List.pairwise_append.mpr ⟨sound.ascending, List.pairwise_singleton _ _, ?_⟩
    intro other mem last mem'
    exact List.mem_singleton.mp mem' ▸ newer other mem
  kept := sound.kept.append (.refl [id])
  forgotten other mem gone := by
    rcases List.mem_append.mp mem with old | new
    · exact sound.forgotten other old (fun waits => gone (List.mem_append_left _ waits))
    · exact absurd (List.mem_append_right _ new) gone
  requests token o mem := (sound.requests token o mem).post newer
  responses token answer mem := (sound.responses token answer mem).imp_left (·.post newer)
  poller p mem o known := (sound.poller p mem o known).post newer
  handling p updates here := (sound.handling p updates here).imp_right (·.post newer)
  logged entry mem := (sound.logged entry mem).post newer

theorem Sound.serves {token : Nat} {offset : Option Int} {n : Nat} {answer : List Int}
    (sound : Sound w) (sent : (token, offset) ∈ w.requests)
    (order : answer.Perm ((w.kept offset).take n))
    : Sound { w with
        waiting := w.kept offset
        requests := w.requests.erase (token, offset)
        responses := (token, answer) :: w.responses } := by
  have confirms : ∀ o ∈ offset, w.Confirms o := by
    rintro o rfl
    exact sound.requests token o sent
  refine ⟨sound.ascending, List.filter_sublist.trans sound.kept, ?_, ?_, ?_, sound.poller,
    sound.handling, sound.logged⟩
  · intro id posted gone
    by_cases waits : id ∈ w.waiting
    · by_cases confirmed : ∃ o ∈ offset, id < o
      · obtain ⟨o, known, before⟩ := confirmed
        exact (confirms o known).1 id posted before
      · refine absurd (List.mem_filter.mpr ⟨waits, ?_⟩) gone
        cases offset with
        | none => rfl
        | some o => exact decide_eq_true (not_lt.mp (fun less => confirmed ⟨o, rfl, less⟩))
    · exact sound.forgotten id posted waits
  · exact fun token o mem => sound.requests token o (List.mem_of_mem_erase mem)
  · intro token' answer' mem
    rcases List.mem_cons.mp mem with same | old
    · cases same
      exact sound.answer confirms order
    · exact sound.responses token' answer' old

theorem World.Extends.refl (w : World) : w.Extends w := ⟨fun _ => Iff.rfl, fun _ mem => mem⟩

/-- An offset that was moved on is the old one or the next one. -/
theorem mem_advance {p : Poller} {next : Int} (known : o ∈ (p.advance next).offset)
    : o = next ∨ o ∈ p.offset := by
  obtain rfl := Option.some.inj known
  cases before : p.offset with
  | none => exact Or.inl rfl
  | some current =>
      rcases le_total current next with le | le
      · exact Or.inl (max_eq_right le)
      · exact Or.inr (congrArg some (max_eq_left le).symm)

/-- The updates of a response in the order they are handled in. -/
theorem pairwise_sorted {answer : List Int} (nodup : answer.Nodup)
    : (answer.mergeSort (· ≤ ·)).Pairwise (· < ·) := by
  have ordered : (answer.mergeSort (· ≤ ·)).Pairwise (fun a b => decide (a ≤ b) = true) := by
    apply List.pairwise_mergeSort
    · intro a b c first second
      simp only [decide_eq_true_eq] at first second ⊢
      exact le_trans first second
    · intro a b
      simpa using le_total a b
  have distinct : (answer.mergeSort (· ≤ ·)).Nodup :=
    (List.mergeSort_perm answer _).nodup_iff.mpr nodup
  exact (ordered.and distinct).imp (fun both => lt_of_le_of_ne (of_decide_eq_true both.1) both.2)

theorem World.Complete.perm {others : List Int} (complete : w.Complete ids)
    (order : others.Perm ids)
    : w.Complete others := by
  refine ⟨fun update mem => complete.1 update (order.mem_iff.mp mem), ?_⟩
  intro update mem id posted below
  exact (complete.2 update (order.mem_iff.mp mem) id posted below).imp_right order.mem_iff.mpr

/-- Where the first of the updates is done, so is whatever comes before its successor. -/
theorem confirms_first {update : Int} {rest : List Int}
    (ascending : (update :: rest).Pairwise (· < ·)) (complete : w.Complete (update :: rest))
    : w.Confirms update ∧ (w.Done update → w.Confirms (update + 1)) := by
  have posted : update ∈ w.posted := complete.1 update List.mem_cons_self
  have before : ∀ id ∈ w.posted, id < update → w.Done id := by
    intro id mem below
    rcases complete.2 update List.mem_cons_self id mem below with done | among
    · exact done
    · rcases List.mem_cons.mp among with rfl | later
      · exact absurd below (lt_irrefl _)
      · exact absurd ((List.pairwise_cons.mp ascending).1 id later) (not_lt.mpr (le_of_lt below))
  refine ⟨⟨before, update, posted, by omega⟩, fun done => ⟨?_, update, posted, le_refl _⟩⟩
  intro id mem below
  rcases eq_or_lt_of_le (Int.lt_add_one_iff.mp below) with rfl | less
  · exact done
  · exact before id mem less

/-- The rest is complete once the first is done. -/
theorem World.Complete.tail {update : Int} {rest : List Int}
    (complete : w.Complete (update :: rest)) (done : w.Done update)
    : w.Complete rest := by
  refine ⟨fun other mem => complete.1 other (List.mem_cons_of_mem _ mem), ?_⟩
  intro other mem id posted below
  rcases complete.2 other (List.mem_cons_of_mem _ mem) id posted below with earlier | among
  · exact Or.inl earlier
  · rcases List.mem_cons.mp among with rfl | later
    · exact Or.inl done
    · exact Or.inr later

/-- A new entry of the log. -/
theorem extends_log (w : World) (entry : Handled) (phase : Phase)
    : w.Extends { w with log := w.log ++ [entry], phase := phase } :=
  ⟨fun _ => Iff.rfl, fun _ mem => List.mem_append_left _ mem⟩

theorem Sound.step (sound : Sound w) (step : Step w act w') : Sound w' := by
  -- the worker goes on with the offset it has
  have goes : ∀ {phase : Phase} {p : Poller}, w.phase.poller? = some p →
      (∀ q ∈ phase.poller?, q.offset = p.offset) →
      (∀ q updates, phase = .handling q updates →
        updates.Pairwise (· < ·) ∧ w.Complete updates) →
      Sound { w with phase := phase } := by
    intro phase p here same handling
    refine sound.works ⟨fun _ => Iff.rfl, fun _ mem => mem⟩ rfl rfl (fun _ _ mem => Or.inl mem) rfl
      ?_ handling (fun _ mem => Or.inl mem)
    intro q mem o known
    exact sound.poller p here o (same q mem ▸ known)
  have logs : ∀ {t : World} {entry : Handled}, t.Confirms entry.id →
      ∀ other ∈ w.log ++ [entry], other ∈ w.log ∨ t.Confirms other.id := by
    intro t entry confirms other mem
    rcases List.mem_append.mp mem with old | new
    · exact Or.inl old
    · exact Or.inr (List.mem_singleton.mp new ▸ confirms)
  cases step with
  | posts newer small => exact sound.posts newer
  | serves sent within order => exact sound.serves sent order
  | starts here =>
      refine sound.works ⟨fun _ => Iff.rfl, fun _ mem => mem⟩ rfl rfl
        (fun _ _ mem => Or.inl mem) rfl ?_ (fun _ _ same => by cases same) (fun _ mem => Or.inl mem)
      intro p mem o known
      cases Option.some.inj mem
      cases known
  | @asks p here =>
      have own : ∀ o ∈ p.offset, w.Confirms o := sound.poller p (by simp [here, Phase.poller?])
      refine sound.works ⟨fun _ => Iff.rfl, fun _ mem => mem⟩ rfl rfl ?_ rfl ?_
        (fun _ _ same => by cases same) (fun _ mem => Or.inl mem)
      · intro token o mem
        rcases List.mem_cons.mp mem with same | old
        · exact Or.inr (own o (Prod.mk.inj same).2.symm)
        · exact Or.inl old
      · intro q mem o known
        cases Option.some.inj mem
        exact own o known
  | @receives p token answer here arrived =>
      obtain ⟨complete, nodup⟩ := sound.responses token answer arrived
      refine goes (p := p) (by simp [here, Phase.poller?]) ?_ ?_
      · intro q mem
        cases Option.some.inj mem
        rfl
      · intro q updates same
        cases same
        exact ⟨pairwise_sorted nodup, complete.perm (List.mergeSort_perm _ _)⟩
  | @fails p token here retryAfter =>
      refine goes (p := p) (by simp [here, Phase.poller?]) ?_ (fun _ _ same => by cases same)
      intro q mem
      cases Option.some.inj mem
      rfl
  | @interrupted p token here =>
      refine goes (p := p) (by simp [here, Phase.poller?]) ?_ (fun _ _ same => by cases same)
      intro q mem
      cases Option.some.inj mem
      rfl
  | @handles p update rest here small =>
      obtain ⟨ascending, complete⟩ := sound.handling _ _ here
      have extends' := extends_log w ⟨w.run, update, true⟩
        (.handling { p.advance (update + 1) with ingressFailures := 0 } rest)
      have done : World.Done { w with
          log := w.log ++ [⟨w.run, update, true⟩]
          phase := .handling { p.advance (update + 1) with ingressFailures := 0 } rest } update :=
        ⟨_, List.mem_append_right _ (List.mem_singleton.mpr rfl), rfl, rfl⟩
      have complete' := extends'.complete complete
      refine sound.works extends' rfl rfl (fun _ _ mem => Or.inl mem) rfl ?_ ?_
        (logs (confirms_first ascending complete').1)
      · intro q mem o known
        cases Option.some.inj mem
        rcases mem_advance known with rfl | old
        · exact (confirms_first ascending complete').2 done
        · exact extends'.confirms (sound.poller p (by simp [here, Phase.poller?]) o old)
      · intro q updates same
        cases same
        exact ⟨(List.pairwise_cons.mp ascending).2, complete'.tail done⟩
  | @overflows p update rest here last =>
      obtain ⟨ascending, complete⟩ := sound.handling _ _ here
      have extends' := extends_log w ⟨w.run, update, true⟩ .down
      refine sound.works extends' rfl rfl (fun _ _ mem => Or.inl mem) rfl ?_
        (fun _ _ same => by cases same)
        (logs (extends'.confirms (confirms_first ascending complete).1))
      intro q mem
      cases mem
  | @refuses p update rest here =>
      obtain ⟨ascending, complete⟩ := sound.handling _ _ here
      have extends' := extends_log w ⟨w.run, update, false⟩
        (.resting { p.advance update with ingressFailures := saturatingSucc p.ingressFailures }
          (retryDelay p.ingressFailures none))
      refine sound.works extends' rfl rfl (fun _ _ mem => Or.inl mem) rfl ?_
        (fun _ _ same => by cases same)
        (logs (extends'.confirms (confirms_first ascending complete).1))
      intro q mem o known
      cases Option.some.inj mem
      rcases mem_advance known with rfl | old
      · exact extends'.confirms (confirms_first ascending complete).1
      · exact extends'.confirms (sound.poller p (by simp [here, Phase.poller?]) o old)
  | @rests p delay here =>
      refine goes (p := p) (by simp [here, Phase.poller?]) ?_ (fun _ _ same => by cases same)
      intro q mem
      cases Option.some.inj mem
      rfl
  | @finishes p here =>
      refine goes (p := p) (by simp [here, Phase.poller?]) ?_ (fun _ _ same => by cases same)
      intro q mem
      cases Option.some.inj mem
      rfl
  | stops =>
      refine sound.works ⟨fun _ => Iff.rfl, fun _ mem => mem⟩ rfl rfl
        (fun _ _ mem => Or.inl mem) rfl ?_ (fun _ _ same => by cases same) (fun _ mem => Or.inl mem)
      intro q mem
      cases mem

theorem reachable_sound (reached : polling.Reachable w) : Sound w := by
  refine reached.invariant ?_ (fun _ _ _ _ sound step => sound.step step)
  rintro w ⟨posted, waiting, requests, responses, phase, log⟩
  constructor <;> simp [posted, waiting, requests, responses, phase, log, Phase.poller?]

/-- Whatever is lost or late and wherever the worker stops, an update that the service no longer
keeps has been handled by the ingress.
-/
theorem updates_kept (reached : polling.Reachable w) (posted : id ∈ w.posted)
    (forgotten : id ∉ w.waiting)
    : ∃ entry ∈ w.log, entry.id = id ∧ entry.ok = true :=
  (reachable_sound reached).forgotten id posted forgotten

-----------------------------------------------------------------------------------------
-- The order of the updates
-----------------------------------------------------------------------------------------

/-- One run of the worker gives updates to the ingress in their order, again after a failure only. -/
def InOrder (earlier later : Handled) : Prop :=
  earlier.run = later.run →
    earlier.id ≤ later.id ∧ (earlier.ok = true → earlier.id < later.id)

/-- The entry is before the offset, or at it and failed. -/
def Handled.Behind (entry : Handled) (offset : Option Int) : Prop :=
  ∃ o ∈ offset, entry.id ≤ o ∧ (entry.ok = true → entry.id < o)

/-- The offset of a run is beyond what the run has handled, and what the run is given is not before
the offset: responses belong to the requests they are paired with.
-/
structure Ordered (w : World) : Prop where
  requests : ∀ request ∈ w.requests, request.1 < w.tokens
  responses : ∀ response ∈ w.responses, response.1 < w.tokens
  asking : ∀ p token, w.phase = .asking p token →
    (∀ offset, (token, offset) ∈ w.requests → offset = p.offset)
      ∧ ∀ answer, (token, answer) ∈ w.responses → ∀ update ∈ answer, ∀ o ∈ p.offset, o ≤ update
  handling : ∀ p updates, w.phase = .handling p updates → ∀ update ∈ updates, ∀ o ∈ p.offset,
    o ≤ update
  runs : ∀ entry ∈ w.log, entry.run ≤ w.run
  current : ∀ p ∈ w.phase.poller?, ∀ entry ∈ w.log, entry.run = w.run → entry.Behind p.offset
  log : w.log.Pairwise InOrder

/-- A step that leaves the requests, the responses and the log alone. -/
theorem Ordered.goes {phase : Phase} {p : Poller} (ordered : Ordered w)
    (here : w.phase.poller? = some p) (same : ∀ q ∈ phase.poller?, q.offset = p.offset)
    (asking : ∀ q token, phase ≠ .asking q token)
    (handling : ∀ q updates, phase = .handling q updates → ∀ update ∈ updates, ∀ o ∈ q.offset,
      o ≤ update)
    : Ordered { w with phase := phase } where
  requests := ordered.requests
  responses := ordered.responses
  asking q token here := absurd here (asking q token)
  handling := handling
  runs := ordered.runs
  current q mem entry logged own := by
    rw [same q mem]
    exact ordered.current p here entry logged own
  log := ordered.log

/-- The next entry of a run is not before the others. -/
theorem Ordered.appends {p : Poller} {update : Int} {rest : List Int} {ok : Bool}
    (ordered : Ordered w) (here : w.phase = .handling p (update :: rest))
    : (w.log ++ [(⟨w.run, update, ok⟩ : Handled)]).Pairwise InOrder
      ∧ ∀ entry ∈ w.log ++ [(⟨w.run, update, ok⟩ : Handled)], entry.run ≤ w.run := by
  constructor
  · refine List.pairwise_append.mpr ⟨ordered.log, List.pairwise_singleton _ _, ?_⟩
    intro entry mem later mem'
    obtain rfl := List.mem_singleton.mp mem'
    intro own
    obtain ⟨o, known, behind, before⟩ := ordered.current p (by simp [here, Phase.poller?]) entry mem
      own
    have next := ordered.handling p _ here update List.mem_cons_self o known
    exact ⟨le_trans behind next, fun ok => lt_of_lt_of_le (before ok) next⟩
  · intro entry mem
    rcases List.mem_append.mp mem with old | new
    · exact ordered.runs entry old
    · obtain rfl := List.mem_singleton.mp new
      exact le_refl _

/-- An offset that was moved on is beyond what it was beyond. -/
theorem Handled.Behind.advance {entry : Handled} {p : Poller} (behind : entry.Behind p.offset)
    (next : Int)
    : entry.Behind (p.advance next).offset := by
  obtain ⟨o, known, le, less⟩ := behind
  refine ⟨max o next, ?_, le_trans le (le_max_left _ _),
    fun ok => lt_of_lt_of_le (less ok) (le_max_left _ _)⟩
  rw [Poller.advance, Option.mem_def.mp known]
  rfl

/-- It is at least at the next one. -/
theorem advance_next (p : Poller) (next : Int) : ∃ o ∈ (p.advance next).offset, next ≤ o := by
  refine ⟨_, rfl, ?_⟩
  cases p.offset with
  | none => exact le_refl _
  | some current => exact le_max_right _ _

theorem Ordered.step (ordered : Ordered w) (sound : Sound w) (step : Step w act w')
    : Ordered w' := by
  cases step with
  | posts newer small => exact { ordered with }
  | @serves token offset n answer sent within order =>
      refine { ordered with requests := ?_, responses := ?_, asking := ?_ }
      · exact fun request mem => ordered.requests request (List.mem_of_mem_erase mem)
      · intro response mem
        rcases List.mem_cons.mp mem with rfl | old
        · exact ordered.requests _ sent
        · exact ordered.responses response old
      · intro p token' here
        obtain ⟨requests, responses⟩ := ordered.asking p token' here
        refine ⟨fun other mem => requests other (List.mem_of_mem_erase mem), ?_⟩
        intro answer' mem
        rcases List.mem_cons.mp mem with same | old
        · cases same
          intro update among o known
          have kept := (List.take_subset _ _) (order.mem_iff.mp among)
          have own : offset = some o := (requests offset sent).trans known
          subst own
          exact of_decide_eq_true (List.mem_filter.mp kept).2
        · exact responses answer' old
  | starts here =>
      refine { ordered with asking := ?_, handling := ?_, runs := ?_, current := ?_ }
      · exact fun _ _ same => by cases same
      · exact fun _ _ same => by cases same
      · exact fun entry mem => Nat.le_succ_of_le (ordered.runs entry mem)
      · intro p mem entry logged own
        have := ordered.runs entry logged
        dsimp only at own
        omega
  | @asks p here =>
      refine { ordered with
        requests := ?_, responses := ?_, asking := ?_, handling := ?_, current := ?_ }
      · intro request mem
        rcases List.mem_cons.mp mem with rfl | old
        · exact Nat.lt_succ_self _
        · exact Nat.lt_succ_of_lt (ordered.requests request old)
      · exact fun response mem => Nat.lt_succ_of_lt (ordered.responses response mem)
      · intro q token same
        cases same
        constructor
        · intro offset mem
          rcases List.mem_cons.mp mem with same | old
          · exact (Prod.mk.inj same).2
          · exact absurd (ordered.requests _ old) (Nat.lt_irrefl _)
        · exact fun answer mem => absurd (ordered.responses _ mem) (Nat.lt_irrefl _)
      · exact fun _ _ same => by cases same
      · intro q mem entry logged own
        cases Option.some.inj mem
        exact ordered.current p (by simp [here, Phase.poller?]) entry logged own
  | @receives p token answer here arrived =>
      refine ordered.goes (p := p) (by simp [here, Phase.poller?]) ?_ (fun _ _ same => by cases same)
        ?_
      · intro q mem
        cases Option.some.inj mem
        rfl
      · intro q updates same update mem o known
        cases same
        exact (ordered.asking p token here).2 answer arrived update (List.mem_mergeSort.mp mem) o
          known
  | @fails p token here retryAfter =>
      refine ordered.goes (p := p) (by simp [here, Phase.poller?]) ?_ (fun _ _ same => by cases same)
        (fun _ _ same => by cases same)
      intro q mem
      cases Option.some.inj mem
      rfl
  | @interrupted p token here =>
      refine ordered.goes (p := p) (by simp [here, Phase.poller?]) ?_ (fun _ _ same => by cases same)
        (fun _ _ same => by cases same)
      intro q mem
      cases Option.some.inj mem
      rfl
  | @handles p update rest here small =>
      obtain ⟨log, runs⟩ := ordered.appends here
      have own : w.phase.poller? = some p := by simp [here, Phase.poller?]
      refine { ordered with
        asking := ?_, handling := ?_, runs := runs, current := ?_, log := log }
      · exact fun _ _ same => by cases same
      · intro q updates same other mem o known
        cases same
        rcases mem_advance known with rfl | old
        · exact (List.pairwise_cons.mp (sound.handling _ _ here).1).1 other mem
        · exact ordered.handling _ _ here other (List.mem_cons_of_mem _ mem) o old
      · intro q mem entry logged same
        cases Option.some.inj mem
        rcases List.mem_append.mp logged with old | new
        · exact (ordered.current p own entry old same).advance _
        · obtain rfl := List.mem_singleton.mp new
          obtain ⟨o, known, next⟩ := advance_next p (update + 1)
          exact ⟨o, known, by dsimp only; omega, fun _ => by dsimp only; omega⟩
  | @overflows p update rest here last =>
      obtain ⟨log, runs⟩ := ordered.appends here
      refine { ordered with
        asking := ?_, handling := ?_, runs := runs, current := ?_, log := log }
      · exact fun _ _ same => by cases same
      · exact fun _ _ same => by cases same
      · intro q mem
        cases mem
  | @refuses p update rest here =>
      obtain ⟨log, runs⟩ := ordered.appends here
      have own : w.phase.poller? = some p := by simp [here, Phase.poller?]
      refine { ordered with
        asking := ?_, handling := ?_, runs := runs, current := ?_, log := log }
      · exact fun _ _ same => by cases same
      · exact fun _ _ same => by cases same
      · intro q mem entry logged same
        cases Option.some.inj mem
        rcases List.mem_append.mp logged with old | new
        · exact (ordered.current p own entry old same).advance _
        · obtain rfl := List.mem_singleton.mp new
          obtain ⟨o, known, next⟩ := advance_next p update
          exact ⟨o, known, next, fun ok => absurd ok Bool.false_ne_true⟩
  | @rests p delay here =>
      refine ordered.goes (p := p) (by simp [here, Phase.poller?]) ?_ (fun _ _ same => by cases same)
        (fun _ _ same => by cases same)
      intro q mem
      cases Option.some.inj mem
      rfl
  | @finishes p here =>
      refine ordered.goes (p := p) (by simp [here, Phase.poller?]) ?_ (fun _ _ same => by cases same)
        (fun _ _ same => by cases same)
      intro q mem
      cases Option.some.inj mem
      rfl
  | stops =>
      refine { ordered with asking := ?_, handling := ?_, current := ?_ }
      · exact fun _ _ same => by cases same
      · exact fun _ _ same => by cases same
      · intro q mem
        cases mem

theorem reachable_ordered (reached : polling.Reachable w) : Ordered w := by
  refine reached.invariant ?_
    (fun _ _ _ before ordered step => ordered.step (reachable_sound before) step)
  rintro w ⟨posted, waiting, requests, responses, phase, log⟩
  constructor <;> simp [requests, responses, phase, log, Phase.poller?]

/-- In one run of the worker the ingress is given the updates in the order of their ids, each of
them again only after it failed: none is skipped, and none is handled twice.
-/
theorem updates_ordered (reached : polling.Reachable w)
    : w.log.Pairwise (fun earlier later => earlier.run = later.run →
        earlier.id ≤ later.id ∧ (earlier.ok = true → earlier.id < later.id))
      ∧ ∀ entry ∈ w.log, ∀ id ∈ w.posted, id < entry.id →
        ∃ earlier ∈ w.log, earlier.id = id ∧ earlier.ok = true :=
  ⟨(reachable_ordered reached).log,
    fun entry mem id posted => ((reachable_sound reached).logged entry mem).1 id posted⟩

/-! The ingress fails once, and the update is polled again. -/

namespace Repolled

def posted : World := ⟨[7], [7], [], [], 0, .down, 0, []⟩

def asked : World :=
  { posted with requests := [(0, none)], tokens := 1, phase := .asking .initial 0, run := 1 }

def answered : World := { asked with requests := [], responses := [(0, [7])] }

def refused : World :=
  { answered with log := [⟨1, 7, false⟩], phase := .resting ⟨some 7, 0, 1⟩ 1 }

def answeredAgain : World :=
  { refused with responses := [(1, [7]), (0, [7])], tokens := 2, phase := .asking ⟨some 7, 0, 1⟩ 1 }

def handled : World :=
  { answeredAgain with
    log := [⟨1, 7, false⟩, ⟨1, 7, true⟩], phase := .polling ⟨some 8, 0, 0⟩ }

def forgotten : World :=
  { handled with
    waiting := [], responses := (2, []) :: handled.responses, tokens := 3
    phase := .asking ⟨some 8, 0, 0⟩ 2 }

theorem reaches {w w' : World} {act : Act} (reached : polling.Reachable w) (step : Step w act w')
    : polling.Reachable w' :=
  .step reached step

theorem sorted_single : [(7 : Int)].mergeSort (· ≤ ·) = [7] := List.mergeSort_singleton _

theorem reachable_answered : polling.Reachable answered := by
  have start : polling.Reachable { posted with posted := [], waiting := [] } :=
    .initial ⟨rfl, rfl, rfl, rfl, rfl, rfl⟩
  have post : polling.Reachable posted := reaches start (.posts (by simp) (by decide))
  have up := reaches post (.starts rfl)
  have ask : polling.Reachable asked := reaches up (.asks (p := .initial) rfl)
  exact reaches ask
    (@Step.serves _ 0 none 1 [7] (List.mem_singleton.mpr rfl) (by decide) (.refl [7]))

theorem reachable_answeredAgain : polling.Reachable answeredAgain := by
  have receive := reaches reachable_answered
    (.receives (p := .initial) rfl (List.mem_singleton.mpr rfl))
  rw [sorted_single] at receive
  have refuse := reaches receive (.refuses (p := .initial) rfl)
  have rest := reaches refuse (.rests (p := ⟨some 7, 0, 1⟩) rfl)
  have ask := reaches rest (.asks (p := ⟨some 7, 0, 1⟩) rfl)
  exact reaches ask
    (@Step.serves _ 1 (some 7) 1 [7] (List.mem_singleton.mpr rfl) (by decide) (.refl [7]))

theorem reachable_forgotten : polling.Reachable forgotten := by
  have receive := reaches reachable_answeredAgain
    (.receives (p := ⟨some 7, 0, 1⟩) rfl List.mem_cons_self)
  rw [sorted_single] at receive
  have handle := reaches receive (.handles (p := ⟨some 7, 0, 1⟩) rfl (by decide))
  have finish := reaches handle (.finishes (p := ⟨some 8, 0, 0⟩) rfl)
  have ask := reaches finish (.asks (p := ⟨some 8, 0, 0⟩) rfl)
  exact reaches ask
    (@Step.serves _ 2 (some 8) 1 [] (List.mem_singleton.mpr rfl) (by decide) (.refl []))

theorem updates_kept_forgotten : ∃ entry ∈ forgotten.log, entry.id = 7 ∧ entry.ok = true :=
  updates_kept reachable_forgotten List.mem_cons_self (by decide)

theorem updates_ordered_forgotten
    : forgotten.log.Pairwise (fun earlier later => earlier.run = later.run →
        earlier.id ≤ later.id ∧ (earlier.ok = true → earlier.id < later.id)) :=
  (updates_ordered reachable_forgotten).1

end Repolled

end Codrik.Interfaces.Telegram.Polling
