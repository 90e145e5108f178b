import Codrik.Runtime.Ipc.Protocol
import Codrik.Transition.System

/-! The tasks that run the dispatchers of the actors (`ActorDispatcherManager` of
`runtime/dispatcher.rs`). They follow the directory of the actors, which others change meanwhile.
-/

namespace Codrik.Runtime.Dispatcher

open Codrik.Runtime.Ipc (RuntimeActor)
open Codrik.Transition

-----------------------------------------------------------------------------------------
-- The manager
-----------------------------------------------------------------------------------------

/-- What `list_actors` lists; the ids of the actors are a primary key. -/
structure Directory where
  actors : List RuntimeActor
  distinct : (actors.map (·.id)).Nodup

/-- `enabled_actors` -/
def Directory.enabled (directory : Directory) : List RuntimeActor :=
  directory.actors.filter (·.enabled)

/-- A spawned task: the actor its dispatcher was made for, what its shutdown channel holds,
whether it was aborted, and whether it ended with `Ok(())`, once it has ended.
-/
structure Task where
  actor : RuntimeActor
  shutdown : Bool
  aborted : Bool
  ended : Option Bool
deriving DecidableEq

/-- A new task. -/
def Task.spawned (actor : RuntimeActor) : Task := ⟨actor, false, false, none⟩

structure RunningDispatcher where
  actor : RuntimeActor
  task : Nat
deriving DecidableEq

/-- Where `run_with` is: at the head of its loop, in `reconcile_dispatchers` (asking for the
actors, with their list, awaiting the stale tasks, asking again, with the second list), behind
it, in its `select!`, in `stop_all_dispatchers`, or gone.
-/
inductive Phase
  | top
  | listing
  | listed (desired : List RuntimeActor)
  | stopping (rest : List RunningDispatcher)
  | relisting
  | relisted (desired : List RuntimeActor)
  | checking
  | selecting
  | draining (rest : List RunningDispatcher)
  | returned (ok : Bool)
deriving DecidableEq

/-- The directory, the shutdown channel, all tasks that were spawned, the map of the running
dispatchers, and where the manager is.
-/
structure Manager where
  directory : Directory
  shutdown : Bool
  tasks : List Task
  running : List RunningDispatcher
  phase : Phase

namespace Manager

/-- `task.is_finished()` -/
def isFinished (s : Manager) (child : RunningDispatcher) : Bool :=
  ((s.tasks[child.task]?).bind (·.ended)).isSome

/-- Dispatchers of other actors than the desired ones, and finished ones. -/
def isStale (s : Manager) (desired : List RuntimeActor) (child : RunningDispatcher) : Bool :=
  !desired.contains child.actor || s.isFinished child

def stale (s : Manager) (desired : List RuntimeActor) : List RunningDispatcher :=
  s.running.filter (s.isStale desired)

/-- `child.shutdown.send_replace(true)` -/
def tell (s : Manager) (children : List RunningDispatcher) : Manager :=
  { s with
    tasks := s.tasks.mapIdx (fun t task =>
      if t ∈ children.map (·.task) then { task with shutdown := true } else task) }

/-- `child.task.abort()` -/
def abort (s : Manager) (children : List RunningDispatcher) : Manager :=
  { s with
    tasks := s.tasks.mapIdx (fun t task =>
      if t ∈ children.map (·.task) then { task with aborted := true } else task) }

/-- The desired actors that no dispatcher runs for. -/
def missing (s : Manager) (desired : List RuntimeActor) : List RuntimeActor :=
  desired.filter (fun actor => !(s.running.map (·.actor.id)).contains actor.id)

/-- The loop of `reconcile_dispatchers` over the desired actors. -/
def spawn (s : Manager) (desired : List RuntimeActor) : Manager :=
  { s with
    tasks := s.tasks ++ (s.missing desired).map .spawned
    running := s.running ++ (s.missing desired).mapIdx (fun k actor => ⟨actor, s.tasks.length + k⟩)
    phase := .checking }

/-- An error of the manager drops its running dispatchers. -/
def fail (s : Manager) : Manager :=
  { s.abort s.running with running := [], phase := .returned false }

/-- `stop_all_dispatchers`, up to its awaits -/
def stopAll (s : Manager) (order : List RunningDispatcher) : Manager :=
  { s.tell s.running with running := [], phase := .draining order }

/-- The task has ended as said. -/
def Ended (s : Manager) (child : RunningDispatcher) (ok : Bool) : Prop :=
  ∃ task, s.tasks[child.task]? = some task ∧ task.ended = some ok

/-- The manager goes on. The maps are hash maps, whose order is any. -/
inductive Advances (s : Manager) : Manager → Prop
  | lists (here : s.phase = .top) (up : s.shutdown = false)
    : Advances s { s with phase := .listing }
  | leaves {order} (here : s.phase = .top ∨ s.phase = .checking) (down : s.shutdown = true)
      (all : order.Perm s.running)
    : Advances s (s.stopAll order)
  | listed (here : s.phase = .listing)
    : Advances s { s with phase := .listed s.directory.enabled }
  | listFails (here : s.phase = .listing ∨ s.phase = .relisting)
    : Advances s s.fail
  | current {desired} (here : s.phase = .listed desired) (none' : s.stale desired = [])
    : Advances s (s.spawn desired)
  | stops {desired order} (here : s.phase = .listed desired) (some' : s.stale desired ≠ [])
      (all : order.Perm (s.stale desired))
    : Advances s { s.tell (s.stale desired) with
        running := s.running.filter (fun child => !s.isStale desired child)
        phase := .stopping order }
  | awaits {child rest} (here : s.phase = .stopping (child :: rest)) (ended : s.Ended child true)
    : Advances s { s with phase := .stopping rest }
  | awaitFails {child rest} (here : s.phase = .stopping (child :: rest))
      (ended : s.Ended child false)
    : Advances s s.fail
  | stopped (here : s.phase = .stopping [])
    : Advances s { s with phase := .relisting }
  | relisted (here : s.phase = .relisting)
    : Advances s { s with phase := .relisted s.directory.enabled }
  | spawns {desired} (here : s.phase = .relisted desired)
    : Advances s (s.spawn desired)
  | selects (here : s.phase = .checking) (up : s.shutdown = false)
    : Advances s { s with phase := .selecting }
  -- a signal or the poll
  | wakes (here : s.phase = .selecting)
    : Advances s { s with phase := .top }
  -- the sender of the shutdown channel is gone, or it has sent
  | unattended {order} (here : s.phase = .selecting) (all : order.Perm s.running)
    : Advances s (s.stopAll order)
  -- the sender of the directory signals is gone
  | unsignalled (here : s.phase = .selecting)
    : Advances s s.fail
  | drains {child rest} (here : s.phase = .draining (child :: rest)) (ended : s.Ended child true)
    : Advances s { s with phase := .draining rest }
  | drainFails {child rest} (here : s.phase = .draining (child :: rest))
      (ended : s.Ended child false)
    : Advances s s.fail
  | returns (here : s.phase = .draining [])
    : Advances s { s with phase := .returned true }

end Manager

/-- Others change the directory, ask for shutdown, or a task ends; or the manager goes on. -/
inductive Act
  | directory (next : Directory)
  | shutdown
  | ends (task : Nat) (ok : Bool)
  | manage

inductive Manager.Step (s : Manager) : Act → Manager → Prop
  | directory (next : Directory) : Step s (.directory next) { s with directory := next }
  | shutdown : Step s .shutdown { s with shutdown := true }
  | ends {t task} (ok : Bool) (here : s.tasks[t]? = some task) (live : task.ended = none)
    : Step s (.ends t ok) { s with tasks := s.tasks.set t { task with ended := some ok } }
  | manage {s'} (advances : s.Advances s') : Step s .manage s'

/-- The manager and what goes on around it. -/
def manager : System Manager Act where
  Initial s := s.tasks = [] ∧ s.running = [] ∧ s.phase = .top
  Step := Manager.Step

-----------------------------------------------------------------------------------------
-- Tasks
-----------------------------------------------------------------------------------------

variable {s s' : Manager} {a b c : List Task} {desired : List RuntimeActor}

/-- No task is added, and none comes back to life or is untold. -/
structure Ages (before after : List Task) : Prop where
  back : ∀ (t : Nat) task', after[t]? = some task' → ∃ task, before[t]? = some task
    ∧ task'.actor = task.actor ∧ (task'.ended = none → task.ended = none)
  forth : ∀ (t : Nat) task, before[t]? = some task → ∃ task', after[t]? = some task'
    ∧ task'.actor = task.actor ∧ (task.shutdown = true → task'.shutdown = true)

theorem Ages.refl (tasks : List Task) : Ages tasks tasks :=
  ⟨fun _ task here => ⟨task, here, rfl, id⟩, fun _ task here => ⟨task, here, rfl, id⟩⟩

/-- A change of each task that keeps its actor and its end. -/
theorem Ages.mapIdx {f : Nat → Task → Task} (actor : ∀ t task, (f t task).actor = task.actor)
    (ended : ∀ t task, (f t task).ended = task.ended)
    (told : ∀ t task, task.shutdown = true → (f t task).shutdown = true)
    : Ages a (a.mapIdx f) := by
  constructor
  · intro t task' here
    rw [List.getElem?_mapIdx] at here
    obtain ⟨task, before, rfl⟩ := Option.map_eq_some_iff.mp here
    exact ⟨task, before, actor t task, fun live => (ended t task).symm.trans live⟩
  · intro t task here
    refine ⟨f t task, ?_, actor t task, told t task⟩
    rw [List.getElem?_mapIdx, here, Option.map_some]

theorem ages_tell (s : Manager) (children : List RunningDispatcher)
    : Ages s.tasks (s.tell children).tasks := by
  apply Ages.mapIdx
  · intro t task
    split <;> rfl
  · intro t task
    split <;> rfl
  · intro t task told
    split
    · rfl
    · exact told

theorem ages_abort (s : Manager) (children : List RunningDispatcher)
    : Ages s.tasks (s.abort children).tasks := by
  apply Ages.mapIdx
  · intro t task
    split <;> rfl
  · intro t task
    split <;> rfl
  · intro t task told
    split <;> exact told

/-- A task ends. -/
theorem Ages.ends {t : Nat} {task : Task} {ok : Bool} (here : a[t]? = some task)
    : Ages a (a.set t { task with ended := some ok }) := by
  have inside : t < a.length := (List.getElem?_eq_some_iff.mp here).1
  constructor
  · intro u task' after
    rw [List.getElem?_set] at after
    split at after
    · rename_i same
      subst same
      cases after
      exact ⟨task, here, rfl, fun live => absurd live (Option.some_ne_none _)⟩
    · exact ⟨task', after, rfl, id⟩
  · intro u task' before
    rw [List.getElem?_set]
    split
    · rename_i same
      subst same
      cases here.symm.trans before
      exact ⟨_, rfl, rfl, id⟩
    · exact ⟨task', before, rfl, id⟩

-----------------------------------------------------------------------------------------
-- What the manager keeps
-----------------------------------------------------------------------------------------

/-- The dispatchers whose tasks the manager awaits. -/
def Phase.awaited : Phase → List RunningDispatcher
  | .stopping rest | .draining rest => rest
  | _ => []

/-- The list the manager has asked for. -/
def Phase.wanted : Phase → List RuntimeActor
  | .listed desired | .relisted desired => desired
  | _ => []

/-- The manager is not coming back to its loop. -/
def Phase.leaves : Phase → Bool
  | .draining _ | .returned _ => true
  | _ => false

/-- The dispatchers the manager has a handle of. -/
def Manager.children (s : Manager) : List RunningDispatcher := s.running ++ s.phase.awaited

/-- The manager has a handle of every task that has not ended, unless an error has made it drop
them, and one handle for each actor. What it awaits was told to stop, and nothing else was.
-/
structure Sound (s : Manager) : Prop where
  known : ∀ child ∈ s.children, ∃ task, s.tasks[child.task]? = some task ∧ task.actor = child.actor
  single : ∀ child ∈ s.children, ∀ other ∈ s.children, child.actor.id = other.actor.id →
    child = other
  held : s.phase ≠ .returned false → ∀ (t : Nat) task, s.tasks[t]? = some task →
    task.ended = none → ∃ child ∈ s.children, child.task = t
  told : ∀ child ∈ s.phase.awaited, ∀ task, s.tasks[child.task]? = some task →
    task.shutdown = true
  untold : ∀ child ∈ s.running, ∀ task, s.tasks[child.task]? = some task → task.shutdown = false
  exclusive : ∀ (t u : Nat) first second, s.tasks[t]? = some first → s.tasks[u]? = some second →
    first.ended = none → second.ended = none → first.actor.id = second.actor.id → t = u
  wanted : (s.phase.wanted.map (·.id)).Nodup
  drained : s.phase.leaves = true → s.running = []

/-- A step that adds no task keeps the invariant: no handle is added, those that are dropped
are of ended tasks, and those that are awaited were told.
-/
theorem Sound.ages (sound : Sound s) (ages : Ages s.tasks s'.tasks)
    (children : ∀ child ∈ s'.children, child ∈ s.children)
    (held : s'.phase ≠ .returned false → s.phase ≠ .returned false ∧
      ∀ child ∈ s.children, child ∉ s'.children → s.isFinished child = true)
    (told : ∀ child ∈ s'.phase.awaited, child ∈ s.phase.awaited ∨
      ∀ task, s'.tasks[child.task]? = some task → task.shutdown = true)
    (untold : ∀ child ∈ s'.running, ∀ task, s'.tasks[child.task]? = some task →
      task.shutdown = false)
    (wanted : (s'.phase.wanted.map (·.id)).Nodup)
    (drained : s'.phase.leaves = true → s'.running = [])
    : Sound s' where
  known child mem := by
    obtain ⟨task, here, same⟩ := sound.known child (children child mem)
    obtain ⟨task', here', same', -⟩ := ages.forth _ _ here
    exact ⟨task', here', same'.trans same⟩
  single child mem other mem' := sound.single child (children _ mem) other (children _ mem')
  held unreturned t task here live := by
    obtain ⟨before, dropped⟩ := held unreturned
    obtain ⟨earlier, here', -, live'⟩ := ages.back t task here
    obtain ⟨child, mem, rfl⟩ := sound.held before t earlier here' (live' live)
    by_cases kept : child ∈ s'.children
    · exact ⟨child, kept, rfl⟩
    · have finished := dropped child mem kept
      rw [Manager.isFinished, here', Option.bind_some, live' live] at finished
      cases finished
  told child mem task here := by
    rcases told child mem with awaited | now
    · obtain ⟨earlier, here', -, -⟩ := ages.back _ _ here
      obtain ⟨task', after, -, keeps⟩ := ages.forth _ _ here'
      cases here.symm.trans after
      exact keeps (sound.told child awaited earlier here')
    · exact now task here
  untold := untold
  exclusive t u first second here here' live live' same := by
    obtain ⟨earlier, before, actor, alive⟩ := ages.back t first here
    obtain ⟨earlier', before', actor', alive'⟩ := ages.back u second here'
    rw [actor, actor'] at same
    exact sound.exclusive t u earlier earlier' before before' (alive live) (alive' live') same
  wanted := wanted
  drained := drained

/-- A dispatcher that is spawned. -/
theorem mem_spawned {actors : List RuntimeActor} {n : Nat} {child : RunningDispatcher}
    : child ∈ actors.mapIdx (fun k actor => (⟨actor, n + k⟩ : RunningDispatcher))
      ↔ ∃ k, actors[k]? = some child.actor ∧ child.task = n + k := by
  rw [List.mem_mapIdx]
  constructor
  · rintro ⟨k, inside, rfl⟩
    exact ⟨k, List.getElem?_eq_getElem inside, rfl⟩
  · rintro ⟨k, here, task⟩
    obtain ⟨inside, same⟩ := List.getElem?_eq_some_iff.mp here
    refine ⟨k, inside, ?_⟩
    rw [same, ← task]

/-- A task of the extended list is an old one or a spawned one. -/
theorem getElem?_spawn (s : Manager) (desired : List RuntimeActor) (t : Nat) (task : Task)
    : (s.spawn desired).tasks[t]? = some task
      ↔ s.tasks[t]? = some task
        ∨ ∃ k actor, t = s.tasks.length + k ∧ (s.missing desired)[k]? = some actor
          ∧ task = .spawned actor := by
  simp only [Manager.spawn, List.getElem?_append, List.getElem?_map]
  split
  · rename_i inside
    constructor
    · exact Or.inl
    · rintro (here | ⟨k, actor, rfl, -, -⟩)
      · exact here
      · omega
  · rename_i beyond
    constructor
    · intro here
      obtain ⟨actor, found, rfl⟩ := Option.map_eq_some_iff.mp here
      exact Or.inr ⟨t - s.tasks.length, actor, by omega, found, rfl⟩
    · rintro (here | ⟨k, actor, rfl, found, rfl⟩)
      · exact absurd (List.getElem?_eq_some_iff.mp here).1 beyond
      · rw [Nat.add_sub_cancel_left, found]
        rfl

/-- No dispatcher runs for a missing actor. -/
theorem notMem_running {actor : RuntimeActor} (missing : actor ∈ s.missing desired)
    : ∀ child ∈ s.running, child.actor.id ≠ actor.id := by
  intro child mem same
  have absent := (List.mem_filter.mp missing).2
  have present : (s.running.map (·.actor.id)).contains actor.id = true :=
    List.contains_iff_mem.mpr (List.mem_map.mpr ⟨child, mem, same⟩)
  rw [present] at absent
  cases absent

/-- Missing actors are told apart by their ids. -/
theorem missing_index {j k : Nat} {first second : RuntimeActor}
    (distinct : (desired.map (·.id)).Nodup) (here : (s.missing desired)[j]? = some first)
    (here' : (s.missing desired)[k]? = some second) (same : first.id = second.id)
    : j = k := by
  have nodup : ((s.missing desired).map (·.id)).Nodup :=
    distinct.sublist (List.filter_sublist.map _)
  have inside : j < ((s.missing desired).map (·.id)).length := by
    rw [List.length_map]
    exact (List.getElem?_eq_some_iff.mp here).1
  apply (List.getElem?_inj inside nodup).mp
  rw [List.getElem?_map, List.getElem?_map, here, here', Option.map_some, Option.map_some, same]

/-- New tasks are of actors for which none is left. -/
theorem Sound.spawn (sound : Sound s) (awaited : s.phase.awaited = [])
    (unreturned : s.phase ≠ .returned false) (distinct : (desired.map (·.id)).Nodup)
    : Sound (s.spawn desired) := by
  have children : s.children = s.running := by rw [Manager.children, awaited, List.append_nil]
  have extended : (s.spawn desired).children = s.running ++ (s.missing desired).mapIdx
      (fun k actor => ⟨actor, s.tasks.length + k⟩) := List.append_nil _
  -- a live task of an actor that is missing would be held
  have alone : ∀ (t k : Nat) task actor, s.tasks[t]? = some task → task.ended = none →
      (s.missing desired)[k]? = some actor → task.actor.id ≠ actor.id := by
    intro t k task actor here live found same
    obtain ⟨child, mem, rfl⟩ := sound.held unreturned t task here live
    obtain ⟨task', here', own⟩ := sound.known child mem
    cases here.symm.trans here'
    rw [children] at mem
    exact notMem_running (List.mem_of_getElem? found) child mem (own ▸ same)
  constructor
  · intro child mem
    rw [extended] at mem
    rcases List.mem_append.mp mem with old | new
    · obtain ⟨task, here, own⟩ := sound.known child (children ▸ old)
      exact ⟨task, (getElem?_spawn s desired _ _).mpr (Or.inl here), own⟩
    · obtain ⟨k, found, task⟩ := mem_spawned.mp new
      exact ⟨.spawned child.actor, (getElem?_spawn s desired _ _).mpr
        (Or.inr ⟨k, child.actor, task, found, rfl⟩), rfl⟩
  · intro child mem other mem' same
    rw [extended] at mem mem'
    rcases List.mem_append.mp mem with old | new
    · rcases List.mem_append.mp mem' with old' | new'
      · exact sound.single child (children ▸ old) other (children ▸ old') same
      · obtain ⟨k, found, -⟩ := mem_spawned.mp new'
        exact absurd same (notMem_running (List.mem_of_getElem? found) child old)
    · obtain ⟨k, found, task⟩ := mem_spawned.mp new
      rcases List.mem_append.mp mem' with old' | new'
      · exact absurd same.symm (notMem_running (List.mem_of_getElem? found) other old')
      · obtain ⟨j, found', task'⟩ := mem_spawned.mp new'
        obtain rfl := missing_index distinct found found' same
        cases child
        cases other
        cases found.symm.trans found'
        cases task.trans task'.symm
        rfl
  · intro _ t task here live
    rw [extended]
    rcases (getElem?_spawn s desired t task).mp here with old | ⟨k, actor, rfl, found, rfl⟩
    · obtain ⟨child, mem, same⟩ := sound.held unreturned t task old live
      exact ⟨child, List.mem_append_left _ (children ▸ mem), same⟩
    · exact ⟨⟨actor, _⟩, List.mem_append_right _ (mem_spawned.mpr ⟨k, found, rfl⟩), rfl⟩
  · intro child mem
    cases mem
  · intro child mem task here
    rcases List.mem_append.mp mem with old | new
    · rcases (getElem?_spawn s desired _ task).mp here with here | ⟨_, _, _, _, rfl⟩
      · exact sound.untold child old task here
      · rfl
    · obtain ⟨k, -, place⟩ := mem_spawned.mp new
      rcases (getElem?_spawn s desired _ task).mp here with here | ⟨_, _, _, _, rfl⟩
      · have := (List.getElem?_eq_some_iff.mp here).1
        omega
      · rfl
  · intro t u first second here here' live live' same
    rcases (getElem?_spawn s desired t first).mp here with old | ⟨j, actor, rfl, found, rfl⟩
    · rcases (getElem?_spawn s desired u second).mp here' with old' | ⟨k, actor', rfl, found', rfl⟩
      · exact sound.exclusive t u first second old old' live live' same
      · exact absurd same (alone t k first actor' old live found')
    · rcases (getElem?_spawn s desired u second).mp here' with old' | ⟨k, actor', rfl, found', rfl⟩
      · exact absurd same.symm (alone u j second actor old' live' found)
      · rw [missing_index distinct found found' same]
  · exact List.nodup_nil
  · exact fun leaves => Bool.noConfusion leaves

/-- A child that ended is finished. -/
theorem isFinished_ended {child : RunningDispatcher} {ok : Bool} (ended : s.Ended child ok)
    : s.isFinished child = true := by
  obtain ⟨task, here, over'⟩ := ended
  rw [Manager.isFinished, here, Option.bind_some, over']
  rfl

/-- The task of a child that is told holds `true` in its channel. -/
theorem shutdown_tell {children : List RunningDispatcher} {child : RunningDispatcher}
    (mem : child ∈ children) {task : Task} (here : (s.tell children).tasks[child.task]? = some task)
    : task.shutdown = true := by
  simp only [Manager.tell, List.getElem?_mapIdx] at here
  obtain ⟨earlier, -, rfl⟩ := Option.map_eq_some_iff.mp here
  rw [if_pos (List.mem_map_of_mem mem)]

/-- An error drops every handle. -/
theorem Sound.fail (sound : Sound s) : Sound s.fail := by
  refine sound.ages (ages_abort s s.running) ?_ ?_ ?_ (fun _ mem => absurd mem List.not_mem_nil) List.nodup_nil
    (fun _ => rfl)
  · intro child mem
    cases mem
  · exact fun unreturned => absurd rfl unreturned
  · intro child mem
    cases mem

theorem Sound.stopAll {order : List RunningDispatcher} (sound : Sound s)
    (awaited : s.phase.awaited = []) (unreturned : s.phase ≠ .returned false)
    (all : order.Perm s.running)
    : Sound (s.stopAll order) := by
  refine sound.ages (ages_tell s s.running) ?_ ?_ ?_ (fun _ mem => absurd mem List.not_mem_nil) List.nodup_nil
    (fun _ => rfl)
  · intro child mem
    exact List.mem_append_left _ (all.mem_iff.mp mem)
  · intro _
    refine ⟨unreturned, fun child mem dropped => absurd ?_ dropped⟩
    rw [Manager.children, awaited, List.append_nil] at mem
    exact all.mem_iff.mpr mem
  · exact fun child mem => Or.inr (fun task here => shutdown_tell (all.mem_iff.mp mem) here)

/-- A step that only moves on keeps the invariant: what is no longer awaited has ended. -/
theorem Sound.moves {phase : Phase} (sound : Sound s) (unreturned : s.phase ≠ .returned false)
    (fewer : ∀ child ∈ phase.awaited, child ∈ s.phase.awaited)
    (dropped : ∀ child ∈ s.phase.awaited, child ∉ phase.awaited → s.isFinished child = true)
    (wanted : (phase.wanted.map (·.id)).Nodup)
    (leaves : phase.leaves = true → s.phase.leaves = true)
    : Sound { s with phase := phase } := by
  refine sound.ages (.refl _) ?_ ?_ (fun child mem => Or.inl (fewer child mem)) sound.untold
    wanted (fun gone => sound.drained (leaves gone))
  · intro child mem
    rcases List.mem_append.mp mem with runs | awaited
    · exact List.mem_append_left _ runs
    · exact List.mem_append_right _ (fewer child awaited)
  · intro _
    refine ⟨unreturned, fun child mem gone => ?_⟩
    rcases List.mem_append.mp mem with runs | awaited
    · exact absurd (List.mem_append_left _ runs) gone
    · exact dropped child awaited (fun mem => gone (List.mem_append_right _ mem))

theorem Directory.nodup_enabled (directory : Directory) : (directory.enabled.map (·.id)).Nodup :=
  directory.distinct.sublist (List.filter_sublist.map _)

/-- Stale dispatchers are told to stop, and no longer count as running. -/
theorem Sound.stops {order : List RunningDispatcher} (sound : Sound s)
    (here : s.phase = .listed desired) (all : order.Perm (s.stale desired))
    : Sound { s.tell (s.stale desired) with
        running := s.running.filter (fun child => !s.isStale desired child)
        phase := .stopping order } := by
  refine sound.ages (ages_tell s (s.stale desired)) ?_ ?_ ?_ ?_ List.nodup_nil
    (fun leaves => Bool.noConfusion leaves)
  · intro child mem
    rcases List.mem_append.mp mem with kept | awaited
    · exact List.mem_append_left _ (List.mem_of_mem_filter kept)
    · exact List.mem_append_left _ (List.mem_of_mem_filter (all.mem_iff.mp awaited))
  · intro _
    refine ⟨by simp [here], fun child mem dropped => absurd ?_ dropped⟩
    have running : child ∈ s.running := by
      simpa [Manager.children, here, Phase.awaited] using mem
    by_cases stale : s.isStale desired child = true
    · exact List.mem_append_right _ (all.mem_iff.mpr (List.mem_filter.mpr ⟨running, stale⟩))
    · refine List.mem_append_left _ (List.mem_filter.mpr ⟨running, ?_⟩)
      rw [Bool.not_eq_true] at stale
      rw [stale]
      rfl
  · exact fun child mem => Or.inr (fun task here => shutdown_tell (all.mem_iff.mp mem) here)
  · intro child mem task here
    obtain ⟨running, kept⟩ := List.mem_filter.mp mem
    have handled : ∀ other ∈ s.running, other ∈ s.children :=
      fun _ mem => List.mem_append_left _ mem
    simp only [Manager.tell, List.getElem?_mapIdx] at here
    obtain ⟨earlier, before, rfl⟩ := Option.map_eq_some_iff.mp here
    have own := sound.untold child running earlier before
    split
    · rename_i told
      -- its task is the task of no stale dispatcher
      obtain ⟨other, stale, same⟩ := List.mem_map.mp told
      obtain ⟨runs, isStale⟩ := List.mem_filter.mp stale
      obtain ⟨task, place, actor⟩ := sound.known child (handled child running)
      obtain ⟨task', place', actor'⟩ := sound.known other (handled other runs)
      rw [same] at place'
      cases place.symm.trans place'
      have one := sound.single child (handled child running) other (handled other runs)
        (congrArg (·.id) (actor.symm.trans actor'))
      rw [one, isStale] at kept
      cases kept
    · exact own

/-- Every step of the manager keeps the invariant. -/
theorem Sound.advances (sound : Sound s) (advances : s.Advances s') : Sound s' := by
  have last : ∀ {child : RunningDispatcher} {rest : List RunningDispatcher},
      s.Ended child true → ∀ other ∈ child :: rest, other ∉ rest → s.isFinished other = true := by
    intro child rest ended other mem gone
    rcases List.mem_cons.mp mem with rfl | mem
    · exact isFinished_ended ended
    · exact absurd mem gone
  cases advances with
  | lists here up =>
      exact sound.moves (by simp [here]) (by simp [Phase.awaited]) (by simp [here, Phase.awaited])
        List.nodup_nil (by simp [here, Phase.leaves])
  | leaves here down all =>
      rcases here with here | here <;>
        exact sound.stopAll (by simp [here, Phase.awaited]) (by simp [here]) all
  | listed here =>
      exact sound.moves (by simp [here]) (by simp [Phase.awaited]) (by simp [here, Phase.awaited])
        s.directory.nodup_enabled (by simp [Phase.leaves])
  | listFails here => exact sound.fail
  | current here none' =>
      have distinct := sound.wanted
      rw [here] at distinct
      exact sound.spawn (by simp [here, Phase.awaited]) (by simp [here]) distinct
  | stops here some' all => exact sound.stops here all
  | awaits here ended =>
      refine sound.moves (by simp [here]) ?_ ?_ List.nodup_nil (by simp [here, Phase.leaves])
      · rw [here]
        exact fun other mem => List.mem_cons_of_mem _ mem
      · rw [here]
        exact last ended
  | awaitFails here ended => exact sound.fail
  | stopped here =>
      exact sound.moves (by simp [here]) (by simp [Phase.awaited]) (by simp [here, Phase.awaited])
        List.nodup_nil (by simp [here, Phase.leaves])
  | relisted here =>
      exact sound.moves (by simp [here]) (by simp [Phase.awaited]) (by simp [here, Phase.awaited])
        s.directory.nodup_enabled (by simp [Phase.leaves])
  | spawns here =>
      have distinct := sound.wanted
      rw [here] at distinct
      exact sound.spawn (by simp [here, Phase.awaited]) (by simp [here]) distinct
  | selects here up =>
      exact sound.moves (by simp [here]) (by simp [Phase.awaited]) (by simp [here, Phase.awaited])
        List.nodup_nil (by simp [here, Phase.leaves])
  | wakes here =>
      exact sound.moves (by simp [here]) (by simp [Phase.awaited]) (by simp [here, Phase.awaited])
        List.nodup_nil (by simp [here, Phase.leaves])
  | unattended here all => exact sound.stopAll (by simp [here, Phase.awaited]) (by simp [here]) all
  | unsignalled here => exact sound.fail
  | drains here ended =>
      refine sound.moves (by simp [here]) ?_ ?_ List.nodup_nil (by simp [here, Phase.leaves])
      · rw [here]
        exact fun other mem => List.mem_cons_of_mem _ mem
      · rw [here]
        exact last ended
  | drainFails here ended => exact sound.fail
  | returns here =>
      exact sound.moves (by simp [here]) (by simp [Phase.awaited]) (by simp [here, Phase.awaited])
        List.nodup_nil (by simp [here, Phase.leaves])

theorem Sound.step {act : Act} (sound : Sound s) (step : manager.Step s act s') : Sound s' := by
  have same : ∀ {t : Manager}, Ages s.tasks t.tasks → t.running = s.running → t.phase = s.phase →
      (∀ (k : Nat) task', t.tasks[k]? = some task' →
        ∃ task, s.tasks[k]? = some task ∧ task'.shutdown = task.shutdown) → Sound t := by
    intro t ages running phase quiet
    have children : t.children = s.children := by rw [Manager.children, running, phase]; rfl
    refine sound.ages ages ?_ ?_ ?_ ?_ ?_ ?_
    · exact fun child mem => children ▸ mem
    · exact fun unreturned => ⟨phase ▸ unreturned,
        fun child mem dropped => absurd (children ▸ mem) dropped⟩
    · exact fun child mem => Or.inl (phase ▸ mem)
    · intro child mem task here
      obtain ⟨earlier, before, told⟩ := quiet _ _ here
      exact told.trans (sound.untold child (running ▸ mem) earlier before)
    · exact phase ▸ sound.wanted
    · exact fun leaves => running.trans (sound.drained (phase ▸ leaves))
  cases step with
  | directory next => exact same (.refl _) rfl rfl (fun _ task here => ⟨task, here, rfl⟩)
  | shutdown => exact same (.refl _) rfl rfl (fun _ task here => ⟨task, here, rfl⟩)
  | @ends t task ok here live =>
      refine same (.ends here) rfl rfl ?_
      intro k task' after
      rw [List.getElem?_set] at after
      split at after
      · rename_i place
        split at after
        · cases after
          exact ⟨task, place ▸ here, rfl⟩
        · cases after
      · exact ⟨task', after, rfl⟩
  | manage advances => exact sound.advances advances

theorem reachable_sound (reached : manager.Reachable s) : Sound s := by
  refine reached.invariant ?_ (fun _ _ _ _ sound step => sound.step step)
  rintro s ⟨tasks, running, phase⟩
  constructor <;> simp [Manager.children, Phase.awaited, Phase.wanted, tasks, running, phase]

/-- However the directory changes and whatever the tasks do, at most one task that has not ended
runs the dispatcher of an actor. The manager waits for tasks only that it has told to stop, and
when it returns without an error, no task is left.
-/
theorem dispatchers_exclusive (reached : manager.Reachable s)
    : (∀ (t u : Nat) first second, s.tasks[t]? = some first → s.tasks[u]? = some second →
        first.ended = none → second.ended = none → first.actor.id = second.actor.id → t = u)
      ∧ (∀ child ∈ s.phase.awaited, ∃ task, s.tasks[child.task]? = some task
        ∧ task.shutdown = true)
      ∧ (s.phase = .returned true → ∀ task ∈ s.tasks, task.ended ≠ none) := by
  have sound := reachable_sound reached
  refine ⟨sound.exclusive, ?_, ?_⟩
  · intro child mem
    obtain ⟨task, here, -⟩ := sound.known child (List.mem_append_right _ mem)
    exact ⟨task, here, sound.told child mem task here⟩
  · intro returned task mem live
    obtain ⟨t, here⟩ := List.mem_iff_getElem?.mp mem
    obtain ⟨child, held, -⟩ := sound.held (by simp [returned]) t task here live
    rw [Manager.children, sound.drained (by simp [returned, Phase.leaves]), returned] at held
    cases held

-----------------------------------------------------------------------------------------
-- Following the directory
-----------------------------------------------------------------------------------------

/-- What the manager knows of a directory that stays as it is. -/
def Phase.Follows (directory : Directory) (running : List RunningDispatcher) : Phase → Prop
  | .top | .listing | .draining _ | .returned _ => True
  | .listed desired => desired = directory.enabled
  | .stopping _ | .relisting => ∀ child ∈ running, child.actor ∈ directory.enabled
  | .relisted desired => desired = directory.enabled
      ∧ ∀ child ∈ running, child.actor ∈ directory.enabled
  | .checking | .selecting => ∀ actor,
      actor ∈ directory.enabled ↔ ∃ child ∈ running, child.actor = actor

/-- Where the running dispatchers are of desired actors, one runs for each of these after the
missing ones are spawned.
-/
theorem follows_spawn {directory : Directory}
    (current : ∀ child ∈ s.running, child.actor ∈ directory.enabled)
    : (s.spawn directory.enabled).phase.Follows directory (s.spawn directory.enabled).running := by
  intro actor
  constructor
  · intro enabled
    by_cases absent : actor ∈ s.missing directory.enabled
    · obtain ⟨k, found⟩ := List.mem_iff_getElem?.mp absent
      exact ⟨⟨actor, _⟩, List.mem_append_right _ (mem_spawned.mpr ⟨k, found, rfl⟩), rfl⟩
    · have present : actor.id ∈ s.running.map (·.actor.id) := by
        by_contra none'
        refine absent (List.mem_filter.mpr ⟨enabled, ?_⟩)
        rw [Bool.not_eq_true', ← Bool.not_eq_true, List.contains_iff_mem]
        exact none'
      obtain ⟨child, mem, same⟩ := List.mem_map.mp present
      -- the ids of enabled actors tell them apart
      have own : child.actor = actor :=
        List.inj_on_of_nodup_map directory.nodup_enabled (current child mem) enabled same
      exact ⟨child, List.mem_append_left _ mem, own⟩
  · rintro ⟨child, mem, rfl⟩
    rcases List.mem_append.mp mem with old | new
    · exact current child old
    · obtain ⟨k, found, -⟩ := mem_spawned.mp new
      exact List.mem_of_mem_filter (List.mem_of_getElem? found)

/-- What is not stale is desired. -/
theorem desired_of_kept {child : RunningDispatcher} (kept : (!s.isStale desired child) = true)
    : child.actor ∈ desired := by
  rw [Bool.not_eq_true', Manager.isStale, Bool.or_eq_false_iff, Bool.not_eq_false'] at kept
  exact List.contains_iff_mem.mp kept.1

/-- While the directory stays, the manager comes to follow it. -/
theorem Follows.advances (follows : s.phase.Follows s.directory s.running)
    (advances : s.Advances s')
    : s'.phase.Follows s.directory s'.running := by
  cases advances with
  | lists | leaves | listFails | awaitFails | wakes | unattended | unsignalled | drains
  | drainFails | returns => trivial
  | listed here => rfl
  | current here none' =>
      rw [here] at follows
      subst follows
      apply follows_spawn
      intro child mem
      apply desired_of_kept (s := s)
      rw [Bool.not_eq_true']
      by_contra stale
      have listed : child ∈ s.stale s.directory.enabled :=
        List.mem_filter.mpr ⟨mem, Bool.not_eq_false _ ▸ stale⟩
      rw [none'] at listed
      cases listed
  | stops here some' all =>
      rw [here] at follows
      subst follows
      exact fun child mem => desired_of_kept (List.mem_filter.mp mem).2
  | awaits here ended =>
      rw [here] at follows
      exact follows
  | stopped here =>
      rw [here] at follows
      exact follows
  | relisted here =>
      rw [here] at follows
      exact ⟨rfl, follows⟩
  | spawns here =>
      rw [here] at follows
      obtain ⟨rfl, current⟩ := follows
      exact follows_spawn current
  | selects here up =>
      rw [here] at follows
      exact follows

/-- The directory stays as it is. -/
def Unchanged (_ : Manager) : Act → Prop
  | .directory _ => False
  | _ => True

/-- From a point where the manager is about to ask for the actors, and while the directory stays
as it is, the manager leaves its reconciliation with exactly one dispatcher for each enabled
actor, made for the actor as the directory has it, and with none for other actors; none of them
has been told to stop.
-/
theorem dispatchers_follow (reached : manager.Reachable s) (asks : s.phase = .listing)
    (run : (manager.restrict Unchanged).Run s s')
    (settled : s'.phase = .checking ∨ s'.phase = .selecting)
    : s'.directory = s.directory
      ∧ (∀ actor, actor ∈ s.directory.enabled ↔ ∃ child ∈ s'.running, child.actor = actor)
      ∧ ∀ child ∈ s'.running, (∀ other ∈ s'.running, other.actor.id = child.actor.id →
          other = child)
        ∧ ∃ task, s'.tasks[child.task]? = some task ∧ task.actor = child.actor
          ∧ task.shutdown = false := by
  have sound := reachable_sound (reached.run run.of_restrict)
  have kept : s'.directory = s.directory ∧ s'.phase.Follows s.directory s'.running := by
    refine run.kept (J := fun t => t.directory = s.directory
      ∧ t.phase.Follows s.directory t.running) ?_ ⟨rfl, asks ▸ trivial⟩
    rintro t act u ⟨same, follows⟩ ⟨unchanged, step⟩
    cases step with
    | directory next => exact unchanged.elim
    | shutdown => exact ⟨same, follows⟩
    | ends ok here live => exact ⟨same, follows⟩
    | manage advances =>
        have stays : u.directory = t.directory := by cases advances <;> rfl
        rw [← same] at follows ⊢
        exact ⟨stays, Follows.advances follows advances⟩
  refine ⟨kept.1, ?_, ?_⟩
  · rcases settled with here | here
    · have follows := kept.2
      rw [here] at follows
      exact follows
    · have follows := kept.2
      rw [here] at follows
      exact follows
  · intro child mem
    have handled : ∀ other ∈ s'.running, other ∈ s'.children :=
      fun _ mem => List.mem_append_left _ mem
    obtain ⟨task, here, actor⟩ := sound.known child (handled child mem)
    exact ⟨fun other mem' same => sound.single other (handled other mem') child
      (handled child mem) same, task, here, actor, sound.untold child mem task here⟩

/-! A service starts with one actor. -/

namespace Started

def worker : RuntimeActor := ⟨⟨"worker"⟩, true, []⟩

def directory : Directory := ⟨[worker], by decide⟩

def asking : Manager := ⟨directory, false, [], [], .listing⟩

def knowing : Manager := { asking with phase := .listed directory.enabled }

def following : Manager := knowing.spawn directory.enabled

theorem reachable_asking : manager.Reachable asking := by
  have start : manager.Reachable { asking with phase := .top } := .initial ⟨rfl, rfl, rfl⟩
  exact .step start (.manage (.lists rfl rfl))

theorem manages (advances : s.Advances s') : (manager.restrict Unchanged).Step s .manage s' :=
  ⟨trivial, .manage advances⟩

theorem run_following : (manager.restrict Unchanged).Run asking following := by
  have asked : asking.Advances knowing := .listed rfl
  have current : knowing.stale directory.enabled = [] := rfl
  exact .step (.step .refl (manages asked)) (manages (.current rfl current))

theorem dispatchers_exclusive_following
    : following.tasks = [.spawned worker]
      ∧ ∀ (t u : Nat) first second, following.tasks[t]? = some first →
        following.tasks[u]? = some second → first.ended = none → second.ended = none →
        first.actor.id = second.actor.id → t = u :=
  ⟨by decide, (dispatchers_exclusive (reachable_asking.run run_following.of_restrict)).1⟩

theorem dispatchers_follow_following
    : following.directory = directory
      ∧ ∀ actor, actor ∈ directory.enabled ↔ ∃ child ∈ following.running, child.actor = actor := by
  have follows := dispatchers_follow reachable_asking rfl run_following (Or.inl rfl)
  exact ⟨follows.1, follows.2.1⟩

end Started

end Codrik.Runtime.Dispatcher
