import EventLoop.Proofs.Loop.Steps
import EventLoop.Proofs.Queue.Arena
import EventLoop.Proofs.Queue.Timers

/-!
# Keys that are held

Each timer, each task in a queue and the task that has just left its queue stand for one callback in
the arena, and no two for the same. So a callback that is to be run is always there.
-/

namespace EventLoop

/-- The keys of the callbacks that are still to be taken. -/
def Collections.keys (c : Collections) : List SlotKey :=
  c.pendingTimers.map (·.callback) ++ c.deferredQueue.map (·.callback) ++
    c.readyQueue.map (·.callback)

/-- The keys in the queues, and that of the task that has left its queue. -/
def Instant.keys (a : Instant) : List SlotKey :=
  a.session.collections.keys ++ (a.hand.task?.map (·.callback)).toList

/-- The arena stores callbacks under the keys that are held, under each once. -/
def Instant.Accounted (a : Instant) : Prop :=
  a.session.callbacks.Stores a.keys

namespace Instant

theorem accounted_first (source : String) : (Instant.first source).Accounted :=
  Arena.Stores.empty

/-- The callback of a task whose frame is on the stack is there. -/
theorem Accounted.take {s : Session} {task : QueuedTask}
    (accounted : (Instant.mk (.framed task) s).Accounted) :
    (s.takeCallback task).1.isSome = true ∧
      (Instant.mk .empty (s.takeCallback task).2).Accounted := by
  have front : s.callbacks.Stores (task.callback :: s.collections.keys) :=
    Arena.Stores.perm accounted (List.perm_append_singleton _ _)
  have taken := front.take
  refine ⟨taken.1, ?_⟩
  show (s.callbacks.take task.callback).2.Stores (s.collections.keys ++ [])
  rw [List.append_nil]
  exact taken.2

theorem Accounted.addDeferred {s : Session} {hand : Hand} {task : Nat → SlotKey → QueuedTask}
    (accounted : (Instant.mk hand s).Accounted) (names : ∀ id key, (task id key).callback = key)
    (callback : Callback) : (Instant.mk hand (s.addDeferred task callback)).Accounted := by
  refine Arena.Stores.perm (Arena.Stores.insert accounted callback) ?_
  simp only [Instant.keys, Collections.keys, Session.addDeferred, TaskQueue.push, List.map_append,
    List.map_cons, List.map_nil, names, List.append_assoc, List.singleton_append]
  exact List.perm_middle.symm.trans (List.perm_middle.symm.append_left _)

end Instant

theorem Change.accounted {a b : Instant} (change : Change a b) (accounted : a.Accounted) :
    b.Accounted := by
  cases change with
  | rest | push | pop | print | reject => exact accounted
  | addTimer s callback delay =>
    refine Arena.Stores.perm (Arena.Stores.insert accounted callback) ?_
    simp only [Instant.keys, Collections.keys, Session.addTimer, Timers.insert, List.map_append,
      List.map_cons, List.map_nil, List.append_assoc, List.singleton_append]
    exact List.perm_middle.symm
  | addMicrotask s callback => exact accounted.addDeferred (fun _ _ => rfl) callback
  | addContinuation s callback => exact accounted.addDeferred (fun _ _ => rfl) callback
  | dequeue s task rest _ queue =>
    refine Arena.Stores.perm accounted ?_
    simp only [Instant.keys, Collections.keys, Session.popDeferred, TaskQueue.pop, queue,
      Hand.task?, List.map_cons, List.append_assoc, Option.map_none, Option.map_some,
      Option.toList_none, Option.toList_some, List.append_nil, List.cons_append]
    refine List.Perm.append_left _ ?_
    rw [← List.append_assoc]
    exact (List.perm_append_singleton _ _).symm
  | promote s _ _ ready timers =>
    obtain ⟨timer, others, before, after, taken, selects⟩ := Timers.take_cons timers
    rw [Session.promoteTimer_eq taken]
    refine Arena.Stores.perm accounted ?_
    simp only [Instant.keys, Collections.keys, selects.timers, selects.others, ready,
      List.map_append, List.map_cons, List.map_nil, List.append_assoc, List.nil_append,
      List.cons_append]
    refine List.Perm.append_left _ (.trans (List.perm_middle.symm) (.append_left _ ?_))
    exact List.perm_middle.symm

theorem Step.accounted {a b : Instant} (step : Step a b) (accounted : a.Accounted) :
    b.Accounted := by
  cases step with
  | record line description phase change _ => exact change.accounted accounted
  | begin s task name _ => exact accounted
  | start s task name _ ready =>
    refine Arena.Stores.perm accounted ?_
    simp only [Instant.keys, Collections.keys, Session.snap, Session.pushFrame, Session.popReady,
      TaskQueue.pop, ready, Hand.task?, List.map_cons, List.map_nil, Option.map_none,
      Option.map_some, Option.toList_none, Option.toList_some, List.append_nil]
    exact .refl _
  | take s task => exact accounted.take.2
  | look s locator => exact accounted

/-- At every instant each callback that is stored is still to be taken once, and each that is still
to be taken is stored. -/
theorem Later.accounted {source : String} {a : Instant} (later : Later (.first source) a) :
    a.Accounted := by
  induction later with
  | refl => exact Instant.accounted_first source
  | tail _ step ih => exact step.accounted ih

end EventLoop
