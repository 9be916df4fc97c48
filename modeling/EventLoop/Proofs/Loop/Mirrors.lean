import EventLoop.Proofs.Evaluation.Simulation
import EventLoop.Proofs.Loop.Keys
import EventLoop.Proofs.Loop.Plain

/-!
# Sessions that mirror a plain event loop

A session mirrors a plain event loop if the callbacks that its tasks and timers stand for are those
that the plain loop holds, in the same order. As hosts of a script the two keep this up, and what
the session is to run next is what the plain loop is.
-/

namespace EventLoop

theorem map_eq_map_some {α β : Type} {f g : α → Option β} {as : List α} {bs : List β}
    (h : as.map f = bs.map some) (keeps : ∀ a ∈ as, ∀ b, f a = some b → g a = some b) :
    as.map g = bs.map some := by
  rw [← h]
  refine List.map_congr_left ?_
  intro a member
  have value : f a ∈ bs.map some := by
    rw [← h]
    exact List.mem_map_of_mem member
  obtain ⟨b, -, found⟩ := List.mem_map.mp value
  rw [keeps a member b found.symm, found]

namespace Session

/-- The callback of a timer, with the timer's delay. -/
def delayed (callbacks : Arena Callback) (timer : PendingTimer) : Option (Nat × Callback) :=
  (callbacks.get? timer.callback).map (timer.delay, ·)

/-- A session holds the callbacks that a plain event loop holds. -/
structure Mirrors (s : Session) (p : Plain) : Prop where
  output : p.output = s.collections.output
  ids : p.ids = s.tasks
  deferred : s.collections.deferredQueue.map (fun task => s.callbacks.get? task.callback) =
    p.deferred.map some
  waiting : s.collections.pendingTimers.map (delayed s.callbacks) = p.waiting.map some

/-- An entry is that of a timer with the same delay. -/
theorem timer_of_entry {callbacks : Arena Callback} {timers : Timers}
    {entries : List (Nat × Callback)} (same : entries.map some = timers.map (delayed callbacks))
    {entry : Nat × Callback} (member : entry ∈ entries) :
    ∃ timer ∈ timers, timer.delay = entry.1 := by
  have present : some entry ∈ timers.map (delayed callbacks) := by
    rw [← same]
    exact List.mem_map_of_mem member
  obtain ⟨timer, held, found⟩ := List.mem_map.mp present
  obtain ⟨callback, -, rfl⟩ := Option.map_eq_some_iff.mp found
  exact ⟨timer, held, rfl⟩

namespace Mirrors

variable {s t : Session} {p : Plain}

theorem start (source : String) : (Generation.start source).Mirrors .empty :=
  ⟨rfl, rfl, rfl, rfl⟩

/-- Only callbacks count, the numbers of tasks, and what is printed. -/
theorem of_same (mirrors : s.Mirrors p) (output : t.collections.output = s.collections.output)
    (tasks : t.tasks = s.tasks) (callbacks : t.callbacks = s.callbacks)
    (deferred : t.collections.deferredQueue = s.collections.deferredQueue)
    (pending : t.collections.pendingTimers = s.collections.pendingTimers) : t.Mirrors p where
  output := mirrors.output.trans output.symm
  ids := mirrors.ids.trans tasks.symm
  deferred := by
    rw [deferred, callbacks]
    exact mirrors.deferred
  waiting := by
    rw [pending, callbacks]
    exact mirrors.waiting

theorem printLine (mirrors : s.Mirrors p) (text : String) :
    (s.printLine text).Mirrors (p.printLine text) where
  output := congrArg (· ++ [text]) mirrors.output
  ids := mirrors.ids
  deferred := mirrors.deferred
  waiting := mirrors.waiting

/-- As long as an arena keeps the callbacks that are held, it makes no difference. -/
theorem kept (mirrors : s.Mirrors p) {callbacks : Arena Callback}
    (keeps : ∀ key ∈ s.collections.keys, ∀ callback, s.callbacks.get? key = some callback →
      callbacks.get? key = some callback) : { s with callbacks }.Mirrors p where
  output := mirrors.output
  ids := mirrors.ids
  deferred := by
    refine map_eq_map_some mirrors.deferred ?_
    intro task member callback found
    refine keeps task.callback ?_ callback found
    have key := List.mem_map_of_mem (f := QueuedTask.callback) member
    exact List.mem_append_left _ (List.mem_append_right _ key)
  waiting := by
    refine map_eq_map_some mirrors.waiting ?_
    intro timer member entry found
    obtain ⟨callback, held, rfl⟩ := Option.map_eq_some_iff.mp found
    have key := List.mem_map_of_mem (f := PendingTimer.callback) member
    have still := keeps timer.callback
      (List.mem_append_left _ (List.mem_append_left _ key)) callback held
    unfold delayed
    rw [still]
    rfl

theorem inserted (mirrors : s.Mirrors p) (sound : s.callbacks.Sound) (callback : Callback) :
    { s with callbacks := (s.callbacks.insert callback).2 }.Mirrors p :=
  mirrors.kept fun _ _ _ found => Arena.get?_insert_of_some sound callback found

theorem addDeferred (mirrors : s.Mirrors p) (sound : s.callbacks.Sound)
    {task : Nat → SlotKey → QueuedTask} (names : ∀ id key, (task id key).callback = key)
    (callback : Callback) : (s.addDeferred task callback).Mirrors (p.defer callback) where
  output := mirrors.output
  ids := congrArg (· + 1) mirrors.ids
  deferred := by
    have stored := Arena.get?_insert_self sound callback
    simp only [Session.addDeferred, TaskQueue.push, Plain.defer, List.map_append, List.map_cons,
      List.map_nil, names, stored]
    exact congrArg (· ++ [some callback]) (mirrors.inserted sound callback).deferred
  waiting := (mirrors.inserted sound callback).waiting

theorem addTimer (mirrors : s.Mirrors p) (sound : s.callbacks.Sound) (callback : Callback)
    (delay : Nat) :
    (s.addTimer callback delay).2.Mirrors
      { p with waiting := p.waiting ++ [(delay, callback)], ids := p.ids + 1 } where
  output := mirrors.output
  ids := congrArg (· + 1) mirrors.ids
  deferred := (mirrors.inserted sound callback).deferred
  waiting := by
    have stored := Arena.get?_insert_self sound callback
    simp only [Session.addTimer, Timers.insert, List.map_append, List.map_cons, List.map_nil,
      delayed, stored, Option.map_some]
    exact congrArg (· ++ [some (delay, callback)]) (mirrors.inserted sound callback).waiting

/-- The callback that is taken is that of the task whose frame is on the stack; all others stay. -/
theorem takeCallback {task : QueuedTask} (mirrors : s.Mirrors p)
    (accounted : (Instant.mk (.framed task) s).Accounted) :
    (s.takeCallback task).2.Mirrors p := by
  have once : (s.collections.keys ++ [task.callback]).Nodup := Arena.Stores.once accounted
  have keeps : ∀ key ∈ s.collections.keys, ∀ callback, s.callbacks.get? key = some callback →
      (s.callbacks.take task.callback).2.get? key = some callback := by
    intro key member callback found
    rw [Arena.get?_take, if_neg, found]
    rintro rfl
    exact (List.nodup_append.mp once).2.2 _ member _ (List.mem_singleton_self _) rfl
  exact mirrors.kept keeps

/-- The task that was deferred first stands for the callback that the plain loop runs next. -/
theorem next_deferred (mirrors : s.Mirrors p) {task : QueuedTask} {others : TaskQueue}
    (queue : s.collections.deferredQueue = task :: others) :
    ∃ callback rest, s.callbacks.get? task.callback = some callback ∧
      Plain.Next p callback { p with deferred := rest } ∧
      others.map (fun task => s.callbacks.get? task.callback) = rest.map some := by
  have mirrored := mirrors.deferred
  rw [queue, List.map_cons] at mirrored
  obtain ⟨callback, rest, held, found, same⟩ := List.map_eq_cons_iff.mp mirrored.symm
  exact ⟨callback, rest, found.symm, .deferred p callback rest held, same.symm⟩

theorem deferred_eq_nil (mirrors : s.Mirrors p) (nil : s.collections.deferredQueue = []) :
    p.deferred = [] := by
  have mirrored := mirrors.deferred
  rw [nil] at mirrored
  exact List.map_eq_nil_iff.mp mirrored.symm

/-- The timer that comes next is that of the first callback with the least delay. -/
theorem next_timer (mirrors : s.Mirrors p) (deferred : s.collections.deferredQueue = [])
    (growing : s.collections.pendingTimers.Pairwise (·.seq < ·.seq)) {timer : PendingTimer}
    {others before after : Timers}
    (selects : Timers.Selects s.collections.pendingTimers timer others before after) :
    ∃ callback rest, s.callbacks.get? timer.callback = some callback ∧
      Plain.Next p callback { p with waiting := rest } ∧
      others.map (delayed s.callbacks) = rest.map some := by
  have mirrored := mirrors.waiting
  rw [selects.timers] at mirrored growing
  rw [List.map_append, List.map_cons] at mirrored
  obtain ⟨front, entries, held, same₁, tail⟩ := List.map_eq_append_iff.mp mirrored.symm
  obtain ⟨entry, back, rfl, present, same₂⟩ := List.map_eq_cons_iff.mp tail
  obtain ⟨callback, found, rfl⟩ := Option.map_eq_some_iff.mp present.symm
  have greater : ∀ entry ∈ front, timer.delay < entry.1 := by
    intro entry member
    obtain ⟨earlier, member, delay⟩ := timer_of_entry same₁ member
    have precedes := PendingTimer.precedes_iff.mp (selects.before earlier member)
    have := (List.pairwise_append.mp growing).2.2 earlier member timer List.mem_cons_self
    omega
  have least : ∀ entry ∈ back, timer.delay ≤ entry.1 := by
    intro entry member
    obtain ⟨later, member, delay⟩ := timer_of_entry same₂ member
    have behind := selects.after later member
    rw [PendingTimer.precedes_iff] at behind
    omega
  refine ⟨callback, front ++ back, found, ?_, ?_⟩
  · exact .timer p timer.delay callback front back (mirrors.deferred_eq_nil deferred) held greater
      least
  · rw [selects.others, List.map_append, List.map_append, same₁, same₂]

end Mirrors

/-- A session that an event loop for the source has reached mirrors a plain event loop. -/
def Follows (source : String) (s : Session) (p : Plain) : Prop :=
  Later (.first source) ⟨.empty, s⟩ ∧ s.Mirrors p

namespace Follows

variable {source : String} {s : Session} {p : Plain}

theorem sound (follows : Follows source s p) : s.callbacks.Sound :=
  Arena.Stores.sound follows.1.accounted

theorem print (follows : Follows source s p) (mode : LineMode) (text : String) (line : Nat) :
    Follows source (s.print mode text line) (p.printLine text) := by
  refine ⟨follows.1.trans (print_serves mode text line s).later, ?_⟩
  cases mode <;> exact (follows.2.printLine text).of_same rfl rfl rfl rfl rfl

theorem registerTimer (follows : Follows source s p) (mode : LineMode) (callback : Callback)
    (delay line : Nat) :
    Follows source (s.registerTimer mode callback delay line).2
      { p with waiting := p.waiting ++ [(delay, callback)], ids := p.ids + 1 } := by
  refine ⟨follows.1.trans (registerTimer_serves mode callback delay line s).later, ?_⟩
  cases mode <;>
    exact (follows.2.addTimer follows.sound callback delay).of_same rfl rfl rfl rfl rfl

theorem defer (follows : Follows source s p) (mode : LineMode) (callback : Callback)
    (line : Nat) : Follows source (s.defer mode callback line) (p.defer callback) := by
  refine ⟨follows.1.trans (defer_serves mode callback line s).later, ?_⟩
  have added : (s.addDeferred .microtask callback).Mirrors (p.defer callback) :=
    follows.2.addDeferred follows.sound (fun _ _ => rfl) callback
  cases mode <;> exact added.of_same rfl rfl rfl rfl rfl

theorem chain (follows : Follows source s p) (mode : LineMode) (callback? : Option Callback)
    (line : Nat) :
    Follows source (s.chain mode callback? line) (Plain.host.chain callback? line p) := by
  refine ⟨follows.1.trans (chain_serves mode callback? line s).later, ?_⟩
  cases callback? with
  | none => cases mode <;> exact follows.2.of_same rfl rfl rfl rfl rfl
  | some callback =>
    have added : (s.addDeferred .continuation callback).Mirrors (p.defer callback) :=
      follows.2.addDeferred follows.sound (fun _ _ => rfl) callback
    cases mode <;> exact added.of_same rfl rfl rfl rfl rfl

theorem release (follows : Follows source s p) (callbacks : List Callback) :
    Follows source (s.release callbacks) (Plain.host.release callbacks p) := by
  induction callbacks generalizing s p with
  | nil => exact follows
  | cons callback rest ih =>
    have later := follows.1.tail (.record none "Promise resolved -> Microtask Queue" .idle
      (.addContinuation s callback) (by decide))
    have added : (s.addDeferred .continuation callback).Mirrors (p.defer callback) :=
      follows.2.addDeferred follows.sound (fun _ _ => rfl) callback
    exact ih ⟨later, added.of_same rfl rfl rfl rfl rfl⟩

theorem leave (follows : Follows source s p) : Follows source s.leave p := by
  refine ⟨follows.1.trans (leave_later s), ?_⟩
  unfold Session.leave
  split
  · exact follows.2.of_same rfl rfl rfl rfl rfl
  · exact follows.2

end Follows

/-- As hosts of a script, the session and the plain loop that it mirrors agree. -/
theorem host_agree (source : String) (mode : LineMode) :
    (host mode).Agree (Follows source) Plain.host where
  print text line _ _ follows := follows.print mode text line
  registerTimer callback delay line s p follows := by
    refine ⟨?_, follows.registerTimer mode callback delay line⟩
    cases mode <;> exact congrArg (· + 1) follows.2.ids
  defer callback line _ _ follows := follows.defer mode callback line
  chain callback? line _ _ follows := follows.chain mode callback? line
  release callbacks _ _ follows := follows.release callbacks
  enter name line s _ follows :=
    ⟨follows.1.trans (enter_later name line s), follows.2.of_same rfl rfl rfl rfl rfl⟩
  leave _ _ follows := follows.leave

end Session

end EventLoop
