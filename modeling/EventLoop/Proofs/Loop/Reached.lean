import EventLoop.Proofs.Loop.Keys
import EventLoop.Proofs.Promise.Settlement

/-!
# What an event loop can reach

A machine that an event loop reaches has come there in steps, is in order, and stores only callbacks
whose arguments name promises that exist. Evaluation, settlements and the loop's own changes keep it
so.
-/

namespace EventLoop

namespace Session

variable {s : Session} {n : Nat}

/-- The arena is sound, and the arguments of the callbacks in it name only promises below the
number. -/
structure Stored (n : Nat) (s : Session) : Prop where
  sound : s.callbacks.Sound
  within : ∀ (key : SlotKey) (callback : Callback) (value : Value),
    s.callbacks.get? key = some callback → callback.argument = some value → value.Within n

namespace Stored

theorem mono {k : Nat} (stored : s.Stored n) (le : n ≤ k) : s.Stored k where
  sound := stored.sound
  within key callback value found argument :=
    (stored.within key callback value found argument).mono le

theorem of_callbacks {t : Session} (stored : s.Stored n) (same : t.callbacks = s.callbacks) :
    t.Stored n where
  sound := by rw [same]; exact stored.sound
  within := by rw [same]; exact stored.within

theorem insert {t : Session} (stored : s.Stored n) {callback : Callback}
    (within : ∀ value, callback.argument = some value → value.Within n)
    (inserted : t.callbacks = (s.callbacks.insert callback).2) : t.Stored n where
  sound := by rw [inserted]; exact stored.sound.insert callback
  within key other value found argument := by
    rw [inserted] at found
    exact Arena.forall_insert stored.sound
      (fun key other found value => stored.within key other value found) within key other found
      value argument

theorem take (stored : s.Stored n) (task : QueuedTask) : (s.takeCallback task).2.Stored n where
  sound := stored.sound.take task.callback
  within key other value found argument :=
    Arena.forall_take (fun key other found value => stored.within key other value found)
      task.callback key other found value argument

end Stored

theorem callbacks_print (mode : LineMode) (text : String) (line : Nat) (s : Session) :
    (print mode text line s).callbacks = s.callbacks := by
  cases mode <;> rfl

theorem callbacks_registerTimer (mode : LineMode) (callback : Callback) (delay line : Nat)
    (s : Session) :
    (registerTimer mode callback delay line s).2.callbacks = (s.callbacks.insert callback).2 := by
  cases mode <;> rfl

theorem callbacks_defer (mode : LineMode) (callback : Callback) (line : Nat) (s : Session) :
    (defer mode callback line s).callbacks = (s.callbacks.insert callback).2 := by
  cases mode <;> rfl

theorem callbacks_chain_some (mode : LineMode) (callback : Callback) (line : Nat) (s : Session) :
    (chain mode (some callback) line s).callbacks = (s.callbacks.insert callback).2 := by
  cases mode <;> rfl

theorem callbacks_chain_none (mode : LineMode) (line : Nat) (s : Session) :
    (chain mode none line s).callbacks = s.callbacks := by
  cases mode <;> rfl

theorem callbacks_leave (s : Session) : s.leave.callbacks = s.callbacks := by
  unfold leave
  split <;> rfl

theorem Stored.release (stored : s.Stored n) {callbacks : List Callback}
    (within : ∀ callback ∈ callbacks, ∀ value, callback.argument = some value → value.Within n) :
    (s.release callbacks).Stored n := by
  induction callbacks generalizing s with
  | nil => exact stored
  | cons callback rest ih =>
    refine ih ?_ fun other member => within other (List.mem_cons_of_mem _ member)
    exact stored.insert (within callback List.mem_cons_self) rfl

end Session

/-- Evaluation stores only callbacks whose arguments name promises that exist. -/
theorem Path.stored {limits : Limits} {mode : LineMode} {m m' : Machine Session}
    (path : Path limits (Session.host mode) m m') (inOrder : m.InOrder)
    (stored : m.host.Stored m.promises.size) : m'.host.Stored m'.promises.size := by
  induction path with
  | trans path₁ _ ih₁ ih₂ => exact ih₂ (path₁.inOrder inOrder) (ih₁ inOrder stored)
  | print m text line _ => exact stored.of_callbacks (Session.callbacks_print ..)
  | registerTimer m function delay line _ =>
    exact stored.insert (fun _ argument => by cases argument) (Session.callbacks_registerTimer ..)
  | defer m function line _ =>
    exact stored.insert (fun _ argument => by cases argument) (Session.callbacks_defer ..)
  | resolve m value _ _ _ => exact stored.mono (by simp)
  | chain m receiver value function line _ found =>
    refine (stored.insert ?_ (Session.callbacks_chain_some ..)).mono
      (by simp [Machine.onHost])
    intro given argument
    cases argument
    exact inOrder.promises receiver value found
  | park m receiver waiting function line _ _ =>
    exact (stored.of_callbacks (Session.callbacks_chain_none ..)).mono (by simp [Machine.onHost])
  | call m m' name line _ _ _ ih =>
    have inside := ih ⟨inOrder.scopes, inOrder.promises⟩ (stored.of_callbacks rfl)
    exact inside.of_callbacks (Session.callbacks_leave _)
  | refuse m name line _ => exact stored.of_callbacks (Session.callbacks_leave _)
  | _ => exact stored

/-- A machine that an event loop for the source can reach. -/
structure Reached (source : String) (hand : Hand) (m : Machine Session) : Prop where
  later : Later (.first source) ⟨hand, m.host⟩
  inOrder : m.InOrder
  stored : m.host.Stored m.promises.size

/-- Between two tasks nothing is on the stack and no task is ready. -/
structure Session.AtRest (s : Session) : Prop where
  stack : s.collections.stack = []
  ready : s.collections.readyQueue = []

/-- What waited for a promise is queued when that is settled; if nothing waited, nothing is. -/
theorem Session.host_settle (mode : LineMode) (m : Machine Session) (p : PromiseId)
    (value : Value) :
    (m.settle (host mode) p value).host = m.host.release (m.promises.settle p value).2 := by
  unfold Machine.settle
  cases (m.promises.settle p value).2 with
  | nil => rfl
  | cons callback rest => rfl

/-- What is stored after a callback gave its value names only promises that exist. -/
theorem Session.Stored.finish {m : Machine Session} (stored : m.host.Stored m.promises.size)
    (inOrder : m.InOrder) (mode : LineMode) (settles : Option PromiseId) {value : Value}
    (known : value.Within m.promises.size) :
    (m.finish (host mode) settles value).host.Stored
      (m.finish (host mode) settles value).promises.size := by
  cases settles with
  | none => exact stored
  | some p =>
    have size : (m.settle (host mode) p value).promises.size = m.promises.size :=
      Promises.settle_size ..
    show (m.settle (host mode) p value).host.Stored (m.settle (host mode) p value).promises.size
    rw [host_settle, size]
    refine stored.release ?_
    intro callback member given argument
    exact inOrder.within_released known member argument

namespace Session.AtRest

variable {s : Session}

theorem snap (rest : s.AtRest) (line : Option Nat) (description : String) (phase : Phase) :
    (s.snap line description phase).AtRest :=
  ⟨rest.stack, rest.ready⟩

/-- When the frame that is alone on the stack is gone, nothing is on it. -/
theorem popFrame {frame : Frame} (stack : s.collections.stack = [frame])
    (ready : s.collections.readyQueue = []) : s.popFrame.AtRest where
  stack := by simp [Session.popFrame, stack]
  ready := ready

theorem stackIsEmpty (rest : s.AtRest) : s.stackIsEmpty = true := by
  simp [Session.stackIsEmpty, rest.stack]

end Session.AtRest

namespace Reached

variable {source : String} {hand : Hand} {limits : Limits} {mode : LineMode}
  {m m' : Machine Session}

theorem path (reached : Reached source .empty m) (path : Path limits (Session.host mode) m m') :
    Reached source .empty m' where
  later := reached.later.trans path.serves.later
  inOrder := path.inOrder reached.inOrder
  stored := path.stored reached.inOrder reached.stored

theorem deeper (reached : Reached source hand m) : Reached source hand m.deeper :=
  ⟨reached.later, ⟨reached.inOrder.scopes, reached.inOrder.promises⟩, reached.stored⟩

theorem shallower (reached : Reached source hand m) : Reached source hand m.shallower :=
  ⟨reached.later, ⟨reached.inOrder.scopes, reached.inOrder.promises⟩, reached.stored⟩

theorem of_step {hand' : Hand} {f : Session → Session} (reached : Reached source hand m)
    (step : Step ⟨hand, m.host⟩ ⟨hand', f m.host⟩)
    (callbacks : (f m.host).callbacks = m.host.callbacks) :
    Reached source hand' (m.onHost f) where
  later := reached.later.tail step
  inOrder := ⟨reached.inOrder.scopes, reached.inOrder.promises⟩
  stored := reached.stored.of_callbacks callbacks

/-- A snapshot without a change. -/
theorem snap (reached : Reached source .empty m) (description : String) (phase : Phase)
    (other : description ∉ runWords) :
    Reached source .empty (m.onHost (Session.snap none description phase)) :=
  reached.of_step (.record none description phase (.rest m.host) other) rfl

/-- The frame that is alone on the stack is taken away, with a snapshot. -/
theorem popFrame (reached : Reached source .empty m) {frame : Frame}
    (stack : m.host.collections.stack = [frame]) (description : String)
    (other : description ∉ runWords) :
    Reached source .empty
      (m.onHost fun s => s.popFrame.snap none description .idle) :=
  reached.of_step (f := fun s => s.popFrame.snap none description .idle)
    (.record none description .idle (.pop m.host (by rw [stack]; simp)) other) rfl

/-- The value of a callback settles a promise, and what waited for it is queued. -/
theorem finish (reached : Reached source .empty m) (mode : LineMode)
    (settles : Option PromiseId) {value : Value} (known : value.Within m.promises.size) :
    Reached source .empty (m.finish (Session.host mode) settles value) ∧
      m.host.Serves (m.finish (Session.host mode) settles value).host := by
  have serves : m.host.Serves (m.finish (Session.host mode) settles value).host := by
    cases settles with
    | none => exact .refl m.host
    | some p =>
      show m.host.Serves (m.settle (Session.host mode) p value).host
      rw [Session.host_settle]
      exact Session.release_serves _ m.host
  refine ⟨⟨?_, ?_, ?_⟩, serves⟩
  · exact reached.later.trans serves.later
  · exact reached.inOrder.finish (Session.host mode) settles known
  · exact reached.stored.finish reached.inOrder mode settles known

end Reached

end EventLoop
