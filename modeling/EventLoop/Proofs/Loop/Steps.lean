import Mathlib.Logic.Relation
import EventLoop.Loop.Generation
import EventLoop.Proofs.Evaluation.Tracking
import EventLoop.Proofs.Queue.Timers
import EventLoop.Proofs.Timeline.Tally

/-!
# The steps of an event loop

An event loop changes in one place at a time, and records a snapshot of each change. Beside that it
only looks for lines in the source and takes callbacks out of the arena. What every step preserves,
a whole run preserves, since a run is a chain of steps.
-/

namespace EventLoop

open Relation

/-- The task that has left its queue, as long as its callback was not taken: it is on its way to the
stack, or a frame stands for it already. -/
inductive Hand where
  | empty
  | moving (task : QueuedTask)
  | framed (task : QueuedTask)
deriving DecidableEq, Repr

/-- The task that has left its queue. -/
def Hand.task? : Hand → Option QueuedTask
  | empty => none
  | moving task | framed task => some task

/-- An event loop at an instant between two steps. -/
structure Instant where
  hand : Hand
  session : Session

/-- A change that a snapshot shows, other than that a task begins to run. -/
inductive Change : Instant → Instant → Prop
  | rest (s : Session) : Change ⟨.empty, s⟩ ⟨.empty, s⟩
  | push (s : Session) (name : String) (kind : FrameKind) (line : Option Nat) :
    Change ⟨.empty, s⟩ ⟨.empty, s.pushFrame name kind line⟩
  | pop (s : Session) : s.collections.stack ≠ [] → Change ⟨.empty, s⟩ ⟨.empty, s.popFrame⟩
  | print (s : Session) (text : String) : Change ⟨.empty, s⟩ ⟨.empty, s.printLine text⟩
  | addTimer (s : Session) (callback : Callback) (delay : Nat) :
    Change ⟨.empty, s⟩ ⟨.empty, (s.addTimer callback delay).2⟩
  | addMicrotask (s : Session) (callback : Callback) :
    Change ⟨.empty, s⟩ ⟨.empty, s.addDeferred .microtask callback⟩
  | addContinuation (s : Session) (callback : Callback) :
    Change ⟨.empty, s⟩ ⟨.empty, s.addDeferred .continuation callback⟩
  | dequeue (s : Session) (task : QueuedTask) (rest : TaskQueue) :
    s.collections.stack = [] → s.collections.deferredQueue = task :: rest →
    Change ⟨.empty, s⟩ ⟨.moving task, s.popDeferred.2⟩
  | promote (s : Session) :
    s.collections.stack = [] → s.collections.deferredQueue = [] →
    s.collections.readyQueue = [] → s.collections.pendingTimers ≠ [] →
    Change ⟨.empty, s⟩ ⟨.empty, s.promoteTimer⟩
  /-- A script that cannot be read: its frame is gone, and its failure is printed. -/
  | reject (s : Session) (frame : Frame) (text : String) :
    s.collections.stack = [frame] →
    Change ⟨.empty, s⟩ ⟨.empty, s.clearStack.printLine text⟩

/-- A step of an event loop. -/
inductive Step : Instant → Instant → Prop
  | record {a b : Instant} (line : Option Nat) (description : String) (phase : Phase) :
    Change a b → description ∉ runWords → Step a ⟨b.hand, b.session.snap line description phase⟩
  /-- A deferred task begins to run. -/
  | begin (s : Session) (task : QueuedTask) (name : String) :
    s.collections.stack = [] →
    Step ⟨.moving task, s⟩
      ⟨.framed task, (s.pushFrame name .deferredCallback none).snap none "Run Microtask" .idle⟩
  /-- A task that is ready leaves its queue and begins to run. -/
  | start (s : Session) (task : QueuedTask) (name : String) :
    s.collections.stack = [] → s.collections.readyQueue = [task] →
    Step ⟨.empty, s⟩
      ⟨.framed task,
        (s.popReady.2.pushFrame name .timerCallback none).snap none "Run Macrotask" .idle⟩
  | take (s : Session) (task : QueuedTask) :
    Step ⟨.framed task, s⟩ ⟨.empty, (s.takeCallback task).2⟩
  | look (s : Session) (locator : Locator) :
    Step ⟨.empty, s⟩ ⟨.empty, { s with locator }⟩

/-- A later moment of an event loop. -/
abbrev Later : Instant → Instant → Prop :=
  ReflTransGen Step

/-- The first moment of an event loop: the first snapshot shows that it holds nothing. -/
def Instant.first (source : String) : Instant :=
  ⟨.empty, (Session.ofSource source).snap none "Idle" .idle⟩

/-- The last snapshot shows what the loop holds. -/
def Session.Shown (s : Session) : Prop :=
  ∃ last, s.timeline.last? = some last ∧ last.toCollections = s.collections

theorem Session.shown_snap (s : Session) (line : Option Nat) (description : String)
    (phase : Phase) : (s.snap line description phase).Shown :=
  ⟨_, Array.back?_push, rfl⟩

theorem Step.shown {a b : Instant} (step : Step a b) (shown : a.session.Shown) :
    b.session.Shown := by
  cases step with
  | record | begin | start => exact Session.shown_snap ..
  | take | look => exact shown

theorem Later.shown {source : String} {a : Instant} (later : Later (.first source) a) :
    a.session.Shown := by
  induction later with
  | refl => exact Session.shown_snap ..
  | tail _ step ih => exact step.shown ih

theorem Session.promoteTimer_eq {s : Session} {timer : PendingTimer} {others : Timers}
    (taken : s.collections.pendingTimers.take = (some timer, others)) :
    s.promoteTimer =
      { s with
        collections :=
          { s.collections with
            pendingTimers := others
            readyQueue := s.collections.readyQueue ++ [.ready timer] } } := by
  unfold promoteTimer
  rw [taken]
  rfl

theorem Change.timeline {a b : Instant} (change : Change a b) :
    b.session.timeline = a.session.timeline := by
  cases change with
  | promote s _ _ _ timers =>
    obtain ⟨timer, others, _, _, taken, -⟩ := Timers.take_cons timers
    rw [Session.promoteTimer_eq taken]
  | _ => rfl

theorem Step.timeline_cases {a b : Instant} (step : Step a b) :
    b.session.timeline = a.session.timeline ∨ ∃ line description phase,
      b.session.timeline =
        a.session.timeline.record b.session.collections line description phase := by
  cases step with
  | record line description phase change _ =>
    exact .inr ⟨line, description, phase, by rw [← change.timeline]; rfl⟩
  | begin | start => exact .inr ⟨_, _, _, rfl⟩
  | take | look => exact .inl rfl

/-- The characters of a text stay in their places when more text follows. -/
theorem getElem?_toList_append {start rest : String} {i : Nat} {c : Char}
    (h : start.toList[i]? = some c) : (start ++ rest).toList[i]? = some c := by
  obtain ⟨bound, -⟩ := List.getElem?_eq_some_iff.mp h
  rw [String.toList_append, List.getElem?_append_left bound, h]

/-- A text that none of the words agrees with in some place is none of them. -/
theorem notMem_of_getElem? {words : List String} {text : String} {i : Nat} {c : Char}
    (h : text.toList[i]? = some c) (other : ∀ word ∈ words, word.toList[i]? ≠ some c) :
    text ∉ words :=
  fun member => other text member h

namespace Session

/-- A session as an evaluation leaves it: it took steps, and the stack and the queue of tasks that
are ready are what they were. -/
structure Serves (s t : Session) : Prop where
  later : Later ⟨.empty, s⟩ ⟨.empty, t⟩
  stack : t.collections.stack = s.collections.stack
  ready : t.collections.readyQueue = s.collections.readyQueue

namespace Serves

variable {s t u : Session}

theorem refl (s : Session) : Serves s s :=
  ⟨.refl, rfl, rfl⟩

theorem trans (h₁ : Serves s t) (h₂ : Serves t u) : Serves s u :=
  ⟨h₁.later.trans h₂.later, h₂.stack.trans h₁.stack, h₂.ready.trans h₁.ready⟩

theorem look (s : Session) (locator : Locator) : Serves s { s with locator } :=
  ⟨.single (.look s locator), rfl, rfl⟩

end Serves

theorem highlight_serves (mode : LineMode) (key : String) (signatures : List String)
    (callSite : Nat) (s : Session) : Serves s (s.highlight mode key signatures callSite).2 := by
  cases mode with
  | heuristic => exact .look s _
  | callSite => exact .refl s

/-- A frame of its own, a change inside it, and the frame gone again: the call of a built-in. -/
theorem primitive_serves (s : Session) (name : String) (kind : FrameKind) (line : Option Nat)
    (opening closing : String) (change : Session → Session)
    (changes : ∀ t : Session, Change ⟨.empty, t⟩ ⟨.empty, change t⟩)
    (stack : ∀ t : Session, (change t).collections.stack = t.collections.stack)
    (ready : ∀ t : Session, (change t).collections.readyQueue = t.collections.readyQueue)
    (other₁ : opening ∉ runWords) (other₂ : closing ∉ runWords)
    (other₃ : "Pop " ++ name ∉ runWords) :
    Serves s ((change (s.openPrimitive name kind line opening)).closePrimitive name line closing)
    where
  later := by
    have opened := Step.record line opening .idle (.push s name kind line) other₁
    have changed := Step.record line closing .idle
      (changes (s.openPrimitive name kind line opening)) other₂
    have closed := Step.record line ("Pop " ++ name) .idle
      (.pop ((change (s.openPrimitive name kind line opening)).snap line closing .idle) (by
        show (change _).collections.stack ≠ []
        rw [stack]
        simp [openPrimitive, pushFrame, snap]))
      other₃
    exact .head opened (.head changed (.single closed))
  stack := by
    show ((change _).collections.stack).dropLast = _
    rw [stack]
    simp [openPrimitive, pushFrame, snap]
  ready := by
    show (change _).collections.readyQueue = _
    rw [ready]
    rfl

theorem print_serves (mode : LineMode) (text : String) (line : Nat) (s : Session) :
    Serves s (print mode text line s) := by
  refine (highlight_serves mode ("log-" ++ text) (printSignatures text) line s).trans ?_
  have opening : ("console.log('" ++ text).toList[0]? = some 'c' :=
    getElem?_toList_append (by decide)
  have closing : ("Output: " ++ text).toList[0]? = some 'O' := getElem?_toList_append (by decide)
  exact primitive_serves _ "console.log" .print _ _ _ (Session.printLine text)
    (fun t => .print t text) (fun _ => rfl) (fun _ => rfl)
    (notMem_of_getElem? (getElem?_toList_append opening) (by decide))
    (notMem_of_getElem? closing (by decide)) (by decide)

theorem registerTimer_serves (mode : LineMode) (callback : Callback) (delay line : Nat)
    (s : Session) : Serves s (registerTimer mode callback delay line s).2 := by
  refine (highlight_serves mode "setTimeout" ["setTimeout"] line s).trans ?_
  have opening : ("setTimeout(..., " ++ toString delay).toList[0]? = some 's' :=
    getElem?_toList_append (by decide)
  exact primitive_serves _ "setTimeout" .primitive _ _ _ (fun t => (t.addTimer callback delay).2)
    (fun t => .addTimer t callback delay) (fun _ => rfl) (fun _ => rfl)
    (notMem_of_getElem? (getElem?_toList_append opening) (by decide)) (by decide) (by decide)

theorem defer_serves (mode : LineMode) (callback : Callback) (line : Nat) (s : Session) :
    Serves s (defer mode callback line s) := by
  refine (highlight_serves mode "queueMicrotask" ["queueMicrotask"] line s).trans ?_
  exact primitive_serves _ "queueMicrotask" .primitive _ _ _ (·.addDeferred .microtask callback)
    (fun t => .addMicrotask t callback) (fun _ => rfl) (fun _ => rfl)
    (by decide) (by decide) (by decide)

theorem chain_serves (mode : LineMode) (callback : Option Callback) (line : Nat) (s : Session) :
    Serves s (chain mode callback line s) := by
  refine (highlight_serves mode "then" [".then"] line s).trans ?_
  cases callback with
  | some callback =>
    exact primitive_serves _ "Promise.then" .primitive _ _ _
      (·.addDeferred .continuation callback) (fun t => .addContinuation t callback)
      (fun _ => rfl) (fun _ => rfl) (by decide) (by decide) (by decide)
  | none =>
    exact primitive_serves _ "Promise.then" .primitive _ _ _ id .rest (fun _ => rfl) (fun _ => rfl)
      (by decide) (by decide) (by decide)

theorem release_serves (callbacks : List Callback) (s : Session) :
    Serves s (release callbacks s) := by
  induction callbacks generalizing s with
  | nil => exact .refl s
  | cons callback rest ih =>
    have added : Serves s ((s.addDeferred .continuation callback).snap none
        "Promise resolved -> Microtask Queue" .idle) :=
      ⟨.single (.record none _ .idle (.addContinuation s callback) (by decide)), rfl, rfl⟩
    exact added.trans (ih _)

theorem enter_later (name : String) (line : Nat) (s : Session) :
    Later ⟨.empty, s⟩ ⟨.empty, s.enter name line⟩ := by
  refine .single (.record (some line) _ .idle (.push s name .function (some line)) ?_)
  have start : ("Call " ++ name).toList[0]? = some 'C' := getElem?_toList_append (by decide)
  exact notMem_of_getElem? (getElem?_toList_append start) (by decide)

theorem leave_later (s : Session) : Later ⟨.empty, s⟩ ⟨.empty, s.leave⟩ := by
  unfold leave
  cases last : s.collections.stack.getLast? with
  | none => exact .refl
  | some frame =>
    have nonempty : s.collections.stack ≠ [] := fun nil => by
      rw [nil] at last
      cases last
    have start : ("Return from " ++ frame.name).toList[1]? = some 'e' :=
      getElem?_toList_append (by decide)
    exact .single (.record _ _ _ (.pop s nonempty)
      (notMem_of_getElem? (getElem?_toList_append start) (by decide)))

/-- A call that the host hears of: if what happens inside it keeps the stack, so does the call. -/
theorem call_serves (name : String) (line : Nat) {s t : Session}
    (inside : Serves (s.enter name line) t) : Serves s t.leave := by
  have stack : t.collections.stack =
      s.collections.stack ++ [⟨s.frames, name, .function, some line⟩] := inside.stack
  have left : t.leave = t.popFrame.snap (some line) s!"Return from {name}()" .idle := by
    unfold leave
    rw [stack, List.getLast?_concat]
  refine ⟨(enter_later name line s).trans (inside.later.trans (leave_later t)), ?_, ?_⟩
  · rw [left]
    show t.collections.stack.dropLast = _
    rw [stack, List.dropLast_concat]
  · rw [left]
    exact inside.ready

end Session

/-- Evaluation takes steps, and leaves the stack as it was. -/
theorem Path.serves {limits : Limits} {mode : LineMode} {m m' : Machine Session}
    (path : Path limits (Session.host mode) m m') : m.host.Serves m'.host := by
  induction path with
  | trans _ _ ih₁ ih₂ => exact ih₁.trans ih₂
  | print m text line _ => exact Session.print_serves mode text line m.host
  | registerTimer m function delay line _ =>
    exact Session.registerTimer_serves mode (.plain function) delay line m.host
  | defer m function line _ => exact Session.defer_serves mode (.plain function) line m.host
  | chain m receiver value function line _ _ =>
    exact Session.chain_serves mode (some ⟨function, some value, some m.promises.size⟩) line m.host
  | park m receiver waiting function line _ _ => exact Session.chain_serves mode none line m.host
  | call m m' name line _ _ _ ih => exact Session.call_serves name line ih
  | refuse m name line _ => exact Session.call_serves name line (.refl _)
  | _ => exact .refl _

end EventLoop
