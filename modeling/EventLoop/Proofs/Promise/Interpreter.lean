import Mathlib.Logic.Relation
import EventLoop.Language.Parsing
import EventLoop.Proofs.Evaluation.Simulation
import EventLoop.Proofs.Promise.Settlers

/-!
# Promises that are settled once

A host is handed callbacks. It may run each of them once, in any order, and run further scripts in
between; scripts and callbacks may fail. Whatever it does, no promise is ever settled twice: for
each there is one callback at most, or one reaction of another promise, that can settle it, and none
once it has its value.
-/

namespace EventLoop

open Relation

variable {σ : Type}

/-- The state of a host, and the callbacks that it was handed and has not run. -/
structure Custody (σ : Type) where
  state : σ
  held : List Callback

/-- The host, with a list of the callbacks that it holds. -/
def Host.keeping (host : Host σ) : Host (Custody σ) where
  print text line c := { c with state := host.print text line c.state }
  registerTimer callback delay line c :=
    ((host.registerTimer callback delay line c.state).1,
      ⟨(host.registerTimer callback delay line c.state).2, callback :: c.held⟩)
  defer callback line c := ⟨host.defer callback line c.state, callback :: c.held⟩
  chain callback? line c := ⟨host.chain callback? line c.state, callback?.toList ++ c.held⟩
  release callbacks c := ⟨host.release callbacks c.state, callbacks ++ c.held⟩
  enter name line c := { c with state := host.enter name line c.state }
  leave c := { c with state := host.leave c.state }

/-- The list makes no difference to a script. -/
theorem Host.keeping_agree (host : Host σ) :
    host.keeping.Agree (fun custody state => custody.state = state) host where
  print _ _ _ _ same := by rw [← same]; rfl
  registerTimer _ _ _ _ _ same := by rw [← same]; exact ⟨rfl, rfl⟩
  defer _ _ _ _ same := by rw [← same]; rfl
  chain _ _ _ _ same := by rw [← same]; rfl
  release _ _ _ same := by rw [← same]; rfl
  enter _ _ _ _ same := by rw [← same]; rfl
  leave _ _ same := by rw [← same]; rfl

/-- The machine, whose host holds these callbacks. -/
def Machine.holding (held : List Callback) (m : Machine (Custody σ)) : Machine (Custody σ) :=
  m.onHost fun custody => { custody with held }

/-- The arguments of the callbacks that are held name only promises that exist. -/
def Machine.Supplied (m : Machine (Custody σ)) : Prop :=
  ∀ callback ∈ m.host.held, ∀ value, callback.argument = some value →
    value.Within m.promises.size

/-- An interpreter and its host, at any moment: between two runs or inside one, and inside any calls
of functions. -/
structure Interpreter (σ : Type) where
  running : Option Callback
  machine : Machine (Custody σ)

namespace Interpreter

/-- An interpreter that has not run anything. -/
def start (state : σ) : Interpreter σ :=
  ⟨none, .initial ⟨state, []⟩⟩

/-- The promises that a callback which is held or running settles. -/
def outside (a : Interpreter σ) : List PromiseId :=
  Promises.settledBy a.machine.host.held ++ Promises.settledBy a.running.toList

/-- The promises that can be settled, each as often as there is something that settles it: a
callback that is held or running, or a reaction that waits for a promise. -/
def settlers (a : Interpreter σ) : List PromiseId :=
  a.outside ++ a.machine.promises.settles

/-- What can happen to an interpreter. -/
inductive Advance (host : Host σ) : Interpreter σ → Interpreter σ → Prop
  /-- The host does something of its own. -/
  | act (running : Option Callback) (m : Machine (Custody σ)) (state : σ) :
    Advance host ⟨running, m⟩ ⟨running, m.onHost fun custody => { custody with state }⟩
  /-- A script or a callback is evaluated on. -/
  | evaluate {running : Option Callback} {m m' : Machine (Custody σ)} (limits : Limits) :
    Path limits host.keeping m m' → Advance host ⟨running, m⟩ ⟨running, m'⟩
  /-- The run of a callback begins: it is held no longer. -/
  | begin {m : Machine (Custody σ)} {callback : Callback} {before after : List Callback} :
    m.host.held = before ++ callback :: after →
    Advance host ⟨none, m⟩ ⟨some callback, m.holding (before ++ after)⟩
  /-- A function is called: that of the callback, or one inside the script. -/
  | enter (running : Option Callback) (m : Machine (Custody σ)) :
    Advance host ⟨running, m⟩ ⟨running, m.deeper⟩
  /-- A call of a function ends. -/
  | leave (running : Option Callback) (m : Machine (Custody σ)) :
    Advance host ⟨running, m⟩ ⟨running, m.shallower⟩
  /-- The run of the callback fails. -/
  | fail (callback : Callback) (m : Machine (Custody σ)) :
    Advance host ⟨some callback, m⟩ ⟨none, m⟩
  /-- The callback gave a value. If it settles a promise, that is settled. -/
  | finish (callback : Callback) (m : Machine (Custody σ)) {value : Value} :
    value.Within m.promises.size →
    Advance host ⟨some callback, m⟩ ⟨none, m.finish host.keeping callback.settles value⟩

/-- What an interpreter can become. -/
abbrev Later (host : Host σ) : Interpreter σ → Interpreter σ → Prop :=
  ReflTransGen (Advance host)

/-- A moment of an interpreter that began with nothing. -/
def Reachable (host : Host σ) (a : Interpreter σ) : Prop :=
  ∃ state, Later host (start state) a

end Interpreter

namespace Path

variable {host : Host σ} {limits : Limits} {m m' : Machine (Custody σ)}

/-- Evaluation leaves each promise settled in one way at most, and takes no promise's value away. -/
theorem single (path : Path limits host.keeping m m') {others : List PromiseId}
    (single : m.promises.Single (Promises.settledBy m.host.held ++ others)) :
    m'.promises.Single (Promises.settledBy m'.host.held ++ others) ∧
      m.promises.Keeps m'.promises := by
  induction path with
  | trans _ _ ih₁ ih₂ =>
    obtain ⟨single₁, keeps₁⟩ := ih₁ single
    obtain ⟨single₂, keeps₂⟩ := ih₂ single₁
    exact ⟨single₂, keeps₁.trans keeps₂⟩
  | resolve m value _ _ _ => exact ⟨single.push_resolved value, .push m.promises _⟩
  | chain m receiver value function line _ _ =>
    exact ⟨single.push_pending, .push m.promises _⟩
  | park m receiver waiting function line _ found =>
    have found' := Promises.getElem?_push_of_some found (.pending [])
    have pushed : Promises.Single (m.promises.push (.pending []))
        ((Reaction.handler function m.promises.size).settles ::
          (Promises.settledBy m.host.held ++ others)) := single.push_pending
    exact ⟨pushed.wait found', (Promises.Keeps.push m.promises _).trans (.set found' _)⟩
  | call m m' name line _ _ _ ih => exact ih single
  | _ => exact ⟨single, .refl _⟩

theorem supplied (path : Path limits host.keeping m m') (inOrder : m.InOrder)
    (supplied : m.Supplied) : m'.Supplied := by
  induction path with
  | trans path₁ _ ih₁ ih₂ => exact ih₂ (path₁.inOrder inOrder) (ih₁ inOrder supplied)
  | registerTimer m function delay line _ =>
    intro callback member value argument
    rcases List.mem_cons.mp member with rfl | old
    · cases argument
    · exact supplied callback old value argument
  | defer m function line _ =>
    intro callback member value argument
    rcases List.mem_cons.mp member with rfl | old
    · cases argument
    · exact supplied callback old value argument
  | resolve m _ _ _ _ =>
    intro callback member value argument
    exact (supplied callback member value argument).mono (by simp)
  | chain m receiver given function line _ found =>
    intro callback member value argument
    have le : m.promises.size ≤ (m.promises.push (.pending [])).size := by simp
    rcases List.mem_cons.mp member with rfl | old
    · cases argument
      exact (inOrder.promises receiver given found).mono le
    · exact (supplied callback old value argument).mono le
  | park m receiver waiting function line _ _ =>
    intro callback member value argument
    exact (supplied callback member value argument).mono (by simp [Machine.onHost])
  | call m m' name line _ _ _ ih => exact ih ⟨inOrder.scopes, inOrder.promises⟩ supplied
  | _ => exact supplied

end Path

theorem Machine.held_settle (host : Host σ) (m : Machine (Custody σ)) (p : PromiseId)
    (value : Value) :
    (m.settle host.keeping p value).host.held = (m.promises.settle p value).2 ++ m.host.held := by
  unfold Machine.settle
  cases (m.promises.settle p value).2 with
  | nil => rfl
  | cons callback rest => rfl

namespace Interpreter

/-- The machine is in order, what is held names only promises that exist, and each promise is
settled in one way at most. -/
structure Sound (a : Interpreter σ) : Prop where
  inOrder : a.machine.InOrder
  supplied : a.machine.Supplied
  single : a.machine.promises.Single a.outside

theorem sound_start (state : σ) : (start state).Sound where
  inOrder := .initial _
  supplied _ member := by cases member
  single := .empty

namespace Sound

variable {m : Machine (Custody σ)} {callback : Callback} {before after : List Callback}

theorem begin (sound : (Interpreter.mk none m).Sound)
    (held : m.host.held = before ++ callback :: after) :
    (Interpreter.mk (some callback) (m.holding (before ++ after))).Sound := by
  refine ⟨⟨sound.inOrder.scopes, sound.inOrder.promises⟩, ?_, ?_⟩
  · intro other member
    refine sound.supplied other ?_
    show other ∈ m.host.held
    rw [held]
    rcases List.mem_append.mp member with front | back
    · exact List.mem_append_left _ front
    · exact List.mem_append_right _ (List.mem_cons_of_mem _ back)
  · have taken : (before ++ callback :: after).Perm (before ++ after ++ [callback]) :=
      List.perm_middle.trans (List.perm_append_singleton callback _).symm
    refine sound.single.perm ?_
    show (Promises.settledBy m.host.held ++ []).Perm
      (Promises.settledBy (before ++ after) ++ Promises.settledBy [callback])
    rw [List.append_nil, held, ← Promises.settledBy_append]
    exact Promises.settledBy_perm taken

theorem finish (host : Host σ) (sound : (Interpreter.mk (some callback) m).Sound) {value : Value}
    (known : value.Within m.promises.size) :
    (Interpreter.mk none (m.finish host.keeping callback.settles value)).Sound ∧
      (∀ p, callback.settles = some p →
        m.promises.settleStrictly p value = some (m.promises.settle p value)) ∧
      m.promises.Keeps (m.finish host.keeping callback.settles value).promises := by
  obtain ⟨inOrder, supplied, single⟩ := sound
  have outside : (Interpreter.mk (some callback) m).outside =
      Promises.settledBy m.host.held ++ callback.settles.toList := by
    show Promises.settledBy m.host.held ++ Promises.settledBy [callback] = _
    rw [Promises.settledBy_singleton]
  rw [outside] at single
  cases settles : callback.settles with
  | none =>
    rw [settles] at single
    exact ⟨⟨inOrder, supplied, single⟩, (by simp), .refl m.promises⟩
  | some p =>
    rw [settles] at single
    have front : m.promises.Single (p :: Promises.settledBy m.host.held) :=
      single.perm (List.perm_append_singleton _ _)
    obtain ⟨after, strict⟩ := front.settle known
    refine ⟨⟨inOrder.settle host.keeping p known, ?_, ?_⟩,
      ?_, .settle m.promises p value⟩
    · intro other member given argument
      have member : other ∈ (m.settle host.keeping p value).host.held := member
      rw [Machine.held_settle] at member
      have size : (m.settle host.keeping p value).promises.size = m.promises.size :=
        Promises.settle_size ..
      show given.Within (m.settle host.keeping p value).promises.size
      rw [size]
      rcases List.mem_append.mp member with new | old
      · exact inOrder.within_released known new argument
      · exact supplied other old given argument
    · show Promises.Single (m.promises.settle p value).1
        (Promises.settledBy (m.settle host.keeping p value).host.held ++ [])
      rw [Machine.held_settle, List.append_nil]
      rw [Promises.settledBy_append]
      exact after
    · intro q same
      cases same
      exact strict

end Sound

/-- Whatever happens, each promise is settled in one way at most, and values stay. -/
theorem Advance.sound {host : Host σ} {a b : Interpreter σ} (advance : Advance host a b)
    (sound : a.Sound) : b.Sound ∧ a.machine.promises.Keeps b.machine.promises := by
  cases advance with
  | act running m state =>
    exact ⟨⟨⟨sound.inOrder.scopes, sound.inOrder.promises⟩, sound.supplied, sound.single⟩,
      .refl _⟩
  | evaluate limits path =>
    obtain ⟨single, keeps⟩ := path.single sound.single
    exact ⟨⟨path.inOrder sound.inOrder, path.supplied sound.inOrder sound.supplied, single⟩, keeps⟩
  | begin held => exact ⟨sound.begin held, .refl _⟩
  | enter running m | leave running m =>
    exact ⟨⟨⟨sound.inOrder.scopes, sound.inOrder.promises⟩, sound.supplied, sound.single⟩,
      .refl m.promises⟩
  | fail callback m =>
    refine ⟨⟨sound.inOrder, sound.supplied, ?_⟩, .refl m.promises⟩
    show m.promises.Single (Promises.settledBy m.host.held ++ [])
    rw [List.append_nil]
    exact (sound.single.perm List.perm_append_comm).forget
  | finish callback m known =>
    obtain ⟨after, -, keeps⟩ := sound.finish host known
    exact ⟨after, keeps⟩

theorem Later.sound {host : Host σ} {a b : Interpreter σ} (later : Later host a b)
    (sound : a.Sound) : b.Sound ∧ a.machine.promises.Keeps b.machine.promises := by
  induction later with
  | refl => exact ⟨sound, .refl _⟩
  | tail _ advance ih =>
    obtain ⟨after, keeps⟩ := advance.sound ih.1
    exact ⟨after, ih.2.trans keeps⟩

theorem Reachable.sound {host : Host σ} {a : Interpreter σ} (reachable : Reachable host a) :
    a.Sound := by
  obtain ⟨state, later⟩ := reachable
  exact (later.sound (sound_start state)).1

/-- The value that a callback gives, before anything is settled. -/
def callbackValue (limits : Limits) (host : Host σ) (callback : Callback) : Eval σ Value :=
  Eval.invoke limits host (limits.maxSteps + 1) callback.function callback.argument.toList
    callback.function.definition.line

/-- A run ends in what the interpreter can become, and it does not fail for a promise that does not
exist. -/
def Leaves (host : Host σ) (a : Interpreter σ)
    (ran : Except ScriptError Unit × Machine (Custody σ)) : Prop :=
  Later host a ⟨none, ran.2⟩ ∧ ∀ line, ran.1 ≠ .error (.misuse line .droppedPromise)

section

variable (host : Host σ) {m : Machine (Custody σ)} (sound : (Interpreter.mk none m).Sound)
  (limits : Limits)

include sound

theorem leaves_script (script : Script) :
    Leaves host ⟨none, m⟩ ((Eval.runScript limits host.keeping script).run m) := by
  have tracked : Eval.Tracked limits host.keeping m
      (Eval.runScript limits host.keeping script) fun _ _ => True :=
    Eval.runScript_tracked script sound.inOrder
  refine ⟨.single (.evaluate limits tracked.1), ?_⟩
  intro line failed
  have ends := tracked.2
  rw [failed] at ends
  exact ends

/-- The function of a callback is called on what was reached, and it gives a value that names only
promises that exist. -/
theorem callbackValue_later {callback : Callback} {before after : List Callback}
    (held : m.host.held = before ++ callback :: after) :
    Later host ⟨none, m⟩ ⟨some callback,
        ((callbackValue limits host.keeping callback).run (m.holding (before ++ after))).2⟩ ∧
      Eval.Yields Eval.Known
        ((callbackValue limits host.keeping callback).run (m.holding (before ++ after))).2
        ((callbackValue limits host.keeping callback).run (m.holding (before ++ after))).1 := by
  have begun : Later host ⟨none, m⟩ ⟨some callback, m.holding (before ++ after)⟩ :=
    .single (.begin held)
  have known : ∀ value ∈ callback.argument.toList,
      Eval.Known value (m.holding (before ++ after)) := fun value member => by
    refine sound.supplied callback ?_ value (Option.mem_toList.mp member)
    show callback ∈ m.host.held
    rw [held]
    exact List.mem_append_right _ List.mem_cons_self
  unfold callbackValue
  rcases Eval.invoke_applies (limits.maxSteps + 1) callback.function callback.argument.toList
      callback.function.definition.line _ (sound.begin held).inOrder known with
    ⟨e, run, h⟩ | ⟨-, result, m', run, path, yields⟩
  · rw [run]
    exact ⟨begun, h⟩
  · rw [run]
    have called := (begun.tail (.enter (some callback) _)).tail (.evaluate limits path)
    refine ⟨called.tail (.leave (some callback) m'), ?_⟩
    cases result with
    | error e => exact yields
    | ok value => exact yields

theorem leaves_callback {callback : Callback} {before after : List Callback}
    (held : m.host.held = before ++ callback :: after) :
    Leaves host ⟨none, m⟩
      ((Eval.runCallback limits host.keeping callback).run (m.holding (before ++ after))) := by
  obtain ⟨later, yields⟩ := callbackValue_later host sound limits held
  rw [Eval.run_runCallback]
  unfold callbackValue at later yields
  rcases run : (Eval.invoke limits host.keeping (limits.maxSteps + 1) callback.function
    callback.argument.toList callback.function.definition.line).run (m.holding (before ++ after))
    with ⟨e | value, m'⟩
  · rw [run] at later yields
    refine ⟨later.tail (.fail callback m'), ?_⟩
    intro line failed
    cases failed
    exact yields
  · rw [run] at later yields
    exact ⟨later.tail (.finish callback m' yields), (by simp)⟩

end

/-- Promises are settled once. At any moment each promise can be settled by one thing at most, by a
callback that the host holds or runs or by what waits for a promise that is pending, and it is
pending if it can. From then on no promise that has its value loses it. What scripts and callbacks
leave, however they end, can be reached again; they do not fail for a promise that does not exist,
and if a callback settles a promise, neither that settlement nor one that follows from it meets a
promise that has its value or does not exist. -/
theorem Reachable.settles_once {host : Host σ} {a : Interpreter σ} (reachable : Reachable host a) :
    (a.settlers.Nodup ∧
      ∀ p ∈ a.settlers, ∃ waiting, a.machine.promises[p]? = some (.pending waiting)) ∧
    (∀ b, Later host a b → a.machine.promises.Keeps b.machine.promises) ∧
    (a.running = none → ∀ limits script,
      Leaves host a ((Eval.runScript limits host.keeping script).run a.machine)) ∧
    (a.running = none → ∀ limits callback before after,
      a.machine.host.held = before ++ callback :: after →
      Leaves host a
        ((Eval.runCallback limits host.keeping callback).run
          (a.machine.holding (before ++ after))) ∧
      Later host a ⟨some callback,
        ((callbackValue limits host.keeping callback).run
          (a.machine.holding (before ++ after))).2⟩ ∧
      ∀ value m p,
        (callbackValue limits host.keeping callback).run
          (a.machine.holding (before ++ after)) = (.ok value, m) →
        callback.settles = some p →
        m.promises.settleStrictly p value = some (m.promises.settle p value)) := by
  have sound := reachable.sound
  obtain ⟨running, m⟩ := a
  refine ⟨⟨sound.single.once, sound.single.pending⟩, fun b later => (later.sound sound).2,
    ?_, ?_⟩
  · intro idle limits script
    cases idle
    exact leaves_script host sound limits script
  · intro idle limits callback before after held
    cases idle
    obtain ⟨later, yields⟩ := callbackValue_later host sound limits held
    refine ⟨leaves_callback host sound limits held, later, ?_⟩
    intro value m' p run settles
    rw [run] at later yields
    obtain ⟨-, strict, -⟩ := (later.sound sound).1.finish host yields
    exact strict p settles

/-- An interpreter whose host does nothing, after a script that was parsed. -/
def afterScript (limits : Limits) (source : String) : Interpreter Unit :=
  ⟨none, ((Eval.runScript limits Host.silent.keeping ((parse 64 source).toOption.getD [])).run
    (start ()).machine).2⟩

/-- The handler of a promise that has its value is held, and settles a promise that is pending. -/
theorem settles_once_handler :
    Reachable Host.silent (afterScript ⟨100, 10⟩ "Promise.resolve(null).then(() => null)") ∧
      (afterScript ⟨100, 10⟩ "Promise.resolve(null).then(() => null)").settlers = [1] ∧
      ∃ waiting, (afterScript ⟨100, 10⟩
        "Promise.resolve(null).then(() => null)").machine.promises[1]? =
          some (.pending waiting) := by
  have reachable : Reachable Host.silent
      (afterScript ⟨100, 10⟩ "Promise.resolve(null).then(() => null)") :=
    ⟨(), (leaves_script Host.silent (sound_start ()) ⟨100, 10⟩ _).1⟩
  have settlers :
      (afterScript ⟨100, 10⟩ "Promise.resolve(null).then(() => null)").settlers = [1] := by
    decide +kernel
  refine ⟨reachable, settlers, reachable.settles_once.1.2 1 ?_⟩
  rw [settlers]
  exact List.mem_singleton_self 1

end Interpreter

end EventLoop
