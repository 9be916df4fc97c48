import EventLoop.Proofs.Promise.Interpreter

/-!
# Promises as values of promises

A promise that is given another one takes over the value of that, so no promise has another one as
its value. One case is left: a callback may return the promise that it settles, which then has
itself as its value. Whatever takes over this value, or is run on it, is given the promise that has
itself as its value; nothing else makes a promise the value of a promise.
-/

namespace EventLoop

open Relation

/-- The promise, if the value is one. -/
def Value.promise? : Value → Option PromiseId
  | promise p => some p
  | _ => none

theorem Value.promise?_eq_some {value : Value} {p : PromiseId} :
    value.promise? = some p ↔ value = .promise p := by
  cases value <;> simp [promise?]

namespace Promises

variable {promises before after : Promises} {value : Value} {p q : PromiseId}
  {waiting : List Reaction}

/-- The promise has itself as its value. -/
def Own (promises : Promises) (q : PromiseId) : Prop :=
  promises[q]? = some (.resolved (.promise q))

/-- The promise that is the value of the promise, if its value is one. -/
def named? (promises : Promises) (p : PromiseId) : Option PromiseId :=
  promises[p]?.bind fun
    | .pending _ => none
    | .resolved value => value.promise?

theorem own_of_named? (named : promises.named? q = some q) : promises.Own q := by
  obtain ⟨_ | value, found, same⟩ := Option.bind_eq_some_iff.mp named
  · cases same
  · rw [Own, found, Value.promise?_eq_some.mp same]

/-- If the value is a promise, that has itself as its value. -/
def Flat (promises : Promises) (value : Value) : Prop :=
  ∀ q, value = .promise q → promises.Own q

theorem Flat.mono (flat : before.Flat value) (keeps : before.Keeps after) : after.Flat value :=
  fun q same => keeps q _ (flat q same)

/-- The values of all promises are flat. -/
def Flattened (promises : Promises) : Prop :=
  ∀ (p : PromiseId) (value : Value), promises[p]? = some (.resolved value) → promises.Flat value

/-- A new promise that is pending is not resolved. -/
theorem resolved_of_push (found : (promises.push (.pending []))[p]? = some (.resolved value)) :
    promises[p]? = some (.resolved value) := by
  rw [Array.getElem?_push] at found
  split at found
  · cases found
  · exact found

/-- A promise that waits is not resolved. -/
theorem resolved_of_wait {reactions : List Reaction}
    (found : (promises.setIfInBounds q (.pending reactions))[p]? = some (.resolved value)) :
    promises[p]? = some (.resolved value) := by
  rw [Array.getElem?_setIfInBounds] at found
  split at found
  · split at found <;> cases found
  · exact found

theorem Flattened.push_pending (flattened : promises.Flattened) :
    Flattened (promises.push (.pending [])) := fun p value found =>
  (flattened p value (resolved_of_push found)).mono (.push promises _)

theorem Flattened.push_resolved (flattened : promises.Flattened)
    (plain : ∀ q, value ≠ .promise q) : Flattened (promises.push (.resolved value)) := by
  intro p given found
  rw [Array.getElem?_push] at found
  split at found
  · cases found
    exact fun q same => absurd same (plain q)
  · exact (flattened p given found).mono (.push promises _)

theorem Flattened.wait (flattened : promises.Flattened)
    (found : promises[q]? = some (.pending waiting)) (reactions : List Reaction) :
    Flattened (promises.setIfInBounds q (.pending reactions)) := fun p value resolved =>
  (flattened p value (resolved_of_wait resolved)).mono (.set found _)

/-- After a propagation from a promise that is pending, that has the value which is handed on. -/
theorem propagate_front (found : promises[p]? = some (.pending waiting)) (value : Value)
    (rest : List Reaction) :
    (propagate value promises (.follow p :: rest)).1[p]? = some (.resolved value) := by
  have bound := (Array.getElem?_eq_some_iff.mp found).1
  rw [propagate_pending value found]
  refine Keeps.propagate value _ _ p value ?_
  rw [Array.getElem?_setIfInBounds, if_pos rfl, if_pos bound]

/-- What settles a promise that is pending hands on a flat value, or lets it wait. -/
theorem settle_flat (flattened : promises.Flattened)
    (pending : promises[p]? = some (.pending waiting)) (value : Value) :
    (∃ other reactions, promises[other]? = some (.pending reactions) ∧
      promises.settle p value =
        (promises.setIfInBounds other (.pending (reactions ++ [.follow p])), [])) ∨
    ∃ given, promises.settle p value = propagate given promises [.follow p] ∧
      Flat (promises.settle p value).1 given ∧
      ∀ q, given = .promise q → promises.Own q ∨ q = p ∧ value = .promise p := by
  rcases settle_cases promises p value with
    ⟨other, reactions, -, -, found, eq⟩ | ⟨given, eq, origin⟩
  · exact .inl ⟨other, reactions, found, eq⟩
  refine .inr ⟨given, eq, ?_⟩
  -- what is handed on is the value itself, the value of another promise, or nothing
  rcases origin with ⟨rfl, self⟩ | ⟨other, -, found⟩ | rfl
  · refine ⟨fun q same => ?_, fun q same => .inr ⟨self q same, ?_⟩⟩
    · obtain rfl := self q same
      rw [eq, same]
      exact propagate_front pending _ _
    · rw [same, self q same]
  · have flat := flattened other given found
    exact ⟨flat.mono (.settle promises p value), fun q same => .inl (flat q same)⟩
  · exact ⟨(fun q same => by cases same), (fun q same => by cases same)⟩

theorem Flattened.settle (flattened : promises.Flattened)
    (pending : promises[p]? = some (.pending waiting)) (value : Value) :
    Flattened (promises.settle p value).1 := by
  rcases settle_flat flattened pending value with
    ⟨other, reactions, found, eq⟩ | ⟨given, eq, flat, -⟩
  · rw [eq]
    exact flattened.wait found _
  · intro q resolved found
    rw [eq] at found
    rcases propagate_resolved found with old | rfl
    · exact (flattened q resolved old).mono (.settle promises p value)
    · exact flat

/-- The callbacks that a settlement releases are run on a flat value. -/
theorem Flattened.released (flattened : promises.Flattened)
    (pending : promises[p]? = some (.pending waiting)) {callback : Callback}
    (released : callback ∈ (promises.settle p value).2) {argument : Value}
    (there : callback.argument = some argument) : Flat (promises.settle p value).1 argument := by
  rcases settle_flat flattened pending value with ⟨_, _, -, eq⟩ | ⟨given, eq, flat, -⟩
  · rw [eq] at released
    cases released
  · rw [eq] at released
    rw [propagate_released released] at there
    cases there
    exact flat

/-- A promise comes to have itself as its value when it is settled with itself. -/
theorem own_of_settle (flattened : promises.Flattened)
    (pending : promises[p]? = some (.pending waiting)) (own : Own (promises.settle p value).1 q) :
    promises.Own q ∨ q = p ∧ value = .promise p := by
  rcases settle_flat flattened pending value with
    ⟨other, reactions, found, eq⟩ | ⟨given, eq, -, origin⟩
  · rw [Own, eq] at own
    exact .inl (resolved_of_wait own)
  · rw [Own, eq] at own
    exact (propagate_resolved own).elim .inl fun same => origin q same.symm

/-- A promise that is pending has itself as its value once it is settled with itself. -/
theorem own_settle (pending : promises[p]? = some (.pending waiting)) :
    Own (promises.settle p (.promise p)).1 p := by
  have eq : promises.settle p (.promise p) = propagate (.promise p) promises [.follow p] := by
    unfold Promises.settle
    exact if_pos rfl
  rw [Own, eq]
  exact propagate_front pending _ _

end Promises

variable {σ : Type} {host : Host σ} {limits : Limits}

/-- The arguments of the callbacks that are held are flat. -/
def Machine.Levelled (m : Machine (Custody σ)) : Prop :=
  ∀ callback ∈ m.host.held, ∀ value, callback.argument = some value → m.promises.Flat value

namespace Path

open Promises

variable {m m' : Machine (Custody σ)}

/-- Evaluation makes no promise the value of another one, and gives the host flat arguments. -/
theorem flat (path : Path limits host.keeping m m') (flattened : m.promises.Flattened)
    (levelled : m.Levelled) :
    m'.promises.Flattened ∧ m'.Levelled ∧ ∀ q, m'.promises.Own q → m.promises.Own q := by
  induction path with
  | trans _ _ ih₁ ih₂ =>
    obtain ⟨flattened₁, levelled₁, own₁⟩ := ih₁ flattened levelled
    obtain ⟨flattened₂, levelled₂, own₂⟩ := ih₂ flattened₁ levelled₁
    exact ⟨flattened₂, levelled₂, fun q own => own₁ q (own₂ q own)⟩
  | registerTimer m function delay line _ | defer m function line _ =>
    refine ⟨flattened, ?_, fun _ own => own⟩
    intro callback member value argument
    rcases List.mem_cons.mp member with rfl | old
    · cases argument
    · exact levelled callback old value argument
  | resolve m value _ plain _ =>
    refine ⟨flattened.push_resolved plain, ?_, ?_⟩
    · intro callback member given argument
      exact (levelled callback member given argument).mono (.push m.promises _)
    · intro q own
      have own : (m.promises.push (.resolved value))[q]? = some (.resolved (.promise q)) := own
      rw [Array.getElem?_push] at own
      split at own
      · cases own
        exact absurd rfl (plain q)
      · exact own
  | chain m receiver given function line _ found =>
    refine ⟨flattened.push_pending, ?_, fun q own => resolved_of_push own⟩
    intro callback member value argument
    refine Flat.mono ?_ (.push m.promises (.pending []))
    rcases List.mem_cons.mp member with rfl | old
    · cases argument
      exact flattened receiver given found
    · exact levelled callback old value argument
  | park m receiver waiting function line _ found =>
    -- the receiver stays pending, so neither of the two writes resolves a promise
    have kept := getElem?_push_of_some found (.pending [])
    refine ⟨flattened.push_pending.wait kept _, ?_, ?_⟩
    · intro callback member value argument
      have keeps := (Keeps.push m.promises (.pending [])).trans
        (.set kept (.pending (waiting ++ [.handler function m.promises.size])))
      exact (levelled callback member value argument).mono keeps
    · exact fun q own => resolved_of_push (resolved_of_wait own)
  | call m m' name line _ _ _ ih => exact ih flattened levelled
  | _ => exact ⟨flattened, levelled, fun _ own => own⟩

end Path

namespace Interpreter

open Promises

variable {a b : Interpreter σ} {q : PromiseId}

/-- The callbacks that are held or running. -/
def pending (a : Interpreter σ) : List Callback :=
  a.machine.host.held ++ a.running.toList

/-- No promise has another one as its value, and each argument that is a promise is one that has
itself as its value. -/
structure Flat (a : Interpreter σ) : Prop where
  stored : a.machine.promises.Flattened
  handed : ∀ callback ∈ a.pending, ∀ value, callback.argument = some value →
    a.machine.promises.Flat value

theorem flat_start (state : σ) : (start state).Flat where
  stored p value found := by simp [start, Machine.initial] at found
  handed callback member := by cases member

theorem Flat.levelled (flat : a.Flat) : a.machine.Levelled :=
  fun callback member => flat.handed callback (List.mem_append_left _ member)

/-- The run of a callback ends with the promise that it settles as its value. -/
def ReturnsOwn (host : Host σ) (q : PromiseId) (a b : Interpreter σ) : Prop :=
  ∃ callback m, callback.settles = some q ∧ a = ⟨some callback, m⟩ ∧
    b = ⟨none, m.finish host.keeping callback.settles (.promise q)⟩

/-- The promise that a running callback settles is pending. -/
theorem Sound.running_pending {callback : Callback} {m : Machine (Custody σ)}
    (sound : (Interpreter.mk (some callback) m).Sound) (settles : callback.settles = some q) :
    ∃ waiting, m.promises[q]? = some (.pending waiting) := by
  refine sound.single.pending q (List.mem_append_left _ (List.mem_append_right _ ?_))
  exact List.mem_filterMap.mpr ⟨callback, List.mem_singleton_self _, settles⟩

theorem Flat.finish {callback : Callback} {m : Machine (Custody σ)}
    (flat : (Interpreter.mk (some callback) m).Flat)
    (sound : (Interpreter.mk (some callback) m).Sound) (value : Value) :
    (Interpreter.mk none (m.finish host.keeping callback.settles value)).Flat := by
  cases settles : callback.settles with
  | none =>
    refine ⟨flat.stored, fun other member => flat.handed other ?_⟩
    exact List.append_subset.mpr ⟨List.subset_append_left _ _, List.nil_subset _⟩ member
  | some p =>
    obtain ⟨waiting, pending⟩ := sound.running_pending settles
    refine ⟨flat.stored.settle pending value, ?_⟩
    intro other member argument there
    have member : other ∈ (m.settle host.keeping p value).host.held ++ [] := member
    rw [List.append_nil, Machine.held_settle] at member
    rcases List.mem_append.mp member with new | old
    · exact flat.stored.released pending new there
    · exact (flat.levelled other old argument there).mono (.settle m.promises p value)

/-- Whatever happens, no promise is made the value of another one. -/
theorem Advance.flat (advance : Advance host a b) (sound : a.Sound) (flat : a.Flat) :
    b.Flat := by
  cases advance with
  | act running m state | enter running m | leave running m => exact ⟨flat.stored, flat.handed⟩
  | evaluate limits path =>
    obtain ⟨flattened, levelled, -⟩ := path.flat flat.stored flat.levelled
    refine ⟨flattened, fun callback member value argument => ?_⟩
    rcases List.mem_append.mp member with held | running
    · exact levelled callback held value argument
    · have keeps := (path.single sound.single).2
      exact (flat.handed callback (List.mem_append_right _ running) value argument).mono keeps
  | @begin m callback before after held =>
    refine ⟨flat.stored, fun other member => flat.handed other ?_⟩
    have moved : (before ++ after ++ [callback]).Perm (before ++ callback :: after) :=
      (List.perm_append_singleton callback _).trans List.perm_middle.symm
    refine List.mem_append_left _ ?_
    show other ∈ m.host.held
    rw [held]
    exact moved.mem_iff.mp member
  | fail callback m =>
    refine ⟨flat.stored, fun other member => flat.handed other ?_⟩
    exact List.append_subset.mpr ⟨List.subset_append_left _ _, List.nil_subset _⟩ member
  | finish callback m _ => exact flat.finish sound _

/-- A promise comes to have itself as its value when a callback that settles it returns it. -/
theorem Advance.own (advance : Advance host a b) (sound : a.Sound) (flat : a.Flat)
    (own : b.machine.promises.Own q) : a.machine.promises.Own q ∨ ReturnsOwn host q a b := by
  cases advance with
  | evaluate limits path => exact .inl ((path.flat flat.stored flat.levelled).2.2 q own)
  | finish callback m _ =>
    rename_i value _
    cases settles : callback.settles with
    | none =>
      rw [settles] at own
      exact .inl own
    | some p =>
      rw [settles] at own
      obtain ⟨waiting, pending⟩ := sound.running_pending settles
      refine (own_of_settle flat.stored pending own).imp_right fun ⟨same, self⟩ => ?_
      subst same self
      exact ⟨callback, m, settles, rfl, by rw [settles]⟩
  | _ => exact .inl own

theorem ReturnsOwn.own (returned : ReturnsOwn host q a b) (sound : a.Sound) :
    b.machine.promises.Own q := by
  obtain ⟨callback, m, settles, rfl, rfl⟩ := returned
  obtain ⟨waiting, pending⟩ := sound.running_pending settles
  rw [settles]
  exact own_settle pending

theorem ReturnsOwn.advance (returned : ReturnsOwn host q a b) (sound : a.Sound) :
    Advance host a b := by
  obtain ⟨callback, m, settles, rfl, rfl⟩ := returned
  obtain ⟨waiting, pending⟩ := sound.running_pending settles
  exact .finish callback m (Array.getElem?_eq_some_iff.mp pending).1

theorem Reachable.flat (reachable : Reachable host a) : a.Flat := by
  obtain ⟨state, later⟩ := reachable
  induction later with
  | refl => exact flat_start state
  | tail before advance ih => exact advance.flat (Reachable.sound ⟨state, before⟩) ih

/-- A promise that has itself as its value was returned by the callback that settled it. -/
theorem Reachable.returned (reachable : Reachable host a) (own : a.machine.promises.Own q) :
    ∃ b c, Reachable host b ∧ ReturnsOwn host q b c ∧ Later host c a := by
  obtain ⟨state, later⟩ := reachable
  induction later with
  | refl => simp [Own, start, Machine.initial] at own
  | @tail b c before advance ih =>
    have earlier : Reachable host b := ⟨state, before⟩
    rcases advance.own earlier.sound earlier.flat own with old | returned
    · obtain ⟨x, y, reachable, returned, later⟩ := ih old
      exact ⟨x, y, reachable, returned, later.tail advance⟩
    · exact ⟨b, c, earlier, returned, .refl⟩

theorem Reachable.script (reachable : Reachable host a) (idle : a.running = none)
    (limits : Limits) (script : Script) :
    Reachable host ⟨none, ((Eval.runScript limits host.keeping script).run a.machine).2⟩ := by
  obtain ⟨running, m⟩ := a
  cases idle
  obtain ⟨state, later⟩ := reachable
  exact ⟨state, later.trans (leaves_script host (Reachable.sound ⟨state, later⟩) limits script).1⟩

theorem Reachable.callback (reachable : Reachable host a) (idle : a.running = none)
    (limits : Limits) {callback : Callback} {before after : List Callback}
    (held : a.machine.host.held = before ++ callback :: after) :
    Reachable host ⟨none, ((Eval.runCallback limits host.keeping callback).run
      (a.machine.holding (before ++ after))).2⟩ := by
  obtain ⟨running, m⟩ := a
  cases idle
  obtain ⟨state, later⟩ := reachable
  exact ⟨state, later.trans (leaves_callback host (Reachable.sound ⟨state, later⟩) limits held).1⟩

/-- The interpreter after the run of the callback that its host was handed last. -/
def afterCallback (limits : Limits) (a : Interpreter Unit) : Interpreter Unit :=
  match a.machine.host.held with
  | [] => a
  | callback :: held =>
    ⟨none, ((Eval.runCallback limits Host.silent.keeping callback).run
      (a.machine.holding held)).2⟩

theorem Reachable.afterCallback {a : Interpreter Unit} (reachable : Reachable Host.silent a)
    (idle : a.running = none) (limits : Limits) :
    Reachable Host.silent (afterCallback limits a) := by
  unfold Interpreter.afterCallback
  split
  · exact reachable
  · rename_i callback held found
    have front : a.machine.host.held = [] ++ callback :: held := found
    exact reachable.callback idle limits front

/-- A handler that returns the promise of its own attachment, and a handler of that promise. -/
def selfReturning : String :=
  "let p = Promise.resolve(null).then(() => p); p.then(() => null)"

/-- What is left when the first handler of that script has run. -/
def afterSelfReturning : Interpreter Unit :=
  afterCallback ⟨100, 10⟩ (afterScript ⟨100, 10⟩ selfReturning)

theorem afterSelfReturning_reachable : Reachable Host.silent afterSelfReturning := by
  have script : Reachable Host.silent (afterScript ⟨100, 10⟩ selfReturning) :=
    Reachable.script ⟨(), .refl⟩ rfl ⟨100, 10⟩ _
  exact script.afterCallback rfl ⟨100, 10⟩

theorem afterSelfReturning_own : afterSelfReturning.machine.promises.Own 1 :=
  own_of_named? (by decide +kernel)

end Interpreter

end EventLoop
