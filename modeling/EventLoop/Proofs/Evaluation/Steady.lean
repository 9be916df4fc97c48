import EventLoop.Proofs.Evaluation.Running

/-!
# What is done between two steps

The operations on names, closures and promises, and the built-ins, count no step and do not change
how deeply calls are nested. All that a built-in does to the host is to tell it of a primitive, and
none of them fails for want of steps.
-/

namespace EventLoop

variable {σ α β : Type}

/-- What built-ins do to the state of a host. -/
inductive Host.Told (host : Host σ) : σ → σ → Prop
  | refl (s : σ) : Told host s s
  | trans {s₁ s₂ s₃ : σ} : Told host s₁ s₂ → Told host s₂ s₃ → Told host s₁ s₃
  | print (text : String) (line : Nat) (s : σ) : Told host s (host.print text line s)
  | registerTimer (callback : Callback) (delay line : Nat) (s : σ) :
    Told host s (host.registerTimer callback delay line s).2
  | defer (callback : Callback) (line : Nat) (s : σ) : Told host s (host.defer callback line s)
  | chain (callback : Option Callback) (line : Nat) (s : σ) :
    Told host s (host.chain callback line s)

namespace Eval

/-- On this machine the computation counts no step and leaves the depth of calls as it was. -/
structure SteadyOn (host : Host σ) (m : Machine σ) (x : Eval σ α) : Prop where
  steps : (x.run m).2.steps = m.steps
  depth : (x.run m).2.depth = m.depth
  told : host.Told m.host (x.run m).2.host
  unspent : ∀ limit, (x.run m).1 ≠ .error (.budget limit)

/-- On no machine does the computation count a step or change the depth of calls. -/
def Steady (host : Host σ) (x : Eval σ α) : Prop :=
  ∀ m, SteadyOn host m x

namespace Steady

variable {host : Host σ}

theorem pure (a : α) : Steady host (Pure.pure a) := fun m =>
  ⟨rfl, rfl, .refl m.host, fun _ same => by cases same⟩

theorem misuse (line : Nat) (fault : TypeFault) :
    Steady host (throw (.misuse line fault) : Eval σ α) := fun m =>
  ⟨rfl, rfl, .refl m.host, fun _ same => by cases same⟩

theorem undefinedName (line : Nat) (name : String) :
    Steady host (throw (.undefinedName line name) : Eval σ α) := fun m =>
  ⟨rfl, rfl, .refl m.host, fun _ same => by cases same⟩

theorem bind {x : Eval σ α} {f : α → Eval σ β} (first : Steady host x)
    (second : ∀ a, Steady host (f a)) : Steady host (x >>= f) := by
  intro m
  have before := first m
  rcases run : x.run m with ⟨_ | a, m'⟩
  · have failed := run_bind_error (f := f) run
    refine ⟨?_, ?_, ?_, ?_⟩
    · rw [failed]
      simpa only [run] using before.steps
    · rw [failed]
      simpa only [run] using before.depth
    · rw [failed]
      simpa only [run] using before.told
    · intro limit same
      rw [failed] at same
      cases same
      exact before.unspent limit (by rw [run])
  · have after := second a m'
    have ran := run_bind_ok (f := f) run
    refine ⟨?_, ?_, ?_, ?_⟩
    · rw [ran, after.steps]
      simpa only [run] using before.steps
    · rw [ran, after.depth]
      simpa only [run] using before.depth
    · rw [ran]
      exact .trans (by simpa only [run] using before.told) after.told
    · intro limit
      rw [ran]
      exact after.unspent limit

theorem get_bind {f : Machine σ → Eval σ α} (h : ∀ m, SteadyOn host m (f m)) :
    Steady host (get >>= f) := by
  intro m
  have after := h m
  have ran := run_bind_ok (f := f) (run_get m)
  exact ⟨by rw [ran, after.steps], by rw [ran, after.depth], by rw [ran]; exact after.told,
    fun limit => by rw [ran]; exact after.unspent limit⟩

theorem modifyGet {f : Machine σ → α × Machine σ} (steps : ∀ m, (f m).2.steps = m.steps)
    (depth : ∀ m, (f m).2.depth = m.depth) (told : ∀ m, host.Told m.host (f m).2.host) :
    Steady host (modifyGet f) := fun m =>
  ⟨steps m, depth m, told m, fun _ same => by cases same⟩

theorem modify {f : Machine σ → Machine σ} (steps : ∀ m, (f m).steps = m.steps)
    (depth : ∀ m, (f m).depth = m.depth) (told : ∀ m, host.Told m.host (f m).host) :
    Steady host (modify f) := fun m =>
  ⟨steps m, depth m, told m, fun _ same => by cases same⟩

theorem onHost {f : σ → σ} (told : ∀ s, host.Told s (f s)) : Steady host (onHost f) :=
  .modify (fun _ => rfl) (fun _ => rfl) fun m => told m.host

theorem onScopes (f : Scopes → Scopes) : Steady host (onScopes f) :=
  .modify (fun _ => rfl) (fun _ => rfl) fun m => .refl m.host

theorem read (env : Env) (name : String) (line : Nat) : Steady host (read env name line) := by
  refine .get_bind ?_
  intro m
  cases m.scopes.read env name with
  | some value => exact Steady.pure value m
  | none => exact Steady.undefinedName line name m

theorem assign (env : Env) (name : String) (value : Value) (line : Nat) :
    Steady host (assign env name value line) := by
  refine .get_bind ?_
  intro m
  cases m.scopes.resolve env name with
  | none => exact Steady.undefinedName line name m
  | some target =>
    obtain ⟨id, binding⟩ := target
    cases fixed : binding.fixed with
    | true =>
      simp only [fixed, if_true]
      exact (Steady.misuse line (.assignedConstant name)).bind (fun _ => .onScopes _) m
    | false =>
      simp only [fixed, Bool.false_eq_true, if_false]
      exact Steady.onScopes _ m

theorem declare (env : Env) (name : String) (value : Value) (fixed : Bool) :
    Steady host (declare env name value fixed) := by
  cases env with
  | nil => exact .pure ()
  | cons id _ => exact .onScopes (·.declare id name ⟨value, fixed⟩)

theorem openScope (env : Env) : Steady host (openScope env) :=
  .modifyGet (fun _ => rfl) (fun _ => rfl) fun m => .refl m.host

theorem newClosure (definition : Definition) (env : Env) :
    Steady host (newClosure definition env) :=
  .modifyGet (fun _ => rfl) (fun _ => rfl) fun m => .refl m.host

theorem newPromise (state : PromiseState) : Steady host (newPromise state) :=
  .modifyGet (fun _ => rfl) (fun _ => rfl) fun m => .refl m.host

theorem openRound (env : Env) (name : Option String) : Steady host (openRound env name) := by
  refine (Steady.openScope env).bind ?_
  intro inner
  cases name with
  | none => exact .pure inner
  | some name =>
    refine .get_bind ?_
    intro m
    exact (Steady.declare inner name _ false).bind (fun _ => .pure inner) m

theorem closeRound (env inner : Env) (name : Option String) :
    Steady host (closeRound env inner name) := by
  cases name with
  | none => exact .pure ()
  | some name =>
    refine .get_bind ?_
    intro m
    cases env with
    | nil => exact Steady.pure () m
    | cons id _ => exact Steady.onScopes _ m

theorem wantFunction (args : List Value) (primitive : String) (line : Nat) :
    Steady host (wantFunction args primitive line) := by
  unfold Eval.wantFunction
  split <;> first | exact .misuse _ _ | exact .pure _

theorem chain (receiver : PromiseId) (args : List Value) (line : Nat) :
    Steady host (chain host receiver args line) := by
  refine (Steady.wantFunction args _ line).bind ?_
  intro function
  refine (Steady.newPromise _).bind ?_
  intro next
  refine .get_bind ?_
  intro m
  have told (callback : Option Callback) : Steady host
      (do Eval.onHost (host.chain callback line); return Value.promise next) :=
    (Steady.onHost (.chain callback line)).bind fun _ => .pure _
  cases m.promises[receiver]? with
  | none => exact (Steady.misuse line .droppedPromise).bind (fun _ => .pure _) m
  | some state =>
    cases state with
    | resolved value => exact told _ m
    | pending waiting =>
      refine (Steady.modify ?_ ?_ ?_).bind (fun _ => told none) m
      · exact fun _ => rfl
      · exact fun _ => rfl
      · exact fun m => .refl m.host

theorem callNative (native : Native) (args : List Value) (callee : Expr) (line : Nat) :
    Steady host (callNative host native args callee line) := by
  cases native with
  | console | promise => exact .misuse _ _
  | log => exact (Steady.onHost (.print _ line)).bind fun _ => .pure _
  | setTimeout =>
    unfold Eval.callNative
    refine (Steady.wantFunction args _ line).bind ?_
    intro function
    refine Steady.bind (.modifyGet (fun _ => rfl) (fun _ => rfl) ?_) fun id => .pure _
    exact fun m => .registerTimer (.plain function) _ line m.host
  | queueMicrotask =>
    unfold Eval.callNative
    refine (Steady.wantFunction args _ line).bind ?_
    intro function
    exact (Steady.onHost (.defer _ line)).bind fun _ => .pure _
  | resolve =>
    unfold Eval.callNative
    cases args.head?.getD .undefined with
    | promise p => exact .pure _
    | _ => exact (Steady.newPromise _).bind fun _ => .pure _
  | thenOf receiver => exact .chain receiver args line

end Steady

end Eval

end EventLoop
