import EventLoop.Proofs.Promise.Settlement

/-!
# The closures in values and promises

What is known of the closures that go into the promises of a run is known of those that come out:
of what promises have as values, and of the callbacks that a settlement releases.
-/

namespace EventLoop

variable {known : Closure → Prop}

/-- If the value is a closure, it has the property. -/
def Value.Carries (known : Closure → Prop) : Value → Prop
  | .function closure => known closure
  | _ => True

/-- The closures of the callback have the property. -/
structure Callback.Carries (known : Closure → Prop) (callback : Callback) : Prop where
  function : known callback.function
  argument : ∀ value ∈ callback.argument, value.Carries known

def Reaction.Carries (known : Closure → Prop) : Reaction → Prop
  | .handler function _ => known function
  | .follow _ => True

def PromiseState.Carries (known : Closure → Prop) : PromiseState → Prop
  | .resolved value => value.Carries known
  | .pending reactions => ∀ reaction ∈ reactions, reaction.Carries known

/-- The closures that the promises hold have the property. -/
def Promises.Carries (known : Closure → Prop) (promises : Promises) : Prop :=
  ∀ (p : PromiseId) (state : PromiseState), promises[p]? = some state → state.Carries known

theorem Callback.Carries.plain {closure : Closure} (function : known closure) :
    (Callback.plain closure).Carries known :=
  ⟨function, nofun⟩

/-- The value that a promise is settled with is the argument of what waited for it. -/
theorem Callback.Carries.handler {closure : Closure} {value : Value} (function : known closure)
    (argument : value.Carries known) (settles : Option PromiseId) :
    Callback.Carries known ⟨closure, some value, settles⟩ :=
  ⟨function, fun _ same => by cases same; exact argument⟩

namespace Promises.Carries

variable {promises : Promises}

theorem push (carries : promises.Carries known) {state : PromiseState}
    (new : state.Carries known) : Promises.Carries known (promises.push state) := by
  intro p other found
  rw [Array.getElem?_push] at found
  split at found
  · cases found
    exact new
  · exact carries p other found

theorem set (carries : promises.Carries known) (p : PromiseId) {state : PromiseState}
    (new : state.Carries known) : Promises.Carries known (promises.setIfInBounds p state) := by
  intro q other found
  rw [Array.getElem?_setIfInBounds] at found
  split at found
  · split at found
    · cases found
      exact new
    · cases found
  · exact carries q other found

/-- The closures that a settlement releases were in what waited. -/
theorem propagate (carries : promises.Carries known) {value : Value} (given : value.Carries known)
    {reactions : List Reaction} (waiting : ∀ reaction ∈ reactions, reaction.Carries known) :
    Promises.Carries known (Promises.propagate value promises reactions).1 ∧
      ∀ callback ∈ (Promises.propagate value promises reactions).2, callback.Carries known := by
  induction promises, reactions using Promises.propagate_induction value with
  | nil promises =>
    rw [Promises.propagate_nil]
    exact ⟨carries, nofun⟩
  | handler promises function settles rest ih =>
    obtain ⟨function, rest⟩ := List.forall_mem_cons.mp waiting
    obtain ⟨after, released⟩ := ih carries rest
    rw [Promises.propagate_handler]
    exact ⟨after, List.forall_mem_cons.mpr ⟨.handler function given _, released⟩⟩
  | pending promises q others rest found ih =>
    rw [Promises.propagate_pending value found]
    exact ih (carries.set q given) (List.forall_mem_append.mpr
      ⟨carries q _ found, (List.forall_mem_cons.mp waiting).2⟩)
  | other promises q rest settled ih =>
    rw [Promises.propagate_other value settled]
    exact ih carries (List.forall_mem_cons.mp waiting).2

theorem settle (carries : promises.Carries known) (p : PromiseId) {value : Value}
    (given : value.Carries known) :
    Promises.Carries known (promises.settle p value).1 ∧
      ∀ callback ∈ (promises.settle p value).2, callback.Carries known := by
  rcases Promises.settle_cases promises p value with ⟨other, waiting, -, -, found, eq⟩ |
    ⟨final, eq, source⟩
  · rw [eq]
    refine ⟨carries.set other (List.forall_mem_append.mpr ⟨carries other _ found, ?_⟩), nofun⟩
    exact List.forall_mem_singleton.mpr trivial
  · rw [eq]
    refine carries.propagate ?_ (List.forall_mem_singleton.mpr trivial)
    rcases source with ⟨rfl, -⟩ | ⟨other, -, found⟩ | rfl
    · exact given
    · exact carries other _ found
    · trivial

end Promises.Carries

end EventLoop
