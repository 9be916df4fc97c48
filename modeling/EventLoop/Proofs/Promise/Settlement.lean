import EventLoop.Proofs.Evaluation.Tracking

/-!
# What a settlement does to promises

A settlement hands one value on: it is the value of every promise that has one only since then, and
the argument of every handler that is released. No promise is made or lost.
-/

namespace EventLoop

namespace Promises

theorem propagate_nil (value : Value) (promises : Promises) :
    propagate value promises [] = (promises, []) := by
  rw [propagate]

theorem propagate_handler (value : Value) (promises : Promises) (function : Closure)
    (settles : PromiseId) (rest : List Reaction) :
    propagate value promises (.handler function settles :: rest) =
      ((propagate value promises rest).1,
        ⟨function, some value, some settles⟩ :: (propagate value promises rest).2) := by
  rw [propagate]

theorem propagate_pending (value : Value) {promises : Promises} {p : PromiseId}
    {waiting : List Reaction} (pending : promises[p]? = some (.pending waiting))
    (rest : List Reaction) :
    propagate value promises (.follow p :: rest) =
      propagate value (promises.setIfInBounds p (.resolved value)) (waiting ++ rest) := by
  rw [propagate]
  split
  · rename_i waiting' pending'
    cases pending.symm.trans pending'
    rfl
  · rename_i other
    exact absurd pending (other waiting)

theorem propagate_other (value : Value) {promises : Promises} {p : PromiseId}
    (other : ∀ waiting, promises[p]? ≠ some (.pending waiting)) (rest : List Reaction) :
    propagate value promises (.follow p :: rest) = propagate value promises rest := by
  rw [propagate]
  split
  · rename_i waiting pending
    exact absurd pending (other waiting)
  · rfl

/-- Induction along a settlement, with a case for each thing that can be waiting. -/
theorem propagate_induction (value : Value) {motive : Promises → List Reaction → Prop}
    (nil : ∀ promises, motive promises [])
    (handler : ∀ promises function settles rest, motive promises rest →
      motive promises (.handler function settles :: rest))
    (pending : ∀ (promises : Promises) (p : PromiseId) (waiting rest : List Reaction),
      promises[p]? = some (.pending waiting) →
      motive (promises.setIfInBounds p (.resolved value)) (waiting ++ rest) →
      motive promises (.follow p :: rest))
    (other : ∀ (promises : Promises) (p : PromiseId) (rest : List Reaction),
      (∀ waiting, promises[p]? ≠ some (.pending waiting)) → motive promises rest →
      motive promises (.follow p :: rest))
    (promises : Promises) (reactions : List Reaction) : motive promises reactions := by
  induction promises, reactions using propagate.induct value with
  | case1 promises => exact nil promises
  | case2 promises function settles rest _ _ _ ih => exact handler promises function settles rest ih
  | case3 promises p rest waiting found ih => exact pending promises p waiting rest found ih
  | case4 promises p rest found ih => exact other promises p rest found ih

theorem propagate_size (value : Value) (promises : Promises) (reactions : List Reaction) :
    (propagate value promises reactions).1.size = promises.size := by
  induction promises, reactions using propagate_induction value with
  | nil promises => rw [propagate_nil]
  | handler promises function settles rest ih => rw [propagate_handler, ih]
  | pending promises p waiting rest found ih =>
    rw [propagate_pending value found, ih, Array.size_setIfInBounds]
  | other promises p rest found ih => rw [propagate_other value found, ih]

/-- A promise that has a value after a settlement had it before, or was given the value that is
handed on. -/
theorem propagate_resolved {value given : Value} {promises : Promises} {reactions : List Reaction}
    {p : PromiseId} (found : (propagate value promises reactions).1[p]? = some (.resolved given)) :
    promises[p]? = some (.resolved given) ∨ given = value := by
  induction promises, reactions using propagate_induction value with
  | nil promises =>
    rw [propagate_nil] at found
    exact .inl found
  | handler promises function settles rest ih =>
    rw [propagate_handler] at found
    exact ih found
  | pending promises q waiting rest pending ih =>
    rw [propagate_pending value pending] at found
    rcases ih found with old | new
    · rw [Array.getElem?_setIfInBounds] at old
      split at old
      · split at old
        · cases old
          exact .inr rfl
        · cases old
      · exact .inl old
    · exact .inr new
  | other promises q rest settled ih =>
    rw [propagate_other value settled] at found
    exact ih found

/-- Every callback that a settlement releases is run on the value that is handed on. -/
theorem propagate_released {value : Value} {promises : Promises} {reactions : List Reaction}
    {callback : Callback} (released : callback ∈ (propagate value promises reactions).2) :
    callback.argument = some value := by
  induction promises, reactions using propagate_induction value with
  | nil promises =>
    rw [propagate_nil] at released
    cases released
  | handler promises function settles rest ih =>
    rw [propagate_handler] at released
    rcases List.mem_cons.mp released with rfl | released
    · rfl
    · exact ih released
  | pending promises q waiting rest pending ih =>
    rw [propagate_pending value pending] at released
    exact ih released
  | other promises q rest settled ih =>
    rw [propagate_other value settled] at released
    exact ih released

/-- A settlement lets the promise wait for another one that is pending, or hands a value on: the
value it was given, if that is no other promise, or, in place of another promise, the value of
that. -/
theorem settle_cases (promises : Promises) (p : PromiseId) (value : Value) :
    (∃ other waiting, value = .promise other ∧ other ≠ p ∧
      promises[other]? = some (.pending waiting) ∧
      promises.settle p value =
        (promises.setIfInBounds other (.pending (waiting ++ [.follow p])), [])) ∨
    ∃ given, promises.settle p value = propagate given promises [.follow p] ∧
      ((given = value ∧ ∀ other, value = .promise other → other = p) ∨
        (∃ other, value = .promise other ∧ promises[other]? = some (.resolved given)) ∨
        given = .undefined) := by
  cases value with
  | promise other =>
    unfold settle
    by_cases self : other = p
    · refine .inr ⟨.promise other, if_pos self, .inl ⟨rfl, ?_⟩⟩
      rintro _ ⟨⟩
      exact self
    · simp only [if_neg self]
      cases found : promises[other]? with
      | none => exact .inr ⟨.undefined, rfl, .inr (.inr rfl)⟩
      | some state =>
        cases state with
        | pending waiting => exact .inl ⟨other, waiting, rfl, self, found, rfl⟩
        | resolved given => exact .inr ⟨given, rfl, .inr (.inl ⟨other, rfl, found⟩)⟩
  | _ => exact .inr ⟨_, rfl, .inl ⟨rfl, fun _ same => by cases same⟩⟩

theorem settle_size (promises : Promises) (p : PromiseId) (value : Value) :
    (promises.settle p value).1.size = promises.size := by
  rcases settle_cases promises p value with ⟨_, _, -, -, -, eq⟩ | ⟨given, eq, -⟩
  · rw [eq, Array.size_setIfInBounds]
  · rw [eq, propagate_size]

end Promises

namespace Machine

variable {σ : Type} {m : Machine σ}

/-- The value that a settlement hands on names only promises that exist. -/
theorem InOrder.within_given (inOrder : m.InOrder) {p : PromiseId} {value given : Value}
    (known : value.Within m.promises.size)
    (origin : (given = value ∧ ∀ other, value = .promise other → other = p) ∨
      (∃ other, value = .promise other ∧ m.promises[other]? = some (.resolved given)) ∨
      given = .undefined) :
    given.Within m.promises.size := by
  rcases origin with ⟨rfl, -⟩ | ⟨other, -, found⟩ | rfl
  · exact known
  · exact inOrder.promises other given found
  · trivial

/-- A settlement keeps a machine in order. -/
theorem InOrder.settle (inOrder : m.InOrder) (host : Host σ) (p : PromiseId) {value : Value}
    (known : value.Within m.promises.size) : (m.settle host p value).InOrder := by
  have size := Promises.settle_size m.promises p value
  have after := inOrder.newPromises (m.promises.settle p value).1 (Nat.le_of_eq size.symm) (by
    intro q given found
    rw [size]
    rcases Promises.settle_cases m.promises p value with
      ⟨other, waiting, -, -, pending, eq⟩ | ⟨handed, eq, origin⟩
    · rw [eq, Array.getElem?_setIfInBounds] at found
      repeat' split at found
      all_goals first | cases found | exact .inl found
    · rw [eq] at found
      rcases Promises.propagate_resolved found with old | rfl
      · exact .inl old
      · exact .inr (inOrder.within_given known origin))
  exact ⟨after.scopes, after.promises⟩

theorem InOrder.finish (inOrder : m.InOrder) (host : Host σ) (settles : Option PromiseId)
    {value : Value} (known : value.Within m.promises.size) :
    (m.finish host settles value).InOrder := by
  cases settles with
  | none => exact inOrder
  | some p => exact inOrder.settle host p known

/-- The arguments of released callbacks name only promises that exist. -/
theorem InOrder.within_released (inOrder : m.InOrder) {p : PromiseId} {value given : Value}
    (known : value.Within m.promises.size) {callback : Callback}
    (released : callback ∈ (m.promises.settle p value).2)
    (argument : callback.argument = some given) : given.Within m.promises.size := by
  rcases Promises.settle_cases m.promises p value with ⟨_, _, -, -, -, eq⟩ | ⟨handed, eq, origin⟩
  · rw [eq] at released
    cases released
  · rw [eq] at released
    rw [Promises.propagate_released released] at argument
    cases argument
    exact inOrder.within_given known origin

end Machine

end EventLoop
