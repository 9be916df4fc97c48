import EventLoop.Semantics.Value

/-!
# Promises

A promise is pending or has a value. While it is pending it collects reactions: handlers, which
become callbacks once it has a value, and other promises that take over its value. Settling a
promise gives its value to every promise that follows it, and to those that follow them, and
releases the handlers on the way in the order in which depth-first search meets them. Following in a
circle does no harm: a promise that has its value is not visited again.
-/

namespace EventLoop

/-- What waits for a pending promise. -/
inductive Reaction where
  /-- A function to run on the value, and the promise that its result settles. -/
  | handler (function : Closure) (settles : PromiseId)
  /-- A promise that takes over the value. -/
  | follow (follower : PromiseId)

inductive PromiseState where
  | pending (reactions : List Reaction)
  | resolved (value : Value)

/-- All promises of a run, by number. None is ever removed. -/
abbrev Promises := Array PromiseState

/-- How much work a promise can still cause: it can be settled once, and each of its reactions is
looked at once. -/
def PromiseState.load : PromiseState → Nat
  | pending reactions => reactions.length + 1
  | resolved _ => 0

namespace Promises

/-- The work that some promises together can still cause. -/
def totalLoad : List PromiseState → Nat
  | [] => 0
  | state :: rest => state.load + totalLoad rest

/-- The work that all promises together can still cause. -/
def load (promises : Promises) : Nat :=
  totalLoad promises.toList

theorem totalLoad_set {states : List PromiseState} {p : PromiseId} {old : PromiseState}
    (new : PromiseState) (h : states[p]? = some old) :
    totalLoad (states.set p new) + old.load = totalLoad states + new.load := by
  induction states generalizing p with
  | nil => simp at h
  | cons head rest ih =>
    cases p with
    | zero =>
      obtain rfl : head = old := by simpa using h
      simp only [List.set_cons_zero, totalLoad]
      omega
    | succ p =>
      have := ih (by simpa using h)
      simp only [List.set_cons_succ, totalLoad]
      omega

/-- Giving a pending promise its value takes its load away. -/
theorem load_resolve {promises : Promises} {p : PromiseId} {reactions : List Reaction}
    (value : Value) (h : promises[p]? = some (.pending reactions)) :
    load (promises.setIfInBounds p (.resolved value)) + (reactions.length + 1) = promises.load := by
  have := totalLoad_set (.resolved value) (by simpa using h : promises.toList[p]? = _)
  simpa only [load, Array.toList_setIfInBounds, PromiseState.load, Nat.add_zero] using this

/-- Gives the value to the promises among the reactions, and to all that follow them, and releases
the handlers in the order in which they are met. -/
def propagate (value : Value) (promises : Promises) (reactions : List Reaction) :
    Promises × List Callback :=
  match reactions with
  | [] => (promises, [])
  | .handler function settles :: rest =>
    let (promises, released) := propagate value promises rest
    (promises, ⟨function, some value, some settles⟩ :: released)
  | .follow p :: rest =>
    match _h : promises[p]? with
    | some (.pending waiting) =>
      propagate value (promises.setIfInBounds p (.resolved value)) (waiting ++ rest)
    | _ => propagate value promises rest
termination_by promises.load + reactions.length
decreasing_by
  · simp
  · have := load_resolve value (by assumption)
    simp only [List.length_append, List.length_cons]; omega
  · simp

/-- Settles a promise with a value. Another promise as value is followed: if it is pending, this one
takes over its value later; if it has a value, that is the value. -/
def settle (promises : Promises) (p : PromiseId) (value : Value) : Promises × List Callback :=
  match value with
  | .promise other =>
    if other = p then propagate value promises [.follow p]
    else
      match promises[other]? with
      | some (.pending waiting) =>
        (promises.setIfInBounds other (.pending (waiting ++ [.follow p])), [])
      | some (.resolved value) => propagate value promises [.follow p]
      | none => propagate .undefined promises [.follow p]
  | value => propagate value promises [.follow p]

end Promises

end EventLoop
