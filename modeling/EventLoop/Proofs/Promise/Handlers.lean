import EventLoop.Proofs.Promise.Settlers

/-!
# Handlers that wait

A handler that waits for a promise is released when that is settled, and becomes a callback then. No
settlement makes or drops a handler: those that are released and those that wait on are those that
waited before.
-/

namespace EventLoop

/-- The promise that is settled by a handler's result. -/
def Reaction.handled : Reaction → Option PromiseId
  | handler _ p => some p
  | follow _ => none

/-- The promises that are settled by the handlers that wait for a promise. -/
def PromiseState.handled : PromiseState → List PromiseId
  | pending waiting => waiting.filterMap Reaction.handled
  | resolved _ => []

namespace Promises

variable {value : Value} {promises : Promises} {p : PromiseId} {waiting : List Reaction}

/-- The promises that are settled by the handlers that wait. -/
def handled (promises : Promises) : List PromiseId :=
  promises.toList.flatMap PromiseState.handled

theorem handled_push (promises : Promises) (state : PromiseState) :
    handled (promises.push state) = promises.handled ++ state.handled := by
  simp [handled]

theorem handled_set {old : PromiseState} (new : PromiseState) (found : promises[p]? = some old) :
    (handled (promises.setIfInBounds p new) ++ old.handled).Perm
      (promises.handled ++ new.handled) := by
  have found : promises.toList[p]? = some old := by simpa using found
  simpa [handled] using flatMap_set_perm PromiseState.handled new found

/-- One more reaction waits. -/
theorem handled_wait (found : promises[p]? = some (.pending waiting)) (reaction : Reaction) :
    (handled (promises.setIfInBounds p (.pending (waiting ++ [reaction])))).Perm
      (reaction.handled.toList ++ promises.handled) := by
  refine (List.perm_append_right_iff (waiting.filterMap Reaction.handled)).mp ?_
  refine (handled_set _ found).trans ?_
  have split : PromiseState.handled (.pending (waiting ++ [reaction])) =
      waiting.filterMap Reaction.handled ++ reaction.handled.toList := by
    cases reaction <;> simp [PromiseState.handled, Reaction.handled]
  rw [split, ← List.append_assoc, List.append_assoc reaction.handled.toList]
  exact List.perm_append_comm

/-- Handlers are released or wait on. The induction follows the reactions that are still to be
looked at. -/
theorem handled_propagate (value : Value) (promises : Promises) (reactions : List Reaction) :
    (settledBy (propagate value promises reactions).2 ++
      handled (propagate value promises reactions).1).Perm
      (reactions.filterMap Reaction.handled ++ promises.handled) := by
  induction promises, reactions using propagate_induction value with
  | nil promises =>
    rw [propagate_nil]
    exact .refl _
  | handler promises function settles rest ih =>
    rw [propagate_handler]
    exact ih.cons settles
  | pending promises p waiting rest found ih =>
    rw [propagate_pending value found]
    refine ih.trans ?_
    have resolved := handled_set (.resolved value) found
    have moved : (waiting.filterMap Reaction.handled ++
        handled (promises.setIfInBounds p (.resolved value))).Perm promises.handled := by
      refine List.perm_append_comm.trans (resolved.trans ?_)
      simp [PromiseState.handled]
    rw [List.filterMap_append, List.append_assoc]
    show List.Perm _ (rest.filterMap Reaction.handled ++ _)
    refine .trans ?_ (moved.append_left _)
    rw [← List.append_assoc, ← List.append_assoc]
    exact List.perm_append_comm.append_right _
  | other promises p rest settled ih =>
    rw [propagate_other value settled]
    exact ih

/-- A settlement releases handlers that waited, and the others wait on. -/
theorem handled_settle (promises : Promises) (p : PromiseId) (value : Value) :
    (settledBy (promises.settle p value).2 ++ handled (promises.settle p value).1).Perm
      promises.handled := by
  rcases settle_cases promises p value with ⟨other, waiting, -, -, found, eq⟩ | ⟨given, eq, -⟩
  · rw [eq]
    exact handled_wait found (.follow p)
  · rw [eq]
    exact handled_propagate given promises [.follow p]

/-- The result of every callback that is released settles a promise. -/
theorem length_settledBy_propagate (value : Value) (promises : Promises)
    (reactions : List Reaction) :
    (settledBy (propagate value promises reactions).2).length =
      (propagate value promises reactions).2.length := by
  induction promises, reactions using propagate_induction value with
  | nil promises => rw [propagate_nil]; rfl
  | handler promises function settles rest ih =>
    rw [propagate_handler]
    exact congrArg (· + 1) ih
  | pending promises p waiting rest found ih => rw [propagate_pending value found, ih]
  | other promises p rest settled ih => rw [propagate_other value settled, ih]

/-- A settlement releases as many callbacks as there are handlers that no longer wait. -/
theorem length_settle (promises : Promises) (p : PromiseId) (value : Value) :
    (promises.settle p value).2.length + (handled (promises.settle p value).1).length =
      promises.handled.length := by
  have same : (settledBy (promises.settle p value).2).length =
      (promises.settle p value).2.length := by
    rcases settle_cases promises p value with ⟨other, waiting, -, -, -, eq⟩ | ⟨given, eq, -⟩
    · rw [eq]
      rfl
    · rw [eq]
      exact length_settledBy_propagate given promises _
  rw [← (handled_settle promises p value).length_eq, List.length_append, same]

end Promises

end EventLoop
