import Mathlib.Data.List.Basic
import EventLoop.Proofs.Promise.Settlement

/-!
# Who settles a promise

A promise is settled by a callback, by a handler that becomes one, or by the promise that it
follows. If none of these settles a promise that another one settles, and all promises that are to
be settled are pending, then a settlement leaves it so: what waited for the promise takes its place,
handlers become callbacks, and a promise that is given another one follows it. So no settlement ever
meets a promise that has its value.
-/

namespace EventLoop

/-- The promise that a reaction settles. -/
def Reaction.settles : Reaction → PromiseId
  | handler _ p => p
  | follow p => p

/-- The promises that are settled by what waits for a promise. -/
def PromiseState.settles : PromiseState → List PromiseId
  | pending waiting => waiting.map Reaction.settles
  | resolved _ => []

/-- Replacing an element replaces what it contributes. -/
theorem flatMap_set_perm {α β : Type} (f : α → List β) {as : List α} {i : Nat} {old : α}
    (new : α) (found : as[i]? = some old) :
    ((as.set i new).flatMap f ++ f old).Perm (as.flatMap f ++ f new) := by
  induction as generalizing i with
  | nil => simp at found
  | cons a as ih =>
    cases i with
    | zero =>
      obtain rfl : a = old := by simpa using found
      simp only [List.set_cons_zero, List.flatMap_cons]
      calc
        (f new ++ as.flatMap f ++ f a).Perm (f a ++ (f new ++ as.flatMap f)) :=
          List.perm_append_comm
        List.Perm _ (f a ++ (as.flatMap f ++ f new)) := List.perm_append_comm.append_left _
        _ = f a ++ as.flatMap f ++ f new := (List.append_assoc ..).symm
    | succ i =>
      have rest := ih (i := i) (by simpa using found)
      simp only [List.set_cons_succ, List.flatMap_cons, List.append_assoc]
      exact rest.append_left _

namespace Promises

/-- The promises that are settled by what waits for others. -/
def settles (promises : Promises) : List PromiseId :=
  promises.toList.flatMap PromiseState.settles

theorem settles_push (promises : Promises) (state : PromiseState) :
    settles (promises.push state) = promises.settles ++ state.settles := by
  simp [settles]

theorem settles_set {promises : Promises} {p : PromiseId} {old : PromiseState}
    (new : PromiseState) (found : promises[p]? = some old) :
    (settles (promises.setIfInBounds p new) ++ old.settles).Perm
      (promises.settles ++ new.settles) := by
  have found : promises.toList[p]? = some old := by simpa using found
  simpa [settles] using flatMap_set_perm PromiseState.settles new found

/-- Each promise is settled in one way at most, from outside or by what waits for another promise;
and it is pending if it is. -/
structure Single (promises : Promises) (outside : List PromiseId) : Prop where
  once : (outside ++ promises.settles).Nodup
  pending : ∀ p ∈ outside ++ promises.settles, ∃ waiting, promises[p]? = some (.pending waiting)

namespace Single

variable {promises : Promises} {outside : List PromiseId} {p q : PromiseId}
  {waiting : List Reaction}

theorem empty : Single #[] [] :=
  ⟨List.nodup_nil, fun _ member => by cases member⟩

theorem perm {outside' : List PromiseId} (single : promises.Single outside)
    (perm : outside.Perm outside') : promises.Single outside' where
  once := (perm.append_right _).nodup_iff.mp single.once
  pending p member := single.pending p ((perm.append_right _).mem_iff.mpr member)

/-- A promise that is no longer settled from outside does no harm. -/
theorem forget {others : List PromiseId} (single : promises.Single (others ++ outside)) :
    promises.Single outside where
  once := by
    have once := single.once
    rw [List.append_assoc] at once
    exact (List.nodup_append.mp once).2.1
  pending p member := by
    refine single.pending p ?_
    rw [List.append_assoc]
    exact List.mem_append_right _ member

theorem lt_size (single : promises.Single outside) (member : p ∈ outside ++ promises.settles) :
    p < promises.size := by
  obtain ⟨waiting, found⟩ := single.pending p member
  obtain ⟨bound, -⟩ := Array.getElem?_eq_some_iff.mp found
  exact bound

/-- A new promise that has a value is settled by nothing. -/
theorem push_resolved (single : promises.Single outside) (value : Value) :
    Single (promises.push (.resolved value)) outside := by
  have same : settles (promises.push (.resolved value)) = promises.settles := by
    rw [settles_push]
    exact List.append_nil _
  refine ⟨by rw [same]; exact single.once, ?_⟩
  intro p member
  rw [same] at member
  obtain ⟨waiting, found⟩ := single.pending p member
  exact ⟨waiting, getElem?_push_of_some found _⟩

/-- A new promise that is pending can be settled from outside. -/
theorem push_pending (single : promises.Single outside) :
    Single (promises.push (.pending [])) (promises.size :: outside) := by
  have same : settles (promises.push (.pending [])) = promises.settles := by
    rw [settles_push]
    exact List.append_nil _
  constructor
  · rw [same, List.cons_append, List.nodup_cons]
    exact ⟨fun member => Nat.lt_irrefl _ (single.lt_size member), single.once⟩
  · intro p member
    rw [same, List.cons_append] at member
    rcases List.mem_cons.mp member with rfl | old
    · exact ⟨[], Array.getElem?_push_size⟩
    · obtain ⟨waiting, found⟩ := single.pending p old
      exact ⟨waiting, getElem?_push_of_some found _⟩

/-- What settles a promise from outside can wait for another promise that is pending. -/
theorem wait {reaction : Reaction} (single : promises.Single (reaction.settles :: outside))
    (found : promises[q]? = some (.pending waiting)) :
    Single (promises.setIfInBounds q (.pending (waiting ++ [reaction]))) outside := by
  have moved : (settles (promises.setIfInBounds q (.pending (waiting ++ [reaction])))).Perm
      (reaction.settles :: promises.settles) := by
    refine (List.perm_append_right_iff (waiting.map Reaction.settles)).mp ?_
    refine (settles_set _ found).trans ?_
    simp only [PromiseState.settles, List.map_append, List.map_cons, List.map_nil]
    rw [← List.append_assoc]
    exact List.perm_append_singleton _ _
  have all : (outside ++
      settles (promises.setIfInBounds q (.pending (waiting ++ [reaction])))).Perm
      (reaction.settles :: outside ++ promises.settles) :=
    (moved.append_left _).trans List.perm_middle
  refine ⟨all.nodup_iff.mpr single.once, ?_⟩
  intro p member
  obtain ⟨reactions, pending⟩ := single.pending p (all.mem_iff.mp member)
  rw [Array.getElem?_setIfInBounds]
  by_cases same : q = p
  · subst same
    have bound := (Array.getElem?_eq_some_iff.mp found).1
    exact ⟨waiting ++ [reaction], by rw [if_pos rfl, if_pos bound]⟩
  · exact ⟨reactions, by rw [if_neg same, pending]⟩

/-- A promise that is settled from outside gets its value: what waited for it is outside now. -/
theorem resolve (single : promises.Single (p :: outside)) (value : Value)
    (found : promises[p]? = some (.pending waiting)) :
    Single (promises.setIfInBounds p (.resolved value))
      (waiting.map Reaction.settles ++ outside) := by
  have moved : (settles (promises.setIfInBounds p (.resolved value)) ++
      waiting.map Reaction.settles).Perm promises.settles := by
    refine (settles_set (.resolved value) found).trans ?_
    simp [PromiseState.settles]
  have all : (waiting.map Reaction.settles ++ outside ++
      settles (promises.setIfInBounds p (.resolved value))).Perm
      (outside ++ promises.settles) := by
    refine .trans ?_ (moved.append_left outside)
    rw [List.append_assoc]
    refine List.perm_append_comm.trans ?_
    rw [List.append_assoc]
  have once := List.nodup_cons.mp single.once
  refine ⟨all.nodup_iff.mpr once.2, ?_⟩
  intro q member
  have member := all.mem_iff.mp member
  obtain ⟨reactions, pending⟩ := single.pending q (List.mem_cons_of_mem _ member)
  refine ⟨reactions, ?_⟩
  rw [Array.getElem?_setIfInBounds, if_neg, pending]
  rintro rfl
  exact once.1 member

end Single

/-- The promises that callbacks settle. -/
def settledBy (callbacks : List Callback) : List PromiseId :=
  callbacks.filterMap (·.settles)

theorem settledBy_append (before after : List Callback) :
    settledBy (before ++ after) = settledBy before ++ settledBy after :=
  List.filterMap_append

theorem settledBy_cons (callback : Callback) (callbacks : List Callback) :
    settledBy (callback :: callbacks) = callback.settles.toList ++ settledBy callbacks := by
  unfold settledBy
  rw [List.filterMap_cons]
  cases callback.settles <;> rfl

theorem settledBy_singleton (callback : Callback) :
    settledBy [callback] = callback.settles.toList := by
  rw [settledBy_cons]
  exact List.append_nil _

theorem settledBy_perm {callbacks others : List Callback} (perm : callbacks.Perm others) :
    (settledBy callbacks).Perm (settledBy others) :=
  perm.filterMap _

/-- A propagation that gives up where a promise is not pending. -/
def propagateStrictly (value : Value) (promises : Promises) (reactions : List Reaction) :
    Option (Promises × List Callback) :=
  match reactions with
  | [] => some (promises, [])
  | .handler function settles :: rest =>
    (propagateStrictly value promises rest).map fun (promises, released) =>
      (promises, ⟨function, some value, some settles⟩ :: released)
  | .follow p :: rest =>
    match _h : promises[p]? with
    | some (.pending waiting) =>
      propagateStrictly value (promises.setIfInBounds p (.resolved value)) (waiting ++ rest)
    | _ => none
termination_by promises.load + reactions.length
decreasing_by
  · simp
  · have := load_resolve value (by assumption)
    simp only [List.length_append, List.length_cons]; omega

/-- A settlement that gives up where a promise does not exist, or is to be settled and is not
pending. -/
def settleStrictly (promises : Promises) (p : PromiseId) (value : Value) :
    Option (Promises × List Callback) :=
  match value with
  | .promise other =>
    if other = p then propagateStrictly value promises [.follow p]
    else
      match promises[other]? with
      | some (.pending waiting) =>
        some (promises.setIfInBounds other (.pending (waiting ++ [.follow p])), [])
      | some (.resolved value) => propagateStrictly value promises [.follow p]
      | none => none
  | value => propagateStrictly value promises [.follow p]

theorem propagateStrictly_pending (value : Value) {promises : Promises} {p : PromiseId}
    {waiting : List Reaction} (pending : promises[p]? = some (.pending waiting))
    (rest : List Reaction) :
    propagateStrictly value promises (.follow p :: rest) =
      propagateStrictly value (promises.setIfInBounds p (.resolved value)) (waiting ++ rest) := by
  rw [propagateStrictly]
  split
  · rename_i waiting' pending'
    cases pending.symm.trans pending'
    rfl
  · rename_i other
    exact absurd pending (other waiting)

variable {value : Value} {promises : Promises} {outside : List PromiseId} {p : PromiseId}

/-- A propagation leaves each promise settled in one way at most, and meets only promises that are
pending. The induction moves what settles a promise from the reactions to the callbacks that are
released. -/
theorem Single.propagate {reactions : List Reaction}
    (single : promises.Single (reactions.map Reaction.settles ++ outside)) :
    Single (propagate value promises reactions).1
        (settledBy (propagate value promises reactions).2 ++ outside) ∧
      propagateStrictly value promises reactions = some (propagate value promises reactions) := by
  induction promises, reactions using propagate_induction value generalizing outside with
  | nil promises =>
    rw [propagate_nil, propagateStrictly]
    exact ⟨single, rfl⟩
  | handler promises function settles rest ih =>
    have first : promises.Single (rest.map Reaction.settles ++ settles :: outside) :=
      single.perm List.perm_middle.symm
    obtain ⟨after, strict⟩ := ih first
    rw [propagate_handler, propagateStrictly, strict]
    exact ⟨after.perm List.perm_middle, rfl⟩
  | pending promises p waiting rest found ih =>
    have front : promises.Single (p :: (rest.map Reaction.settles ++ outside)) := single
    have resolved := front.resolve value found
    rw [← List.append_assoc, ← List.map_append] at resolved
    rw [propagate_pending value found, propagateStrictly_pending value found]
    exact ih resolved
  | other promises p rest settled ih =>
    obtain ⟨waiting, found⟩ := single.pending p List.mem_cons_self
    exact absurd found (settled waiting)

/-- A settlement from outside leaves each promise settled in one way at most, and neither meets a
promise that has its value nor one that does not exist. -/
theorem Single.settle (single : promises.Single (p :: outside))
    (known : value.Within promises.size) :
    Single (promises.settle p value).1 (settledBy (promises.settle p value).2 ++ outside) ∧
      promises.settleStrictly p value = some (promises.settle p value) := by
  have propagates (given : Value) :
      Single (Promises.propagate given promises [.follow p]).1
          (settledBy (Promises.propagate given promises [.follow p]).2 ++ outside) ∧
        propagateStrictly given promises [.follow p] =
          some (Promises.propagate given promises [.follow p]) := Single.propagate single
  cases value with
  | promise other =>
    unfold Promises.settle settleStrictly
    by_cases self : other = p
    · simp only [if_pos self]
      exact propagates (.promise other)
    · simp only [if_neg self]
      cases found : promises[other]? with
      | none =>
        have bound : other < promises.size := known
        exact absurd bound (Nat.not_lt_of_le (Array.getElem?_eq_none_iff.mp found))
      | some state =>
        cases state with
        | pending waiting =>
          have front : promises.Single ((Reaction.follow p).settles :: outside) := single
          exact ⟨front.wait found, rfl⟩
        | resolved given => exact propagates given
  | _ => exact propagates _

/-- Promises that have a value keep it. -/
def Keeps (before after : Promises) : Prop :=
  ∀ (p : PromiseId) (value : Value),
    before[p]? = some (.resolved value) → after[p]? = some (.resolved value)

namespace Keeps

theorem refl (promises : Promises) : Keeps promises promises :=
  fun _ _ found => found

theorem trans {first second third : Promises} (h₁ : Keeps first second)
    (h₂ : Keeps second third) : Keeps first third :=
  fun p value found => h₂ p value (h₁ p value found)

theorem push (promises : Promises) (state : PromiseState) :
    Keeps promises (promises.push state) := by
  intro p value found
  exact getElem?_push_of_some found state

theorem set {waiting : List Reaction} (found : promises[p]? = some (.pending waiting))
    (state : PromiseState) : Keeps promises (promises.setIfInBounds p state) := by
  intro q value resolved
  rw [Array.getElem?_setIfInBounds, if_neg, resolved]
  rintro rfl
  rw [found] at resolved
  cases resolved

theorem propagate (value : Value) (promises : Promises) (reactions : List Reaction) :
    Keeps promises (propagate value promises reactions).1 := by
  induction promises, reactions using propagate_induction value with
  | nil promises =>
    rw [propagate_nil]
    exact .refl promises
  | handler promises function settles rest ih =>
    rw [propagate_handler]
    exact ih
  | pending promises p waiting rest found ih =>
    rw [propagate_pending value found]
    exact (set found _).trans ih
  | other promises p rest settled ih =>
    rw [propagate_other value settled]
    exact ih

theorem settle (promises : Promises) (p : PromiseId) (value : Value) :
    Keeps promises (promises.settle p value).1 := by
  rcases settle_cases promises p value with ⟨other, waiting, -, -, found, eq⟩ | ⟨given, eq, -⟩
  · rw [eq]
    exact set found _
  · rw [eq]
    exact .propagate given promises _

end Keeps

end Promises

end EventLoop
