import Mathlib.Data.List.Nodup
import EventLoop.Proofs.Promise.Settlers

/-!
# What a pending promise waits for

A promise that is pending is settled from outside, by a callback that is still to be run, or by what
waits for another promise. It never waits for itself. So when nothing is left to be run, each
promise that is pending waits for exactly one other promise, which is pending, too.
-/

namespace EventLoop.Promises

variable {promises : Promises} {outside : List PromiseId} {p q : PromiseId} {value : Value}
  {waiting : List Reaction}

/-- The promise has no value yet. -/
def Pending (promises : Promises) (p : PromiseId) : Prop :=
  ∃ waiting, promises[p]? = some (.pending waiting)

/-- The first promise is settled by something that waits for the second. -/
def WaitsFor (promises : Promises) (p q : PromiseId) : Prop :=
  ∃ waiting, promises[q]? = some (.pending waiting) ∧ p ∈ waiting.map Reaction.settles

theorem getElem?_set {old : PromiseState} (found : promises[q]? = some old) (state : PromiseState)
    (p : PromiseId) :
    (promises.setIfInBounds q state)[p]? = if p = q then some state else promises[p]? := by
  rw [Array.getElem?_setIfInBounds]
  by_cases same : q = p
  · subst same
    rw [if_pos rfl, if_pos rfl, if_pos (Array.getElem?_eq_some_iff.mp found).1]
  · rw [if_neg same, if_neg (Ne.symm same)]

/-- If no promise is settled in two ways, none waits for two others. -/
theorem WaitsFor.unique (once : promises.settles.Nodup) {q₁ q₂ : PromiseId}
    (first : promises.WaitsFor p q₁) (second : promises.WaitsFor p q₂) : q₁ = q₂ := by
  obtain ⟨waiting₁, found₁, settled₁⟩ := first
  obtain ⟨waiting₂, found₂, settled₂⟩ := second
  have apart : promises.toList.Pairwise fun x y => x.settles.Disjoint y.settles :=
    (List.nodup_flatMap.mp once).2
  have found₁ : promises.toList[q₁]? = some (.pending waiting₁) := by simpa using found₁
  have found₂ : promises.toList[q₂]? = some (.pending waiting₂) := by simpa using found₂
  obtain ⟨bound₁, at₁⟩ := List.getElem?_eq_some_iff.mp found₁
  obtain ⟨bound₂, at₂⟩ := List.getElem?_eq_some_iff.mp found₂
  by_contra different
  rcases Nat.lt_or_gt_of_ne different with less | greater
  · have disjoint := List.pairwise_iff_getElem.mp apart q₁ q₂ bound₁ bound₂ less
    rw [at₁, at₂] at disjoint
    exact disjoint settled₁ settled₂
  · have disjoint := List.pairwise_iff_getElem.mp apart q₂ q₁ bound₂ bound₁ greater
    rw [at₁, at₂] at disjoint
    exact disjoint settled₂ settled₁

/-- A promise that is pending after a propagation was pending before, and the same waited for it. -/
theorem pending_of_propagate {reactions : List Reaction}
    (found : (propagate value promises reactions).1[p]? = some (.pending waiting)) :
    promises[p]? = some (.pending waiting) := by
  induction promises, reactions using propagate_induction value with
  | nil promises =>
    rw [propagate_nil] at found
    exact found
  | handler promises function settles rest ih =>
    rw [propagate_handler] at found
    exact ih found
  | pending promises q waiting' rest pending ih =>
    rw [propagate_pending value pending] at found
    have before := ih found
    rw [getElem?_set pending] at before
    split at before
    · cases before
    · exact before
  | other promises q rest settled ih =>
    rw [propagate_other value settled] at found
    exact ih found

/-- Every promise that is pending is to be settled, from outside or by what waits for others. -/
def Complete (promises : Promises) (outside : List PromiseId) : Prop :=
  ∀ p, promises.Pending p → p ∈ outside ∨ ∃ q, promises.WaitsFor p q

theorem Complete.mono {outside' : List PromiseId} (complete : promises.Complete outside)
    (more : ∀ p ∈ outside, p ∈ outside') : promises.Complete outside' :=
  fun p pending => (complete p pending).imp_left (more p)

/-- A propagation gives the promises their values that it takes from outside. The induction moves
what settles a promise from the reactions to the callbacks that are released. -/
theorem Complete.propagate {reactions : List Reaction}
    (complete : promises.Complete (reactions.map Reaction.settles ++ outside)) :
    Complete (propagate value promises reactions).1
      (settledBy (propagate value promises reactions).2 ++ outside) := by
  induction promises, reactions using propagate_induction value generalizing outside with
  | nil promises =>
    rw [propagate_nil]
    exact complete
  | handler promises function settles rest ih =>
    have moved : promises.Complete (rest.map Reaction.settles ++ settles :: outside) :=
      complete.mono fun p member => List.perm_middle.mem_iff.mpr member
    rw [propagate_handler]
    exact (ih moved).mono fun p member => List.perm_middle.mem_iff.mp member
  | pending promises q waiting rest found ih =>
    rw [propagate_pending value found]
    refine ih ?_
    rintro p ⟨waiting', pending⟩
    rw [getElem?_set found] at pending
    split at pending
    · cases pending
    · rename_i different
      rw [List.map_append, List.append_assoc]
      rcases complete p ⟨waiting', pending⟩ with member | ⟨x, waiting'', wait, settled⟩
      · left
        exact List.mem_append_right _ (List.mem_of_ne_of_mem different member)
      · by_cases same : x = q
        · subst same
          obtain rfl : waiting = waiting'' := by
            rw [found] at wait
            cases wait
            rfl
          exact .inl (List.mem_append_left _ settled)
        · exact .inr ⟨x, waiting'', by rw [getElem?_set found, if_neg same, wait], settled⟩
  | other promises q rest settled ih =>
    rw [propagate_other value settled]
    refine ih ?_
    rintro p ⟨waiting, pending⟩
    refine (complete p ⟨waiting, pending⟩).imp_left fun member => ?_
    refine List.mem_of_ne_of_mem ?_ member
    rintro rfl
    exact settled waiting pending

/-- Each promise that is pending is settled in one way, from outside or by what waits for another
promise. -/
structure Owned (promises : Promises) (outside : List PromiseId) : Prop where
  single : promises.Single outside
  complete : promises.Complete outside
  apart : ∀ p, ¬ promises.WaitsFor p p

namespace Owned

theorem empty : Owned #[] [] where
  single := .empty
  complete p pending := by
    obtain ⟨waiting, found⟩ := pending
    simp at found
  apart p waits := by
    obtain ⟨waiting, found, -⟩ := waits
    simp at found

theorem perm {outside' : List PromiseId} (owned : promises.Owned outside)
    (perm : outside.Perm outside') : promises.Owned outside' where
  single := owned.single.perm perm
  complete := owned.complete.mono fun _ member => perm.mem_iff.mp member
  apart := owned.apart

/-- After a new promise a promise waits for what it waited for before. -/
theorem waitsFor_push {state : PromiseState} (none : state.settles = []) :
    WaitsFor (promises.push state) p q ↔ promises.WaitsFor p q := by
  constructor
  · rintro ⟨waiting, found, settled⟩
    rw [Array.getElem?_push] at found
    split at found
    · cases found
      rw [PromiseState.settles] at none
      rw [none] at settled
      cases settled
    · exact ⟨waiting, found, settled⟩
  · rintro ⟨waiting, found, settled⟩
    exact ⟨waiting, getElem?_push_of_some found state, settled⟩

theorem push_resolved (owned : promises.Owned outside) (value : Value) :
    Owned (promises.push (.resolved value)) outside where
  single := owned.single.push_resolved value
  complete p pending := by
    obtain ⟨waiting, found⟩ := pending
    rw [Array.getElem?_push] at found
    split at found
    · cases found
    · refine (owned.complete p ⟨waiting, found⟩).imp_right fun ⟨q, waits⟩ => ⟨q, ?_⟩
      exact (waitsFor_push rfl).mpr waits
  apart p waits := owned.apart p ((waitsFor_push rfl).mp waits)

theorem push_pending (owned : promises.Owned outside) :
    Owned (promises.push (.pending [])) (promises.size :: outside) where
  single := owned.single.push_pending
  complete p pending := by
    obtain ⟨waiting, found⟩ := pending
    rw [Array.getElem?_push] at found
    split at found
    · rename_i new
      rw [new]
      exact .inl List.mem_cons_self
    · refine (owned.complete p ⟨waiting, found⟩).imp (List.mem_cons_of_mem _) fun ⟨q, waits⟩ =>
        ⟨q, (waitsFor_push rfl).mpr waits⟩
  apart p waits := owned.apart p ((waitsFor_push rfl).mp waits)

/-- What settles a promise from outside can wait for another promise that is pending. -/
theorem wait {reaction : Reaction} (owned : promises.Owned (reaction.settles :: outside))
    (found : promises[q]? = some (.pending waiting)) (different : reaction.settles ≠ q) :
    Owned (promises.setIfInBounds q (.pending (waiting ++ [reaction]))) outside where
  single := owned.single.wait found
  complete p pending := by
    have before : promises.Pending p := by
      obtain ⟨waiting', pending⟩ := pending
      rw [getElem?_set found] at pending
      split at pending
      · rename_i same
        rw [same]
        exact ⟨waiting, found⟩
      · exact ⟨waiting', pending⟩
    rcases owned.complete p before with member | ⟨x, waiting', wait, settled⟩
    · rcases List.mem_cons.mp member with rfl | member
      · exact .inr ⟨q, _, by rw [getElem?_set found, if_pos rfl], by simp⟩
      · exact .inl member
    · right
      by_cases same : x = q
      · subst same
        rw [found] at wait
        cases wait
        refine ⟨x, _, by rw [getElem?_set found, if_pos rfl], ?_⟩
        rw [List.map_append]
        exact List.mem_append_left _ settled
      · exact ⟨x, waiting', by rw [getElem?_set found, if_neg same, wait], settled⟩
  apart p waits := by
    obtain ⟨waiting', wait, settled⟩ := waits
    rw [getElem?_set found] at wait
    split at wait
    · rename_i same
      subst same
      cases wait
      rw [List.map_append, List.mem_append] at settled
      rcases settled with old | new
      · exact owned.apart p ⟨waiting, found, old⟩
      · exact different (List.mem_singleton.mp new).symm
    · exact owned.apart p ⟨waiting', wait, settled⟩

/-- A settlement from outside leaves each promise that is pending settled in one way. -/
theorem settle (owned : promises.Owned (p :: outside)) (known : value.Within promises.size) :
    Owned (promises.settle p value).1 (settledBy (promises.settle p value).2 ++ outside) := by
  have single := (owned.single.settle known).1
  rcases settle_cases promises p value with
    ⟨other, waiting, -, different, found, eq⟩ | ⟨given, eq, -⟩
  · rw [eq]
    have front : promises.Owned ((Reaction.follow p).settles :: outside) := owned
    exact front.wait found (Ne.symm different)
  · rw [eq] at single ⊢
    have front : promises.Complete ([Reaction.follow p].map Reaction.settles ++ outside) :=
      owned.complete
    refine ⟨single, front.propagate, ?_⟩
    rintro q ⟨waiting, found, settled⟩
    exact owned.apart q ⟨waiting, pending_of_propagate found, settled⟩

/-- When nothing is settled from outside, each promise that is pending waits for one other promise,
which is pending. -/
theorem waits_for_one (owned : promises.Owned []) (pending : promises.Pending p) :
    ∃ q, q ≠ p ∧ promises.Pending q ∧ ∀ q', promises.WaitsFor p q' ↔ q' = q := by
  rcases owned.complete p pending with member | ⟨q, waits⟩
  · cases member
  · have once : promises.settles.Nodup := owned.single.once
    refine ⟨q, ?_, ?_, fun q' => ⟨fun other => other.unique once waits, ?_⟩⟩
    · rintro rfl
      exact owned.apart q waits
    · obtain ⟨waiting, found, -⟩ := waits
      exact ⟨waiting, found⟩
    · rintro rfl
      exact waits

end Owned

/-- The first promise takes over the value of the second one. -/
def Follows (promises : Promises) (p q : PromiseId) : Prop :=
  ∃ waiting, promises[q]? = some (.pending waiting) ∧ .follow p ∈ waiting

theorem follows_of_wait {promises : Promises} {p q r : PromiseId} {waiting : List Reaction}
    (found : promises[q]? = some (.pending waiting)) {reaction : Reaction}
    (follows : Follows (promises.setIfInBounds q (.pending (waiting ++ [reaction]))) p r) :
    promises.Follows p r ∨ r = q ∧ reaction = .follow p := by
  obtain ⟨waiting', found', member⟩ := follows
  rw [getElem?_set found] at found'
  split at found'
  · rename_i here
    subst here
    cases found'
    rcases List.mem_append.mp member with old | new
    · exact .inl ⟨waiting, found, old⟩
    · exact .inr ⟨rfl, (List.mem_singleton.mp new).symm⟩
  · exact .inl ⟨waiting', found', member⟩

/-- A settlement lets no promise follow another, unless it settles that with another promise that is
pending. -/
theorem follows_of_settle {promises : Promises} {p q p' : PromiseId} {value : Value}
    (follows : Follows (promises.settle p value).1 p' q) :
    promises.Follows p' q ∨ value = .promise q ∧ promises.Pending q := by
  rcases settle_cases promises p value with ⟨other, waiting, same, -, found, eq⟩ | ⟨given, eq, -⟩
  · rw [eq] at follows
    refine (follows_of_wait found follows).imp_right fun ⟨here, _⟩ => ?_
    subst here
    exact ⟨same, waiting, found⟩
  · rw [eq] at follows
    obtain ⟨waiting, found, member⟩ := follows
    exact .inl ⟨waiting, pending_of_propagate found, member⟩

theorem follows_of_push {promises : Promises} {p q : PromiseId} {state : PromiseState}
    (none : state.settles = []) (follows : Follows (promises.push state) p q) :
    promises.Follows p q := by
  obtain ⟨waiting, found, member⟩ := follows
  rw [Array.getElem?_push] at found
  split at found
  · cases found
    have settled : p ∈ PromiseState.settles (.pending waiting) :=
      List.mem_map.mpr ⟨_, member, rfl⟩
    rw [none] at settled
    cases settled
  · exact ⟨waiting, found, member⟩

end EventLoop.Promises
