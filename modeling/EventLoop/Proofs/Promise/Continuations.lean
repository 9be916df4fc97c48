import EventLoop.Proofs.Promise.Handlers
import EventLoop.Proofs.Promise.Ownership

/-!
# The ledger of continuations

A function that was attached to a promise waits there while that is pending; when it gets its value,
the function becomes a callback that runs on the value. So at all times each continuation is at one
place: it waits, it is held by the host, or it was run.
-/

namespace EventLoop

/-- A function that was attached to a promise, and the promise that its result settles. -/
structure Continuation where
  receiver : PromiseId
  function : Closure
  promise : PromiseId

/-- What a continuation becomes when its receiver has this value. -/
def Continuation.callback (c : Continuation) (value : Value) : Callback :=
  ⟨c.function, some value, some c.promise⟩

namespace Promises

variable {promises : Promises} {value : Value} {p q : PromiseId} {waiting : List Reaction}
  {c : Continuation}

/-- The continuation waits for its receiver. -/
def Parks (promises : Promises) (c : Continuation) : Prop :=
  ∃ waiting, promises[c.receiver]? = some (.pending waiting) ∧
    Reaction.handler c.function c.promise ∈ waiting

/-- For a new promise nothing waits. -/
theorem parks_push {state : PromiseState} (none : state.handled = []) :
    Parks (promises.push state) c ↔ promises.Parks c := by
  constructor
  · rintro ⟨waiting, found, member⟩
    rw [Array.getElem?_push] at found
    split at found
    · cases found
      have handled : c.promise ∈ PromiseState.handled (.pending waiting) :=
        List.mem_filterMap.mpr ⟨_, member, rfl⟩
      rw [none] at handled
      cases handled
    · exact ⟨waiting, found, member⟩
  · rintro ⟨waiting, found, member⟩
    exact ⟨waiting, getElem?_push_of_some found state, member⟩

/-- One more reaction waits for a promise. -/
theorem parks_wait (found : promises[q]? = some (.pending waiting)) (reaction : Reaction) :
    Parks (promises.setIfInBounds q (.pending (waiting ++ [reaction]))) c ↔
      promises.Parks c ∨ c.receiver = q ∧ reaction = .handler c.function c.promise := by
  unfold Parks
  rw [getElem?_set found]
  by_cases same : c.receiver = q
  · rw [if_pos same, same, found]
    simp [eq_comm]
  · simp [same]

/-- Handlers among the reactions are released. -/
theorem released_of_mem {reactions : List Reaction} {function : Closure}
    (member : .handler function p ∈ reactions) :
    ⟨function, some value, some p⟩ ∈ (propagate value promises reactions).2 := by
  induction promises, reactions using propagate_induction value with
  | nil promises => cases member
  | handler promises other settles rest ih =>
    rw [propagate_handler]
    rcases List.mem_cons.mp member with same | member
    · cases same
      exact List.mem_cons_self
    · exact List.mem_cons_of_mem _ (ih member)
  | pending promises q waiting rest found ih =>
    rw [propagate_pending value found]
    refine ih (List.mem_append_right _ ?_)
    exact List.mem_of_ne_of_mem (fun same => by cases same) member
  | other promises q rest settled ih =>
    rw [propagate_other value settled]
    exact ih (List.mem_of_ne_of_mem (fun same => by cases same) member)

/-- A continuation waits on, or its receiver was given the value and it was released to run on
it. -/
theorem Parks.propagate (parks : promises.Parks c) (reactions : List Reaction) :
    Parks (propagate value promises reactions).1 c ∨
      (propagate value promises reactions).1[c.receiver]? = some (.resolved value) ∧
        c.callback value ∈ (propagate value promises reactions).2 := by
  induction promises, reactions using propagate_induction value with
  | nil promises =>
    rw [propagate_nil]
    exact .inl parks
  | handler promises function settles rest ih =>
    rw [propagate_handler]
    exact (ih parks).imp_right fun ⟨resolved, released⟩ =>
      ⟨resolved, List.mem_cons_of_mem _ released⟩
  | pending promises q waiting rest found ih =>
    rw [propagate_pending value found]
    obtain ⟨waiting', found', member⟩ := parks
    by_cases same : c.receiver = q
    · subst same
      rw [found] at found'
      cases found'
      refine .inr ⟨Keeps.propagate value _ _ c.receiver value ?_, ?_⟩
      · rw [getElem?_set found, if_pos rfl]
      · exact released_of_mem (List.mem_append_left _ member)
    · exact ih ⟨waiting', by rw [getElem?_set found, if_neg same, found'], member⟩
  | other promises q rest settled ih =>
    rw [propagate_other value settled]
    exact ih parks

theorem parks_of_settle (parks : Parks (promises.settle p value).1 c) : promises.Parks c := by
  rcases settle_cases promises p value with ⟨other, waiting, -, -, found, eq⟩ | ⟨given, eq, -⟩
  · rw [eq] at parks
    exact ((parks_wait found _).mp parks).resolve_right fun ⟨_, same⟩ => by cases same
  · rw [eq] at parks
    obtain ⟨waiting, found, member⟩ := parks
    exact ⟨waiting, pending_of_propagate found, member⟩

theorem Parks.settle (parks : promises.Parks c) (p : PromiseId) (value : Value) :
    Parks (promises.settle p value).1 c ∨
      ∃ given, (promises.settle p value).1[c.receiver]? = some (.resolved given) ∧
        c.callback given ∈ (promises.settle p value).2 := by
  rcases settle_cases promises p value with ⟨other, waiting, -, -, found, eq⟩ | ⟨given, eq, -⟩
  · rw [eq]
    exact .inl ((parks_wait found _).mpr (.inl parks))
  · rw [eq]
    exact (parks.propagate [.follow p]).imp_right fun released => ⟨given, released⟩

/-- A handler that waits is among those that do. -/
theorem mem_handled {function : Closure} (found : promises[q]? = some (.pending waiting))
    (member : .handler function p ∈ waiting) : p ∈ promises.handled := by
  refine List.mem_flatMap.mpr ⟨.pending waiting, List.mem_iff_getElem?.mpr ⟨q, ?_⟩, ?_⟩
  · simpa using found
  · exact List.mem_filterMap.mpr ⟨_, member, rfl⟩

/-- If no promise is settled twice, a callback is the only one that settles its promise. -/
theorem filter_settles {callbacks : List Callback} {callback : Callback}
    (once : (settledBy callbacks).Nodup) (member : callback ∈ callbacks)
    (settles : callback.settles = some p) :
    callbacks.filter (·.settles = some p) = [callback] := by
  induction callbacks with
  | nil => cases member
  | cons first rest ih =>
    rw [settledBy_cons] at once
    obtain ⟨-, distinct, disjoint⟩ := List.nodup_append.mp once
    rcases List.mem_cons.mp member with rfl | later
    · rw [List.filter_cons_of_pos (by simpa using settles)]
      refine congrArg (callback :: ·) (List.filter_eq_nil_iff.mpr fun other there same => ?_)
      have again : p ∈ settledBy rest :=
        List.mem_filterMap.mpr ⟨other, there, of_decide_eq_true same⟩
      exact disjoint p (by simp [settles]) p again rfl
    · rw [List.filter_cons_of_neg, ih distinct later]
      intro same
      have again : p ∈ settledBy rest := List.mem_filterMap.mpr ⟨callback, later, settles⟩
      exact disjoint p (by simp [of_decide_eq_true same]) p again rfl

end Promises

open Promises in
/-- The continuations that were attached are those that were run, that are held or that wait; each
has a promise of its own, which was made later than its receiver. While its receiver is pending a
continuation waits for it, and then it is run on its value. -/
structure Ledger (attached : List Continuation) (ran held : List Callback) (promises : Promises) :
    Prop where
  balance : (settledBy ran ++ settledBy held ++ promises.handled).Perm (attached.map (·.promise))
  distinct : (attached.map (·.promise)).Nodup
  made : ∀ c ∈ attached, c.receiver < c.promise ∧ c.promise < promises.size
  parked : ∀ c, promises.Parks c → c ∈ attached
  fate : ∀ c ∈ attached, promises.Parks c ∨
    ∃ value, promises[c.receiver]? = some (.resolved value) ∧ c.callback value ∈ ran ++ held

namespace Ledger

open Promises

variable {attached : List Continuation} {ran held : List Callback} {promises : Promises}
  {c : Continuation}

theorem empty : Ledger [] [] [] #[] where
  balance := .refl _
  distinct := List.nodup_nil
  made c member := by cases member
  parked c parks := by
    obtain ⟨waiting, found, -⟩ := parks
    simp at found
  fate c member := by cases member

/-- The order in which callbacks are held does not count. -/
theorem perm {held' : List Callback} (ledger : Ledger attached ran held promises)
    (perm : held.Perm held') : Ledger attached ran held' promises where
  balance := (((settledBy_perm perm.symm).append_left _).append_right _).trans ledger.balance
  distinct := ledger.distinct
  made := ledger.made
  parked := ledger.parked
  fate c member := (ledger.fate c member).imp_right fun ⟨value, found, there⟩ =>
    ⟨value, found, (perm.append_left _).mem_iff.mp there⟩

/-- A callback that is no continuation is held. -/
theorem hold (ledger : Ledger attached ran held promises) {callback : Callback}
    (plain : callback.settles = none) : Ledger attached ran (callback :: held) promises where
  balance := by
    have same : settledBy (callback :: held) = settledBy held := by
      simp [settledBy, plain]
    rw [same]
    exact ledger.balance
  distinct := ledger.distinct
  made := ledger.made
  parked := ledger.parked
  fate c member := (ledger.fate c member).imp_right fun ⟨value, found, there⟩ =>
    ⟨value, found, ((List.sublist_cons_self callback held).append_left ran).subset there⟩

/-- A callback that was held is run. -/
theorem begin {callback : Callback} (ledger : Ledger attached ran (callback :: held) promises) :
    Ledger attached (ran ++ [callback]) held promises where
  balance := by
    refine .trans (.append_right _ ?_) ledger.balance
    rw [← settledBy_append, ← settledBy_append, List.append_assoc]
    exact .refl _
  distinct := ledger.distinct
  made := ledger.made
  parked := ledger.parked
  fate c member := (ledger.fate c member).imp_right fun ⟨value, found, there⟩ =>
    ⟨value, found, by rwa [List.append_assoc]⟩

theorem push_resolved (ledger : Ledger attached ran held promises) (value : Value) :
    Ledger attached ran held (promises.push (.resolved value)) where
  balance := by
    rw [handled_push, PromiseState.handled, List.append_nil]
    exact ledger.balance
  distinct := ledger.distinct
  made c member := by
    rw [Array.size_push]
    exact (ledger.made c member).imp_right Nat.lt_succ_of_lt
  parked c parks := ledger.parked c ((parks_push rfl).mp parks)
  fate c member := (ledger.fate c member).imp (parks_push rfl).mpr
    fun ⟨given, found, there⟩ => ⟨given, getElem?_push_of_some found _, there⟩

section

variable (ledger : Ledger attached ran held promises) {receiver : PromiseId}
  (bound : receiver < promises.size) (function : Closure)

include ledger

/-- The promise of a continuation that is attached now is new. -/
theorem distinct_append :
    ((attached ++ [Continuation.mk receiver function promises.size]).map
      Continuation.promise).Nodup := by
  rw [List.map_append]
  refine List.nodup_append.mpr ⟨ledger.distinct, List.nodup_singleton _, ?_⟩
  intro old member new fresh
  obtain ⟨c, attachedBefore, rfl⟩ := List.mem_map.mp member
  rw [List.mem_singleton.mp fresh]
  exact Nat.ne_of_lt (ledger.made c attachedBefore).2

include bound

theorem made_append : ∀ c ∈ attached ++ [⟨receiver, function, promises.size⟩],
    c.receiver < c.promise ∧ c.promise < promises.size + 1 := by
  intro c member
  rcases List.mem_append.mp member with old | new
  · exact (ledger.made c old).imp_right Nat.lt_succ_of_lt
  · rw [List.mem_singleton.mp new]
    exact ⟨bound, Nat.lt_succ_self _⟩

omit bound in
/-- A continuation of a promise that has its value is held at once. -/
theorem chain {value : Value} (found : promises[receiver]? = some (.resolved value)) :
    Ledger (attached ++ [⟨receiver, function, promises.size⟩]) ran
      (⟨function, some value, some promises.size⟩ :: held) (promises.push (.pending [])) where
  balance := by
    rw [handled_push, PromiseState.handled, List.filterMap_nil, List.append_nil, List.map_append,
      List.append_assoc]
    show (_ ++ promises.size :: (settledBy held ++ _)).Perm _
    refine List.perm_middle.trans (.trans ?_ (List.perm_append_singleton _ _).symm)
    rw [← List.append_assoc]
    exact ledger.balance.cons _
  distinct := ledger.distinct_append function
  made := by
    rw [Array.size_push]
    exact ledger.made_append (Array.getElem?_eq_some_iff.mp found).1 function
  parked c parks := List.mem_append_left _ (ledger.parked c ((parks_push rfl).mp parks))
  fate c member := by
    rcases List.mem_append.mp member with old | new
    · rcases ledger.fate c old with parked | ⟨given, resolved, there⟩
      · exact .inl ((parks_push rfl).mpr parked)
      · exact .inr ⟨given, getElem?_push_of_some resolved _,
          ((List.sublist_cons_self _ held).append_left ran).subset there⟩
    · rw [List.mem_singleton.mp new]
      exact .inr ⟨value, getElem?_push_of_some found _,
        List.mem_append_right _ List.mem_cons_self⟩

omit bound in
/-- A continuation of a promise that is pending waits. -/
theorem park {waiting : List Reaction} (found : promises[receiver]? = some (.pending waiting)) :
    Ledger (attached ++ [⟨receiver, function, promises.size⟩]) ran held
      ((promises.push (.pending [])).setIfInBounds receiver
        (.pending (waiting ++ [Reaction.handler function promises.size]))) := by
  have kept := getElem?_push_of_some found (.pending [])
  have more := handled_wait kept (Reaction.handler function promises.size)
  rw [handled_push, PromiseState.handled, List.filterMap_nil, List.append_nil] at more
  have parks (c : Continuation) := parks_wait (c := c) kept (.handler function promises.size)
  constructor
  · rw [List.map_append]
    refine .trans (more.append_left _) (.trans ?_ (List.perm_append_singleton _ _).symm)
    exact List.perm_middle.trans (ledger.balance.cons _)
  · exact ledger.distinct_append function
  · rw [Array.size_setIfInBounds, Array.size_push]
    exact ledger.made_append (Array.getElem?_eq_some_iff.mp found).1 function
  · intro c parked
    rcases (parks c).mp parked with old | ⟨same, new⟩
    · exact List.mem_append_left _ (ledger.parked c ((parks_push rfl).mp old))
    · refine List.mem_append_right _ (List.mem_singleton.mpr ?_)
      obtain ⟨_, _, _⟩ := c
      cases same
      cases new
      rfl
  · intro c member
    rcases List.mem_append.mp member with old | new
    · rcases ledger.fate c old with parked | ⟨given, resolved, there⟩
      · exact .inl ((parks c).mpr (.inl ((parks_push rfl).mpr parked)))
      · exact .inr ⟨given, Keeps.set kept _ _ _ (getElem?_push_of_some resolved _), there⟩
    · refine .inl ((parks c).mpr (.inr ?_))
      rw [List.mem_singleton.mp new]
      exact ⟨rfl, rfl⟩

end

/-- A settlement releases continuations that waited. -/
theorem settle (ledger : Ledger attached ran held promises) (p : PromiseId) (value : Value) :
    Ledger attached ran ((promises.settle p value).2 ++ held) (promises.settle p value).1 where
  balance := by
    refine .trans ?_ ledger.balance
    rw [settledBy_append, List.append_assoc, List.append_assoc, List.append_assoc]
    refine List.Perm.append_left _ (.trans ?_ ((handled_settle promises p value).append_left _))
    rw [← List.append_assoc, ← List.append_assoc]
    exact List.perm_append_comm.append_right _
  distinct := ledger.distinct
  made := by
    rw [settle_size]
    exact ledger.made
  parked c parks := ledger.parked c (parks_of_settle parks)
  fate c member := by
    rcases ledger.fate c member with parks | ⟨given, found, there⟩
    · refine (parks.settle p value).imp_right fun ⟨given, found, released⟩ => ⟨given, found, ?_⟩
      exact List.mem_append_right _ (List.mem_append_left _ released)
    · refine .inr ⟨given, Keeps.settle promises p value _ given found, ?_⟩
      exact ((List.sublist_append_right _ held).append_left ran).subset there

/-- Nothing settles a promise twice. -/
theorem once (ledger : Ledger attached ran held promises) :
    (settledBy ran ++ settledBy held ++ promises.handled).Nodup :=
  ledger.balance.nodup_iff.mpr ledger.distinct

/-- When nothing is held, each continuation has run once, on the value of its receiver; or its
receiver is pending, and it has not run. -/
theorem runs_of_mem (ledger : Ledger attached ran [] promises) (member : c ∈ attached) :
    (promises.Pending c.receiver ∧ ran.filter (·.settles = some c.promise) = []) ∨
      ∃ value, promises[c.receiver]? = some (.resolved value) ∧
        ran.filter (·.settles = some c.promise) = [c.callback value] := by
  have once := ledger.once
  rw [List.append_assoc] at once
  obtain ⟨distinct, -, disjoint⟩ := List.nodup_append.mp once
  rcases ledger.fate c member with ⟨waiting, found, parked⟩ | ⟨value, found, there⟩
  · refine .inl ⟨⟨waiting, found⟩, List.filter_eq_nil_iff.mpr fun callback run settles => ?_⟩
    have settled : c.promise ∈ settledBy ran :=
      List.mem_filterMap.mpr ⟨callback, run, of_decide_eq_true settles⟩
    exact disjoint _ settled _ (List.mem_append_right _ (mem_handled found parked)) rfl
  · rw [List.append_nil] at there
    exact .inr ⟨value, found, filter_settles distinct there rfl⟩

/-- If no promise follows another none is pending when nothing is held: it would be settled by a
continuation that waits, and so wait for an older one. -/
theorem none_pending (ledger : Ledger attached ran [] promises) (owned : promises.Owned [])
    (unfollowed : ∀ p q, ¬ promises.Follows p q) (p : PromiseId) : ¬ promises.Pending p := by
  induction p using Nat.strongRecOn with
  | _ p ih =>
    intro pending
    obtain ⟨q, -, older, waits⟩ := owned.waits_for_one pending
    obtain ⟨waiting, found, settled⟩ := (waits q).mpr rfl
    obtain ⟨reaction, member, settles⟩ := List.mem_map.mp settled
    cases reaction with
    | follow other =>
      obtain rfl : other = p := settles
      exact unfollowed other q ⟨waiting, found, member⟩
    | handler function other =>
      obtain rfl : other = p := settles
      have attached := ledger.parked ⟨q, function, other⟩ ⟨waiting, found, member⟩
      exact ih q (ledger.made _ attached).1 older

end Ledger

end EventLoop
