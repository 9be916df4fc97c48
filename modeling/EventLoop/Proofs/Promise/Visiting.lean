import Mathlib.Data.List.Nodup
import EventLoop.Proofs.Promise.Ownership

/-!
# The promises that a settlement visits

Settling a pending promise is a depth-first search of the promises as they were before. Every
pending promise that takes over the value, directly or through others, is entered once; one that has
been entered is not pending any more, so promises that follow in a circle, or that follow two
others, do no harm. What waits for a promise is gone through in the order of attachment when the
promise is entered, and the handlers are released as they are met.
-/

namespace EventLoop

/-- The callback that a handler becomes when the promise that it waits for is given the value. -/
def Reaction.callback? (value : Value) : Reaction → Option Callback
  | handler function settles => some ⟨function, some value, some settles⟩
  | follow _ => none

@[simp] theorem Reaction.callback?_handler (value : Value) (function : Closure)
    (settles : PromiseId) :
    (handler function settles).callback? value = some ⟨function, some value, some settles⟩ := rfl

@[simp] theorem Reaction.callback?_follow (value : Value) (p : PromiseId) :
    (follow p).callback? value = none := rfl

/-- The callbacks that the handlers of a pending promise become, in the order of attachment. -/
def PromiseState.callbacks (value : Value) : PromiseState → List Callback
  | pending waiting => waiting.filterMap (Reaction.callback? value)
  | resolved _ => []

namespace Promises

variable {promises current : Promises} {value : Value} {p q r : PromiseId}
  {waiting reactions rest : List Reaction} {seen after : List PromiseId}
  {released : List Callback}

/-- The callbacks that the handlers of the promise become when it is given the value. -/
def callbacksOf (promises : Promises) (value : Value) (p : PromiseId) : List Callback :=
  promises[p]?.elim [] (PromiseState.callbacks value)

/-- The second promise is the first, or takes over its value along promises that are all pending. -/
inductive Reaches (promises : Promises) (p : PromiseId) : PromiseId → Prop
  | start : promises.Pending p → Reaches promises p p
  | follow {q r : PromiseId} : Reaches promises p q → promises.Follows r q → promises.Pending r →
      Reaches promises p r

/-- A depth-first search from some reactions on: the promises entered before and after, the one
entered last first, and what is released on the way. The promises themselves stay as they are; one
counts as pending as long as it has not been entered. -/
inductive Visits (promises : Promises) (value : Value) :
    List PromiseId → List Reaction → List PromiseId → List Callback → Prop
  | done (seen : List PromiseId) : Visits promises value seen [] seen []
  | handler {seen after : List PromiseId} {rest : List Reaction} {released : List Callback}
      (function : Closure) (settles : PromiseId) : Visits promises value seen rest after released →
      Visits promises value seen (.handler function settles :: rest) after
        (⟨function, some value, some settles⟩ :: released)
  /-- A promise that is still pending stands for all that it releases itself. -/
  | enter {seen middle after : List PromiseId} {p : PromiseId} {waiting rest : List Reaction}
      {inner outer : List Callback} : promises[p]? = some (.pending waiting) → p ∉ seen →
      Visits promises value (p :: seen) waiting middle inner →
      Visits promises value middle rest after outer →
      Visits promises value seen (.follow p :: rest) after (inner ++ outer)
  | pass {seen after : List PromiseId} {p : PromiseId} {rest : List Reaction}
      {released : List Callback} : p ∈ seen ∨ ¬ promises.Pending p →
      Visits promises value seen rest after released →
      Visits promises value seen (.follow p :: rest) after released

theorem Reaches.trans (first : promises.Reaches p q) (second : promises.Reaches q r) :
    promises.Reaches p r := by
  induction second with
  | start _ => exact first
  | follow _ follows pending ih => exact ih.follow follows pending

theorem Reaches.pending (reaches : promises.Reaches p q) : promises.Pending p := by
  induction reaches with
  | start pending => exact pending
  | follow _ _ _ ih => exact ih

namespace Visits

/-- A search through two lists is one through the first and then one through the second. -/
theorem of_append {first second : List Reaction}
    (visits : Visits promises value seen (first ++ second) after released) :
    ∃ middle inner outer, Visits promises value seen first middle inner ∧
      Visits promises value middle second after outer ∧ released = inner ++ outer := by
  induction first generalizing seen released with
  | nil => exact ⟨seen, [], released, .done seen, visits, rfl⟩
  | cons reaction first ih =>
    cases visits with
    | handler function settles visits =>
      obtain ⟨middle, inner, outer, left, right, rfl⟩ := ih visits
      exact ⟨middle, _ :: inner, outer, .handler function settles left, right, rfl⟩
    | enter found fresh inside visits =>
      obtain ⟨middle, inner, outer, left, right, rfl⟩ := ih visits
      exact ⟨middle, _ ++ inner, outer, .enter found fresh inside left, right, by simp⟩
    | pass settled visits =>
      obtain ⟨middle, inner, outer, left, right, rfl⟩ := ih visits
      exact ⟨middle, inner, outer, .pass settled left, right, rfl⟩

/-- Promises are only ever entered, and what is released are the handlers that were to be gone
through and those of the promises entered. -/
theorem entered (visits : Visits promises value seen reactions after released) :
    ∃ new, after = new ++ seen ∧
      released.Perm (reactions.filterMap (Reaction.callback? value) ++
        new.flatMap (promises.callbacksOf value)) := by
  induction visits with
  | done seen => exact ⟨[], rfl, by simp⟩
  | handler function settles _ ih =>
    obtain ⟨new, rfl, perm⟩ := ih
    exact ⟨new, rfl, by simpa using perm⟩
  | @enter seen middle after p waiting rest inner outer found fresh _ _ inside following =>
    obtain ⟨new₁, rfl, perm₁⟩ := inside
    obtain ⟨new₂, rfl, perm₂⟩ := following
    refine ⟨new₂ ++ new₁ ++ [p], by simp, (perm₁.append perm₂).trans ?_⟩
    have own : promises.callbacksOf value p = waiting.filterMap (Reaction.callback? value) := by
      simp [callbacksOf, found, PromiseState.callbacks]
    rw [← own, List.filterMap_cons_none rfl]
    simp only [List.flatMap_append, List.flatMap_singleton, List.append_assoc]
    generalize promises.callbacksOf value p = a
    generalize new₁.flatMap _ = b
    generalize new₂.flatMap _ = c
    generalize rest.filterMap _ = d
    -- the handlers of the promise come first, and last in the list of those entered
    calc (a ++ (b ++ (d ++ c))).Perm ((d ++ c) ++ (a ++ b)) := by
          rw [← List.append_assoc]
          exact List.perm_append_comm
      _ |>.Perm (d ++ (c ++ (b ++ a))) := by
          rw [List.append_assoc]
          exact (List.perm_append_comm.append_left c).append_left d
  | pass _ _ ih =>
    obtain ⟨new, rfl, perm⟩ := ih
    exact ⟨new, rfl, by simpa [List.filterMap_cons] using perm⟩

theorem subset (visits : Visits promises value seen reactions after released) : seen ⊆ after := by
  obtain ⟨new, rfl, -⟩ := visits.entered
  exact List.subset_append_right new seen

/-- No promise is entered twice. -/
theorem nodup (visits : Visits promises value seen reactions after released)
    (once : seen.Nodup) : after.Nodup := by
  induction visits with
  | done _ => exact once
  | handler _ _ _ ih => exact ih once
  | enter _ fresh _ _ inside following =>
    exact following (inside (List.nodup_cons.mpr ⟨fresh, once⟩))
  | pass _ _ ih => exact ih once

/-- Every promise that is entered is reached from one that was to be followed. -/
theorem reaches (visits : Visits promises value seen reactions after released)
    (member : q ∈ after) : q ∈ seen ∨ ∃ p, .follow p ∈ reactions ∧ promises.Reaches p q := by
  induction visits with
  | done _ => exact .inl member
  | handler _ _ _ ih =>
    exact (ih member).imp_right fun ⟨p, later, reaches⟩ => ⟨p, List.mem_cons_of_mem _ later, reaches⟩
  | @enter seen middle after p waiting rest inner outer found fresh _ _ inside following =>
    have start : promises.Reaches p p := .start ⟨waiting, found⟩
    rcases following member with member | ⟨p', later, reaches⟩
    · rcases inside member with member | ⟨p', waits, reaches⟩
      · rcases List.mem_cons.mp member with rfl | member
        · exact .inr ⟨_, List.mem_cons_self, start⟩
        · exact .inl member
      · have first := start.follow ⟨waiting, found, waits⟩ reaches.pending
        exact .inr ⟨p, List.mem_cons_self, first.trans reaches⟩
    · exact .inr ⟨p', List.mem_cons_of_mem _ later, reaches⟩
  | pass _ _ ih =>
    exact (ih member).imp_right fun ⟨p, later, reaches⟩ => ⟨p, List.mem_cons_of_mem _ later, reaches⟩

/-- A promise to be followed that is pending has been entered at the end, and so has each one that
follows a promise which was entered on the way. -/
theorem closed (visits : Visits promises value seen reactions after released) :
    (∀ p, .follow p ∈ reactions → promises.Pending p → p ∈ after) ∧
      ∀ q ∈ after, q ∉ seen → ∀ r, promises.Follows r q → promises.Pending r → r ∈ after := by
  induction visits with
  | done _ => exact ⟨by simp, fun _ member fresh => absurd member fresh⟩
  | handler _ _ _ ih => exact ⟨fun p later => ih.1 p (by simpa using later), ih.2⟩
  | @enter seen middle after p waiting rest inner outer found fresh inside following ih₁ ih₂ =>
    have here : p ∈ after := following.subset (inside.subset List.mem_cons_self)
    constructor
    · intro p' later pending
      rcases List.mem_cons.mp later with same | later
      · cases same
        exact here
      · exact ih₂.1 p' later pending
    · intro q member new r follows pending
      by_cases before : q ∈ middle
      · by_cases same : q = p
        · subst same
          obtain ⟨waiting', found', waits⟩ := follows
          cases found.symm.trans found'
          exact following.subset (ih₁.1 r waits pending)
        · have new : q ∉ p :: seen := by simp [same, new]
          exact following.subset (ih₁.2 q before new r follows pending)
      · exact ih₂.2 q member before r follows pending
  | @pass seen after p rest released settled visits ih =>
    refine ⟨?_, ih.2⟩
    intro p' later pending
    rcases List.mem_cons.mp later with same | later
    · cases same
      exact visits.subset (settled.resolve_right (not_not_intro pending))
    · exact ih.1 p' later pending

/-- A search that starts at a pending promise enters exactly those that it reaches. -/
theorem mem_iff (visits : Visits promises value [] [.follow p] after released) :
    q ∈ after ↔ promises.Reaches p q := by
  constructor
  · intro member
    rcases visits.reaches member with none | ⟨p', here, reaches⟩
    · cases none
    · cases List.mem_singleton.mp here
      exact reaches
  · intro reaches
    induction reaches with
    | start pending => exact visits.closed.1 p List.mem_cons_self pending
    | follow _ follows pending ih => exact visits.closed.2 _ ih (by simp) _ follows pending

end Visits

/-- These promises have been given the value, and all others are as they were. -/
def GivenTo (promises : Promises) (value : Value) (seen : List PromiseId) (current : Promises) :
    Prop :=
  ∀ p, current[p]? = if p ∈ seen then some (.resolved value) else promises[p]?

namespace GivenTo

theorem pending (given : promises.GivenTo value seen current)
    (found : current[p]? = some (.pending waiting)) :
    p ∉ seen ∧ promises[p]? = some (.pending waiting) := by
  rw [given p] at found
  by_cases member : p ∈ seen
  · simp [member] at found
  · exact ⟨member, by simpa [member] using found⟩

theorem enter (given : promises.GivenTo value seen current)
    (found : current[p]? = some (.pending waiting)) :
    promises.GivenTo value (p :: seen) (current.setIfInBounds p (.resolved value)) := by
  intro q
  rw [getElem?_set found, given q]
  by_cases same : q = p <;> simp [same]

/-- What hands the value on does so as the search goes. -/
theorem propagate (given : promises.GivenTo value seen current) (reactions : List Reaction) :
    ∃ after, Visits promises value seen reactions after
        (Promises.propagate value current reactions).2 ∧
      promises.GivenTo value after (Promises.propagate value current reactions).1 := by
  induction current, reactions using propagate_induction value generalizing seen with
  | nil current =>
    rw [propagate_nil]
    exact ⟨seen, .done seen, given⟩
  | handler current function settles rest ih =>
    rw [propagate_handler]
    obtain ⟨after, visits, given⟩ := ih given
    exact ⟨after, .handler function settles visits, given⟩
  | pending current p waiting rest found ih =>
    rw [propagate_pending value found]
    obtain ⟨fresh, before⟩ := given.pending found
    obtain ⟨after, visits, given⟩ := ih (given.enter found)
    obtain ⟨middle, inner, outer, first, second, eq⟩ := visits.of_append
    rw [eq]
    exact ⟨after, .enter before fresh first second, given⟩
  | other current p rest settled ih =>
    rw [propagate_other value settled]
    obtain ⟨after, visits, given'⟩ := ih given
    refine ⟨after, .pass ?_ visits, given'⟩
    by_cases member : p ∈ seen
    · exact .inl member
    · have same : current[p]? = promises[p]? := by simp [given p, member]
      exact .inr fun ⟨waiting, found⟩ => settled waiting (same.trans found)

end GivenTo

theorem settle_plain (plain : ∀ q, value ≠ .promise q) (promises : Promises) (p : PromiseId) :
    promises.settle p value = propagate value promises [.follow p] := by
  cases value with
  | promise q => exact absurd rfl (plain q)
  | _ => rfl

/-- Settling a pending promise with a value that is no promise gives this value to exactly the
pending promises that it reaches, leaves all others alone, and releases the handlers that waited for
them, each once, in the order of a depth-first search. -/
theorem settle_visits (pending : promises.Pending p) (plain : ∀ q, value ≠ .promise q) :
    ∃ visited, Visits promises value [] [.follow p] visited (promises.settle p value).2 ∧
      visited.Nodup ∧ p ∈ visited ∧ (∀ q, q ∈ visited ↔ promises.Reaches p q) ∧
      (∀ q, (promises.settle p value).1[q]? =
        if q ∈ visited then some (.resolved value) else promises[q]?) ∧
      (promises.settle p value).2.Perm (visited.flatMap (promises.callbacksOf value)) := by
  have start : promises.GivenTo value [] promises := fun q => by simp
  obtain ⟨visited, visits, given⟩ := start.propagate [.follow p]
  rw [← settle_plain plain] at visits given
  obtain ⟨new, eq, perm⟩ := visits.entered
  rw [List.append_nil] at eq
  subst eq
  refine ⟨visited, visits, visits.nodup List.nodup_nil, ?_, fun q => visits.mem_iff, given, ?_⟩
  · exact visits.mem_iff.mpr (.start pending)
  · simpa [List.filterMap_cons] using perm

/-- Three promises that follow each other in a circle, the first of which is followed by the third
directly, too. Each has a handler. -/
def circle : Promises :=
  let function : Closure := ⟨0, .mk none [] (.block []) 1, globalEnv⟩
  #[ .pending [.handler function 3, .follow 1, .follow 2],
    .pending [.follow 2, .handler function 4],
    .pending [.handler function 5, .follow 0],
    .pending [], .pending [], .pending [] ]

theorem settle_visits_circle :
    circle.Pending 0 ∧ (∀ q, Value.null ≠ .promise q) ∧
      ∃ visited, Visits circle .null [] [.follow 0] visited (circle.settle 0 .null).2 ∧
        visited.Nodup ∧ 2 ∈ visited ∧ (circle.settle 0 .null).1[2]? = some (.resolved .null) := by
  have pending : circle.Pending 0 := ⟨_, rfl⟩
  have plain : ∀ q, Value.null ≠ .promise q := by simp
  obtain ⟨visited, visits, once, -, reached, given, -⟩ := settle_visits pending plain
  have third : circle.Reaches 0 2 :=
    (Reaches.start pending).follow ⟨_, rfl, by simp⟩ ⟨_, rfl⟩
  have member := (reached 2).mpr third
  exact ⟨pending, plain, visited, visits, once, member, by simp [given, member]⟩

example : (circle.settle 0 .null).2.map Callback.settles = [some 3, some 5, some 4] := by
  cbv

end Promises

end EventLoop
