import Mathlib.Data.List.Induction
import EventLoop.Proofs.Queue.Timers

/-!
# Timers that come and go

Timers are registered and taken in any order, and each gets a number when it is registered. The one
that is taken comes first by its delay, its `seq` and its number among those that are there, and
the others stay in the order of their numbers. So no timer is lost and none is taken twice. When all
timers are taken, they come sorted, and those with the same delay and `seq` in their old order.
-/

namespace EventLoop

namespace Timers

/-! ## Operations -/

/-- What can be done to timers. -/
inductive Operation where
  | insert (timer : PendingTimer)
  | take

/-- The timer that an operation registers. -/
def Operation.inserted? : Operation → Option PendingTimer
  | insert timer => some timer
  | take => none

/-- Goes on with one operation, given the timers that were taken so far and those that are left. -/
def serve : List PendingTimer × Timers → Operation → List PendingTimer × Timers
  | (taken, timers), .insert timer => (taken, timers.insert timer)
  | (taken, timers), .take => (taken ++ timers.take.1.toList, timers.take.2)

/-- The timers that are taken by some operations, in order, and those that are left. There are none
at first. -/
def served (operations : List Operation) : List PendingTimer × Timers :=
  operations.foldl serve ([], [])

theorem served_concat (operations : List Operation) (operation : Operation) :
    served (operations ++ [operation]) = serve (served operations) operation := by
  rw [served, List.foldl_append]
  rfl

/-! ## Numbers -/

/-- A timer and its number. -/
structure Registration where
  timer : PendingTimer
  number : Nat

/-- The first timer comes before the second, or neither precedes the other and the first was
registered earlier. -/
def Registration.Before (a b : Registration) : Prop :=
  a.timer.precedes b.timer = true ∨ ¬ b.timer.precedes a.timer = true ∧ a.number < b.number

/-- The timers that operations register, numbered from zero. -/
def registrations (operations : List Operation) : List Registration :=
  (operations.filterMap Operation.inserted?).mapIdx fun number timer => ⟨timer, number⟩

theorem registrations_insert (operations : List Operation) (timer : PendingTimer) :
    registrations (operations ++ [.insert timer]) =
      registrations operations ++ [⟨timer, (registrations operations).length⟩] := by
  simp [registrations, Operation.inserted?, List.mapIdx_append]

theorem registrations_take (operations : List Operation) :
    registrations (operations ++ [.take]) = registrations operations := by
  have none : [Operation.take].filterMap Operation.inserted? = [] := rfl
  rw [registrations, List.filterMap_append, none, List.append_nil, registrations]

theorem number_lt_of_mem_registrations {operations : List Operation} {registration : Registration}
    (member : registration ∈ registrations operations) :
    registration.number < (registrations operations).length := by
  obtain ⟨number, bound, rfl⟩ := List.mem_mapIdx.mp member
  rwa [registrations, List.length_mapIdx]

/-- What operations are to do: the timers that are gone, in the order in which they were taken, and
those that are present. -/
inductive History : List Operation → List Registration → List Registration → Prop
  | start : History [] [] []
  | insert {operations : List Operation} {gone present : List Registration} (timer : PendingTimer) :
    History operations gone present →
    History (operations ++ [.insert timer]) gone
      (present ++ [⟨timer, (registrations operations).length⟩])
  | take {operations : List Operation} {gone before after : List Registration}
    {first : Registration} :
    History operations gone (before ++ first :: after) →
    (∀ other ∈ before ++ after, first.Before other) →
    History (operations ++ [.take]) (gone ++ [first]) (before ++ after)
  | idle {operations : List Operation} {gone : List Registration} :
    History operations gone [] → History (operations ++ [.take]) gone []

namespace History

variable {operations : List Operation} {gone present : List Registration}

/-- Each timer that was registered is either gone or present, and just once. -/
theorem perm (history : History operations gone present) :
    (gone ++ present).Perm (registrations operations) := by
  induction history with
  | start => exact .refl _
  | insert timer _ ih =>
    rw [registrations_insert, ← List.append_assoc]
    exact ih.append_right _
  | @take operations gone before after first _ _ ih =>
    rw [registrations_take, List.append_assoc, List.singleton_append]
    exact (List.perm_middle.symm.append_left gone).trans ih
  | idle _ ih => rwa [registrations_take]

/-- The timers that are present stand in the order of their registration. -/
theorem ascending (history : History operations gone present) :
    present.Pairwise (·.number < ·.number) := by
  induction history with
  | start => exact .nil
  | insert timer history ih =>
    refine List.pairwise_append.mpr ⟨ih, List.pairwise_singleton .., ?_⟩
    intro earlier member new single
    rw [List.mem_singleton] at single
    subst single
    exact number_lt_of_mem_registrations
      (history.perm.subset (List.mem_append_right _ member))
  | take _ _ ih => exact ih.sublist ((List.sublist_cons_self ..).append_left _)
  | idle _ ih => exact ih

end History

/-- Where the next timer is taken from, when each timer has the number of its registration. -/
theorem Selects.registration {present : List Registration} {best : PendingTimer}
    {others front back : Timers}
    (selects : Selects (present.map Registration.timer) best others front back)
    (ascending : present.Pairwise (·.number < ·.number)) :
    ∃ before first after, present = before ++ first :: after ∧ first.timer = best ∧
      (before ++ after).map Registration.timer = others ∧
      ∀ other ∈ before ++ after, first.Before other := by
  obtain ⟨before, rest, rfl, rfl, mapped⟩ := List.map_eq_append_iff.mp selects.timers
  obtain ⟨first, after, rfl, rfl, rfl⟩ := List.map_eq_cons_iff.mp mapped
  refine ⟨before, first, after, rfl, rfl, ?_, ?_⟩
  · rw [List.map_append, selects.others]
  · intro other member
    rcases List.mem_append.mp member with earlier | later
    · exact .inl (selects.before _ (List.mem_map_of_mem earlier))
    · exact .inr ⟨selects.after _ (List.mem_map_of_mem later),
        List.rel_of_pairwise_cons (List.pairwise_append.mp ascending).2.1 later⟩

/-- Operations do what they are to do. -/
theorem exists_history (operations : List Operation) :
    ∃ gone present, History operations gone present ∧
      served operations = (gone.map Registration.timer, present.map Registration.timer) := by
  induction operations using List.reverseRecOn with
  | nil => exact ⟨[], [], .start, rfl⟩
  | append_singleton operations operation ih =>
    obtain ⟨gone, present, history, same⟩ := ih
    rw [served_concat, same]
    cases operation with
    | insert timer =>
      refine ⟨gone, _, history.insert timer, ?_⟩
      rw [serve, insert, List.map_append]
      rfl
    | take =>
      rw [serve]
      by_cases idle : present = []
      · subst idle
        exact ⟨gone, [], history.idle, by simp [take, next?]⟩
      · obtain ⟨best, others, front, back, taken, selects⟩ :=
          take_cons (mt List.map_eq_nil_iff.mp idle)
        obtain ⟨before, first, after, rfl, rfl, rfl, least⟩ :=
          selects.registration history.ascending
        refine ⟨_, _, history.take least, ?_⟩
        rw [taken]
        simp only [List.map_append, List.map_singleton, Option.toList_some]

/-! ## Taking all -/

/-- The second timers are the first ones in the order in which they precede one another. Those with
the same delay and `seq` stay in their order. -/
structure StablySorts (timers sorted : List PendingTimer) : Prop where
  perm : sorted.Perm timers
  ascending : sorted.Pairwise fun a b => ¬ b.precedes a = true
  stable : ∀ delay seq,
    sorted.filter (fun timer => timer.delay = delay ∧ timer.seq = seq) =
      timers.filter (fun timer => timer.delay = delay ∧ timer.seq = seq)

/-- Sorting what is left when the next timer is taken sorts all timers. -/
theorem Selects.stablySorts {timers others before after sorted : Timers} {best : PendingTimer}
    (selects : Selects timers best others before after) (sorts : StablySorts others sorted) :
    StablySorts timers (best :: sorted) where
  perm := by
    rw [selects.timers]
    refine (sorts.perm.cons best).trans ?_
    rw [selects.others]
    exact List.perm_middle.symm
  ascending := by
    refine List.pairwise_cons.mpr ⟨?_, sorts.ascending⟩
    intro timer member
    have other := sorts.perm.subset member
    rw [selects.others] at other
    rcases List.mem_append.mp other with front | back
    · have earlier := selects.before timer front
      rw [PendingTimer.precedes_iff] at earlier ⊢
      omega
    · exact selects.after timer back
  stable delay seq := by
    rw [selects.timers, List.filter_append, List.filter_cons, List.filter_cons,
      sorts.stable, selects.others, List.filter_append]
    split
    · rename_i same
      -- No timer in front of the next one has its delay and `seq`.
      have none : before.filter (fun timer => timer.delay = delay ∧ timer.seq = seq) = [] := by
        refine List.filter_eq_nil_iff.mpr fun timer front => ?_
        have earlier := selects.before timer front
        rw [PendingTimer.precedes_iff] at earlier
        simp only [decide_eq_true_eq] at same ⊢
        omega
      rw [none]
      rfl
    · rfl

/-- Taking at least as many timers as there are leaves none and gives them sorted. -/
theorem foldl_serve_takes {timers : Timers} {count : Nat} (enough : timers.length ≤ count)
    (taken : List PendingTimer) :
    ∃ sorted, (List.replicate count .take).foldl serve (taken, timers) = (taken ++ sorted, []) ∧
      StablySorts timers sorted := by
  induction count generalizing timers taken with
  | zero =>
    obtain rfl := List.length_eq_zero_iff.mp (Nat.le_zero.mp enough)
    exact ⟨[], by simp, .refl _, .nil, fun _ _ => rfl⟩
  | succ count ih =>
    rw [List.replicate_succ, List.foldl_cons, serve]
    by_cases nonempty : timers = []
    · subst nonempty
      have nothing : ([] : Timers).length ≤ count := Nat.zero_le count
      obtain ⟨sorted, run, sorts⟩ := ih nothing taken
      exact ⟨sorted, by simpa [take, next?] using run, sorts⟩
    · obtain ⟨best, others, before, after, took, selects⟩ := take_cons nonempty
      have fewer : others.length ≤ count := by
        rw [selects.timers, List.length_append, List.length_cons] at enough
        rw [selects.others, List.length_append]
        omega
      obtain ⟨sorted, run, sorts⟩ := ih fewer (taken ++ [best])
      refine ⟨best :: sorted, ?_, selects.stablySorts sorts⟩
      rw [List.append_cons, took]
      exact run

/-- Whatever operations come one after the other, they take the timers that they are to take and
leave the others in the order of their registration. Each timer that was registered is gone or
present, just once. When timers are taken until there are none, they come stably sorted. -/
theorem served_stable (operations : List Operation) :
    (∃ gone present, History operations gone present ∧
      served operations = (gone.map Registration.timer, present.map Registration.timer) ∧
      (gone ++ present).Perm (registrations operations) ∧
      present.Pairwise (·.number < ·.number)) ∧
    ∀ more, ∃ sorted,
      served (operations ++ List.replicate ((served operations).2.length + more) .take) =
        ((served operations).1 ++ sorted, []) ∧
      StablySorts (served operations).2 sorted := by
  refine ⟨?_, fun more => ?_⟩
  · obtain ⟨gone, present, history, same⟩ := exists_history operations
    exact ⟨gone, present, history, same, history.perm, history.ascending⟩
  · rw [served, List.foldl_append]
    exact foldl_serve_takes (Nat.le_add_right ..) _

end Timers

end EventLoop
