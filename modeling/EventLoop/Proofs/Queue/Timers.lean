import EventLoop.Queue.Timers

/-!
# The timer that comes next

The next timer stands somewhere in the order of registration: it comes before each timer in front
of it and no timer behind it comes before it.
-/

namespace EventLoop

theorem PendingTimer.precedes_iff {a b : PendingTimer} :
    a.precedes b = true ↔ a.delay < b.delay ∨ a.delay = b.delay ∧ a.seq < b.seq := by
  simp [precedes]

namespace Timers

/-- Where the next timer was, and what is left without it. -/
structure Selects (timers : Timers) (best : PendingTimer) (others before after : Timers) :
    Prop where
  timers : timers = before ++ best :: after
  others : others = before ++ after
  before : ∀ timer ∈ before, best.precedes timer = true
  after : ∀ timer ∈ after, ¬ timer.precedes best = true

theorem next?_selects {timers others : Timers} {best : PendingTimer}
    (next : next? timers = some (best, others)) :
    ∃ before after, Selects timers best others before after := by
  induction timers generalizing best others with
  | nil => cases next
  | cons timer rest ih =>
    rw [next?] at next
    cases found : next? rest with
    | none =>
      rw [found] at next
      cases next
      cases rest with
      | nil => exact ⟨[], [], rfl, rfl, by simp, by simp⟩
      | cons other rest =>
        rw [next?] at found
        repeat' split at found
        all_goals cases found
    | some selected =>
      obtain ⟨least, left⟩ := selected
      obtain ⟨before, after, selects⟩ := ih found
      rw [found] at next
      dsimp only at next
      split at next
      · rename_i earlier
        cases next
        refine ⟨timer :: before, after, by rw [selects.timers]; rfl, by rw [selects.others]; rfl,
          ?_, selects.after⟩
        intro other member
        rcases List.mem_cons.mp member with rfl | member
        · exact earlier
        · exact selects.before other member
      · rename_i later
        cases next
        refine ⟨[], rest, rfl, rfl, by simp, ?_⟩
        intro other member
        rw [selects.timers] at member
        rw [PendingTimer.precedes_iff] at later ⊢
        rcases List.mem_append.mp member with front | back
        · have := PendingTimer.precedes_iff.mp (selects.before other front)
          omega
        · rcases List.mem_cons.mp back with rfl | back
          · exact later
          · have := selects.after other back
            rw [PendingTimer.precedes_iff] at this
            omega

theorem next?_eq_none {timers : Timers} : next? timers = none ↔ timers = [] := by
  cases timers with
  | nil => simp [next?]
  | cons timer rest =>
    rw [next?]
    repeat' split
    all_goals simp

/-- A timer is taken out of any timers there are. -/
theorem take_cons {timers : Timers} (nonempty : timers ≠ []) :
    ∃ best others before after, timers.take = (some best, others) ∧
      Selects timers best others before after := by
  unfold take
  cases next : next? timers with
  | none => exact absurd (next?_eq_none.mp next) nonempty
  | some selected =>
    obtain ⟨best, others⟩ := selected
    obtain ⟨before, after, selects⟩ := next?_selects next
    exact ⟨best, others, before, after, rfl, selects⟩

/-- Timers that were registered with growing numbers: the next one comes before all others. -/
theorem Selects.least {timers others before after : Timers} {best : PendingTimer}
    (selects : Selects timers best others before after)
    (growing : timers.Pairwise (·.seq < ·.seq)) {timer : PendingTimer} (member : timer ∈ others) :
    best.precedes timer = true := by
  rw [selects.timers] at growing
  rw [selects.others] at member
  rcases List.mem_append.mp member with front | back
  · exact selects.before timer front
  · have later : best.seq < timer.seq :=
      List.rel_of_pairwise_cons (List.pairwise_append.mp growing).2.1 back
    have := selects.after timer back
    rw [PendingTimer.precedes_iff] at this ⊢
    omega

end Timers

end EventLoop
