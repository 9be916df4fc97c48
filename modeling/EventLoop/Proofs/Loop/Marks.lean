import Mathlib.Data.List.Infix
import EventLoop.Proofs.Loop.Invariant
import EventLoop.Proofs.Loop.Recording

/-!
# The passes that a timeline shows

The snapshots that begin a pass and those that begin a task show which passes were made and how many
tasks each of them ran; a last one may show that the loop was cut. So the bounds of the loop can be
read off its timeline.
-/

namespace EventLoop

/-- What those of the snapshots are called that begin a pass or a task, or announce that the loop
was cut. -/
def marksIn (snapshots : List Snapshot) : List String :=
  (snapshots.map (·.description)).filter (· ∈ markWords)

theorem marksIn_append (before after : List Snapshot) :
    marksIn (before ++ after) = marksIn before ++ marksIn after := by
  unfold marksIn
  rw [List.map_append, List.filter_append]

/-- As many snapshots are called so as there are marks of that name. -/
theorem count_marksIn {word : String} (mark : word ∈ markWords) (snapshots : List Snapshot) :
    (marksIn snapshots).count word = snapshots.countP (·.description = word) := by
  unfold marksIn
  rw [List.count_filter (p := (· ∈ markWords)) (decide_eq_true mark), List.count_eq_countP,
    List.countP_map]
  exact List.countP_congr fun x _ => by simp

/-- The marks of a timeline, in order. -/
def Timeline.marks (timeline : Timeline) : List String :=
  marksIn timeline.snapshots.toList

/-- What the snapshots of a pass are called that begin it or its tasks. -/
def Pass.marks (pass : Pass) : List String :=
  checkWord ::
    (List.replicate pass.deferred "Run Microtask" ++
      List.replicate pass.timer.toNat "Run Macrotask")

/-- Each pass begins with a mark of its own. -/
theorem Pass.count_checkWord (passes : List Pass) :
    (passes.flatMap Pass.marks).count checkWord = passes.length := by
  induction passes with
  | nil => rfl
  | cons pass passes ih =>
    rw [List.flatMap_cons, List.count_append, ih, Pass.marks, List.count_cons_self,
      List.count_append, List.count_replicate, List.count_replicate, if_neg (by decide),
      if_neg (by decide), List.length_cons, Nat.add_comm]

namespace Session

variable {P : Snapshot → Prop} {s t : Session}

/-- Where no mark is recorded the marks stay what they are. -/
theorem Records.marks (records : Records (fun x => x.description ∉ markWords) s t) :
    t.timeline.marks = s.timeline.marks := by
  obtain ⟨more, same, none⟩ := records
  unfold Timeline.marks
  rw [same, marksIn_append]
  suffices marksIn more = [] by rw [this, List.append_nil]
  refine List.filter_eq_nil_iff.mpr fun word member => ?_
  obtain ⟨x, found, rfl⟩ := List.mem_map.mp member
  exact (decide_eq_true_iff.not).mpr (none x found)

/-- A snapshot, after changes that were not recorded, is a mark or not. -/
theorem marks_snap (same : t.timeline = s.timeline) (line : Option Nat) (description : String)
    (phase : Phase) :
    (t.snap line description phase).timeline.marks =
      s.timeline.marks ++ if description ∈ markWords then [description] else [] := by
  unfold Timeline.marks Session.snap
  rw [Timeline.toList_record, same, marksIn_append]
  simp only [marksIn, List.map_cons, List.map_nil, List.filter_cons, List.filter_nil,
    decide_eq_true_eq]

theorem marks_snap_of_notMem (same : t.timeline = s.timeline) (line : Option Nat)
    {description : String} (phase : Phase) (word : description ∉ markWords) :
    (t.snap line description phase).timeline.marks = s.timeline.marks := by
  rw [marks_snap same, if_neg word, List.append_nil]

end Session

namespace Generation

variable {source : String} {settings : Settings} {m : Machine Session}

theorem marks_called (words : TaskWords) (task : QueuedTask) (word : words.started ∈ markWords) :
    (called words task m).host.timeline.marks = m.host.timeline.marks ++ [words.started] := by
  have framed := Session.marks_snap (s := m.host)
    (t := m.host.pushFrame words.frame words.kind none) rfl none words.started .idle
  rw [if_pos word] at framed
  exact framed

theorem marks_promoted {timer : PendingTimer} {others : Timers}
    (taken : m.host.collections.pendingTimers.take = (some timer, others)) :
    (promoted m).host.timeline.marks = m.host.timeline.marks := by
  have promotes := Session.promoteTimer_eq (s := (onlyTimers m).host) taken
  have checked : (onlyTimers m).host.timeline.marks = m.host.timeline.marks :=
    Session.marks_snap_of_notMem rfl none .checking (by decide)
  have moved := Session.marks_snap_of_notMem (s := (onlyTimers m).host)
    (t := (onlyTimers m).host.promoteTimer) (by rw [promotes]) none .idle
    (show "Timer finished -> Macrotask Queue" ∉ markWords by decide)
  exact (Session.marks_snap_of_notMem rfl none .promotingReady (by decide)).trans
    (moved.trans checked)

/-- The marks of a generation are those of the passes it makes. -/
theorem marks_invariant (settings : Settings) (source : String) :
    Invariant settings source
      (fun passes m => m.host.timeline.marks = passes.flatMap Pass.marks)
      (fun passes _ m => m.host.timeline.marks = passes.flatMap Pass.marks)
      (fun passes _ _ m => m.host.timeline.marks = passes.flatMap Pass.marks) where
  script m frame script _ reached _ marks :=
    ((runScript_records settings script reached).mono fun _ inside => inside.unmarked).marks.trans marks
  callback passes callback m frame reached _ known marks :=
    ((runCallback_records settings callback reached known).mono
      fun _ inside => inside.unmarked).marks.trans marks
  finish passes callback m frame word _ _ finishes marks := by
    refine (Session.marks_snap_of_notMem (s := m.host) (t := m.host.popFrame) rfl none .idle
      ?_).trans marks
    revert word
    decide
  check passes m _ _ marks := by
    refine (Session.marks_snap (s := m.host) rfl none _ .checking).trans ?_
    rw [marks, List.flatMap_append]
    rfl
  note passes m word _ _ noted marks := by
    refine (Session.marks_snap_of_notMem (s := m.host) rfl none .checking ?_).trans marks
    revert word
    decide
  deferred passes k m task others callback _ _ _ _ marks := by
    have fetches : (fetched m).host.timeline.marks = m.host.timeline.marks :=
      Session.marks_snap_of_notMem (t := m.host.popDeferred.2) rfl none .promotingDeferred
        (by decide)
    rw [marks_called _ _ (by decide : "Run Microtask" ∈ markWords), fetches, marks,
      List.flatMap_append, List.flatMap_append, List.append_assoc]
    simp only [List.flatMap_singleton, Pass.marks, Bool.toNat_false, List.replicate_zero,
      List.append_nil, List.replicate_succ', List.cons_append]
    rfl
  timer passes k m timer others callback _ _ _ taken _ marks := by
    rw [marks_called _ _ (by decide : "Run Macrotask" ∈ markWords), marks_promoted taken, marks,
      List.flatMap_append, List.flatMap_append, List.append_assoc]
    simp only [List.flatMap_singleton, Pass.marks, Bool.toNat_false, Bool.toNat_true,
      List.replicate_zero, List.replicate_one, List.append_nil, List.cons_append]
    rfl

/-- Is it announced that the loop was cut? -/
def announced (settings : Settings) (source : String) : Bool :=
  ending settings source = .ok .cut && settings.announceIterationLimit

/-- The marks of a timeline show the passes that were made, and whether the loop was cut if that is
to be announced. -/
theorem ofSource_marks (settings : Settings) (source : String) :
    ∃ passes, PassesEnd settings.maxIterations settings.maxDeferredPerCheckpoint passes
        (ending settings source) ∧
      (Timeline.ofSource settings source).marks =
        passes.flatMap Pass.marks ++ if announced settings source then [limitWord] else [] := by
  cases parsed : parse settings.maxNesting source with
  | error e =>
    rw [ofSource_eq_failReading parsed, announced, ending_of_malformed parsed]
    refine ⟨[], .nil fun cut => (by cases cut), ?_⟩
    refine (Session.marks_snap_of_notMem (s := start source)
      (t := (start source).clearStack.printLine _) rfl _ _ (by decide)).trans ?_
    rfl
  | ok script =>
    rcases run : (untilEnding settings script).run (.initial (start source)) with ⟨result, m⟩
    rw [ofSource_eq_closing parsed run, announced, ending_eq parsed run]
    obtain ⟨-, passes, passesEnd, outcome⟩ :=
      (marks_invariant settings source).outcome parsed rfl run
    refine ⟨passes, passesEnd, ?_⟩
    cases result with
    | error e =>
      obtain ⟨-, -, marks⟩ := outcome
      have failed : (m.host.failRunning e).timeline.marks = m.host.timeline.marks :=
        Session.marks_snap_of_notMem (t := m.host.printLine _) rfl _ _ (by decide)
      refine (Session.marks_snap_of_notMem (s := m.host.failRunning e)
        (t := (m.host.failRunning e).popFrame) rfl _ _ (by decide)).trans (failed.trans ?_)
      simpa using marks
    | ok ending =>
      obtain ⟨-, marks, -⟩ := outcome
      cases ending with
      | idle => simpa [closing] using marks
      | cut =>
        cases announce : settings.announceIterationLimit with
        | true =>
          simp only [closing, announce, if_true]
          rw [Session.marks_snap (s := m.host) rfl, marks]
          rfl
        | false => simpa [closing, announce] using marks

/-- Beside the announcement of a cut the marks of a timeline are those of its passes. -/
theorem count_announced (settings : Settings) (source : String) {word : String}
    (other : word ≠ limitWord) :
    (if announced settings source then [limitWord] else []).count word = 0 := by
  refine List.count_eq_zero_of_not_mem fun member => other ?_
  split at member
  · exact List.mem_singleton.mp member
  · cases member

/-- The snapshots that begin a pass or a task are as many as the passes show. -/
theorem ofSource_counts (settings : Settings) (source : String) :
    ∃ passes, PassesEnd settings.maxIterations settings.maxDeferredPerCheckpoint passes
        (ending settings source) ∧
      (Timeline.ofSource settings source).snapshots.toList.countP (·.description = checkWord) =
        passes.length ∧
      ∀ word ∈ markWords, word ≠ limitWord →
        (Timeline.ofSource settings source).snapshots.toList.countP (·.description = word) =
          (passes.flatMap Pass.marks).count word := by
  obtain ⟨passes, passesEnd, marks⟩ := ofSource_marks settings source
  have counts (word : String) (mark : word ∈ markWords) (other : word ≠ limitWord) :
      (Timeline.ofSource settings source).snapshots.toList.countP (·.description = word) =
        (passes.flatMap Pass.marks).count word := by
    rw [← count_marksIn mark]
    show (Timeline.ofSource settings source).marks.count word = _
    rw [marks, List.count_append, count_announced settings source other, Nat.add_zero]
  refine ⟨passes, passesEnd, ?_, counts⟩
  rw [counts checkWord (by decide) (by decide), Pass.count_checkWord]

end Generation

/-- A part of a list that does not hold a separator lies on one side of it. -/
theorem infix_of_notMem {α : Type} {part before after : List α} {separator : α}
    (inside : part <:+: before ++ separator :: after) (none : separator ∉ part) :
    part <:+: before ∨ part <:+: after := by
  have nil_of_prefix {rest : List α} (starts : rest <+: separator :: after)
      (none : separator ∉ rest) : rest = [] := by
    rcases List.prefix_cons_iff.mp starts with nil | ⟨tail, rfl, -⟩
    · exact nil
    · exact absurd List.mem_cons_self none
  rcases List.infix_append_iff.mp inside with left | right | ⟨front, back, rfl, ends, starts⟩
  · exact .inl left
  · rcases List.infix_cons_iff.mp right with starts | within
    · obtain rfl := nil_of_prefix starts none
      exact .inl (List.nil_infix)
    · exact .inr within
  · obtain rfl := nil_of_prefix starts fun member => none (List.mem_append_right _ member)
    rw [List.append_nil]
    exact .inl ends.isInfix

/-- Within a pass no more tasks begin than it may run. The induction is on the passes; what comes
before them is the rest of a pass that began earlier. -/
theorem Pass.count_le {most : Nat} {passes : List Pass}
    (bounded : ∀ pass ∈ passes, pass.deferred ≤ most) {stretch before after : List String}
    (inside : stretch <:+: before ++ (passes.flatMap Pass.marks ++ after))
    (none : checkWord ∉ stretch)
    (deferred : before.count "Run Microtask" + after.count "Run Microtask" ≤ most)
    (timers : before.count "Run Macrotask" + after.count "Run Macrotask" ≤ 1)
    (rest : after.count "Run Microtask" = 0 ∧ after.count "Run Macrotask" = 0) :
    stretch.count "Run Microtask" ≤ most ∧ stretch.count "Run Macrotask" ≤ 1 := by
  induction passes generalizing before with
  | nil =>
    have le (word : String) : stretch.count word ≤ before.count word + after.count word := by
      rw [← List.count_append]
      exact inside.sublist.count_le word
    exact ⟨(le _).trans deferred, (le _).trans timers⟩
  | cons pass passes ih =>
    obtain ⟨least, others⟩ := List.forall_mem_cons.mp bounded
    rw [List.flatMap_cons, Pass.marks, List.cons_append, List.cons_append] at inside
    rcases infix_of_notMem inside none with left | right
    · have le (word : String) := left.sublist.count_le word
      exact ⟨(le _).trans (by omega), (le _).trans (by omega)⟩
    · rw [List.append_assoc] at right
      refine ih others right ?_ ?_
      · simp only [List.count_append, List.count_replicate, rest]
        simpa using least
      · simp only [List.count_append, List.count_replicate, rest]
        cases pass.timer <;> simp

/-- In a stretch of the timeline in which no pass begins, no more tasks begin than a pass may run;
and no more passes begin than may be made. -/
theorem Timeline.ofSource_bounded (settings : Settings) (source : String) :
    (∀ stretch, stretch <:+: (Timeline.ofSource settings source).snapshots.toList →
      (∀ s ∈ stretch, s.description ≠ checkWord) →
      stretch.countP (·.description = "Run Microtask") ≤ settings.maxDeferredPerCheckpoint ∧
      stretch.countP (·.description = "Run Macrotask") ≤ 1) ∧
    (Timeline.ofSource settings source).snapshots.toList.countP (·.description = checkWord) ≤
      settings.maxIterations := by
  constructor
  · obtain ⟨passes, passesEnd, marks⟩ := Generation.ofSource_marks settings source
    have none (word : String) (other : word ≠ limitWord) :
        (if Generation.announced settings source then [limitWord] else []).count word = 0 :=
      Generation.count_announced settings source other
    generalize (if Generation.announced settings source then [limitWord] else []) = after
      at marks none
    rintro stretch ⟨before, rest, same⟩ unchecked
    have inside : marksIn stretch <:+: [] ++ (passes.flatMap Pass.marks ++ after) := by
      rw [List.nil_append, ← marks]
      refine ⟨marksIn before, marksIn rest, ?_⟩
      rw [← marksIn_append, ← marksIn_append, same]
      rfl
    have unmarked : checkWord ∉ marksIn stretch := by
      intro member
      obtain ⟨s, found, word⟩ := List.mem_map.mp (List.mem_filter.mp member).1
      exact unchecked s found word
    rw [← count_marksIn (by decide), ← count_marksIn (by decide)]
    refine Pass.count_le passesEnd.deferred inside unmarked ?_ ?_
      ⟨none _ (by decide), none _ (by decide)⟩
    · rw [none _ (by decide)]
      exact Nat.zero_le _
    · rw [none _ (by decide)]
      exact Nat.zero_le _
  · obtain ⟨passes, passesEnd, checks, -⟩ := Generation.ofSource_counts settings source
    rw [checks]
    exact passesEnd.length

end EventLoop
