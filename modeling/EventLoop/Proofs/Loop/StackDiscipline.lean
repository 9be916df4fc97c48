import EventLoop.Proofs.Loop.Balance
import EventLoop.Proofs.Loop.Invariant
import EventLoop.Proofs.Loop.Recorded
import EventLoop.Proofs.Loop.Recording

/-!
# The discipline of the stack

Every evaluation gives the stack back as it found it; so between two tasks the stack is empty, and
in every snapshot it is that of one task: its own frame, a frame for each call that has not ended,
and at most one more.
-/

namespace EventLoop

/-- The kinds of frames that tasks and the script's outermost statements run in. -/
def FrameKind.bases : List FrameKind :=
  [.main, .deferredCallback, .timerCallback]

/-- Frames are numbered from the bottom of the stack to its top. -/
def Collections.Ascending (c : Collections) : Prop :=
  c.stack.Pairwise (·.id < ·.id)

namespace Move

variable {seen : List Snapshot} {a b : Collections}

/-- A frame with a number that was not seen goes on top. -/
theorem NewFrame.ascending {id : Nat} (new : NewFrame seen id)
    (shown : ∃ s ∈ seen, s.toCollections = a) (ascending : a.Ascending) {frame : Frame}
    (same : frame.id = id) : (a.stack ++ [frame]).Pairwise (·.id < ·.id) := by
  obtain ⟨s, member, rfl⟩ := shown
  refine List.pairwise_append.mpr ⟨ascending, List.pairwise_singleton _ _, ?_⟩
  intro old held other member'
  rw [List.mem_singleton.mp member', same]
  exact new s member old held

/-- A move keeps frames numbered in order. -/
theorem Holds.ascending {move : Move} (holds : move.Holds seen a b)
    (shown : ∃ s ∈ seen, s.toCollections = a) (ascending : a.Ascending) : b.Ascending := by
  cases move with
  | rest =>
    cases holds
    exact ascending
  | frame =>
    rcases holds with ⟨frame, new, rfl⟩ | ⟨frame, stack, -⟩
    · exact new.ascending shown ascending rfl
    · unfold Collections.Ascending at ascending
      rw [stack] at ascending
      exact (List.pairwise_append.mp ascending).1
  | print =>
    obtain ⟨line, rfl⟩ := holds
    exact ascending
  | timer =>
    obtain ⟨timer, -, -, -, rfl⟩ := holds
    exact ascending
  | defer =>
    obtain ⟨task, -, rfl⟩ := holds
    exact ascending
  | dequeue =>
    obtain ⟨-, task, -, same⟩ := holds
    rw [same]
    exact ascending
  | promote =>
    obtain ⟨timer, task, before, after, -, -, -, -, -, rfl⟩ := holds
    exact ascending
  | start =>
    obtain ⟨-, task, frame, -, -, rfl⟩ := holds
    exact List.pairwise_singleton _ _
  | reject =>
    obtain ⟨frame, line, -, rfl⟩ := holds
    exact List.Pairwise.nil

end Move

/-- In every snapshot of a run frames are numbered in order. The induction is on the place. -/
theorem Timeline.IsRun.ascending {moves : List Move} {timeline : Timeline}
    (run : timeline.IsRun moves) {i : Nat} {s : Snapshot} (found : timeline.get? i = some s) :
    s.Ascending := by
  induction i generalizing s with
  | zero =>
    obtain ⟨first, there, empty⟩ := run.starts
    obtain rfl : first = s := Option.some.inj (there.symm.trans found)
    show first.toCollections.Ascending
    rw [empty]
    exact List.Pairwise.nil
  | succ i ih =>
    have bound : i < timeline.snapshots.size :=
      Nat.lt_of_succ_lt (Array.getElem?_eq_some_iff.mp found).1
    have before : timeline.get? i = some timeline.snapshots[i] := Array.getElem?_eq_getElem bound
    obtain ⟨move, ⟨-, holds⟩, -⟩ := run.moves i _ s before found
    refine holds.ascending ⟨timeline.snapshots[i], ?_, rfl⟩ (ih before)
    refine List.mem_iff_getElem?.mpr ⟨i, ?_⟩
    rw [upTo, List.getElem?_take_of_lt (Nat.lt_succ_self i), Array.getElem?_toList]
    exact before

/-- The stack of a snapshot is that of one task. -/
structure Snapshot.OfTask (maxCallDepth : Nat) (x : Snapshot) : Prop where
  height : x.stack.length ≤ maxCallDepth + 2
  bottom : ∀ frame, x.stack.head? = some frame → frame.kind ∈ FrameKind.bases
  calls : ∀ frame ∈ x.stack.tail.dropLast, frame.kind = .function
  resting : x.phase ≠ .idle → x.stack = []

namespace Snapshot.OfTask

variable {maxCallDepth : Nat} {x : Snapshot}

theorem of_nil (stack : x.stack = []) : x.OfTask maxCallDepth where
  height := by simp [stack]
  bottom frame head := by simp [stack] at head
  calls frame member := by simp [stack] at member
  resting _ := stack

/-- Above the frame of the task there are frames of calls, and at most one more. -/
theorem of_inside {base : Frame} {room : Nat} (kind : base.kind ∈ FrameKind.bases)
    (inside : Inside [base] room x) (le : room ≤ maxCallDepth) : x.OfTask maxCallDepth := by
  obtain ⟨calls, top, stack, kinds, length, one⟩ := inside.stack
  rw [List.singleton_append] at stack
  refine ⟨?_, ?_, ?_, fun phase => absurd inside.phase phase⟩
  · rw [stack, List.length_cons, List.length_append]
    omega
  · intro frame head
    rw [stack] at head
    cases head
    exact kind
  · intro frame member
    rw [stack, List.tail_cons] at member
    cases top with
    | nil =>
      rw [List.append_nil] at member
      exact kinds frame (List.dropLast_subset _ member)
    | cons last others =>
      obtain rfl : others = [] :=
        List.eq_nil_of_length_eq_zero (Nat.le_zero.mp (Nat.le_of_succ_le_succ one))
      rw [List.dropLast_concat] at member
      exact kinds frame member

/-- Only the frame of the task is on the stack. -/
theorem of_singleton (base : Frame) (stack : x.stack = [base])
    (kind : base.kind ∈ FrameKind.bases) (phase : x.phase = .idle) : x.OfTask maxCallDepth where
  height := by simp [stack]
  bottom frame head := by
    rw [stack] at head
    cases head
    exact kind
  calls frame member := by simp [stack] at member
  resting other := absurd phase other

end Snapshot.OfTask

namespace Generation

variable {source : String} {settings : Settings} {m : Machine Session}

/-- No call is open, and all snapshots so far show the stack of one task. -/
structure Disciplined (settings : Settings) (m : Machine Session) : Prop where
  depth : m.depth = 0
  seen : ∀ x ∈ m.host.timeline.snapshots.toList, x.OfTask settings.maxCallDepth

/-- More is recorded. -/
theorem Disciplined.records {m' : Machine Session} (disciplined : Disciplined settings m)
    (depth : m'.depth = m.depth)
    (records : m.host.Records (Snapshot.OfTask settings.maxCallDepth) m'.host) :
    Disciplined settings m' :=
  ⟨depth.trans disciplined.depth, records.all disciplined.seen⟩

/-- A snapshot of an empty stack, after changes that were not recorded. -/
theorem snap_resting {s t : Session} (timeline : t.timeline = s.timeline)
    (stack : t.collections.stack = []) (description : String) (phase : Phase) :
    s.Records (Snapshot.OfTask settings.maxCallDepth) (t.snap none description phase) :=
  .snap timeline _ _ _ fun _ collections _ _ => .of_nil (by rw [collections]; exact stack)

/-- The frame of a task is put on the empty stack, and its callback is taken. -/
theorem called_records (words : TaskWords) (task : QueuedTask)
    (kind : words.kind ∈ FrameKind.bases) (stack : m.host.collections.stack = []) :
    m.host.Records (Snapshot.OfTask settings.maxCallDepth) (called words task m).host := by
  refine .trans (t := (opened words m).host) ?_ (.of_timeline rfl)
  refine .snap (t := m.host.pushFrame words.frame words.kind none) rfl _ _ _ ?_
  intro x collections _ phase
  refine .of_singleton ⟨m.host.frames, words.frame, words.kind, none⟩ ?_ kind phase
  rw [collections]
  show m.host.collections.stack ++ _ = _
  rw [stack]
  rfl

/-- What is recorded while a timer becomes ready and its task leaves the queue. -/
theorem promoted_records {timer : PendingTimer} {others : Timers}
    (taken : m.host.collections.pendingTimers.take = (some timer, others)) (rest : m.host.AtRest) :
    m.host.Records (Snapshot.OfTask settings.maxCallDepth) (promoted m).host := by
  have promotes := Session.promoteTimer_eq (s := (onlyTimers m).host) taken
  have checked : m.host.Records (Snapshot.OfTask settings.maxCallDepth) (onlyTimers m).host :=
    snap_resting rfl rest.stack _ _
  have moved : (onlyTimers m).host.Records (Snapshot.OfTask settings.maxCallDepth)
      ((onlyTimers m).host.promoteTimer.snap none "Timer finished -> Macrotask Queue" .idle) :=
    snap_resting (by rw [promotes]) (by rw [promotes]; exact rest.stack) _ _
  refine checked.trans (moved.trans (snap_resting rfl ?_ _ _))
  show (onlyTimers m).host.promoteTimer.collections.stack = []
  rw [promotes]
  exact rest.stack

/-- A generation keeps the discipline of the stack. A task runs in a frame of its own; that frame is
left if the task fails. -/
theorem disciplined_invariant (settings : Settings) (source : String) :
    Invariant settings source (fun _ m => Disciplined settings m)
      (fun _ _ m => Disciplined settings m ∧
        ∀ frame ∈ m.host.collections.stack, frame.kind ∈ FrameKind.bases)
      (fun _ _ _ m => Disciplined settings m ∧
        ∀ frame ∈ m.host.collections.stack, frame.kind ∈ FrameKind.bases) where
  script m frame script _ reached stack := by
    rintro ⟨disciplined, kinds⟩
    have balanced := Eval.runScript_balances settings.limits settings.lineMode script m
    have records := runScript_records settings script reached
    rw [stack] at kinds records
    refine ⟨disciplined.records balanced.depth (records.mono fun x inside => ?_), ?_⟩
    · exact .of_inside (kinds frame List.mem_cons_self) inside (Nat.sub_le ..)
    · rw [balanced.serves.stack, stack]
      exact kinds
  callback passes callback m frame reached stack known := by
    rintro ⟨disciplined, kinds⟩
    have balanced := Eval.runCallback_balances settings.limits settings.lineMode callback m
    have records := runCallback_records settings callback reached known
    rw [stack] at kinds records
    refine ⟨disciplined.records balanced.depth (records.mono fun x inside => ?_), ?_⟩
    · exact .of_inside (kinds frame List.mem_cons_self) inside (Nat.sub_le ..)
    · rw [balanced.serves.stack, stack]
      exact kinds
  finish passes callback m frame word reached stack _ ended := by
    refine ended.1.records rfl (snap_resting (t := m.host.popFrame) rfl ?_ _ _)
    show m.host.collections.stack.dropLast = []
    rw [stack]
    rfl
  check passes m reached rest disciplined :=
    disciplined.records rfl (snap_resting rfl rest.stack _ _)
  note passes m word reached rest _ disciplined :=
    disciplined.records rfl (snap_resting rfl rest.stack _ _)
  deferred passes k m task others callback reached rest queue _ disciplined := by
    have fetches : m.host.Records (Snapshot.OfTask settings.maxCallDepth) (fetched m).host :=
      snap_resting (t := m.host.popDeferred.2) rfl rest.stack _ _
    refine ⟨disciplined.records rfl (fetches.trans
      (called_records (deferredWords task) task (by decide : FrameKind.deferredCallback ∈ _)
        rest.stack)), ?_⟩
    show ∀ frame ∈ m.host.collections.stack ++ _, frame.kind ∈ FrameKind.bases
    rw [rest.stack]
    exact List.forall_mem_singleton.mpr (by decide : FrameKind.deferredCallback ∈ _)
  timer passes k m timer others callback reached rest _ taken _ disciplined := by
    have stack : (promoted m).host.collections.stack = [] := by
      rw [collections_promoted taken rest]
      exact rest.stack
    refine ⟨disciplined.records (depth_called ..) ((promoted_records taken rest).trans
      (called_records timerWords (.ready timer) (by decide) stack)), ?_⟩
    show ∀ frame ∈ (promoted m).host.collections.stack ++ _, frame.kind ∈ FrameKind.bases
    rw [stack]
    exact List.forall_mem_singleton.mpr (by decide : FrameKind.timerCallback ∈ _)

/-- The snapshots that show a session before its script runs. -/
theorem start_disciplined (settings : Settings) (source : String) :
    Disciplined settings (.initial (start source)) := by
  refine ⟨rfl, List.forall_mem_cons.mpr ⟨.of_nil rfl, List.forall_mem_singleton.mpr ?_⟩⟩
  exact .of_singleton ⟨0, "main()", .main, some 1⟩ rfl (by decide) rfl

/-- Every snapshot of a generation shows the stack of one task. -/
theorem ofSource_ofTask (settings : Settings) (source : String) :
    ∀ x ∈ (Timeline.ofSource settings source).snapshots.toList, x.OfTask settings.maxCallDepth := by
  have start := start_disciplined settings source
  cases parsed : parse settings.maxNesting source with
  | error e =>
    rw [ofSource_eq_failReading parsed]
    exact (Session.Records.snap (s := Generation.start source)
      (t := (Generation.start source).clearStack.printLine _) rfl _ _ _
      fun x collections _ _ => .of_nil (by rw [collections]; rfl)).all start.seen
  | ok script =>
    rcases run : (untilEnding settings script).run (.initial (Generation.start source)) with
      ⟨result, m⟩
    rw [ofSource_eq_closing parsed run]
    obtain ⟨-, passes, -, outcome⟩ := (disciplined_invariant settings source).outcome parsed
      ⟨start, List.forall_mem_singleton.mpr (by decide : FrameKind.main ∈ _)⟩ run
    cases result with
    | error e =>
      obtain ⟨⟨frame, stack⟩, -, disciplined, kinds⟩ := outcome
      rw [stack] at kinds
      have failed :
          m.host.Records (Snapshot.OfTask settings.maxCallDepth) (m.host.failRunning e) := by
        refine .snap (t := m.host.printLine _) rfl _ _ _ ?_
        intro x collections _ phase
        exact .of_singleton frame (by rw [collections]; exact stack)
          (kinds frame List.mem_cons_self) phase
      refine (failed.trans (snap_resting (t := (m.host.failRunning e).popFrame) rfl ?_ _ _)).all
        disciplined.seen
      show m.host.collections.stack.dropLast = []
      rw [stack]
      rfl
    | ok ending =>
      obtain ⟨rest, disciplined, -⟩ := outcome
      cases ending with
      | idle => exact disciplined.seen
      | cut =>
        rw [closing]
        split
        · exact (snap_resting rfl rest.stack _ _ : m.host.Records _ _).all disciplined.seen
        · exact disciplined.seen

end Generation

/-- A script and a callback leave the stack, frame for frame, and the depth of calls as they found
them, on every machine and whether they succeed or fail; and a snapshot of a generation never shows
more frames than calls may be nested and two more. Its bottom frame is that of a task or of the
outermost statements, every other frame but the top one is that of a call of the script's own
functions, and their numbers ascend. While the loop looks for work the stack is empty, and so it is
at the end. -/
theorem Timeline.ofSource_disciplined (settings : Settings) (source : String) :
    (∀ (m : Machine Session) (script : Script),
      let ran := (Eval.runScript settings.limits (Session.host settings.lineMode) script).run m
      ran.2.host.collections.stack = m.host.collections.stack ∧ ran.2.depth = m.depth) ∧
    (∀ (m : Machine Session) (callback : Callback),
      let ran := (Eval.runCallback settings.limits (Session.host settings.lineMode) callback).run m
      ran.2.host.collections.stack = m.host.collections.stack ∧ ran.2.depth = m.depth) ∧
    (∀ i s, (Timeline.ofSource settings source).get? i = some s →
      s.stack.length ≤ settings.maxCallDepth + 2 ∧
      (∀ frame, s.stack.head? = some frame →
        frame.kind = .main ∨ frame.kind = .deferredCallback ∨ frame.kind = .timerCallback) ∧
      (∀ frame ∈ s.stack.tail.dropLast, frame.kind = .function) ∧
      s.stack.Pairwise (·.id < ·.id) ∧
      (s.phase = .checking ∨ s.phase = .promotingDeferred ∨ s.phase = .promotingReady →
        s.stack = [])) ∧
    ∃ last, (Timeline.ofSource settings source).last? = some last ∧ last.stack = [] := by
  obtain ⟨t, later, same, stack, -⟩ := Timeline.ofSource_later settings source
  refine ⟨?_, ?_, ?_, ?_⟩
  · intro m script
    have balanced := Eval.runScript_balances settings.limits settings.lineMode script m
    exact ⟨balanced.serves.stack, balanced.depth⟩
  · intro m callback
    have balanced := Eval.runCallback_balances settings.limits settings.lineMode callback m
    exact ⟨balanced.serves.stack, balanced.depth⟩
  · intro i s found
    have member : s ∈ (Timeline.ofSource settings source).snapshots.toList :=
      List.mem_iff_getElem?.mpr ⟨i, by rw [Array.getElem?_toList]; exact found⟩
    have ofTask := Generation.ofSource_ofTask settings source s member
    rw [same] at found
    refine ⟨ofTask.height, ?_, ofTask.calls, later.recorded.run.ascending found, ?_⟩
    · intro frame head
      have kind := ofTask.bottom frame head
      simpa only [FrameKind.bases, List.mem_cons, List.not_mem_nil, or_false] using kind
    · intro phase
      refine ofTask.resting fun idle => ?_
      rw [idle] at phase
      simp at phase
  · obtain ⟨last, found, showing⟩ := later.shown
    rw [same]
    exact ⟨last, found, by rw [showing]; exact stack⟩

end EventLoop
