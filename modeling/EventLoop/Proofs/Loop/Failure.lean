import EventLoop.Proofs.Loop.Invariant
import EventLoop.Proofs.Loop.Recording

/-!
# Failures of a script

A failure ends the timeline and disturbs nothing else. When it is reported, the queues are what they
were when it happened, and the stack holds the frame in which the script or the callback ran that
failed; nothing runs after it.
-/

namespace EventLoop

/-- What the reports of failures are called. -/
def failureWords : List String :=
  ["Error parsing code", "Error executing code"]

theorem notMem_failureWords {word : String} (other : word ∉ loopWords) : word ∉ failureWords :=
  fun member => other ((by decide : ∀ word ∈ failureWords, word ∈ loopWords) word member)

/-- The second snapshot reports the failure: beside the stack only the output has changed, by a
line. -/
structure Snapshot.Reports (e : ScriptError) (last failed : Snapshot) : Prop where
  pendingTimers : failed.pendingTimers = last.pendingTimers
  deferredQueue : failed.deferredQueue = last.deferredQueue
  readyQueue : failed.readyQueue = last.readyQueue
  output : failed.output = last.output ++ ["Uncaught " ++ e.message]
  phase : failed.phase = .idle
  highlightLine : failed.highlightLine = e.line?

namespace Generation

/-- What is evaluated in a frame of its own: the script, or a callback. -/
def evaluation (settings : Settings) (script : Script) : Option Callback → Eval Session Unit
  | none => Eval.runScript settings.limits (Session.host settings.lineMode) script
  | some callback => Eval.runCallback settings.limits (Session.host settings.lineMode) callback

/-- What is recorded when its frame is on the stack and the evaluation is to begin. -/
def startWords : Option Callback → List String
  | none => ["Start script execution"]
  | some _ => runWords

/-- The evaluation is to begin: the last snapshot shows the stack with its frame. -/
def Started (callback : Option Callback) (m : Machine Session) : Prop :=
  ∃ earlier start, m.host.timeline.snapshots.toList = earlier ++ [start] ∧
    start.description ∈ startWords callback ∧ start.stack = m.host.collections.stack

/-- An evaluation that was begun has come to this machine with this result, in the frame that it was
begun in, and what was recorded since then was recorded by it. -/
structure Evaluated (settings : Settings) (script : Script) (callback : Option Callback)
    (result : Except ScriptError Unit) (begun m : Machine Session) : Prop where
  started : Started callback begun
  ran : (evaluation settings script callback).run begun = (result, m)
  stack : m.host.collections.stack = begun.host.collections.stack
  records : begun.host.Records (fun x => x.description ∉ loopWords) m.host

/-- The script, or a callback, has failed in this frame. The snapshots are those up to the failure;
one of them shows the frame alone on the stack, when the evaluation was begun that failed, and the
later ones were recorded by that. -/
def Raised (settings : Settings) (script : Script) (e : ScriptError) (frame : Frame)
    (snapshots : List Snapshot) : Prop :=
  ∃ callback begun m earlier start since,
    (evaluation settings script callback).run begun = (.error e, m) ∧
    begun.host.timeline.snapshots.toList = earlier ++ [start] ∧
    m.host.timeline.snapshots.toList = snapshots ∧ snapshots = earlier ++ start :: since ∧
    start.description ∈ startWords callback ∧ start.stack = [frame] ∧
    ∀ x ∈ since, x.description ∉ loopWords

variable {settings : Settings} {source : String} {script : Script} {m : Machine Session}

theorem Evaluated.raised {callback : Option Callback} {e : ScriptError} {frame : Frame}
    {begun : Machine Session} (evaluated : Evaluated settings script callback (.error e) begun m)
    (alone : m.host.collections.stack = [frame]) :
    Raised settings script e frame m.host.timeline.snapshots.toList := by
  obtain ⟨earlier, start, snapshots, word, stack⟩ := evaluated.started
  obtain ⟨since, longer, words⟩ := evaluated.records
  refine ⟨callback, begun, m, earlier, start, since, evaluated.ran, snapshots, rfl, ?_, word, ?_,
    words⟩
  · rw [longer, snapshots, List.append_assoc, List.singleton_append]
  · rw [stack, ← evaluated.stack, alone]

/-- No failure was reported so far. -/
def Quiet (s : Session) : Prop :=
  ∀ x ∈ s.timeline.snapshots.toList, x.description ∉ failureWords

theorem Quiet.snap {s t : Session} (quiet : Quiet s) (same : t.timeline = s.timeline)
    (line : Option Nat) {description : String} (phase : Phase)
    (word : description ∉ failureWords) : Quiet (t.snap line description phase) :=
  (Session.Records.snap same line description phase fun x _ named _ => by rwa [named]).all quiet

theorem Quiet.records {s t : Session} (quiet : Quiet s)
    (records : s.Records (fun x => x.description ∉ loopWords) t) : Quiet t :=
  (records.mono fun _ other => notMem_failureWords other).all quiet

/-- The snapshot of the frame of a task is the last one when its callback is about to run. -/
theorem called_started (words : TaskWords) (task : QueuedTask) (callback : Callback)
    (word : words.started ∈ runWords) (m : Machine Session) :
    Started (some callback) (called words task m) :=
  ⟨_, _, Timeline.toList_record .., word, rfl⟩

theorem called_quiet {words : TaskWords} {task : QueuedTask} (quiet : Quiet m.host)
    (word : words.started ∈ runWords) : Quiet (called words task m).host :=
  quiet.snap (t := m.host.pushFrame words.frame words.kind none) rfl none .idle
    ((by decide : ∀ word ∈ runWords, word ∉ failureWords) _ word)

theorem promoted_quiet {timer : PendingTimer} {others : Timers} (quiet : Quiet m.host)
    (taken : m.host.collections.pendingTimers.take = (some timer, others)) :
    Quiet (promoted m).host := by
  have promotes := Session.promoteTimer_eq (s := (onlyTimers m).host) taken
  have checked : Quiet (onlyTimers m).host := quiet.snap rfl none .checking (by decide)
  have moved : Quiet ((onlyTimers m).host.promoteTimer.snap none
      "Timer finished -> Macrotask Queue" .idle) :=
    checked.snap (by rw [promotes]) none .idle (by decide)
  exact moved.snap rfl none .promotingReady (by decide)

/-- As long as nothing fails no failure is reported, and what is evaluated was begun in its
frame. -/
theorem failure_invariant (parsed : parse settings.maxNesting source = .ok script) :
    Invariant settings source (fun _ m => Quiet m.host)
      (fun _ callback m => Quiet m.host ∧ Started callback m)
      (fun _ callback result m => Quiet m.host ∧
        ∃ begun, Evaluated settings script callback result begun m) where
  script m frame other parsed' reached _ := by
    rintro ⟨quiet, started⟩
    obtain rfl : script = other := by
      rw [parsed] at parsed'
      exact Except.ok.inj parsed'
    -- evaluation takes snapshots of its own, and none of them has the words of a report
    have records := (runScript_records settings script reached).mono fun _ inside => inside.word
    have serves := (runScript_reached settings script reached).2
    exact ⟨quiet.records records, m, started, rfl, serves.stack, records⟩
  callback passes callback m frame reached _ known := by
    rintro ⟨quiet, started⟩
    have records :=
      (runCallback_records settings callback reached known).mono fun _ inside => inside.word
    have serves := (runCallback_reached settings callback reached known).2
    exact ⟨quiet.records records, m, started, rfl, serves.stack, records⟩
  finish passes callback m frame word _ _ finishes ended := by
    refine ended.1.snap (t := m.host.popFrame) rfl none .idle ?_
    exact (by decide : ∀ word ∈ finishWords, word ∉ failureWords) word finishes
  check passes m _ _ quiet := quiet.snap rfl none .checking (by decide)
  note passes m word _ _ noted quiet :=
    quiet.snap rfl none .checking ((by decide : ∀ word ∈ noteWords, word ∉ failureWords) word noted)
  deferred passes k m task others callback _ _ _ _ quiet := by
    have fetches : Quiet (fetched m).host :=
      quiet.snap (t := m.host.popDeferred.2) rfl none .promotingDeferred (by decide)
    exact ⟨called_quiet fetches (by decide : "Run Microtask" ∈ runWords),
      called_started _ task callback (by decide : "Run Microtask" ∈ runWords) _⟩
  timer passes k m timer others callback _ _ _ taken _ quiet :=
    ⟨called_quiet (promoted_quiet quiet taken) (by decide : "Run Macrotask" ∈ runWords),
      called_started _ _ callback (by decide : "Run Macrotask" ∈ runWords) _⟩

/-- Before a script is run its frame is shown, and no failure was reported. -/
theorem start_started (source : String) :
    Quiet (start source) ∧ Started none (.initial (start source)) := by
  refine ⟨?_, _, _, Timeline.toList_record .., List.mem_singleton_self _, rfl⟩
  have fresh : Quiet (Session.ofSource source) := fun x member => by cases member
  exact (fresh.snap rfl none .idle (by decide)).snap
    (t := ((Session.ofSource source).snap none "Idle" .idle).pushFrame _ _ _) rfl _ .idle (by decide)

end Generation

open Generation

/-- A snapshot reports a failure if it shows what the session held that the last one shows, and the
line of output. -/
theorem Snapshot.Reports.of_shown {last failed : Snapshot} {c : Collections} {e : ScriptError}
    {stack : List Frame} (shown : last.toCollections = c)
    (same : failed.toCollections =
      { c with stack, output := c.output ++ ["Uncaught " ++ e.message] })
    (phase : failed.phase = .idle) (line : failed.highlightLine = e.line?) :
    last.Reports e failed := by
  obtain ⟨collections, id, highlighted, description, resting⟩ := failed
  cases shown
  cases same
  exact ⟨rfl, rfl, rfl, rfl, phase, line⟩

/-- The last snapshot of a session that shows what it holds. -/
theorem Session.Shown.append {s : Session} (shown : s.Shown) :
    ∃ earlier last, s.timeline.snapshots.toList = earlier ++ [last] ∧
      last.toCollections = s.collections := by
  obtain ⟨last, found, same⟩ := shown
  rw [Timeline.last?, ← Array.getLast?_toList] at found
  obtain ⟨earlier, snapshots⟩ := List.getLast?_eq_some_iff.mp found
  exact ⟨earlier, last, snapshots, same⟩

/-- A failure is recorded, and then that its frame is gone. -/
theorem Session.snapshots_endFailed (s : Session) {frame : Frame}
    (stack : s.collections.stack = [frame]) (e : ScriptError) :
    ∃ failed closed : Snapshot,
      (s.endFailed e).timeline.snapshots.toList = s.timeline.snapshots.toList ++ [failed, closed] ∧
      failed.description = "Error executing code" ∧
      failed.toCollections =
        { s.collections with output := s.collections.output ++ ["Uncaught " ++ e.message] } ∧
      failed.phase = .idle ∧ failed.highlightLine = e.line? ∧
      closed.description = "Execution finished" ∧
      closed.toCollections = { failed.toCollections with stack := [] } := by
  let t := s.failRunning e
  let failed : Snapshot := ⟨t.collections, s.timeline.size, e.line?, "Error executing code", .idle⟩
  let closed : Snapshot :=
    ⟨t.popFrame.collections, t.timeline.size, none, "Execution finished", .idle⟩
  have reported : t.timeline.snapshots.toList = s.timeline.snapshots.toList ++ [failed] :=
    Timeline.toList_record ..
  have left : (s.endFailed e).timeline.snapshots.toList = t.timeline.snapshots.toList ++ [closed] :=
    Timeline.toList_record ..
  refine ⟨failed, closed, ?_, rfl, rfl, rfl, rfl, rfl, ?_⟩
  · rw [left, reported, List.append_assoc, List.singleton_append]
  · show { t.collections with stack := s.collections.stack.dropLast } = _
    rw [stack]
    rfl

namespace Timeline

variable {settings : Settings} {source : String} {script : Script} {e : ScriptError}

/-- The timeline of a script that cannot be read. -/
theorem ofSource_unread (malformed : parse settings.maxNesting source = .error e) :
    ∃ idle started failed : Snapshot,
      (ofSource settings source).snapshots.toList = [idle, started, failed] ∧
      idle.description = "Idle" ∧ started.description = "Start script execution" ∧
      failed.description = "Error parsing code" ∧ started.Reports e failed ∧ failed.stack = [] := by
  rw [ofSource_eq_failReading malformed]
  exact ⟨_, _, _, rfl, rfl, rfl, rfl, .of_shown rfl rfl rfl rfl, rfl⟩

/-- The timeline of a script that fails while it runs. -/
theorem ofSource_failed (parsed : parse settings.maxNesting source = .ok script)
    (fails : ending settings source = .error e) :
    ∃ (earlier : List Snapshot) (last failed closed : Snapshot) (frame : Frame),
      (ofSource settings source).snapshots.toList = earlier ++ [last, failed, closed] ∧
      (∀ x ∈ earlier ++ [last], x.description ∉ failureWords) ∧
      failed.description = "Error executing code" ∧ last.Reports e failed ∧
      failed.stack = [frame] ∧ Raised settings script e frame (earlier ++ [last]) ∧
      closed.description = "Execution finished" ∧
      closed.toCollections = { failed.toCollections with stack := [] } := by
  rcases run : (untilEnding settings script).run (.initial (start source)) with ⟨result, m⟩
  obtain rfl : result = .error e := (ending_eq parsed run).symm.trans fails
  -- only an evaluation fails, so the run ends in the middle of one
  obtain ⟨reached, passes, -, ⟨frame, stack⟩, callback, quiet, begun, evaluated⟩ :=
    (failure_invariant parsed).outcome parsed (start_started source) run
  obtain ⟨earlier, last, snapshots, shown⟩ := reached.later.shown.append
  have raised := evaluated.raised stack
  rw [snapshots] at raised
  rw [Quiet, snapshots] at quiet
  obtain ⟨failed, closed, ended, word, collections, phase, line, closes⟩ :=
    m.host.snapshots_endFailed stack e
  rw [ofSource_eq_closing parsed run]
  refine ⟨earlier, last, failed, closed, frame, ?_, quiet, word,
    .of_shown shown collections phase line, ?_, raised, closes⟩
  · rw [closing, ended, snapshots, List.append_assoc, List.singleton_append]
  · rw [collections]
    exact stack

/-- If nothing fails no failure is reported. -/
theorem ofSource_quiet {how : Ending} (ends : ending settings source = .ok how) :
    ∀ x ∈ (ofSource settings source).snapshots.toList, x.description ∉ failureWords := by
  cases parsed : parse settings.maxNesting source with
  | error e =>
    rw [ending_of_malformed parsed] at ends
    cases ends
  | ok script =>
    rcases run : (untilEnding settings script).run (.initial (start source)) with ⟨result, m⟩
    obtain rfl : result = .ok how := (ending_eq parsed run).symm.trans ends
    obtain ⟨-, -, -, -, quiet, -⟩ :=
      (failure_invariant parsed).outcome parsed (start_started source) run
    rw [ofSource_eq_closing parsed run]
    cases how with
    | idle => exact quiet
    | cut =>
      rw [closing]
      split
      · exact quiet.snap rfl none .idle (by decide)
      · exact quiet

/-- A failure ends the timeline and disturbs nothing else. If the script cannot be read, the report is
the third and last snapshot, with an empty stack. If the script or a callback fails while it runs,
the report is the last snapshot but one; it shows the frame alone on the stack in which that ran,
and after it only the frame is gone. A report leaves the queues as they were, adds one line of
output and shows the line of the failure. There is one report then; if nothing fails there is
none. -/
theorem ofSource_fails (settings : Settings) (source : String) :
    (∀ e, parse settings.maxNesting source = .error e →
      ∃ idle started failed : Snapshot,
        (ofSource settings source).snapshots.toList = [idle, started, failed] ∧
        idle.description = "Idle" ∧ started.description = "Start script execution" ∧
        failed.description = "Error parsing code" ∧ started.Reports e failed ∧
        failed.stack = []) ∧
    (∀ script e, parse settings.maxNesting source = .ok script →
      ending settings source = .error e →
      ∃ (earlier : List Snapshot) (last failed closed : Snapshot) (frame : Frame),
        (ofSource settings source).snapshots.toList = earlier ++ [last, failed, closed] ∧
        (∀ x ∈ earlier ++ [last],
          x.description ≠ "Error parsing code" ∧ x.description ≠ "Error executing code") ∧
        failed.description = "Error executing code" ∧ last.Reports e failed ∧
        failed.stack = [frame] ∧ Raised settings script e frame (earlier ++ [last]) ∧
        closed.description = "Execution finished" ∧
        closed.toCollections = { failed.toCollections with stack := [] }) ∧
    (∀ how, ending settings source = .ok how → ∀ x ∈ (ofSource settings source).snapshots.toList,
      x.description ≠ "Error parsing code" ∧ x.description ≠ "Error executing code") := by
  have words {x : Snapshot} (other : x.description ∉ failureWords) :
      x.description ≠ "Error parsing code" ∧ x.description ≠ "Error executing code" := by
    simpa [failureWords] using other
  refine ⟨fun e malformed => ofSource_unread malformed, ?_,
    fun how ends x member => words (ofSource_quiet ends x member)⟩
  intro script e parsed fails
  obtain ⟨earlier, last, failed, closed, frame, snapshots, quiet, rest⟩ :=
    ofSource_failed parsed fails
  exact ⟨earlier, last, failed, closed, frame, snapshots,
    fun x member => words (quiet x member), rest⟩

/-- A name that is not defined is reported in the frame of the script. -/
theorem ofSource_fails_undefined :
    ending .usual "x" = .error (.undefinedName 1 "x") ∧
      ∃ (earlier : List Snapshot) (last failed closed : Snapshot),
        (ofSource .usual "x").snapshots.toList = earlier ++ [last, failed, closed] ∧
        failed.output = last.output ++ ["Uncaught ReferenceError: x is not defined (line 1)"] := by
  have readable : (parse Settings.usual.maxNesting "x").toOption.isSome = true := by decide +kernel
  have fails : ending .usual "x" = .error (.undefinedName 1 "x") := by decide +kernel
  cases parsed : parse Settings.usual.maxNesting "x" with
  | error e =>
    rw [parsed] at readable
    cases readable
  | ok script =>
    obtain ⟨earlier, last, failed, closed, frame, snapshots, -, -, reports, -⟩ :=
      (ofSource_fails .usual "x").2.1 script _ parsed fails
    exact ⟨fails, earlier, last, failed, closed, snapshots, reports.output⟩

end Timeline

end EventLoop
