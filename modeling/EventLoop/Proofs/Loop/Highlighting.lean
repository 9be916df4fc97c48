import EventLoop.Proofs.Loop.Paired

/-!
# How lines are found makes no difference

A session with all of its lines left out goes through the same changes as the session: no primitive
and no part of the loop looks at a line or at the locator. So the timelines of the two ways to find
the line of a call differ in nothing but lines.
-/

namespace EventLoop

/-- The frame without its line. -/
def Frame.unlined (frame : Frame) : Frame :=
  { frame with line := none }

/-- The collections, with the lines of the frames left out. -/
def Collections.unlined (c : Collections) : Collections :=
  { c with stack := c.stack.map Frame.unlined }

/-- The snapshot without the highlighted line and the lines of the frames. -/
def Snapshot.unlined (snapshot : Snapshot) : Snapshot :=
  { snapshot with toCollections := snapshot.toCollections.unlined, highlightLine := none }

/-- The timeline with all lines left out. -/
def Timeline.unlined (timeline : Timeline) : Timeline :=
  ⟨timeline.snapshots.map Snapshot.unlined⟩

theorem Timeline.unlined_record (timeline : Timeline) (c : Collections) (line : Option Nat)
    (description : String) (phase : Phase) :
    (timeline.record c line description phase).unlined =
      timeline.unlined.record c.unlined none description phase := by
  simp [unlined, record, size, Snapshot.unlined]

namespace Session

/-- The session with all lines left out, and without what it uses to find them. -/
def unlined (s : Session) : Session :=
  { s with
    collections := s.collections.unlined
    timeline := s.timeline.unlined
    locator := ⟨[], []⟩ }

section

variable (s : Session)

@[simp] theorem unlined_snap (line : Option Nat) (description : String) (phase : Phase) :
    (s.snap line description phase).unlined = s.unlined.snap none description phase := by
  simp [unlined, snap, Timeline.unlined_record]

@[simp] theorem unlined_pushFrame (name : String) (kind : FrameKind) (line : Option Nat) :
    (s.pushFrame name kind line).unlined = s.unlined.pushFrame name kind none := by
  simp [unlined, pushFrame, Collections.unlined, Frame.unlined]

@[simp] theorem unlined_popFrame : s.popFrame.unlined = s.unlined.popFrame := by
  simp [unlined, popFrame, Collections.unlined, List.map_dropLast]

@[simp] theorem unlined_printLine (text : String) :
    (s.printLine text).unlined = s.unlined.printLine text := rfl

@[simp] theorem unlined_addDeferred (task : Nat → SlotKey → QueuedTask) (callback : Callback) :
    (s.addDeferred task callback).unlined = s.unlined.addDeferred task callback := rfl

@[simp] theorem unlined_addTimer (callback : Callback) (delay : Nat) :
    (s.addTimer callback delay).2.unlined = (s.unlined.addTimer callback delay).2 := rfl

@[simp] theorem unlined_promoteTimer : s.promoteTimer.unlined = s.unlined.promoteTimer := by
  have same : s.unlined.collections.pendingTimers = s.collections.pendingTimers := rfl
  unfold promoteTimer
  rw [same]
  rcases s.collections.pendingTimers.take with ⟨_ | timer, others⟩ <;> rfl

@[simp] theorem unlined_highlight (mode : LineMode) (key : String) (signatures : List String)
    (callSite : Nat) : (s.highlight mode key signatures callSite).2.unlined = s.unlined := by
  cases mode <;> rfl

@[simp] theorem unlined_openPrimitive (name : String) (kind : FrameKind) (line : Option Nat)
    (description : String) :
    (s.openPrimitive name kind line description).unlined =
      s.unlined.openPrimitive name kind none description := by
  simp [openPrimitive]

@[simp] theorem unlined_closePrimitive (name : String) (line : Option Nat) (description : String) :
    (s.closePrimitive name line description).unlined =
      s.unlined.closePrimitive name none description := by
  simp [closePrimitive]

/-! ## What a script tells the session -/

theorem unlined_print (mode : LineMode) (text : String) (line : Nat) :
    (s.print mode text line).unlined =
      ((s.unlined.openPrimitive "console.log" .print none ("console.log('" ++ text ++ "')")).printLine
        text).closePrimitive "console.log" none ("Output: " ++ text) := by
  simp [print]

theorem unlined_registerTimer (mode : LineMode) (callback : Callback) (delay line : Nat) :
    (s.registerTimer mode callback delay line).2.unlined =
      ((s.unlined.openPrimitive "setTimeout" .primitive none s!"setTimeout(..., {delay})").addTimer
        callback delay).2.closePrimitive "setTimeout" none "Add to Web APIs" := by
  simp [registerTimer]

theorem registerTimer_fst (mode : LineMode) (callback : Callback) (delay line : Nat) :
    (s.registerTimer mode callback delay line).1 = s.unlined.tasks + 1 := by
  cases mode <;> rfl

theorem unlined_defer (mode : LineMode) (callback : Callback) (line : Nat) :
    (s.defer mode callback line).unlined =
      ((s.unlined.openPrimitive "queueMicrotask" .primitive none "queueMicrotask(...)").addDeferred
        .microtask callback).closePrimitive "queueMicrotask" none "Add to Microtask Queue" := by
  simp [defer]

theorem unlined_chain_some (mode : LineMode) (callback : Callback) (line : Nat) :
    (s.chain mode (some callback) line).unlined =
      ((s.unlined.openPrimitive "Promise.then" .primitive none "Promise.then(...)").addDeferred
        .continuation callback).closePrimitive "Promise.then" none "Add to Microtask Queue" := by
  simp [chain]

theorem unlined_chain_none (mode : LineMode) (line : Nat) :
    (s.chain mode none line).unlined =
      (s.unlined.openPrimitive "Promise.then" .primitive none "Promise.then(...)").closePrimitive
        "Promise.then" none "Reaction stored on pending Promise" := by
  simp [chain]

theorem unlined_release (callbacks : List Callback) :
    (s.release callbacks).unlined = s.unlined.release callbacks := by
  induction callbacks generalizing s with
  | nil => rfl
  | cons callback rest ih =>
    refine (ih _).trans ?_
    rw [unlined_snap, unlined_addDeferred]
    rfl

theorem unlined_enter (name : String) (line : Nat) :
    (s.enter name line).unlined =
      (s.unlined.pushFrame name .function none).snap none s!"Call {name}()" .idle := by
  simp [enter]

theorem unlined_leave : s.leave.unlined = s.unlined.leave := by
  have top : s.unlined.collections.stack.getLast? =
      s.collections.stack.getLast?.map Frame.unlined := List.getLast?_map
  unfold leave
  rw [top]
  cases s.collections.stack.getLast? with
  | none => rfl
  | some frame => simp [Frame.unlined]

end

/-- The second session is the first but for lines. -/
abbrev SameButLines (s t : Session) : Prop :=
  t.unlined = s.unlined

/-- Both ways to find lines tell the script the same and keep sessions equal but for lines. -/
theorem host_agree_lines (mode₁ mode₂ : LineMode) :
    (host mode₁).Agree SameButLines (host mode₂) where
  print text line s t same := by
    show (t.print mode₂ text line).unlined = (s.print mode₁ text line).unlined
    rw [unlined_print, unlined_print, same]
  registerTimer callback delay line s t same := by
    refine ⟨?_, ?_⟩
    · show (t.registerTimer mode₂ callback delay line).1 =
        (s.registerTimer mode₁ callback delay line).1
      rw [registerTimer_fst, registerTimer_fst, same]
    · show (t.registerTimer mode₂ callback delay line).2.unlined =
        (s.registerTimer mode₁ callback delay line).2.unlined
      rw [unlined_registerTimer, unlined_registerTimer, same]
  defer callback line s t same := by
    show (t.defer mode₂ callback line).unlined = (s.defer mode₁ callback line).unlined
    rw [unlined_defer, unlined_defer, same]
  chain callback? line s t same := by
    show (t.chain mode₂ callback? line).unlined = (s.chain mode₁ callback? line).unlined
    cases callback? with
    | some callback => rw [unlined_chain_some, unlined_chain_some, same]
    | none => rw [unlined_chain_none, unlined_chain_none, same]
  release callbacks s t same := by
    show (t.release callbacks).unlined = (s.release callbacks).unlined
    rw [unlined_release, unlined_release, same]
  enter name line s t same := by
    show (t.enter name line).unlined = (s.enter name line).unlined
    rw [unlined_enter, unlined_enter, same]
  leave s t same := by
    show t.leave.unlined = s.leave.unlined
    rw [unlined_leave, unlined_leave, same]

theorem stackIsEmpty_unlined (s : Session) : s.unlined.stackIsEmpty = s.stackIsEmpty := by
  simp [stackIsEmpty, unlined, Collections.unlined]

/-- The loop keeps sessions equal but for lines. -/
theorem keeps_sameButLines : Keeps SameButLines where
  snap description phase s t same := by rw [SameButLines, unlined_snap, unlined_snap, same]
  pushFrame name kind s t same := by
    rw [SameButLines, unlined_pushFrame, unlined_pushFrame, same]
  popFrame s t same := by rw [SameButLines, unlined_popFrame, unlined_popFrame, same]
  promoteTimer s t same := by rw [SameButLines, unlined_promoteTimer, unlined_promoteTimer, same]
  popDeferred s t same := ⟨congrArg (·.popDeferred.1) same, congrArg (·.popDeferred.2) same⟩
  popReady s t same := ⟨congrArg (·.popReady.1) same, congrArg (·.popReady.2) same⟩
  takeCallback task s t same :=
    ⟨congrArg (·.takeCallback task |>.1) same, congrArg (·.takeCallback task |>.2) same⟩
  hasDeferred s t same := show t.unlined.hasDeferred = s.unlined.hasDeferred from same ▸ rfl
  hasTimers s t same := show t.unlined.hasTimers = s.unlined.hasTimers from same ▸ rfl
  hasWork s t same := show t.unlined.hasWork = s.unlined.hasWork from same ▸ rfl
  stackIsEmpty s t same := by rw [← stackIsEmpty_unlined, same, stackIsEmpty_unlined]

/-- What is recorded last keeps sessions equal but for lines. -/
theorem SameButLines.closing {s t : Session} (same : s.SameButLines t)
    {settings₁ settings₂ : Settings}
    (announce : settings₂.announceIterationLimit = settings₁.announceIterationLimit)
    (result : Except ScriptError Ending) :
    (Generation.closing settings₁ result s).SameButLines
      (Generation.closing settings₂ result t) := by
  cases result with
  | error e =>
    show (t.endFailed e).unlined = (s.endFailed e).unlined
    simp only [endFailed, failRunning, fail, unlined_snap, unlined_popFrame, unlined_printLine]
    rw [same]
  | ok ending =>
    cases ending with
    | idle => exact same
    | cut =>
      rw [Generation.closing, Generation.closing, announce]
      split
      · rw [SameButLines, unlined_snap, unlined_snap, same]
      · exact same

end Session

namespace Timeline

open Generation

/-- Whether lines are searched for in the source or are those of the calls makes a difference in
lines only: without the highlighted lines and the lines of frames the timelines are equal. -/
theorem ofSource_unlined (settings : Settings) (source : String) :
    (ofSource { settings with lineMode := .heuristic } source).unlined =
      (ofSource { settings with lineMode := .callSite } source).unlined := by
  let searched : Settings := { settings with lineMode := .heuristic }
  let called : Settings := { settings with lineMode := .callSite }
  show (ofSource searched source).unlined = (ofSource called source).unlined
  cases parsed : parse settings.maxNesting source with
  | error e =>
    have parsed₁ : parse searched.maxNesting source = .error e := parsed
    have parsed₂ : parse called.maxNesting source = .error e := parsed
    rw [ofSource_eq_failReading parsed₁, ofSource_eq_failReading parsed₂]
  | ok script =>
    have parsed₁ : parse searched.maxNesting source = .ok script := parsed
    have parsed₂ : parse called.maxNesting source = .ok script := parsed
    have limits : called.limits.Looser (fun _ => False) searched.limits := .refl settings.limits
    have agree : (Session.host called.lineMode).Agree Session.SameButLines
        (Session.host searched.lineMode) := Session.host_agree_lines ..
    have same : (start source).SameButLines (start source) := rfl
    have matched := untilEnding_match Session.keeps_sameButLines limits agree rfl rfl script _ _
      (.initial same)
    obtain ⟨result, m, n, run, run', alike⟩ := matched.same
    rw [ofSource_eq_closing parsed₂ run, ofSource_eq_closing parsed₁ run']
    exact congrArg Session.timeline (alike.host.closing rfl result)

end Timeline

end EventLoop
