import EventLoop.Proofs.Loop.Invariant

/-!
# The lines of calls to built-ins

A timeline shows each call of a built-in by three snapshots: when its frame is new, when its work is
done, and when its frame is gone. So the calls of a run can be read off its timeline, in order, and
with them what was counted when the line of each was searched.
-/

namespace EventLoop

/-! ## What a search finds -/

theorem trimBlanks_between {before after : String} (text : String)
    (first : before.toList.head?.map isBlank = some false)
    (last : after.toList.getLast?.map isBlank = some false) :
    trimBlanks (before ++ text ++ after).toList = (before ++ text ++ after).toList := by
  refine trimBlanks_eq_self ?_ ?_
  · obtain ⟨c, starts, -⟩ := Option.map_eq_some_iff.mp first
    simpa [String.toList_append, List.head?_append, starts] using first
  · obtain ⟨c, ends, -⟩ := Option.map_eq_some_iff.mp last
    simpa [String.toList_append, List.getLast?_append, ends] using last

/-- A line of the source with this number, counted from one, contains the text. -/
def LineHas (source : String) (part : List Char) (n : Nat) : Prop :=
  0 < n ∧ ∃ line, (linesOf source.toList)[n - 1]? = some line ∧ part <:+: line

namespace Locator

/-- What is found depends on the lines, and not on what was counted. -/
theorem locate_eq_ofSource {locator : Locator} {source : String}
    (lines : locator.lines = linesOf source.toList) :
    locator.locate = (ofSource source).locate := by
  funext signature occurrence
  unfold locate linesWith
  rw [lines]
  rfl

theorem linesWith_pairwise (locator : Locator) (part : List Char) :
    (locator.linesWith part).Pairwise (· < ·) := by
  have numbered : (locator.lines.zipIdx 1).Pairwise fun a b => a.2 < b.2 := by
    refine List.pairwise_map.mp ?_
    rw [List.zipIdx_map_snd]
    exact List.pairwise_lt_range'
  refine List.pairwise_filterMap.mpr (numbered.imp ?_)
  rintro ⟨line, number⟩ ⟨line', number'⟩ less n found n' found'
  dsimp only at found found'
  split at found <;> cases found
  split at found' <;> cases found'
  exact less

theorem mem_linesWith_ofSource {source : String} {part : List Char} {n : Nat} :
    n ∈ (ofSource source).linesWith part ↔ LineHas source part n := by
  unfold linesWith LineHas
  rw [List.mem_filterMap]
  constructor
  · rintro ⟨⟨line, number⟩, member, found⟩
    obtain ⟨positive, there⟩ := List.mk_mem_zipIdx_iff_le_and_getElem?_sub.mp member
    dsimp only at found
    split at found
    · cases found
      exact ⟨positive, line, there, (hasPart_iff _ _).mp ‹_›⟩
    · cases found
  · rintro ⟨positive, line, there, inside⟩
    refine ⟨(line, n), List.mk_mem_zipIdx_iff_le_and_getElem?_sub.mpr ⟨positive, there⟩, ?_⟩
    exact if_pos ((hasPart_iff _ _).mpr inside)

end Locator

/-! ## Calls and where they are shown -/

/-- A built-in that is shown while it works. -/
inductive Builtin where
  | print (text : String)
  | registerTimer
  | defer
  | chain
deriving DecidableEq, Repr

namespace Builtin

/-- What calls are counted by. -/
def key : Builtin → String
  | print text => "log-" ++ text
  | registerTimer => "setTimeout"
  | defer => "queueMicrotask"
  | chain => "then"

/-- How a call may be written. -/
def signatures : Builtin → List String
  | print text => Session.printSignatures text
  | registerTimer => ["setTimeout"]
  | defer => ["queueMicrotask"]
  | chain => [".then"]

/-- The name of the frame. -/
def name : Builtin → String
  | print _ => "console.log"
  | registerTimer => "setTimeout"
  | defer => "queueMicrotask"
  | chain => "Promise.then"

def kind : Builtin → FrameKind
  | print _ => .print
  | registerTimer | defer | chain => .primitive

/-- May the first snapshot of a call be called so? -/
def Describes (builtin : Builtin) (description : String) : Prop :=
  match builtin with
  | print text => description = "console.log('" ++ text ++ "')"
  | registerTimer => ∃ delay : Nat, description = s!"setTimeout(..., {delay})"
  | defer => description = "queueMicrotask(...)"
  | chain => description = "Promise.then(...)"

/-- No signature has blanks at its ends. -/
theorem trimBlanks_signature {builtin : Builtin} {signature : String}
    (member : signature ∈ builtin.signatures) :
    trimBlanks signature.toList = signature.toList := by
  cases builtin with
  | print text =>
    rcases member with _ | ⟨_, _ | ⟨_, _ | ⟨_, ⟨⟩⟩⟩⟩
    all_goals exact trimBlanks_between text (by decide) (by decide)
  | registerTimer | defer | chain =>
    obtain rfl := List.mem_singleton.mp member
    decide

/-- A frame and its first snapshot tell which built-in was called. -/
theorem eq_of_describes {b b' : Builtin} {description : String} (name : b.name = b'.name)
    (first : b.Describes description) (second : b'.Describes description) : b = b' := by
  cases b with
  | print text =>
    cases b' with
    | print text' =>
      have same : "console.log('" ++ text ++ "')" = "console.log('" ++ text' ++ "')" :=
        first.symm.trans second
      have chars := congrArg String.toList same
      simp only [String.toList_append, List.append_assoc, List.append_cancel_left_eq,
        List.append_cancel_right_eq] at chars
      rw [String.toList_inj.mp chars]
    | _ => simp [Builtin.name] at name
  | _ => cases b' <;> first | rfl | simp [Builtin.name] at name

end Builtin

/-- Is it the kind of the frame of a built-in? -/
def FrameKind.ofBuiltin : FrameKind → Bool
  | primitive | print => true
  | _ => false

/-- No frame of a built-in is among these. -/
def Outside (stack : List Frame) : Prop :=
  ∀ frame ∈ stack, frame.kind.ofBuiltin = false

/-- A call of a built-in, its frame, and the snapshots that were taken when the frame was new, when
its work was done and when the frame was gone. -/
structure BuiltinCall where
  builtin : Builtin
  frame : Frame
  opened : Snapshot
  changed : Snapshot
  closed : Snapshot

namespace BuiltinCall

/-- The snapshots show the frame of the call, and the line of the frame. -/
structure Sound (call : BuiltinCall) : Prop where
  name : call.frame.name = call.builtin.name
  kind : call.frame.kind = call.builtin.kind
  description : call.builtin.Describes call.opened.description
  outside : Outside call.closed.stack
  opened : call.opened.stack = call.closed.stack ++ [call.frame]
  changed : call.changed.stack = call.closed.stack ++ [call.frame]
  line : ∀ x ∈ [call.opened, call.changed, call.closed], x.highlightLine = call.frame.line

/-- While the call works its frame is on the stack. -/
theorem Sound.not_outside {call : BuiltinCall} (sound : call.Sound) :
    ¬ Outside call.opened.stack := by
  intro outside
  have inside := outside call.frame (by rw [sound.opened]; exact List.mem_concat_self)
  rw [sound.kind] at inside
  cases builtin : call.builtin <;> rw [builtin] at inside <;> cases inside

/-- How many of the calls are counted under a key. -/
def count (key : String) (calls : List BuiltinCall) : Nat :=
  calls.countP (·.builtin.key = key)

end BuiltinCall

/-- The calls of built-ins that snapshots show: each by three snapshots in a row, and all others are
taken outside of built-ins. -/
inductive Shows : List Snapshot → List BuiltinCall → Prop
  | nil : Shows [] []
  | outside {x : Snapshot} {rest : List Snapshot} {calls : List BuiltinCall} :
    Outside x.stack → Shows rest calls → Shows (x :: rest) calls
  | call {builtin : Builtin} {frame : Frame} {x y z : Snapshot} {rest : List Snapshot}
    {calls : List BuiltinCall} :
    BuiltinCall.Sound ⟨builtin, frame, x, y, z⟩ → Shows rest calls →
    Shows (x :: y :: z :: rest) (⟨builtin, frame, x, y, z⟩ :: calls)

namespace Shows

theorem append {before after : List Snapshot} {calls calls' : List BuiltinCall}
    (first : Shows before calls) (second : Shows after calls') :
    Shows (before ++ after) (calls ++ calls') := by
  induction first with
  | nil => exact second
  | outside plain _ ih => exact .outside plain ih
  | call sound _ ih => exact .call sound ih

/-- Snapshots show only one list of calls. -/
theorem unique {snapshots : List Snapshot} {calls calls' : List BuiltinCall}
    (first : Shows snapshots calls) (second : Shows snapshots calls') : calls = calls' := by
  induction first generalizing calls' with
  | nil =>
    cases second
    rfl
  | outside plain _ ih =>
    cases second with
    | outside _ second => exact ih second
    | call sound _ => exact absurd plain sound.not_outside
  | @call builtin frame x y z rest calls sound _ ih =>
    cases second with
    | outside plain _ => exact absurd plain sound.not_outside
    | @call builtin' frame' _ _ _ _ calls' sound' second =>
      have frames : z.stack ++ [frame] = z.stack ++ [frame'] :=
        sound.opened.symm.trans sound'.opened
      obtain rfl : frame = frame' := List.head_eq_of_cons_eq (List.append_cancel_left frames)
      obtain rfl : builtin = builtin' :=
        Builtin.eq_of_describes (sound.name.symm.trans sound'.name) sound.description
          sound'.description
      rw [ih second]

end Shows

/-- The line that is found for the call of a built-in with so many calls of its key before it. -/
def lineOf (source : String) (builtin : Builtin) (occurrence : Nat) : Option Nat :=
  builtin.signatures.findSome? ((Locator.ofSource source).locate · occurrence)

/-- Each call has the line that is found for it when those before it are counted. -/
def Placed (source : String) (calls : List BuiltinCall) : Prop :=
  ∀ before call after, calls = before ++ call :: after →
    call.frame.line =
      lineOf source call.builtin (BuiltinCall.count call.builtin.key before)

theorem Placed.concat {source : String} {calls : List BuiltinCall} (placed : Placed source calls)
    {call : BuiltinCall}
    (found : call.frame.line =
      lineOf source call.builtin (BuiltinCall.count call.builtin.key calls)) :
    Placed source (calls ++ [call]) := by
  intro before other after same
  rcases List.eq_nil_or_concat after with rfl | ⟨after, last, rfl⟩
  · obtain ⟨rfl, rfl⟩ := List.append_inj' same rfl |>.imp_right List.head_eq_of_cons_eq
    exact found
  · refine placed before other after ?_
    rw [List.concat_eq_append, ← List.cons_append, ← List.append_assoc] at same
    exact (List.append_inj' same rfl).1

/-! ## What a session has counted -/

namespace Session

variable {source : String} {s t : Session}

/-- The locator has counted the calls that the timeline shows, and no built-in is at work. -/
structure Counts (source : String) (s : Session) (calls : List BuiltinCall) : Prop where
  shows : Shows s.timeline.snapshots.toList calls
  placed : Placed source calls
  lines : s.locator.lines = linesOf source.toList
  seen : ∀ key, s.locator.seen.count key = BuiltinCall.count key calls
  outside : Outside s.collections.stack

/-- The line that is found for the next call is the one for those counted before it. -/
theorem Counts.highlight_fst {calls : List BuiltinCall} (counts : s.Counts source calls)
    (builtin : Builtin) :
    (s.highlight .heuristic builtin.key builtin.signatures 0).1 =
      lineOf source builtin (BuiltinCall.count builtin.key calls) := by
  have lines : (s.highlight .heuristic builtin.key builtin.signatures 0).2.locator.lines =
    linesOf source.toList := counts.lines
  rw [← counts.seen, lineOf, ← Locator.locate_eq_ofSource lines]
  rfl

theorem Counts.count_bump {calls : List BuiltinCall} (counts : s.Counts source calls)
    (call : BuiltinCall) (key : String) :
    (s.locator.seen.bump call.builtin.key).count key = BuiltinCall.count key (calls ++ [call]) := by
  rw [Occurrences.count_bump, counts.seen, BuiltinCall.count, BuiltinCall.count,
    List.countP_append, List.countP_singleton]
  simp

/-- Every call of a built-in so far has the line that was found for it. -/
def Located (source : String) (s : Session) : Prop :=
  ∃ calls, s.Counts source calls

namespace Located

theorem change (located : s.Located source) (timeline : t.timeline = s.timeline)
    (locator : t.locator = s.locator) (outside : Outside t.collections.stack) :
    t.Located source := by
  obtain ⟨calls, counts⟩ := located
  refine ⟨calls, ?_, counts.placed, ?_, ?_, outside⟩
  · rw [timeline]
    exact counts.shows
  · rw [locator]
    exact counts.lines
  · rw [locator]
    exact counts.seen

theorem snap (located : s.Located source) (line : Option Nat) (description : String)
    (phase : Phase) : (s.snap line description phase).Located source := by
  obtain ⟨calls, counts⟩ := located
  refine ⟨calls, ?_, counts.placed, counts.lines, counts.seen, counts.outside⟩
  have shows := counts.shows.append (.outside (x := ⟨s.collections, s.timeline.size, line,
    description, phase⟩) counts.outside .nil)
  rw [List.append_nil] at shows
  unfold Session.snap
  rw [Timeline.toList_record]
  exact shows

theorem pushFrame (located : s.Located source) (name : String) (kind : FrameKind)
    (line : Option Nat) (plain : kind.ofBuiltin = false) :
    (s.pushFrame name kind line).Located source := by
  refine located.change rfl rfl ?_
  obtain ⟨calls, counts⟩ := located
  intro frame member
  rcases List.mem_append.mp member with old | new
  · exact counts.outside frame old
  · obtain rfl := List.mem_singleton.mp new
    exact plain

theorem popFrame (located : s.Located source) : s.popFrame.Located source := by
  refine located.change rfl rfl ?_
  obtain ⟨calls, counts⟩ := located
  exact fun frame member => counts.outside frame (List.dropLast_subset _ member)

/-- Changes of the queues and of the output do not show. -/
theorem keep (located : s.Located source) (timeline : t.timeline = s.timeline)
    (locator : t.locator = s.locator) (stack : t.collections.stack = s.collections.stack) :
    t.Located source := by
  refine located.change timeline locator ?_
  obtain ⟨calls, counts⟩ := located
  rw [stack]
  exact counts.outside

/-- The call of a built-in is counted, and the line found for it is shown. -/
theorem primitive (located : s.Located source) (builtin : Builtin) {opening : String}
    (describes : builtin.Describes opening) (closing : String) (change : Session → Session)
    (timeline : ∀ t : Session, (change t).timeline = t.timeline)
    (locator : ∀ t : Session, (change t).locator = t.locator)
    (stack : ∀ t : Session, (change t).collections.stack = t.collections.stack) :
    let found := s.highlight .heuristic builtin.key builtin.signatures 0
    Located source
      ((change (found.2.openPrimitive builtin.name builtin.kind found.1 opening)).closePrimitive
        builtin.name found.1 closing) := by
  intro found
  obtain ⟨calls, counts⟩ := located
  let frame : Frame := ⟨s.frames, builtin.name, builtin.kind, found.1⟩
  let begun := found.2.openPrimitive builtin.name builtin.kind found.1 opening
  let done := (change begun).snap found.1 closing .idle
  have opened : begun.collections.stack = s.collections.stack ++ [frame] := rfl
  have changed : (change begun).collections.stack = s.collections.stack ++ [frame] := stack begun
  have closed : done.popFrame.collections.stack = s.collections.stack := by
    show (change begun).collections.stack.dropLast = _
    rw [changed, List.dropLast_concat]
  let x : Snapshot := ⟨begun.collections, s.timeline.size, found.1, opening, .idle⟩
  let y : Snapshot :=
    ⟨(change begun).collections, (change begun).timeline.size, found.1, closing, .idle⟩
  let z : Snapshot :=
    ⟨done.popFrame.collections, done.timeline.size, found.1, "Pop " ++ builtin.name, .idle⟩
  have outside : Outside z.stack := by
    show Outside done.popFrame.collections.stack
    rw [closed]
    exact counts.outside
  have sound : BuiltinCall.Sound ⟨builtin, frame, x, y, z⟩ := by
    refine ⟨rfl, rfl, describes, outside, ?_, ?_, ?_⟩
    · exact opened.trans (congrArg (· ++ [frame]) closed.symm)
    · exact changed.trans (congrArg (· ++ [frame]) closed.symm)
    · rintro _ (_ | ⟨_, _ | ⟨_, _ | ⟨_, ⟨⟩⟩⟩⟩) <;> rfl
  have recorded :=
    calc (done.popFrame.snap found.1 ("Pop " ++ builtin.name) .idle).timeline.snapshots.toList
      _ = done.timeline.snapshots.toList ++ [z] := Timeline.toList_record ..
      _ = (change begun).timeline.snapshots.toList ++ [y] ++ [z] :=
        congrArg (· ++ [z]) (Timeline.toList_record ..)
      _ = begun.timeline.snapshots.toList ++ [y] ++ [z] := by rw [timeline]
      _ = s.timeline.snapshots.toList ++ [x] ++ [y] ++ [z] :=
        congrArg (· ++ [y] ++ [z]) (Timeline.toList_record ..)
      _ = s.timeline.snapshots.toList ++ [x, y, z] := by simp
  have same : done.popFrame.locator = found.2.locator := locator begun
  refine ⟨calls ++ [⟨builtin, frame, x, y, z⟩], ?_,
    counts.placed.concat (counts.highlight_fst builtin), ?_, ?_, outside⟩
  · unfold closePrimitive
    rw [recorded]
    exact counts.shows.append (.call sound .nil)
  · show done.popFrame.locator.lines = _
    rw [same]
    exact counts.lines
  · intro key
    show done.popFrame.locator.seen.count key = _
    rw [same]
    exact counts.count_bump ⟨builtin, frame, x, y, z⟩ key

theorem print (located : s.Located source) (text : String) (line : Nat) :
    (s.print .heuristic text line).Located source :=
  located.primitive (.print text) rfl ("Output: " ++ text) (Session.printLine text) (fun _ => rfl)
    (fun _ => rfl) fun _ => rfl

theorem registerTimer (located : s.Located source) (callback : Callback) (delay line : Nat) :
    (s.registerTimer .heuristic callback delay line).2.Located source :=
  located.primitive .registerTimer ⟨delay, rfl⟩ "Add to Web APIs"
    (fun t => (t.addTimer callback delay).2) (fun _ => rfl) (fun _ => rfl) fun _ => rfl

theorem defer (located : s.Located source) (callback : Callback) (line : Nat) :
    (s.defer .heuristic callback line).Located source :=
  located.primitive .defer rfl "Add to Microtask Queue" (·.addDeferred .microtask callback)
    (fun _ => rfl) (fun _ => rfl) fun _ => rfl

theorem chain (located : s.Located source) (callback : Option Callback) (line : Nat) :
    (s.chain .heuristic callback line).Located source := by
  cases callback with
  | some callback =>
    exact located.primitive .chain rfl "Add to Microtask Queue"
      (·.addDeferred .continuation callback) (fun _ => rfl) (fun _ => rfl) fun _ => rfl
  | none =>
    exact located.primitive .chain rfl "Reaction stored on pending Promise" id (fun _ => rfl)
      (fun _ => rfl) fun _ => rfl

theorem release (located : s.Located source) (callbacks : List Callback) :
    (s.release callbacks).Located source := by
  induction callbacks generalizing s with
  | nil => exact located
  | cons callback rest ih =>
    exact ih ((located.keep (t := s.addDeferred .continuation callback) rfl rfl rfl).snap ..)

theorem enter (located : s.Located source) (name : String) (line : Nat) :
    (s.enter name line).Located source :=
  (located.pushFrame name .function (some line) rfl).snap ..

theorem leave (located : s.Located source) : s.leave.Located source := by
  unfold Session.leave
  split
  · exact located.popFrame.snap ..
  · exact located

end Located

end Session

/-- An evaluation finds a line for each call of a built-in. -/
theorem Path.located {limits : Limits} {source : String} {m m' : Machine Session}
    (path : Path limits (Session.host .heuristic) m m') (located : m.host.Located source) :
    m'.host.Located source := by
  induction path with
  | trans _ _ ih₁ ih₂ => exact ih₂ (ih₁ located)
  | print m text line _ => exact located.print text line
  | registerTimer m function delay line _ =>
    exact located.registerTimer (.plain function) delay line
  | defer m function line _ => exact located.defer (.plain function) line
  | chain m receiver value function line _ _ =>
    exact located.chain (some ⟨function, some value, some m.promises.size⟩) line
  | park m receiver waiting function line _ _ => exact located.chain none line
  | call m m' name line _ _ _ ih => exact (ih (located.enter name line)).leave
  | refuse m name line _ => exact (located.enter name line).leave
  | _ => exact located

namespace Generation

variable {source : String} {settings : Settings} {m : Machine Session}

theorem located_called (words : TaskWords) (task : QueuedTask)
    (located : m.host.Located source) (plain : words.kind.ofBuiltin = false) :
    (called words task m).host.Located source :=
  ((located.pushFrame words.frame words.kind none plain).snap none words.started .idle).keep rfl rfl
    rfl

section

variable (heuristic : settings.lineMode = .heuristic)

include heuristic

theorem runScript_located (script : Script) (reached : Reached source .empty m)
    (located : m.host.Located source) :
    ((Eval.runScript settings.limits (Session.host settings.lineMode) script).run
      m).2.host.Located source := by
  have tracked : Eval.Tracked settings.limits (Session.host settings.lineMode) m
      (Eval.runScript settings.limits (Session.host settings.lineMode) script) fun _ _ => True :=
    Eval.runScript_tracked script reached.inOrder
  rw [heuristic] at tracked ⊢
  exact tracked.1.located located

theorem runCallback_located (callback : Callback) (reached : Reached source .empty m)
    (known : ∀ value, callback.argument = some value → value.Within m.promises.size)
    (located : m.host.Located source) :
    ((Eval.runCallback settings.limits (Session.host settings.lineMode) callback).run
      m).2.host.Located source := by
  rcases Eval.runCallback_cases callback reached.inOrder known with
    ⟨e, run, -⟩ | ⟨-, m', path, ⟨e, run, -⟩ | ⟨value, -, run⟩⟩
  · rw [run]
    exact located
  · rw [run]
    rw [heuristic] at path
    exact path.located (m := m.deeper) located
  · rw [run]
    rw [heuristic] at path ⊢
    have after : m'.host.Located source := path.located (m := m.deeper) located
    cases callback.settles with
    | none => exact after
    | some p =>
      show (m'.shallower.settle (Session.host .heuristic) p value).host.Located source
      rw [Session.host_settle]
      exact after.release _

/-- Throughout a generation each call of a built-in has the line found for it. -/
theorem located_invariant :
    Invariant settings source (fun _ m => m.host.Located source)
      (fun _ _ m => m.host.Located source) (fun _ _ _ m => m.host.Located source) where
  script m frame script _ reached _ located := runScript_located heuristic script reached located
  callback passes callback m frame reached _ known located :=
    runCallback_located heuristic callback reached known located
  finish passes callback m frame word _ _ _ located := located.popFrame.snap ..
  check passes m _ _ located := located.snap ..
  note passes m word _ _ _ located := located.snap ..
  deferred passes k m task others callback _ _ _ _ located := by
    have popped : m.host.popDeferred.2.Located source := located.keep rfl rfl rfl
    have fetches : (fetched m).host.Located source := popped.snap ..
    exact located_called _ task fetches rfl
  timer passes k m timer others callback _ _ _ taken _ located := by
    have promotes := Session.promoteTimer_eq (s := (onlyTimers m).host) taken
    have checked : (onlyTimers m).host.Located source := located.snap ..
    have moved : (onlyTimers m).host.promoteTimer.Located source := by
      rw [promotes]
      exact checked.keep rfl rfl rfl
    exact located_called _ _ (((moved.snap ..).snap ..).keep rfl rfl rfl) rfl

end

theorem start_located (source : String) : (start source).Located source := by
  have fresh : (Session.ofSource source).Located source :=
    ⟨[], .nil, fun before call after same => by simp at same, rfl, fun _ => rfl,
      fun frame member => by cases member⟩
  exact ((fresh.snap none "Idle" .idle).pushFrame "main()" .main (some 1) rfl).snap ..

theorem fail_located {s : Session} (located : s.Located source) (description : String)
    (e : ScriptError) : (s.fail description e).Located source :=
  (located.keep (t := s.printLine _) rfl rfl rfl).snap ..

/-- A timeline is that of a session that has counted the calls it shows. -/
theorem ofSource_located (heuristic : settings.lineMode = .heuristic) :
    ∃ s : Session, s.Located source ∧ Timeline.ofSource settings source = s.timeline := by
  cases parsed : parse settings.maxNesting source with
  | error e =>
    refine ⟨_, ?_, ofSource_eq_failReading parsed⟩
    refine fail_located (s := (start source).clearStack) ?_ _ e
    exact (start_located source).change rfl rfl fun frame member => by cases member
  | ok script =>
    rcases run : (untilEnding settings script).run (.initial (start source)) with ⟨result, m⟩
    refine ⟨_, ?_, ofSource_eq_closing parsed run⟩
    obtain ⟨-, -, -, outcome⟩ :=
      (located_invariant heuristic).outcome parsed (start_located source) run
    cases result with
    | error e =>
      obtain ⟨-, -, located⟩ := outcome
      exact (fail_located located _ e).popFrame.snap ..
    | ok ending =>
      obtain ⟨-, located, -⟩ := outcome
      cases ending with
      | idle => exact located
      | cut =>
        unfold closing
        dsimp only
        split
        · exact located.snap ..
        · exact located

end Generation

/-- If the lines of calls are searched, the call of a built-in with so many calls of its key before
it has, in its three snapshots and in its frame, the line of the occurrence with that number of the
first of its signatures that has one, or no line if none has. The occurrences of a signature are the
lines that contain it, in order; so a line that is found is there and contains a signature. -/
theorem Timeline.ofSource_lines (settings : Settings) (source : String)
    (heuristic : settings.lineMode = .heuristic) :
    ∃ calls, Shows (Timeline.ofSource settings source).snapshots.toList calls ∧
      (∀ others, Shows (Timeline.ofSource settings source).snapshots.toList others →
        others = calls) ∧
      Placed source calls ∧
      (∀ call ∈ calls, ∀ n, call.frame.line = some n →
        ∃ signature ∈ call.builtin.signatures, LineHas source signature.toList n) ∧
      ∀ signature : String, ∃ numbers : List Nat, numbers.Pairwise (· < ·) ∧
        (∀ n, n ∈ numbers ↔ LineHas source (trimBlanks signature.toList) n) ∧
        ∀ k, (Locator.ofSource source).locate signature k = numbers[k]? := by
  obtain ⟨s, ⟨calls, counts⟩, same⟩ := Generation.ofSource_located heuristic
  rw [same]
  refine ⟨calls, counts.shows, fun others shows => shows.unique counts.shows, counts.placed, ?_, ?_⟩
  · intro call member n line
    obtain ⟨before, after, split⟩ := List.append_of_mem member
    rw [counts.placed before call after split] at line
    obtain ⟨signature, among, found⟩ := List.exists_of_findSome?_eq_some line
    have has := Locator.mem_linesWith_ofSource.mp (List.mem_of_getElem? found)
    rw [Builtin.trimBlanks_signature among] at has
    exact ⟨signature, among, has⟩
  · intro signature
    exact ⟨(Locator.ofSource source).linesWith (trimBlanks signature.toList),
      Locator.linesWith_pairwise .., fun _ => Locator.mem_linesWith_ofSource, fun _ => rfl⟩

theorem Timeline.ofSource_lines_twice :
    Settings.usual.lineMode = .heuristic ∧
      (ofSource .usual "console.log(1)\nconsole.log(1)").snapshots.toList.map (·.highlightLine) =
        [none, some 1, some 1, some 1, some 1, some 2, some 2, some 2, none] ∧
      ∃ calls, Shows (ofSource .usual "console.log(1)\nconsole.log(1)").snapshots.toList calls ∧
        Placed "console.log(1)\nconsole.log(1)" calls := by
  obtain ⟨calls, shows, -, placed, -⟩ :=
    Timeline.ofSource_lines .usual "console.log(1)\nconsole.log(1)" rfl
  exact ⟨rfl, by decide +kernel, calls, shows, placed⟩

end EventLoop
