import EventLoop.Proofs.Evaluation.Provenance
import EventLoop.Proofs.Loop.Invariant
import EventLoop.Proofs.Loop.Places
import EventLoop.Proofs.Loop.Refinement
import EventLoop.Proofs.Timeline.Summary

/-!
# What descriptions say

Of what a script contains, the descriptions of snapshots show texts that it prints and names of its
functions. Names are words, so a description goes on over the end of a line only where it shows a
text that has been printed, or is about to be.
-/

namespace EventLoop

theorem OneLine.of_isWord {word : String} (form : isWord word = true) : OneLine word :=
  Lexing.notMem_of_isWord form (by decide +kernel)

/-- The description has no line feed, or shows a text among those that are printed. -/
def Words (printed : List String) (description : String) : Prop :=
  OneLine description ∨ ∃ text ∈ printed,
    description = "console.log('" ++ text ++ "')" ∨ description = "Output: " ++ text

theorem Words.oneLine {printed : List String} {description : String}
    (words : Words printed description) (each : ∀ text ∈ printed, OneLine text) :
    OneLine description := by
  rcases words with one | ⟨text, member, rfl | rfl⟩
  · exact one
  · exact ((by decide : OneLine "console.log('").append (each text member)).append (by decide)
  · exact (by decide : OneLine "Output: ").append (each text member)

theorem Words.mono {printed more : List String} {description : String}
    (words : Words printed description) (subset : printed ⊆ more) : Words more description :=
  words.imp id fun ⟨text, member, shows⟩ => ⟨text, subset member, shows⟩

/-- The names of functions in scripts that were read have no line feeds. -/
theorem Closure.Complies.oneLine {lines : Set Nat} {closure : Closure}
    (complies : closure.Complies (.spelled lines)) : ∀ name ∈ closure.name, OneLine name := by
  obtain ⟨inHole, declared, meets⟩ := complies
  exact fun name member => .of_isWord (meets.here.2 name member)

namespace Session

variable {known : Closure → Prop} {printed : List String} {s t : Session}

/-- The descriptions recorded so far say what they may if these texts are printed, the names of the
frames have no line feeds, and the closures that are stored have the property. -/
structure Worded (known : Closure → Prop) (printed : List String) (s : Session) : Prop where
  descriptions : ∀ x ∈ s.timeline.snapshots.toList, Words printed x.description
  frames : ∀ frame ∈ s.collections.stack, OneLine frame.name
  sound : s.callbacks.Sound
  callbacks : ∀ key callback, s.callbacks.get? key = some callback → callback.Carries known

namespace Worded

theorem mono {more : List String} (worded : s.Worded known printed) (subset : printed ⊆ more) :
    s.Worded known more where
  descriptions x member := (worded.descriptions x member).mono subset
  frames := worded.frames
  sound := worded.sound
  callbacks := worded.callbacks

/-- Changes of the queues and of the output do not show. -/
theorem keep (worded : s.Worded known printed) (timeline : t.timeline = s.timeline)
    (stack : t.collections.stack = s.collections.stack) (callbacks : t.callbacks = s.callbacks) :
    t.Worded known printed where
  descriptions := by rw [timeline]; exact worded.descriptions
  frames := by rw [stack]; exact worded.frames
  sound := by rw [callbacks]; exact worded.sound
  callbacks := by rw [callbacks]; exact worded.callbacks

theorem snap (worded : s.Worded known printed) (line : Option Nat) {description : String}
    (words : Words printed description) (phase : Phase) :
    (s.snap line description phase).Worded known printed where
  descriptions := by
    unfold Session.snap
    rw [Timeline.toList_record]
    exact List.forall_mem_append.mpr
      ⟨worded.descriptions, List.forall_mem_singleton.mpr words⟩
  frames := worded.frames
  sound := worded.sound
  callbacks := worded.callbacks

theorem pushFrame (worded : s.Worded known printed) {name : String} (one : OneLine name)
    (kind : FrameKind) (line : Option Nat) : (s.pushFrame name kind line).Worded known printed where
  descriptions := worded.descriptions
  frames := List.forall_mem_append.mpr ⟨worded.frames, List.forall_mem_singleton.mpr one⟩
  sound := worded.sound
  callbacks := worded.callbacks

theorem popFrame (worded : s.Worded known printed) : s.popFrame.Worded known printed where
  descriptions := worded.descriptions
  frames frame member := worded.frames frame (List.dropLast_subset _ member)
  sound := worded.sound
  callbacks := worded.callbacks

theorem clearStack (worded : s.Worded known printed) : s.clearStack.Worded known printed where
  descriptions := worded.descriptions
  frames := nofun
  sound := worded.sound
  callbacks := worded.callbacks

/-- A callback is stored. -/
theorem insert (worded : s.Worded known printed) {callback : Callback}
    (carries : callback.Carries known) (timeline : t.timeline = s.timeline)
    (stack : t.collections.stack = s.collections.stack)
    (inserted : t.callbacks = (s.callbacks.insert callback).2) : t.Worded known printed where
  descriptions := by rw [timeline]; exact worded.descriptions
  frames := by rw [stack]; exact worded.frames
  sound := by rw [inserted]; exact worded.sound.insert callback
  callbacks := by
    rw [inserted]
    exact Arena.forall_insert worded.sound worded.callbacks carries

theorem takeCallback (worded : s.Worded known printed) (task : QueuedTask) :
    (s.takeCallback task).2.Worded known printed where
  descriptions := worded.descriptions
  frames := worded.frames
  sound := worded.sound.take task.callback
  callbacks := Arena.forall_take worded.callbacks task.callback

theorem promoteTimer (worded : s.Worded known printed) : s.promoteTimer.Worded known printed := by
  unfold Session.promoteTimer
  split
  · exact worded.keep rfl rfl rfl
  · exact worded

theorem highlight (worded : s.Worded known printed) (mode : LineMode) (key : String)
    (signatures : List String) (callSite : Nat) :
    (s.highlight mode key signatures callSite).2.Worded known printed := by
  cases mode with
  | heuristic => exact worded.keep rfl rfl rfl
  | callSite => exact worded

/-- The call of a built-in records what it is called and what it did. -/
theorem primitive (worded : s.Worded known printed) {name : String} (one : OneLine name)
    (kind : FrameKind) (line : Option Nat) {opening closing : String}
    (opens : Words printed opening) (closes : Words printed closing) (change : Session → Session)
    (keeps : ∀ t : Session, t.Worded known printed → (change t).Worded known printed) :
    Worded known printed
      ((change (s.openPrimitive name kind line opening)).closePrimitive name line closing) := by
  have opened := (worded.pushFrame one kind line).snap line opens .idle
  have done := (keeps _ opened).snap line closes .idle
  exact done.popFrame.snap line (.inl (OneLine.append (by decide) one)) .idle

theorem print (worded : s.Worded known s.collections.output) (mode : LineMode) (text : String)
    (line : Nat) :
    (s.print mode text line).Worded known (s.print mode text line).collections.output := by
  have output : (s.print mode text line).collections.output = s.collections.output ++ [text] := by
    cases mode <;> rfl
  rw [output]
  -- the first snapshot shows the text before it is in the output
  have member : text ∈ s.collections.output ++ [text] := List.mem_concat_self
  have more := worded.mono (List.subset_append_left _ [text])
  exact (more.highlight mode ("log-" ++ text) (printSignatures text) line).primitive (by decide) _ _
    (.inr ⟨text, member, .inl rfl⟩) (.inr ⟨text, member, .inr rfl⟩) (Session.printLine text)
    fun _ worded => worded.keep rfl rfl rfl

theorem registerTimer (worded : s.Worded known printed) (mode : LineMode) {callback : Callback}
    (carries : callback.Carries known) (delay line : Nat) :
    (s.registerTimer mode callback delay line).2.Worded known printed := by
  have opens : OneLine s!"setTimeout(..., {delay})" :=
    .append (.append (by decide) (.of_nat delay)) (by decide)
  exact (worded.highlight mode "setTimeout" ["setTimeout"] line).primitive (by decide) .primitive _
    (.inl opens) (.inl (by decide)) (fun t => (t.addTimer callback delay).2)
    fun _ worded => worded.insert carries rfl rfl rfl

theorem defer (worded : s.Worded known printed) (mode : LineMode) {callback : Callback}
    (carries : callback.Carries known) (line : Nat) :
    (s.defer mode callback line).Worded known printed :=
  (worded.highlight mode "queueMicrotask" ["queueMicrotask"] line).primitive (by decide) .primitive
    _ (.inl (by decide)) (.inl (by decide)) (·.addDeferred .microtask callback)
    fun _ worded => worded.insert carries rfl rfl rfl

theorem chain (worded : s.Worded known printed) (mode : LineMode) {callback : Option Callback}
    (carries : ∀ c ∈ callback, c.Carries known) (line : Nat) :
    (s.chain mode callback line).Worded known printed := by
  have noted := worded.highlight mode "then" [".then"] line
  cases callback with
  | some callback =>
    exact noted.primitive (by decide) .primitive _ (.inl (by decide)) (.inl (by decide))
      (·.addDeferred .continuation callback)
      fun _ worded => worded.insert (carries callback rfl) rfl rfl rfl
  | none =>
    exact noted.primitive (by decide) .primitive _ (.inl (by decide)) (.inl (by decide)) id
      fun _ worded => worded

theorem release (worded : s.Worded known printed) {callbacks : List Callback}
    (carries : ∀ c ∈ callbacks, c.Carries known) : (s.release callbacks).Worded known printed := by
  induction callbacks generalizing s with
  | nil => exact worded
  | cons callback rest ih =>
    obtain ⟨first, rest⟩ := List.forall_mem_cons.mp carries
    have queued : (s.addDeferred .continuation callback).Worded known printed :=
      worded.insert first rfl rfl rfl
    exact ih (queued.snap none (.inl (by decide)) .idle) rest

theorem enter (worded : s.Worded known printed) {name : String} (one : OneLine name) (line : Nat) :
    (s.enter name line).Worded known printed :=
  (worded.pushFrame one .function (some line)).snap (some line)
    (.inl (.append (.append (by decide) one) (by decide))) .idle

theorem leave (worded : s.Worded known printed) : s.leave.Worded known printed := by
  unfold Session.leave
  split
  · rename_i frame top
    have one := worded.frames frame (List.mem_of_getLast? top)
    exact worded.popFrame.snap frame.line
      (.inl (.append (.append (by decide) one) (by decide))) .idle
  · exact worded

end Worded

theorem output_release (s : Session) (callbacks : List Callback) :
    (s.release callbacks).collections.output = s.collections.output := by
  induction callbacks generalizing s with
  | nil => rfl
  | cons callback rest ih => exact ih _

theorem output_leave (s : Session) : s.leave.collections.output = s.collections.output := by
  unfold leave
  split <;> rfl

theorem output_promoteTimer (s : Session) :
    s.promoteTimer.collections.output = s.collections.output := by
  unfold promoteTimer
  split <;> rfl

/-- The descriptions recorded so far say what they may now, and the closures that are stored come
from a script that was read. -/
abbrev Told (lines : Set Nat) (s : Session) : Prop :=
  s.Worded (Closure.Complies (.spelled lines)) s.collections.output

/-- What changes no output may rely on the output before. -/
theorem Worded.told {lines : Set Nat}
    (worded : t.Worded (Closure.Complies (.spelled lines)) s.collections.output)
    (output : t.collections.output = s.collections.output) : t.Told lines := by
  rw [Told, output]
  exact worded

theorem Told.fail {lines : Set Nat} (told : s.Told lines) {description : String}
    (one : OneLine description) (e : ScriptError) : (s.fail description e).Told lines := by
  have more := told.mono (List.subset_append_left _ ["Uncaught " ++ e.message])
  have printed : (s.printLine ("Uncaught " ++ e.message)).Told lines := more.keep rfl rfl rfl
  exact printed.snap _ (.inl one) .idle

theorem host_upholds (mode : LineMode) (lines : Set Nat) :
    (host mode).Upholds (.spelled lines) (Told lines) where
  print text line s worded := worded.print mode text line
  registerTimer callback delay line s carries worded := by
    have output : (s.registerTimer mode callback delay line).2.collections.output =
        s.collections.output := by
      cases mode <;> rfl
    exact (worded.registerTimer mode carries delay line).told output
  defer callback line s carries worded := by
    have output : (s.defer mode callback line).collections.output = s.collections.output := by
      cases mode <;> rfl
    exact (worded.defer mode carries line).told output
  chain callback line s carries worded := by
    have output : (s.chain mode callback line).collections.output = s.collections.output := by
      cases mode <;> cases callback <;> rfl
    exact (worded.chain mode carries line).told output
  release callbacks s carries worded := (worded.release carries).told (output_release s callbacks)
  enter closure line s complies worded := by
    have one : OneLine (closure.name.getD "(anonymous)") := by
      cases name : closure.name with
      | none => exact (by decide : OneLine "(anonymous)")
      | some word => exact complies.oneLine word name
    exact worded.enter one line
  leave s worded := worded.leave.told (output_leave s)

end Session

namespace Generation

variable {source : String} {settings : Settings} {m : Machine Session}

/-- The closures of the machine come from the script of the source, and the snapshots recorded so
far say what they may. -/
abbrev Worded (source : String) (m : Machine Session) : Prop :=
  m.Complies (.spelled (sourceLines source)) (Session.Told (sourceLines source))

namespace Worded

theorem onHost (worded : Worded source m) {f : Session → Session}
    (keeps : ∀ {printed : List String} {s : Session},
      s.Worded (Closure.Complies (.spelled (sourceLines source))) printed →
        (f s).Worded (Closure.Complies (.spelled (sourceLines source))) printed)
    (output : (f m.host).collections.output = m.host.collections.output) :
    Worded source (m.onHost f) :=
  ⟨worded.scopes, worded.promises, (keeps worded.host).told output⟩

theorem snap (worded : Worded source m) (line : Option Nat) {description : String}
    (one : OneLine description) (phase : Phase) :
    Worded source (m.onHost (Session.snap line description phase)) :=
  worded.onHost (fun worded => worded.snap line (.inl one) phase) rfl

theorem called (worded : Worded source m) (words : TaskWords) (task : QueuedTask)
    (frame : OneLine words.frame) (started : OneLine words.started) :
    Worded source (called words task m) := by
  have opened : Worded source (opened words m) :=
    worded.onHost (fun worded => (worded.pushFrame frame _ none).snap none (.inl started) .idle) rfl
  exact opened.onHost (fun worded => worded.takeCallback task) rfl

end Worded

theorem start_worded (source : String) : Worded source (.initial (start source)) := by
  have fresh : (Session.ofSource source).Worded (Closure.Complies (.spelled (sourceLines source)))
      [] :=
    ⟨nofun, nofun, Arena.sound_empty, fun key callback found => by
      rw [show (Session.ofSource source).callbacks = .empty from rfl, Arena.get?_empty] at found
      cases found⟩
  have idle := fresh.snap none (.inl (by decide : OneLine "Idle")) .idle
  exact .initial ((idle.pushFrame (by decide : OneLine "main()") .main (some 1)).snap (some 1)
    (.inl (by decide)) .idle)

theorem worded_invariant :
    Invariant settings source (fun _ m => Worded source m)
      (fun _ callback m => Worded source m ∧
        ∀ c ∈ callback, c.Carries (Closure.Complies (.spelled (sourceLines source))))
      (fun _ _ _ m => Worded source m) where
  script m frame script parsed _ _ begun := by
    have outcome := parse_outcome settings.maxNesting source
    rw [parsed] at outcome
    have upholds := Session.host_upholds settings.lineMode (sourceLines source)
    exact (Eval.runScript_keeps settings.limits upholds outcome m begun.1).1
  callback passes callback m frame _ _ _ begun := by
    have upholds := Session.host_upholds settings.lineMode (sourceLines source)
    exact (Eval.runCallback_keeps settings.limits upholds (begun.2 callback rfl) m begun.1).1
  finish passes callback m frame word _ _ member ended := by
    have one : OneLine word :=
      (by decide : ∀ word ∈ finishWords, OneLine word) word member
    exact ended.onHost (fun worded => worded.popFrame.snap none (.inl one) .idle) rfl
  check passes m _ _ worded := worded.snap none (by decide) .checking
  note passes m word _ _ member worded :=
    worded.snap none ((by decide : ∀ word ∈ noteWords, OneLine word) word member) .checking
  deferred passes k m task others callback _ _ _ found worded := by
    have carries := worded.host.callbacks _ callback found
    have fetches : Worded source (fetched m) :=
      worded.onHost (fun worded => (worded.keep (t := Session.popDeferred _ |>.2) rfl rfl rfl).snap
        none (.inl (by decide)) .promotingDeferred) rfl
    have frame : OneLine (deferredWords task).frame := by
      unfold deferredWords
      dsimp only
      split <;> decide
    exact ⟨fetches.called _ task frame (by decide : OneLine "Run Microtask"),
      fun _ same => by cases same; exact carries⟩
  timer passes k m timer others callback _ _ _ _ found worded := by
    have carries := worded.host.callbacks _ callback found
    have checked : Worded source (onlyTimers m) := worded.snap none (by decide) .checking
    have moved : Worded source (readied m) :=
      (checked.onHost (fun worded => worded.promoteTimer.snap none (.inl (by decide)) .idle)
        (Session.output_promoteTimer _)).snap none (by decide) .promotingReady
    have left : Worded source (promoted m) :=
      moved.onHost (fun worded => worded.keep (t := Session.popReady _ |>.2) rfl rfl rfl) rfl
    exact ⟨left.called timerWords _ (by decide) (by decide),
      fun _ same => by cases same; exact carries⟩

end Generation

namespace Generation

variable {source : String} {settings : Settings}

/-- A timeline is that of a session that has recorded only what it may. -/
theorem ofSource_told (settings : Settings) (source : String) :
    ∃ s : Session, s.Told (sourceLines source) ∧ s.Shown ∧
      Timeline.ofSource settings source = s.timeline := by
  have started : (start source).Told (sourceLines source) := (start_worded source).host
  cases parsed : parse settings.maxNesting source with
  | error e =>
    have cleared : (start source).clearStack.Told (sourceLines source) := started.clearStack
    exact ⟨_, cleared.fail (by decide) e, Session.shown_snap .., ofSource_eq_failReading parsed⟩
  | ok script =>
    rcases run : (untilEnding settings script).run (.initial (start source)) with ⟨result, m⟩
    obtain ⟨reached, -, -, outcome⟩ :=
      worded_invariant.outcome parsed ⟨start_worded source, nofun⟩ run
    refine ⟨_, ?_, (closing_later reached ?_).shown, ofSource_eq_closing parsed run⟩
    · cases result with
      | error e =>
        obtain ⟨-, -, worded⟩ := outcome
        exact (worded.host.fail (by decide) e).popFrame.snap none (.inl (by decide)) .idle
      | ok ending =>
        obtain ⟨-, worded, -⟩ := outcome
        cases ending with
        | idle => exact worded.host
        | cut =>
          unfold closing
          dsimp only
          split
          · exact worded.host.snap none (.inl (by decide)) .idle
          · exact worded.host
    · rintro e rfl
      exact outcome.1

end Generation

/-- Whatever the source, a description in its timeline goes on over the end of a line only where it
shows a text that is in the output in the end. -/
theorem Timeline.ofSource_words (settings : Settings) (source : String) {x : Snapshot}
    (member : x ∈ (Timeline.ofSource settings source).snapshots.toList) :
    Words (Timeline.ofSource settings source).finalOutput x.description := by
  obtain ⟨s, told, shown, same⟩ := Generation.ofSource_told settings source
  rw [same] at member ⊢
  rw [shown.finalOutput]
  exact told.descriptions x member

end EventLoop
