import EventLoop.Proofs.Loop.Course

/-!
# What an evaluation records

An evaluation only adds to the timeline, and it never records what the loop records when a pass or a
task begins or ends, or when the script fails. While it works, the stack is what it was before, with
frames for the calls of the script's own functions above it and at most one more on top: a
built-in's, or that of a call that is refused.
-/

namespace EventLoop

namespace Session

/-- The timeline of the second session is longer by snapshots that all have the property. -/
def Records (P : Snapshot → Prop) (s t : Session) : Prop :=
  ∃ more, t.timeline.snapshots.toList = s.timeline.snapshots.toList ++ more ∧ ∀ x ∈ more, P x

namespace Records

variable {P Q : Snapshot → Prop} {s t u : Session}

theorem of_timeline (same : t.timeline = s.timeline) : Records P s t :=
  ⟨[], by rw [same, List.append_nil], fun _ member => by cases member⟩

theorem refl (s : Session) : Records P s s :=
  .of_timeline rfl

theorem trans (h₁ : Records P s t) (h₂ : Records P t u) : Records P s u := by
  obtain ⟨more₁, same₁, all₁⟩ := h₁
  obtain ⟨more₂, same₂, all₂⟩ := h₂
  refine ⟨more₁ ++ more₂, by rw [same₂, same₁, List.append_assoc], ?_⟩
  intro x member
  exact (List.mem_append.mp member).elim (all₁ x) (all₂ x)

theorem mono (h : Records P s t) (weaker : ∀ x, P x → Q x) : Records Q s t := by
  obtain ⟨more, same, all⟩ := h
  exact ⟨more, same, fun x member => weaker x (all x member)⟩

/-- A snapshot, after changes that were not recorded. -/
theorem snap (same : t.timeline = s.timeline) (line : Option Nat) (description : String)
    (phase : Phase) (h : ∀ x : Snapshot, x.toCollections = t.collections →
      x.description = description → x.phase = phase → P x) :
    Records P s (t.snap line description phase) := by
  let x : Snapshot := ⟨t.collections, t.timeline.size, line, description, phase⟩
  refine ⟨[x], ?_, List.forall_mem_singleton.mpr (h x rfl rfl rfl)⟩
  rw [← same]
  exact Timeline.toList_record ..

/-- What holds of all snapshots that were there and of those that were added holds of all. -/
theorem all (h : Records P s t) (before : ∀ x ∈ s.timeline.snapshots.toList, P x) :
    ∀ x ∈ t.timeline.snapshots.toList, P x := by
  obtain ⟨more, same, after⟩ := h
  intro x member
  rw [same] at member
  exact (List.mem_append.mp member).elim (before x) (after x)

end Records

end Session

/-- What is recorded when a loop that was cut ends. -/
def limitWord : String :=
  "Event Loop: iteration limit reached"

/-- What is recorded when a pass of a loop begins. -/
def checkWord : String :=
  "Event Loop: Checking Call Stack..."

/-- What is recorded when a pass or a task begins, and when a loop that was cut ends. -/
def markWords : List String :=
  limitWord :: checkWord :: runWords

/-- What is recorded by the loop alone: the marks, what else begins or ends a script or a task, and
the reports of failures. -/
def loopWords : List String :=
  markWords ++
    [ "Start script execution", "Main script finished", "Microtask finished", "Macrotask finished",
      "Error parsing code", "Error executing code" ]

/-- A snapshot that an evaluation may record if the stack was `base` before, and so many more calls
can lie inside one another. -/
structure Inside (base : List Frame) (room : Nat) (x : Snapshot) : Prop where
  phase : x.phase = .idle
  word : x.description ∉ loopWords
  stack : ∃ calls top, x.stack = base ++ (calls ++ top) ∧
    (∀ frame ∈ calls, frame.kind = .function) ∧ calls.length ≤ room ∧ top.length ≤ 1

namespace Inside

variable {base : List Frame} {room : Nat} {x : Snapshot}

theorem unmarked (inside : Inside base room x) : x.description ∉ markWords :=
  fun mark => inside.word (List.mem_append_left _ mark)

/-- At most one frame is above those that were there. -/
theorem of_top (top : List Frame) (stack : x.stack = base ++ top) (one : top.length ≤ 1)
    (phase : x.phase = .idle) (word : x.description ∉ loopWords) : Inside base room x :=
  ⟨phase, word, [], top, stack, fun _ member => (by cases member), Nat.zero_le _, one⟩

theorem mono {more : Nat} (inside : Inside base room x) (le : room ≤ more) :
    Inside base more x := by
  obtain ⟨calls, top, stack, kinds, length, one⟩ := inside.stack
  exact ⟨inside.phase, inside.word, calls, top, stack, kinds, Nat.le_trans length le, one⟩

/-- What is recorded inside a call is recorded by what makes the call. -/
theorem of_call (frame : Frame) (kind : frame.kind = .function)
    (inside : Inside (base ++ [frame]) room x) : Inside base (room + 1) x := by
  obtain ⟨calls, top, stack, kinds, length, one⟩ := inside.stack
  refine ⟨inside.phase, inside.word, frame :: calls, top, ?_,
    List.forall_mem_cons.mpr ⟨kind, kinds⟩, Nat.succ_le_succ length, one⟩
  rw [stack, List.append_assoc]
  rfl

end Inside

namespace Session

variable {room : Nat}

theorem highlight_records {P : Snapshot → Prop} (mode : LineMode) (key : String)
    (signatures : List String) (callSite : Nat) (s : Session) :
    Records P s (s.highlight mode key signatures callSite).2 := by
  cases mode <;> exact .refl s

/-- The call of a built-in records snapshots with its frame and one without it. -/
theorem primitive_records (s : Session) (name : String) (kind : FrameKind) (line : Option Nat)
    (opening closing : String) (change : Session → Session)
    (timeline : ∀ t : Session, (change t).timeline = t.timeline)
    (stack : ∀ t : Session, (change t).collections.stack = t.collections.stack)
    (word₁ : opening ∉ loopWords) (word₂ : closing ∉ loopWords)
    (word₃ : "Pop " ++ name ∉ loopWords) :
    Records (Inside s.collections.stack room) s
      ((change (s.openPrimitive name kind line opening)).closePrimitive name line closing) := by
  let frame : Frame := ⟨s.frames, name, kind, line⟩
  have opened : (s.openPrimitive name kind line opening).collections.stack =
      s.collections.stack ++ [frame] := rfl
  have changed := (stack (s.openPrimitive name kind line opening)).trans opened
  have first : Records (Inside s.collections.stack room) s
      (s.openPrimitive name kind line opening) := by
    refine .snap (t := s.pushFrame name kind line) rfl _ _ _ ?_
    intro x collections word phase
    exact .of_top [frame] (by rw [collections]; exact opened) (Nat.le_refl 1) phase
      (by rw [word]; exact word₁)
  have second : Records (Inside s.collections.stack room) (s.openPrimitive name kind line opening)
      ((change (s.openPrimitive name kind line opening)).snap line closing .idle) := by
    refine .snap (timeline _) _ _ _ ?_
    intro x collections word phase
    exact .of_top [frame] (by rw [collections]; exact changed) (Nat.le_refl 1) phase
      (by rw [word]; exact word₂)
  refine first.trans (second.trans (.snap rfl _ _ _ ?_))
  intro x collections word phase
  refine .of_top [] ?_ (Nat.zero_le 1) phase (by rw [word]; exact word₃)
  rw [collections]
  show (change _).collections.stack.dropLast = _
  rw [changed, List.dropLast_concat, List.append_nil]

theorem highlight_stack (mode : LineMode) (key : String) (signatures : List String)
    (callSite : Nat) (s : Session) :
    (s.highlight mode key signatures callSite).2.collections.stack = s.collections.stack := by
  cases mode <;> rfl

theorem print_records (mode : LineMode) (text : String) (line : Nat) (s : Session) :
    Records (Inside s.collections.stack room) s (print mode text line s) := by
  have opening : ("console.log('" ++ text).toList[0]? = some 'c' :=
    getElem?_toList_append (by decide)
  have closing : ("Output: " ++ text).toList[0]? = some 'O' := getElem?_toList_append (by decide)
  refine (highlight_records mode ("log-" ++ text) (printSignatures text) line s).trans ?_
  rw [← highlight_stack mode ("log-" ++ text) (printSignatures text) line s]
  exact primitive_records _ "console.log" .print _ _ _ (Session.printLine text) (fun _ => rfl)
    (fun _ => rfl) (notMem_of_getElem? (getElem?_toList_append opening) (by decide))
    (notMem_of_getElem? closing (by decide)) (by decide)

theorem registerTimer_records (mode : LineMode) (callback : Callback) (delay line : Nat)
    (s : Session) :
    Records (Inside s.collections.stack room) s (registerTimer mode callback delay line s).2 := by
  have opening : ("setTimeout(..., " ++ toString delay).toList[0]? = some 's' :=
    getElem?_toList_append (by decide)
  refine (highlight_records mode "setTimeout" ["setTimeout"] line s).trans ?_
  rw [← highlight_stack mode "setTimeout" ["setTimeout"] line s]
  exact primitive_records _ "setTimeout" .primitive _ _ _ (fun t => (t.addTimer callback delay).2)
    (fun _ => rfl) (fun _ => rfl) (notMem_of_getElem? (getElem?_toList_append opening) (by decide))
    (by decide) (by decide)

theorem defer_records (mode : LineMode) (callback : Callback) (line : Nat) (s : Session) :
    Records (Inside s.collections.stack room) s (defer mode callback line s) := by
  refine (highlight_records mode "queueMicrotask" ["queueMicrotask"] line s).trans ?_
  rw [← highlight_stack mode "queueMicrotask" ["queueMicrotask"] line s]
  exact primitive_records _ "queueMicrotask" .primitive _ _ _ (·.addDeferred .microtask callback)
    (fun _ => rfl) (fun _ => rfl) (by decide) (by decide) (by decide)

theorem chain_records (mode : LineMode) (callback : Option Callback) (line : Nat) (s : Session) :
    Records (Inside s.collections.stack room) s (chain mode callback line s) := by
  refine (highlight_records mode "then" [".then"] line s).trans ?_
  rw [← highlight_stack mode "then" [".then"] line s]
  cases callback with
  | some callback =>
    exact primitive_records _ "Promise.then" .primitive _ _ _
      (·.addDeferred .continuation callback) (fun _ => rfl) (fun _ => rfl) (by decide) (by decide)
      (by decide)
  | none =>
    exact primitive_records _ "Promise.then" .primitive _ _ _ id (fun _ => rfl) (fun _ => rfl)
      (by decide) (by decide) (by decide)

theorem release_records (callbacks : List Callback) (s : Session) :
    Records (Inside s.collections.stack room) s (release callbacks s) := by
  induction callbacks generalizing s with
  | nil => exact .refl s
  | cons callback rest ih =>
    refine .trans ?_ (ih ((s.addDeferred .continuation callback).snap none
      "Promise resolved -> Microtask Queue" .idle))
    refine .snap rfl _ _ _ ?_
    intro x collections word phase
    exact .of_top [] (by rw [collections]; exact (List.append_nil _).symm)
      (Nat.zero_le 1) phase (by rw [word]; decide)

/-- A call is recorded when it begins and when it ends. -/
theorem call_records (name : String) (line : Nat) {s t : Session}
    (serves : Serves (s.enter name line) t)
    (inside : Records (Inside s.collections.stack room) (s.enter name line) t) :
    Records (Inside s.collections.stack room) s t.leave := by
  let frame : Frame := ⟨s.frames, name, .function, some line⟩
  have stack : t.collections.stack = s.collections.stack ++ [frame] := serves.stack
  have start : ("Call " ++ name).toList[0]? = some 'C' := getElem?_toList_append (by decide)
  have finish : ("Return from " ++ name).toList[1]? = some 'e' :=
    getElem?_toList_append (by decide)
  have entered : Records (Inside s.collections.stack room) s (s.enter name line) := by
    refine .snap (t := s.pushFrame name .function (some line)) rfl _ _ _ ?_
    intro x collections word phase
    exact .of_top [frame] (by rw [collections]; rfl) (Nat.le_refl 1) phase
      (by rw [word]; exact notMem_of_getElem? (getElem?_toList_append start) (by decide))
  refine entered.trans (inside.trans ?_)
  unfold leave
  rw [stack, List.getLast?_concat]
  refine .snap rfl _ _ _ ?_
  intro x collections word phase
  refine .of_top [] ?_ (Nat.zero_le 1) phase
    (by rw [word]; exact notMem_of_getElem? (getElem?_toList_append finish) (by decide))
  rw [collections]
  show t.collections.stack.dropLast = _
  rw [stack, List.dropLast_concat, List.append_nil]

end Session

/-- What an evaluation records lies inside it. -/
theorem Path.records {limits : Limits} {mode : LineMode} {m m' : Machine Session}
    (path : Path limits (Session.host mode) m m') :
    m.host.Records (Inside m.host.collections.stack (limits.maxCallDepth - m.depth)) m'.host := by
  induction path with
  | trans path₁ _ ih₁ ih₂ =>
    rw [path₁.serves.stack, path₁.depth_eq] at ih₂
    exact ih₁.trans ih₂
  | print m text line _ => exact Session.print_records mode text line m.host
  | registerTimer m function delay line _ =>
    exact Session.registerTimer_records mode (.plain function) delay line m.host
  | defer m function line _ => exact Session.defer_records mode (.plain function) line m.host
  | chain m receiver value function line _ _ =>
    exact Session.chain_records mode (some ⟨function, some value, some m.promises.size⟩) line m.host
  | park m receiver waiting function line _ _ => exact Session.chain_records mode none line m.host
  | call m m' name line _ shallow path ih =>
    refine Session.call_records name line path.serves (ih.mono ?_)
    intro x inside
    refine (Inside.of_call ⟨m.host.frames, name, .function, some line⟩ rfl inside).mono ?_
    show limits.maxCallDepth - (m.depth + 1) + 1 ≤ limits.maxCallDepth - m.depth
    omega
  | refuse m name line _ => exact Session.call_records name line (.refl _) (.refl _)
  | _ => exact .refl _

namespace Generation

variable {source : String} {m : Machine Session}

/-- What a script records lies inside it. -/
theorem runScript_records (settings : Settings) (script : Script)
    (reached : Reached source .empty m) :
    m.host.Records (Inside m.host.collections.stack (settings.maxCallDepth - m.depth))
      ((Eval.runScript settings.limits (Session.host settings.lineMode) script).run m).2.host := by
  have tracked : Eval.Tracked settings.limits (Session.host settings.lineMode) m
      (Eval.runScript settings.limits (Session.host settings.lineMode) script) fun _ _ => True :=
    Eval.runScript_tracked script reached.inOrder
  exact tracked.1.records

/-- What a callback records lies inside it. -/
theorem runCallback_records (settings : Settings) (callback : Callback)
    (reached : Reached source .empty m)
    (known : ∀ value, callback.argument = some value → value.Within m.promises.size) :
    m.host.Records (Inside m.host.collections.stack (settings.maxCallDepth - m.depth))
      ((Eval.runCallback settings.limits (Session.host settings.lineMode) callback).run
        m).2.host := by
  have inside {m' : Machine Session}
      (path : Path settings.limits (Session.host settings.lineMode) m.deeper m') :
      m.host.Records (Inside m.host.collections.stack (settings.maxCallDepth - m.depth))
        m'.host :=
    path.records.mono fun x inside =>
      inside.mono (Nat.sub_le_sub_left (Nat.le_succ m.depth) settings.maxCallDepth)
  rcases Eval.runCallback_cases callback reached.inOrder known with
    ⟨e, run, -⟩ | ⟨-, m', path, ⟨e, run, -⟩ | ⟨value, -, run⟩⟩
  · rw [run]
    exact .refl m.host
  · have recorded := inside path
    rw [run]
    exact recorded
  · have stack : m'.host.collections.stack = m.host.collections.stack := path.serves.stack
    have recorded := inside path
    rw [run]
    refine recorded.trans ?_
    cases callback.settles with
    | none => exact .refl m'.host
    | some p =>
      show m'.host.Records _ (m'.shallower.settle (Session.host settings.lineMode) p value).host
      rw [Session.host_settle, ← stack]
      exact Session.release_records _ m'.host

end Generation

end EventLoop
