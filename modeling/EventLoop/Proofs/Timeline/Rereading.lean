import Mathlib.Data.List.Nodup
import EventLoop.Proofs.Json.Rereading
import EventLoop.Timeline.Document

/-!
# Timelines are read back from their documents

A timeline whose numbers fit machine words is read back from its document, and whatever document a
timeline is read from, its numbers fit. So what has been read once is read back from then on, in
whichever of its forms it was given first.
-/

namespace EventLoop

namespace Json

variable {α : Type}

/-- What is read from a list is read from its items. -/
theorem exists_of_mem_mapM {read : Json → Option α} {items : List Json} {all : List α}
    (found : items.mapM read = some all) {a : α} (member : a ∈ all) :
    ∃ item, read item = some a := by
  induction items generalizing all with
  | nil =>
    cases found
    cases member
  | cons item items ih =>
    simp only [List.mapM_cons, Option.bind_eq_bind, Option.bind_eq_some_iff] at found
    obtain ⟨first, here, others, after, same⟩ := found
    cases same
    rcases List.mem_cons.mp member with rfl | later
    · exact ⟨item, here⟩
    · exact ih after later

/-- What is written for things that fit is read as them, and whatever is read fits. -/
structure Rereads (write : α → Json) (read : Json → Option α) (Fits : α → Prop) : Prop where
  back : ∀ a, Fits a → read (write a) = some a
  fits : ∀ json a, read json = some a → Fits a
  plain : ∀ a, (write a).IsPlain

namespace Rereads

variable {write : α → Json} {read : Json → Option α} {Fits : α → Prop}

theorem natural : Rereads natural word? (· < Number.wordCount) where
  back _ := word?_natural
  fits json n read := by
    cases json with
    | natural m =>
      by_cases fits : m < Number.wordCount
      · rw [word?_natural fits] at read
        cases read
        exact fits
      · simp [word?, fits] at read
    | _ => cases read
  plain _ := trivial

theorem text : Rereads text text? fun _ => True where
  back _ _ := rfl
  fits _ _ _ := trivial
  plain _ := trivial

theorem oneOf {word : α → String} {ofWord? : String → Option α}
    (known : ∀ a, ofWord? (word a) = some a) :
    Rereads (fun a => .text (word a)) (oneOf? ofWord?) fun _ => True where
  back a _ := known a
  fits _ _ _ := trivial
  plain _ := trivial

theorem ofList (each : Rereads write read Fits) :
    Rereads (ofList write) (list? read) fun items => ∀ a ∈ items, Fits a where
  back items fits := list?_ofList fun a member => each.back a (fits a member)
  fits json items found := by
    cases json with
    | array written =>
      intro a member
      obtain ⟨item, same⟩ := exists_of_mem_mapM (show written.mapM read = some items from found)
        member
      exact each.fits item a same
    | _ => cases found
  plain items := eachPlain_iff.mpr fun item member => by
    obtain ⟨a, -, rfl⟩ := List.mem_map.mp member
    exact each.plain a

theorem required (each : Rereads write read Fits) {a : α} (fits : Fits a) :
    required read (some (write a)) = some a :=
  each.back a fits

theorem of_required (each : Rereads write read Fits) {field : Option Json} {a : α}
    (found : EventLoop.required read field = some a) : Fits a := by
  obtain ⟨json, -, found⟩ := Option.bind_eq_some_iff.mp found
  exact each.fits json a found

end Rereads

/-- Of an object whose members have these names in order, the values are the fields. -/
theorem fields?_zip {names : List String} (once : names.Nodup) (values : List Json)
    (same : names.length = values.length) (least : Nat) :
    (object (names.zip values)).fields? names least = some (values.map some) := by
  have after (front : List (String × Json)) (apart : ∀ member ∈ front, member.1 ∉ names) :
      names.mapM (fun name => member? name (front ++ names.zip values)) =
        some (values.map some) := by
    induction names generalizing values front with
    | nil =>
      cases values with
      | nil => rfl
      | cons _ _ => cases same
    | cons name names ih =>
      cases values with
      | nil => cases same
      | cons value values =>
        obtain ⟨new, once⟩ := List.nodup_cons.mp once
        have before : front.filter (fun member => member.1 = name) = [] := by
          simp only [List.filter_eq_nil_iff, decide_eq_true_eq]
          rintro member known rfl
          exact apart member known List.mem_cons_self
        have behind : (names.zip values).filter (fun member => member.1 = name) = [] := by
          simp only [List.filter_eq_nil_iff, decide_eq_true_eq]
          rintro ⟨other, _⟩ known rfl
          exact new (List.of_mem_zip known).1
        have here : member? name (front ++ (name, value) :: names.zip values) =
            some (some value) := by
          simp [member?, before, behind]
        have others := ih once values (by simpa using same) (front ++ [(name, value)]) (by
          intro member known
          rcases List.mem_append.mp known with old | last
          · exact fun later => apart member old (List.mem_cons_of_mem _ later)
          · rw [List.mem_singleton.mp last]
            exact new)
        rw [List.append_assoc, List.singleton_append] at others
        simp [here, others]
  exact after [] (by simp)

theorem optionalWord_ofOption {line : Option Nat} (fits : ∀ n ∈ line, n < Number.wordCount) :
    optionalWord (some (ofOption natural line)) = some line := by
  cases line with
  | none => rfl
  | some n => simp [optionalWord, ofOption, nullable?, word?_natural (fits n rfl)]

theorem fits_of_optionalWord {field : Option Json} {line : Option Nat}
    (found : optionalWord field = some line) : ∀ n ∈ line, n < Number.wordCount := by
  rintro n rfl
  rcases field with _ | _ | _ | m | _ | _ | _ | _ | _ <;> try cases found
  have found : (word? (natural m)).map some = some (some n) := found
  simp only [Option.map_eq_some_iff, Option.some.injEq, exists_eq_right] at found
  exact Rereads.natural.fits _ _ found

theorem plain_ofOption (line : Option Nat) : (ofOption natural line).IsPlain := by
  cases line <;> trivial

end Json

/-! ## What fits machine words -/

/-- The slot and the version take half of a machine word each. -/
structure SlotKey.Fits (key : SlotKey) : Prop where
  index : key.index < SlotKey.indexCount
  code : key.code < Number.wordCount

structure Frame.Fits (frame : Frame) : Prop where
  id : frame.id < Number.wordCount
  line : ∀ line ∈ frame.line, line < Number.wordCount

structure PendingTimer.Fits (timer : PendingTimer) : Prop where
  id : timer.id < Number.wordCount
  delay : timer.delay < Number.wordCount
  remaining : timer.remaining < Number.wordCount
  seq : timer.seq < Number.wordCount
  callback : timer.callback.Fits

structure QueuedTask.Fits (task : QueuedTask) : Prop where
  id : task.id < Number.wordCount
  callback : task.callback.Fits

structure Snapshot.Fits (s : Snapshot) : Prop where
  id : s.id < Number.wordCount
  stack : ∀ frame ∈ s.stack, frame.Fits
  pendingTimers : ∀ timer ∈ s.pendingTimers, timer.Fits
  deferredQueue : ∀ task ∈ s.deferredQueue, task.Fits
  readyQueue : ∀ task ∈ s.readyQueue, task.Fits
  highlightLine : ∀ line ∈ s.highlightLine, line < Number.wordCount

/-- All numbers in the timeline are numbers that a machine word can hold. -/
def Timeline.Fits (timeline : Timeline) : Prop :=
  ∀ s ∈ timeline.snapshots.toList, s.Fits

/-! ## Records -/

open Json (Rereads)

theorem SlotKey.rereads : Rereads SlotKey.toJson SlotKey.ofJson? SlotKey.Fits where
  back key fits := by
    simp [ofJson?, toJson, Json.word?_natural fits.code, ofCode_code fits.index]
  fits json key found := by
    obtain ⟨n, read, rfl⟩ := Option.map_eq_some_iff.mp found
    refine ⟨Nat.mod_lt n (by decide), ?_⟩
    rw [code_ofCode]
    exact Rereads.natural.fits json n read
  plain _ := trivial

theorem Frame.rereads : Rereads Frame.toJson Frame.ofJson? Frame.Fits where
  back frame fits := by
    have fields : frame.toJson.fields? fieldNames fieldNames.length = some _ :=
      Json.fields?_zip (show fieldNames.Nodup by decide)
        [ .natural frame.id, .text frame.name, .text frame.kind.word,
          .ofOption .natural frame.line ]
        rfl _
    simp [ofJson?, fields, Rereads.natural.required fits.id, Rereads.text.required trivial,
      (Rereads.oneOf FrameKind.ofWord?_word).required trivial,
      Json.optionalWord_ofOption fits.line]
  fits json frame found := by
    obtain ⟨fields, -, found⟩ := Option.bind_eq_some_iff.mp found
    split at found <;> try cases found
    simp only [Option.bind_eq_bind, Option.bind_eq_some_iff] at found
    obtain ⟨id, hid, name, -, kind, -, line, hline, same⟩ := found
    cases same
    exact ⟨Rereads.natural.of_required hid, Json.fits_of_optionalWord hline⟩
  plain frame := ⟨trivial, trivial, trivial, Json.plain_ofOption frame.line, trivial⟩

theorem PendingTimer.rereads :
    Rereads PendingTimer.toJson PendingTimer.ofJson? PendingTimer.Fits where
  back timer fits := by
    have fields : timer.toJson.fields? fieldNames fieldNames.length = some _ :=
      Json.fields?_zip (show fieldNames.Nodup by decide)
        [ .natural timer.id, .natural timer.delay, .natural timer.remaining,
          .natural timer.seq, timer.callback.toJson ]
        rfl _
    simp [ofJson?, fields, Rereads.natural.required fits.id, Rereads.natural.required fits.delay,
      Rereads.natural.required fits.remaining, Rereads.natural.required fits.seq,
      SlotKey.rereads.required fits.callback]
  fits json timer found := by
    obtain ⟨fields, -, found⟩ := Option.bind_eq_some_iff.mp found
    split at found <;> try cases found
    simp only [Option.bind_eq_bind, Option.bind_eq_some_iff] at found
    obtain ⟨id, hid, delay, hdelay, remaining, hremaining, seq, hseq, callback, hcallback, same⟩ :=
      found
    cases same
    exact ⟨Rereads.natural.of_required hid, Rereads.natural.of_required hdelay,
      Rereads.natural.of_required hremaining, Rereads.natural.of_required hseq,
      SlotKey.rereads.of_required hcallback⟩
  plain timer := ⟨trivial, trivial, trivial, trivial, trivial, trivial⟩

theorem QueuedTask.rereads : Rereads QueuedTask.toJson QueuedTask.ofJson? QueuedTask.Fits where
  back task fits := by
    have fields : task.toJson.fields? fieldNames fieldNames.length = some _ :=
      Json.fields?_zip (show fieldNames.Nodup by decide)
        [ .natural task.id, .text task.name, .text task.kind.word,
          task.callback.toJson ]
        rfl _
    simp [ofJson?, fields, Rereads.natural.required fits.id, Rereads.text.required trivial,
      (Rereads.oneOf TaskKind.ofWord?_word).required trivial,
      SlotKey.rereads.required fits.callback]
  fits json task found := by
    obtain ⟨fields, -, found⟩ := Option.bind_eq_some_iff.mp found
    split at found <;> try cases found
    simp only [Option.bind_eq_bind, Option.bind_eq_some_iff] at found
    obtain ⟨id, hid, name, -, kind, -, callback, hcallback, same⟩ := found
    cases same
    exact ⟨Rereads.natural.of_required hid, SlotKey.rereads.of_required hcallback⟩
  plain task := ⟨trivial, trivial, trivial, trivial, trivial⟩

theorem Phase.rereads : Rereads Phase.toJson Phase.ofJson? fun _ => True :=
  Rereads.oneOf Phase.ofWord?_word

theorem Snapshot.rereads : Rereads Snapshot.toJson Snapshot.ofJson? Snapshot.Fits where
  back s fits := by
    have fields : s.toJson.fields? fieldNames fieldNames.length = some _ :=
      Json.fields?_zip (show fieldNames.Nodup by decide)
        [ .natural s.id, .ofList Frame.toJson s.stack,
          .ofList PendingTimer.toJson s.pendingTimers, .ofList QueuedTask.toJson s.deferredQueue,
          .ofList QueuedTask.toJson s.readyQueue, .ofList Json.text s.output,
          .ofOption .natural s.highlightLine, .text s.description, s.phase.toJson ]
        rfl _
    simp [ofJson?, fields, Rereads.natural.required fits.id,
      Frame.rereads.ofList.required fits.stack,
      PendingTimer.rereads.ofList.required fits.pendingTimers,
      QueuedTask.rereads.ofList.required fits.deferredQueue,
      QueuedTask.rereads.ofList.required fits.readyQueue,
      Rereads.text.ofList.required fun _ _ => trivial,
      Json.optionalWord_ofOption fits.highlightLine, Rereads.text.required trivial,
      Phase.rereads.required trivial]
  fits json s found := by
    obtain ⟨fields, -, found⟩ := Option.bind_eq_some_iff.mp found
    split at found <;> try cases found
    simp only [Option.bind_eq_bind, Option.bind_eq_some_iff] at found
    obtain ⟨id, hid, stack, hstack, timers, htimers, deferred, hdeferred, ready, hready, output, -,
      line, hline, description, -, phase, -, same⟩ := found
    cases same
    exact ⟨Rereads.natural.of_required hid, Frame.rereads.ofList.of_required hstack,
      PendingTimer.rereads.ofList.of_required htimers,
      QueuedTask.rereads.ofList.of_required hdeferred,
      QueuedTask.rereads.ofList.of_required hready, Json.fits_of_optionalWord hline⟩
  plain s := ⟨trivial, Frame.rereads.ofList.plain _, PendingTimer.rereads.ofList.plain _,
    QueuedTask.rereads.ofList.plain _, QueuedTask.rereads.ofList.plain _,
    Rereads.text.ofList.plain _, Json.plain_ofOption s.highlightLine, trivial, trivial, trivial⟩

namespace Timeline

theorem rereads : Rereads toJson ofJson? Fits where
  back timeline fits := by
    have read := Snapshot.rereads.ofList.back timeline.snapshots.toList fits
    simp [ofJson?, toJson, read]
  fits json timeline found := by
    obtain ⟨snapshots, read, rfl⟩ := Option.map_eq_some_iff.mp found
    simpa [Fits] using Snapshot.rereads.ofList.fits json snapshots read
  plain timeline := Snapshot.rereads.ofList.plain _

/-- Exactly the timelines whose numbers fit machine words are read back from their documents. Any
timeline that is read from a document, in whichever form, is among them. As text, on one line or
over several, the document of a timeline is read as it was written. -/
theorem documents_reread :
    (∀ timeline : Timeline, timeline.Fits ↔ ofJson? timeline.toJson = some timeline) ∧
      (∀ (json : Json) (timeline : Timeline), ofJson? json = some timeline →
        ofJson? timeline.toJson = some timeline) ∧
      ∀ timeline : Timeline, Json.ofText? timeline.toJson.compact = some timeline.toJson ∧
        Json.ofText? timeline.toJson.pretty = some timeline.toJson := by
  refine ⟨fun timeline => ⟨rereads.back timeline, rereads.fits _ timeline⟩, ?_, ?_⟩
  · intro json timeline read
    exact rereads.back timeline (rereads.fits json timeline read)
  · intro timeline
    have plain := rereads.plain timeline
    exact ⟨Json.ofText?_compact plain, Json.ofText?_pretty plain⟩

/-- A record as an array, a member that is not known, and no line. -/
def freeForm : Json :=
  .array
    [ .object
        [ ("phase", .text "checking"), ("id", .natural 3), ("note", .bool true),
          ("stack", .array [.array [.natural 0, .text "main()", .text "main", .null]]),
          ("pending_timers", .array [.object
            [ ("id", .natural 1), ("delay", .natural (18446744073709551615)), ("seq", .natural 0),
              ("remaining", .natural 5), ("callback", .natural (4294967297)) ]]),
          ("deferred_queue", .array []), ("ready_queue", .array []),
          ("output", .array [.text "a\x22"]), ("description", .text "") ] ]

theorem documents_reread_freeForm :
    ∃ timeline : Timeline, ofJson? freeForm = some timeline ∧
      ofJson? timeline.toJson = some timeline := by
  have read : ofJson? freeForm = some ⟨#[{
      id := 3
      stack := [⟨0, "main()", .main, none⟩]
      pendingTimers := [⟨1, 18446744073709551615, 5, 0, ⟨1, 1⟩⟩]
      deferredQueue := []
      readyQueue := []
      output := ["a\x22"]
      highlightLine := none
      description := ""
      phase := .checking }]⟩ := by
    rfl
  exact ⟨_, read, documents_reread.2.1 _ _ read⟩

end Timeline

end EventLoop
