import Mathlib.Data.List.Forall2
import EventLoop.Timeline.Report

/-!
# The lines of a summary

A summary has a line for each snapshot, then an empty one and a title, and then a line for each line
of output. The descriptions and the output are shown as they are: each line feed in one of them
makes one more line.
-/

namespace EventLoop

/-- How many line feeds a text has. -/
def lineFeeds (text : String) : Nat :=
  text.toList.count '\n'

/-- The text has no line feed. -/
def OneLine (text : String) : Prop :=
  '\n' ∉ text.toList

instance (text : String) : Decidable (OneLine text) :=
  inferInstanceAs (Decidable (_ ∉ _))

theorem lineFeeds_eq_zero {text : String} : lineFeeds text = 0 ↔ OneLine text :=
  List.count_eq_zero

theorem lineFeeds_append (first second : String) :
    lineFeeds (first ++ second) = lineFeeds first + lineFeeds second := by
  rw [lineFeeds, String.toList_append, List.count_append]
  rfl

theorem lineFeeds_join_eq_zero {texts : List String} :
    lineFeeds (String.join texts) = 0 ↔ ∀ text ∈ texts, OneLine text := by
  induction texts with
  | nil => exact iff_of_true rfl nofun
  | cons text texts ih =>
    rw [String.join_cons, lineFeeds_append, Nat.add_eq_zero_iff, lineFeeds_eq_zero, ih,
      List.forall_mem_cons]

namespace OneLine

variable {first second : String}

theorem append (one : OneLine first) (two : OneLine second) : OneLine (first ++ second) := by
  unfold OneLine
  rw [String.toList_append, List.mem_append]
  exact not_or.mpr ⟨one, two⟩

theorem of_suffix (one : OneLine first) (suffix : second.toList <:+ first.toList) :
    OneLine second :=
  fun member => one (suffix.subset member)

theorem of_nat (n : Nat) : OneLine (toString n) := by
  intro member
  have digit : '\n'.isDigit = true := by
    rw [show (toString n).toList = Nat.toDigits 10 n from String.toList_ofList] at member
    exact Nat.isDigit_of_mem_toDigits (by decide) (by decide) member
  exact absurd digit (by decide)

theorem pushn (one : OneLine first) {c : Char} (other : '\n' ≠ c) (n : Nat) :
    OneLine (first.pushn c n) := by
  rw [String.pushn_eq_repeat_push]
  induction n with
  | zero => exact one
  | succ n ih =>
    show OneLine ((Nat.repeat _ n first).push c)
    unfold OneLine
    rw [String.toList_push, List.mem_append, List.mem_singleton]
    exact not_or.mpr ⟨ih, other⟩

theorem padLeft (one : OneLine first) (width : Nat) : OneLine (padLeft width first) :=
  ((by decide : OneLine "").pushn (by decide) _).append one

theorem padRight (one : OneLine first) (width : Nat) : OneLine (padRight width first) :=
  one.pushn (by decide) _

theorem shown (phase : Phase) : OneLine phase.shown := by
  cases phase <;> decide

theorem lineLabel (line : Option Nat) : OneLine (lineLabel line) := by
  cases line with
  | none => exact (by decide : OneLine "-")
  | some line => exact (by decide : OneLine "L").append (of_nat line)

end OneLine

/-! ## The line of a snapshot -/

/-- What comes before the description in the line of a snapshot. -/
def Snapshot.columns (x : Snapshot) : String :=
  padLeft 4 (toString x.id) ++ "  " ++ padRight 18 x.phase.shown ++ "  " ++
    padLeft 5 (lineLabel x.highlightLine) ++ "  "

theorem Snapshot.summaryLine_eq (x : Snapshot) : x.summaryLine = x.columns ++ x.description := rfl

theorem Snapshot.columns_oneLine (x : Snapshot) : OneLine x.columns := by
  have gap : OneLine "  " := by decide
  have id := (OneLine.of_nat x.id).padLeft 4
  have phase := (OneLine.shown x.phase).padRight 18
  have line := (OneLine.lineLabel x.highlightLine).padLeft 5
  exact ((((id.append gap).append phase).append gap).append line).append gap

/-- The line stands for the snapshot: it begins with its number and ends with its description. -/
def Snapshot.HasLine (x : Snapshot) (line : String) : Prop :=
  (padLeft 4 (toString x.id)).toList <+: line.toList ∧ x.description.toList <:+ line.toList

theorem Snapshot.hasLine_summaryLine (x : Snapshot) : x.HasLine x.summaryLine := by
  refine ⟨?_, ?_⟩
  · unfold summaryLine
    simp only [String.toList_append, List.append_assoc]
    exact List.prefix_append _ _
  · rw [summaryLine_eq, String.toList_append]
    exact List.suffix_append _ _

/-! ## All lines -/

/-- The text consists of the lines: each is ended by a line feed and has no other. -/
structure ConsistsOf (text : String) (lines : List String) : Prop where
  eq : text = listLines "" lines
  each : ∀ line ∈ lines, OneLine line

theorem listLines_cons (indent line : String) (lines : List String) :
    listLines indent (line :: lines) = indent ++ line ++ "\n" ++ listLines indent lines := by
  rw [listLines, List.map_cons, String.join_cons]
  rfl

theorem listLines_append (indent : String) (first second : List String) :
    listLines indent (first ++ second) = listLines indent first ++ listLines indent second := by
  induction first with
  | nil => exact (String.empty_append).symm
  | cons line first ih =>
    rw [List.cons_append, listLines_cons, listLines_cons, ih, ← String.append_assoc]

/-- Lines behind blanks are lines that begin with blanks. -/
theorem listLines_indent (indent : String) (lines : List String) :
    listLines indent lines = listLines "" (lines.map (indent ++ ·)) := by
  induction lines with
  | nil => rfl
  | cons line lines ih =>
    rw [List.map_cons, listLines_cons, listLines_cons, ih, String.empty_append]

theorem lineFeeds_listLines {indent : String} (one : OneLine indent) (lines : List String) :
    lineFeeds (listLines indent lines) = lines.length + lineFeeds (String.join lines) := by
  induction lines with
  | nil => rfl
  | cons line lines ih =>
    have first : lineFeeds (indent ++ line ++ "\n") = lineFeeds line + 1 := by
      rw [lineFeeds_append, lineFeeds_append, lineFeeds_eq_zero.mpr one, Nat.zero_add]
      rfl
    rw [listLines_cons, lineFeeds_append, first, ih, String.join_cons, lineFeeds_append,
      List.length_cons]
    omega

/-- What comes before the description in the line of a snapshot makes no further line. -/
theorem lineFeeds_summaryLines (snapshots : List Snapshot) :
    lineFeeds (String.join (snapshots.map Snapshot.summaryLine)) =
      lineFeeds (String.join (snapshots.map Snapshot.description)) := by
  induction snapshots with
  | nil => rw [List.map_nil, List.map_nil]
  | cons x snapshots ih =>
    rw [List.map_cons, List.map_cons, String.join_cons, String.join_cons, lineFeeds_append,
      lineFeeds_append, ih, Snapshot.summaryLine_eq, lineFeeds_append,
      lineFeeds_eq_zero.mpr x.columns_oneLine, Nat.zero_add]

namespace Timeline

variable (timeline : Timeline)

/-- Each line feed in a description or in the output is one more in the summary. -/
theorem lineFeeds_summary :
    lineFeeds timeline.summary = timeline.size + 2 + timeline.finalOutput.length +
      lineFeeds (String.join (timeline.snapshots.toList.map Snapshot.description)) +
      lineFeeds (String.join timeline.finalOutput) := by
  have title : lineFeeds "\noutput:\n" = 2 := by decide
  have size : timeline.snapshots.toList.length = timeline.size := Array.length_toList
  unfold summary
  rw [lineFeeds_append, lineFeeds_append, lineFeeds_listLines (by decide),
    lineFeeds_listLines (by decide), title, List.length_map, lineFeeds_summaryLines, size]
  omega

/-- The summary consists of a line for each snapshot, an empty one, one that is a title, and a line
for each line of output. -/
def HasLineEach : Prop :=
  ∃ rows outputs : List String,
    ConsistsOf timeline.summary (rows ++ ["", "output:"] ++ outputs) ∧
    List.Forall₂ Snapshot.HasLine timeline.snapshots.toList rows ∧
    List.Forall₂ (fun text line => text.toList <:+ line.toList) timeline.finalOutput outputs

variable {timeline}

theorem summary_eq_listLines :
    timeline.summary = listLines "" (timeline.snapshots.toList.map Snapshot.summaryLine ++
      ["", "output:"] ++ timeline.finalOutput.map ("  " ++ ·)) := by
  rw [summary, listLines_append, listLines_append, listLines_indent "  "]
  rfl

theorem HasLineEach.of_oneLine
    (descriptions : ∀ x ∈ timeline.snapshots.toList, OneLine x.description)
    (outputs : ∀ text ∈ timeline.finalOutput, OneLine text) : timeline.HasLineEach := by
  refine ⟨_, _, ⟨summary_eq_listLines, ?_⟩, ?_, ?_⟩
  · refine List.forall_mem_append.mpr ⟨List.forall_mem_append.mpr ⟨?_, by decide⟩, ?_⟩
    · exact List.forall_mem_map.mpr fun x member => x.columns_oneLine.append (descriptions x member)
    · exact List.forall_mem_map.mpr fun text member =>
        (by decide : OneLine "  ").append (outputs text member)
  · exact List.forall₂_map_right_iff.mpr
      (List.forall₂_same.mpr fun x _ => x.hasLine_summaryLine)
  · refine List.forall₂_map_right_iff.mpr (List.forall₂_same.mpr fun text _ => ?_)
    rw [String.toList_append]
    exact List.suffix_append _ _

/-- A summary with a line for each has as many line feeds as lines. -/
theorem HasLineEach.lineFeeds_eq (lined : timeline.HasLineEach) :
    lineFeeds timeline.summary = timeline.size + 2 + timeline.finalOutput.length := by
  obtain ⟨rows, outputs, consists, snapshots, printed⟩ := lined
  have none := lineFeeds_join_eq_zero.mpr consists.each
  have size : rows.length = timeline.size := snapshots.length_eq.symm
  have length : outputs.length = timeline.finalOutput.length := printed.length_eq.symm
  rw [consists.eq, lineFeeds_listLines (by decide), none, List.length_append, List.length_append,
    size, length]
  rfl

/-- A summary with as many line feeds shows none that is in a description or in the output. -/
theorem oneLine_of_lineFeeds_eq
    (count : lineFeeds timeline.summary = timeline.size + 2 + timeline.finalOutput.length) :
    (∀ x ∈ timeline.snapshots.toList, OneLine x.description) ∧
      ∀ text ∈ timeline.finalOutput, OneLine text := by
  have all := lineFeeds_summary timeline
  have descriptions := lineFeeds_join_eq_zero.mp
    (by omega : lineFeeds (String.join (timeline.snapshots.toList.map Snapshot.description)) = 0)
  have outputs := lineFeeds_join_eq_zero.mp
    (by omega : lineFeeds (String.join timeline.finalOutput) = 0)
  exact ⟨List.forall_mem_map.mp descriptions, outputs⟩

end Timeline

end EventLoop
