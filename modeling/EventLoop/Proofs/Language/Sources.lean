import Mathlib.Order.Interval.Set.Basic
import EventLoop.Proofs.Language.LineBreaks
import EventLoop.Proofs.Language.Accepted

/-!
# What sources are read as

Tokens are on lines of their text, those in holes of template literals included, and what is wrong
with a text is on one of its lines. So every source is either rejected on one of its lines, or read
as a script that complies with the rules for accepted ones.
-/

namespace EventLoop

open Parsing

namespace Lexing

/-- The lines of a text that begins on the given line. -/
def span (cs : List Char) (line : Nat) : Set Nat :=
  Set.Icc line (linesAfter cs line)

theorem le_linesAfter (cs : List Char) (line : Nat) : line ≤ linesAfter cs line := by
  rw [linesAfter_count]
  exact Nat.le_add_right ..

theorem first_mem_span (cs : List Char) (line : Nat) : line ∈ span cs line :=
  ⟨Nat.le_refl _, le_linesAfter cs line⟩

theorem span_before (before after : List Char) (line : Nat) :
    span before line ⊆ span (before ++ after) line := by
  intro here member
  refine ⟨member.1, member.2.trans ?_⟩
  rw [linesAfter_append]
  exact le_linesAfter after _

theorem span_after (before after : List Char) (line : Nat) :
    span after (linesAfter before line) ⊆ span (before ++ after) line := by
  intro here member
  refine ⟨(le_linesAfter before line).trans member.1, member.2.trans ?_⟩
  rw [linesAfter_append]

/-- What follows a part of a text is on lines of the text. -/
theorem span_part {cs part rest : List Char} {line line' : Nat} (split : cs = part ++ rest)
    (lines : line' = linesAfter part line) : span rest line' ⊆ span cs line := by
  subst split lines
  exact span_after part rest line

theorem span_cons (c : Char) (cs : List Char) (line : Nat) :
    span cs (lineAfter c line) ⊆ span (c :: cs) line :=
  span_after [c] cs line

/-- The code of a hole comes before the brace that closes it. -/
theorem holeCode_value {cs : List Char} {quote : Option Char} {depth line : Nat}
    {s : Scan (List Char)} (read : holeCode cs quote depth line = some s) :
    cs = s.value ++ '}' :: s.rest := by
  fun_induction holeCode cs quote depth line generalizing s with
  | case1 => cases read
  | case2 => cases read
  | case3 _ _ _ d cs ih =>
    obtain ⟨t, inside, rfl⟩ := Option.map_eq_some_iff.mp read
    exact congrArg ('\\' :: d :: ·) (ih inside)
  | case4 c cs _ _ _ _ ih =>
    obtain ⟨t, inside, rfl⟩ := Option.map_eq_some_iff.mp read
    exact congrArg (c :: ·) (ih inside)
  | case5 =>
    cases read
    rfl
  | case6 _ cs _ ih =>
    obtain ⟨t, inside, rfl⟩ := Option.map_eq_some_iff.mp read
    exact congrArg ('}' :: ·) (ih inside)
  | case7 c cs =>
    rename_i ih
    obtain ⟨t, inside, rfl⟩ := Option.map_eq_some_iff.mp read
    exact congrArg (c :: ·) (ih inside)

variable {lines : Set Nat} {hole : Option HoleReader}

/-- What the reader makes of the code of a hole, or finds wrong with it, is on lines of the code. -/
def KeepsLines (hole : Option HoleReader) : Prop :=
  ∀ read ∈ hole, ∀ code line lines, span code line ⊆ lines →
    Outcome lines (Tokens.Within lines) (read code line)

theorem eachWithin_textChunk (backwards : List Char) {rest : List Chunk}
    (within : Chunk.EachWithin lines rest) :
    Chunk.EachWithin lines (textChunk backwards ++ rest) := by
  unfold textChunk
  split <;> exact within

theorem templateChunks_lines (keeps : KeepsLines hole) {start line : Nat} (member : start ∈ lines)
    (backwards cs : List Char) (sub : span cs line ⊆ lines) :
    Outcome lines (fun s => Chunk.EachWithin lines s.value)
      (templateChunks hole start backwards cs line) := by
  fun_induction templateChunks hole start backwards cs line with
  | case1 => exact ⟨start, member, _, rfl⟩
  | case2 backwards cs line =>
    show Chunk.EachWithin lines (textChunk backwards)
    unfold textChunk
    split <;> trivial
  | case3 => exact ⟨start, member, _, rfl⟩
  | case4 backwards line d cs _ ih => exact ih ((span_after ['\\', d] cs line).trans sub)
  | case5 => exact ⟨start, member, _, rfl⟩
  | case6 => exact ⟨start, member, _, rfl⟩
  | case7 backwards c cs line _ _ opens read same code found ih =>
    subst same
    obtain ⟨rfl, brace⟩ := opens
    obtain ⟨tail, rfl⟩ : ∃ tail, cs = '{' :: tail := List.head?_eq_some_iff.mp brace
    rw [List.tail_cons] at found
    have inner : span tail line ⊆ lines := (span_after ['$', '{'] tail line).trans sub
    obtain ⟨part, split, after⟩ := holeCode_part found
    have code : span code.value line ⊆ lines := by
      rw [holeCode_value found] at inner
      exact (span_before _ _ line).trans inner
    refine (keeps read rfl _ line lines code).bind ?_
    intro tokens within
    refine (ih ((span_part split after).trans inner)).bind ?_
    intro rest others
    exact eachWithin_textChunk backwards ⟨within.1, others⟩
  | case8 backwards c cs line _ _ _ ih => exact ih ((span_cons c cs line).trans sub)

theorem templateLexeme_within {chunks : List Chunk} (within : Chunk.EachWithin lines chunks) :
    (templateLexeme chunks).Within lines := by
  unfold templateLexeme Lexeme.Within
  split
  · trivial
  · exact within

/-- The characters that are scanned for a name are a word. -/
theorem isWord_scanned {c : Char} (start : isNameStart c = true) (cs : List Char) :
    isWord (String.ofList (c :: cs.takeWhile isNamePart)) = true := by
  have parts : (cs.takeWhile isNamePart).all isNamePart = true :=
    List.all_eq_true.mpr fun x member => List.mem_takeWhile_imp member
  simp [isWord, start, parts]

theorem next_lines (keeps : KeepsLines hole) (c : Char) (cs : List Char) {line : Nat}
    (sub : span (c :: cs) line ⊆ lines) :
    Outcome lines (fun s => Token.EachWithin lines s.value.toList) (next hole c cs line) := by
  have here : line ∈ lines := sub (first_mem_span (c :: cs) line)
  unfold next
  split
  · trivial
  split
  · trivial
  split
  · split
    · trivial
    · exact ⟨line, here, _, rfl⟩
  split
  · split
    · exact ⟨here, trivial, trivial⟩
    · exact ⟨line, here, _, rfl⟩
  split
  · rename_i template
    subst template
    have inside : span cs line ⊆ lines := (span_after ['\x60'] cs line).trans sub
    exact (templateChunks_lines keeps here [] cs inside).map fun s within =>
      ⟨here, templateLexeme_within within, trivial⟩
  split
  · exact ⟨here, trivial, trivial⟩
  split
  · rename_i start
    exact ⟨here, isWord_scanned start cs, trivial⟩
  split
  · exact ⟨here, trivial, trivial⟩
  · exact ⟨line, here, _, rfl⟩

theorem eachWithin_append {first rest : List Token} (within : Token.EachWithin lines first)
    (others : Token.EachWithin lines rest) : Token.EachWithin lines (first ++ rest) := by
  induction first with
  | nil => exact others
  | cons token first ih =>
    cases token
    exact ⟨within.1, within.2.1, ih within.2.2⟩

theorem tokensFrom_lines (keeps : KeepsLines hole) (cs : List Char) {line : Nat}
    (sub : span cs line ⊆ lines) :
    Outcome lines (Tokens.Within lines) (tokensFrom hole cs line) := by
  fun_induction tokensFrom hole cs line with
  | case1 line => exact ⟨trivial, sub (first_mem_span [] line)⟩
  | case2 line c cs e failed =>
    have outcome := next_lines keeps c cs sub
    rwa [failed] at outcome
  | case3 line c cs s found ih =>
    have outcome := next_lines keeps c cs sub
    rw [found] at outcome
    obtain ⟨part, split, after, -⟩ := next_part found
    refine (ih ((span_part split after).trans sub)).bind ?_
    intro rest others
    cases s with | mk value =>
    cases value with
    | none => exact others
    | some token => exact ⟨eachWithin_append outcome others.1, others.2⟩

theorem reader_keepsLines (holes : Nat) : KeepsLines (reader holes) := by
  induction holes with
  | zero => exact nofun
  | succ holes ih =>
    intro read same code line lines sub
    cases same
    rw [tokensWithin_eq]
    exact tokensFrom_lines ih code sub

end Lexing

open Lexing

/-- The lines of a source. -/
def sourceLines (source : String) : Set Nat :=
  Set.Icc 1 (1 + source.toList.count '\n')

theorem span_source (source : String) : span source.toList 1 = sourceLines source := by
  rw [span, linesAfter_count, sourceLines]

theorem tokenize_lines (limit : Nat) (source : String) :
    Outcome (sourceLines source) (Tokens.Within (sourceLines source)) (tokenize limit source) := by
  rw [tokenize, tokensWithin_eq]
  exact tokensFrom_lines (reader_keepsLines limit) source.toList (span_source source).subset

/-- A source is accepted, and its script complies with the rules; or it is rejected, on one of its
lines. -/
theorem parse_outcome (limit : Nat) (source : String) :
    Outcome (sourceLines source) (Script.Meets (.spelled (sourceLines source)))
      (parse limit source) := by
  refine (tokenize_lines limit source).bind ?_
  intro tokens within
  exact (script_ensures (sourceLines source) limit tokens within).map fun _ h => h.1

/-- Rules that follow from those for accepted scripts hold of the script of every source that is not
rejected. -/
theorem parse_meets {rules : Rules} (limit : Nat) (source : String)
    (implied : (Rules.accepted (sourceLines source)).Implies rules) :
    Outcome (sourceLines source) (Script.Meets rules) (parse limit source) :=
  (parse_outcome limit source).mono fun script meets =>
    Stmt.EachMeets.mono ((Rules.Implies.spelled_accepted _).trans implied) script meets

/-- Whatever the source, it is rejected with a syntax error, or the words that its script looks up,
declares, counts, or has as the names of functions and parameters are none of those that the
language keeps, and those that it assigns to are no reserved ones. This covers function bodies and
holes. -/
theorem parse_named (limit : Nat) (source : String) :
    Outcome (sourceLines source) (Script.Meets (.named (· ∉ reservedWords))) (parse limit source) :=
  parse_meets limit source (.and_left _ _)

/-- The target of an assignment that is a statement of its own. -/
def Stmt.assigned? : Stmt → Option String
  | .evaluate (.assign _ _ target _) => some target
  | _ => none

/-- Names that are assigned to may be words kept for constructs that the language does not have. -/
theorem parse_assigned_unsupported :
    ∃ script, parse 64 "new = null" = .ok script ∧ ¬ Script.Meets (.named IsFree) script := by
  have targets : (parse 64 "new = null").toOption.map (List.map Stmt.assigned?) =
      some [some "new"] := by
    decide +kernel
  obtain ⟨script, accepted, statements⟩ := Option.map_eq_some_iff.mp targets
  refine ⟨script, ?_, ?_⟩
  · cases found : parse 64 "new = null" with
    | error e =>
      rw [found] at accepted
      cases accepted
    | ok _ =>
      rw [found] at accepted
      cases accepted
      rfl
  obtain ⟨s, rfl, assigned⟩ := List.map_eq_singleton_iff.mp statements
  intro meets
  unfold Stmt.assigned? at assigned
  split at assigned
  · cases assigned
    have free : IsFree "new" := meets.1.2.1
    exact absurd free (by decide)
  · cases assigned

end EventLoop
