import EventLoop.Proofs.Language.Holes
import EventLoop.Proofs.Language.Printing
import EventLoop.Proofs.Number.Whole

/-!
# Written tokens are read again

Each lexeme that can be written is read from its characters as long as a blank follows, so tokens
are cut from their characters again. Inside a template literal the scanner that looks for the end of
a hole has to pass over the characters of the hole, which it does because their braces match.
-/

namespace EventLoop

open Parsing (Surroundings)

namespace Lexing

variable {hole : Option HoleReader}

/-! ## Lexemes -/

theorem inRanges_disjoint {table other : List CodeRange} {c : Char}
    (apart : (table.all fun range => other.all fun range' =>
      range.2 < range'.1 || range'.2 < range.1) = true)
    (inside : inRanges table c = true) : inRanges other c = false := by
  obtain ⟨range, member, low, high⟩ := (inRanges_iff table c).mp inside
  refine Bool.eq_false_iff.mpr fun both => ?_
  obtain ⟨range', member', low', high'⟩ := (inRanges_iff other c).mp both
  have disjoint := List.all_eq_true.mp (List.all_eq_true.mp apart range member) range' member'
  simp only [Bool.or_eq_true, decide_eq_true_eq] at disjoint
  omega

theorem isDigit_iff (c : Char) : c.isDigit = inRanges [(48, 57)] c := by
  simp [Char.isDigit, inRanges, UInt32.le_iff_toNat_le]

/-- The first character of a name begins nothing else. -/
theorem isNameStart_only {c : Char} (start : isNameStart c = true) :
    isBlank c = false ∧ c ≠ '/' ∧ isQuote c = false ∧ c ≠ '\x60' ∧ c.isDigit = false := by
  have other {x : Char} (none : isNameStart x = false) : c ≠ x := by
    rintro rfl
    exact Bool.false_ne_true (none.symm.trans start)
  have quote : isQuote c = false := by
    simp [isQuote, other (x := '\x22') (by decide +kernel), other (x := '\x27') (by decide +kernel)]
  refine ⟨?_, other (by decide +kernel), quote, other (by decide +kernel), ?_⟩
  all_goals simp only [isNameStart, Bool.or_eq_true, beq_iff_eq] at start
  · rcases start with (letter | rfl) | rfl
    · exact inRanges_disjoint (by decide +kernel) letter
    · decide
    · decide
  · rcases start with (letter | rfl) | rfl
    · rw [isDigit_iff]
      exact inRanges_disjoint (by decide +kernel) letter
    · decide
    · decide

/-- A word ends before a character that is no part of words. -/
theorem next_name {c stop : Char} {cs rest : List Char} (start : isNameStart c = true)
    (parts : ∀ d ∈ cs, isNamePart d = true) (ends : isNamePart stop = false) (line : Nat) :
    next hole c (cs ++ stop :: rest) line =
      .ok ⟨some (.at line (.name (String.ofList (c :: cs)))), stop :: rest, line⟩ := by
  obtain ⟨blank, slash, quote, template, digit⟩ := isNameStart_only start
  have taken : (cs ++ stop :: rest).takeWhile isNamePart = cs := by
    rw [List.takeWhile_append_of_pos parts, List.takeWhile_cons_of_neg (by simp [ends]),
      List.append_nil]
  have dropped : (cs ++ stop :: rest).dropWhile isNamePart = stop :: rest := by
    rw [List.dropWhile_append_of_pos parts, List.dropWhile_cons_of_neg (by simp [ends])]
  unfold next
  simp only [blank, slash, quote, template, digit, start, taken, dropped, if_true, if_false,
    false_and, Bool.false_eq_true]

/-- Nothing but a number is written with digits. -/
theorem numeral_digits {digits rest : List Char} {stop : Char}
    (all : ∀ c ∈ digits, c.isDigit = true) (ends : isDigitOrGap stop = false)
    (point : stop ≠ '.') :
    numeral (digits ++ stop :: rest) = (Number.ofDecimal digits [] 0, stop :: rest) := by
  have counted : ∀ c ∈ digits, isDigitOrGap c = true := fun c member => by
    simp [isDigitOrGap, all c member]
  have taken : (digits ++ stop :: rest).takeWhile isDigitOrGap = digits := by
    rw [List.takeWhile_append_of_pos counted, List.takeWhile_cons_of_neg (by simp [ends]),
      List.append_nil]
  have dropped : (digits ++ stop :: rest).dropWhile isDigitOrGap = stop :: rest := by
    rw [List.dropWhile_append_of_pos counted, List.dropWhile_cons_of_neg (by simp [ends])]
  have kept : digits.filter (· != '_') = digits := List.filter_eq_self.mpr fun c member => by
    rw [bne_iff_ne]
    rintro rfl
    exact absurd (all '_' member) (by decide)
  unfold numeral
  rw [taken, dropped, kept]
  split
  · rename_i same
    cases same
    exact absurd rfl point
  · rfl

/-- A whole number is read from its digits. -/
theorem ofDecimal_digitsOf {value : Float} (whole : IsWhole value) :
    Number.ofDecimal (digitsOf value) [] 0 = value := by
  obtain ⟨n, small, rfl⟩ := whole
  rw [digitsOf, Number.wholeWithin_ofNat small, Int.toNat_natCast, Number.ofDecimal_toDigits
    (small.trans (by decide +kernel))]

theorem isDigit_of_mem_digitsOf {value : Float} {c : Char} (member : c ∈ digitsOf value) :
    c.isDigit = true :=
  Nat.isDigit_of_mem_toDigits (by decide) (by decide) member

theorem next_number {c stop : Char} {cs rest : List Char}
    (digits : ∀ d ∈ c :: cs, d.isDigit = true) (ends : isDigitOrGap stop = false)
    (point : stop ≠ '.') (line : Nat) :
    next hole c (cs ++ stop :: rest) line =
      .ok ⟨some (.at line (.number (Number.ofDecimal (c :: cs) [] 0))), stop :: rest, line⟩ := by
  have digit := digits c List.mem_cons_self
  have other {x : Char} (none : x.isDigit = false) : c ≠ x := by
    rintro rfl
    exact Bool.false_ne_true (none.symm.trans digit)
  have blank : isBlank c = false := inRanges_disjoint (by decide) ((isDigit_iff c).symm.trans digit)
  have quote : isQuote c = false := by
    simp [isQuote, other (x := '\x22') (by decide), other (x := '\x27') (by decide)]
  have read : numeral (c :: (cs ++ stop :: rest)) = _ := numeral_digits digits ends point
  unfold next
  simp only [blank, quote, other (x := '/') (by decide), other (x := '\x60') (by decide), digit,
    read, if_true, if_false, false_and, Bool.false_eq_true]

/-- The first character of a mark begins nothing else but a comment. -/
def startsMark (c : Char) : Bool :=
  !isBlank c && !isQuote c && c != '\x60' && !c.isDigit && !isNameStart c

theorem next_mark {c : Char} {cs rest : List Char} {m : Mark} (start : startsMark c = true)
    (comment : c = '/' → cs.head? = some ' ') (read : markAt c cs = some (m, rest)) (line : Nat) :
    next hole c cs line = .ok ⟨some (.at line (.mark m)), rest, line⟩ := by
  simp only [startsMark, Bool.and_eq_true, Bool.not_eq_true', bne_iff_ne] at start
  obtain ⟨⟨⟨⟨blank, quote⟩, template⟩, digit⟩, name⟩ := start
  have none {d : Char} (other : some ' ' ≠ some d) : ¬ (c = '/' ∧ cs.head? = some d) :=
    fun ⟨slash, head⟩ => other ((comment slash).symm.trans head)
  unfold next
  rw [blank, quote, digit, name, read]
  simp only [none (d := '/') (by decide), none (d := '*') (by decide), template, if_false,
    Bool.false_eq_true]

/-- The characters that stand after a backslash as themselves are no line feeds. -/
theorem unescape_special {c : Char} (special : c ∈ ['\\', '\x22', '\x60', '$']) (line : Nat) :
    unescape c = c ∧ lineAfter c line = line := by
  simp only [List.mem_cons, List.not_mem_nil, or_false] at special
  rcases special with rfl | rfl | rfl | rfl <;> exact ⟨rfl, rfl⟩

/-- A written character is read as itself. -/
theorem literal_escaped (c : Char) (cs : List Char) (line : Nat) :
    literal '\x22' (escaped c ++ cs) line = (literal '\x22' cs line).map (·.map (c :: ·)) := by
  unfold escaped
  split
  · rename_i feed
    subst feed
    rfl
  split
  · rename_i special
    show (literal '\x22' cs (lineAfter c line)).map (·.map (unescape c :: ·)) = _
    rw [(unescape_special special line).1, (unescape_special special line).2]
  · rename_i feed special
    simp only [List.mem_cons, List.not_mem_nil, or_false, not_or] at special
    rw [List.singleton_append, literal.eq_def]
    simp only [special, feed, if_false]

theorem literal_spelled (cs rest : List Char) (line : Nat) :
    literal '\x22' (cs.flatMap escaped ++ '\x22' :: rest) line = some ⟨cs, rest, line⟩ := by
  induction cs with
  | nil => rw [List.flatMap_nil, List.nil_append, literal.eq_def]; simp only [if_true]
  | cons c cs ih =>
    rw [List.flatMap_cons, List.append_assoc, literal_escaped, ih]
    rfl

theorem next_text (cs rest : List Char) (line : Nat) :
    next hole '\x22' (cs.flatMap escaped ++ '\x22' :: rest) line =
      .ok ⟨some (.at line (.text (String.ofList cs))), rest, line⟩ := by
  unfold next
  rw [if_neg (by decide), if_neg (by simp), if_neg (by simp), if_pos (by decide), literal_spelled]

/-- A written character is read as itself in a template literal too. -/
theorem templateChunks_escaped (start : Nat) (backwards : List Char) (c : Char) (cs : List Char)
    (line : Nat) :
    templateChunks hole start backwards (escaped c ++ cs) line =
      templateChunks hole start (c :: backwards) cs line := by
  unfold escaped
  split
  · rename_i feed
    subst feed
    rw [List.cons_append, templateChunks.eq_def]
    rfl
  split
  · rename_i special
    rw [List.cons_append, templateChunks.eq_def]
    show templateChunks hole start (unescape c :: backwards) cs (lineAfter c line) = _
    rw [(unescape_special special line).1, (unescape_special special line).2]
  · rename_i feed special
    simp only [List.mem_cons, List.not_mem_nil, or_false, not_or] at special
    rw [List.singleton_append, templateChunks.eq_def]
    simp only [special, if_false, false_and, lineAfter_of_ne feed]

theorem templateChunks_text (start : Nat) (backwards cs rest : List Char) (line : Nat) :
    templateChunks hole start backwards (cs.flatMap escaped ++ rest) line =
      templateChunks hole start (cs.reverse ++ backwards) rest line := by
  induction cs generalizing backwards with
  | nil => rfl
  | cons c cs ih =>
    rw [List.flatMap_cons, List.append_assoc, templateChunks_escaped, ih, List.reverse_cons,
      List.append_assoc, List.singleton_append]

/-- Before a blank, the characters of the lexeme are read as this lexeme. -/
def Reread (hole : Option HoleReader) (lexeme : Lexeme) : Prop :=
  ∃ c cs, lexeme.spelled = c :: cs ∧
    ∀ rest, next hole c (cs ++ ' ' :: rest) 1 = .ok ⟨some (.at 1 lexeme), ' ' :: rest, 1⟩

namespace Reread

theorem name {word : String} (form : isWord word = true) : Reread hole (.name word) := by
  unfold isWord at form
  split at form
  · cases form
  · rename_i c cs same
    rw [Bool.and_eq_true, List.all_eq_true] at form
    refine ⟨c, cs, same, fun rest => ?_⟩
    rw [next_name form.1 form.2 (by decide +kernel), ← same, String.ofList_toList]

theorem number {value : Float} (whole : IsWhole value) : Reread hole (.number value) := by
  cases same : digitsOf value with
  | nil => exact absurd same Nat.toDigits_ne_nil
  | cons c cs =>
    refine ⟨c, cs, same, fun rest => ?_⟩
    rw [next_number (fun d member => isDigit_of_mem_digitsOf (same ▸ member)) (by decide)
      (by decide), ← same, ofDecimal_digitsOf whole]

theorem text (content : String) : Reread hole (.text content) := by
  refine ⟨'\x22', content.toList.flatMap escaped ++ ['\x22'], rfl, fun rest => ?_⟩
  rw [List.append_assoc, List.singleton_append, next_text, String.ofList_toList]

theorem mark (m : Mark) : Reread hole (.mark m) := by
  cases m
  all_goals
    refine ⟨_, _, rfl, fun rest => next_mark (by decide +kernel) ?_ rfl 1⟩
    first | exact fun _ => rfl | exact fun slash => absurd slash (by decide)

end Reread

theorem next_blank (cs : List Char) (line : Nat) :
    next hole ' ' cs line = .ok ⟨none, cs, line⟩ := by
  unfold next
  rw [if_pos (by decide)]
  rfl

theorem tokensFrom_blank (cs : List Char) :
    tokensFrom hole (' ' :: cs) 1 = tokensFrom hole cs 1 := by
  rw [tokensFrom_cons (next_blank cs 1)]
  cases tokensFrom hole cs 1 <;> rfl

/-- Written lexemes are read before anything else. -/
theorem tokensFrom_spelled {tokens : List Token}
    (reread : ∀ token ∈ tokens, ∃ lexeme, token = .at 1 lexeme ∧ Reread hole lexeme)
    (rest : List Char) :
    tokensFrom hole (Token.spelled tokens ++ rest) 1 =
      (tokensFrom hole rest 1).map fun after => { after with items := tokens ++ after.items } := by
  induction tokens with
  | nil => cases found : tokensFrom hole rest 1 <;> simp [Token.spelled, found, Except.map]
  | cons token tokens ih =>
    rw [List.forall_mem_cons] at reread
    obtain ⟨⟨lexeme, rfl, c, cs, same, read⟩, others⟩ := reread
    -- the blank is what ends the lexeme, so it has to be there before the next one is looked at
    rw [Token.spelled, same, List.append_assoc, List.cons_append, List.cons_append,
      tokensFrom_cons (read _), tokensFrom_blank, ih others]
    cases tokensFrom hole rest 1 <;> rfl

/-- Written lexemes that are no template literals can stand in a hole. -/
theorem clear_spelled {tokens : List Token}
    (reread : ∀ token ∈ tokens, ∃ lexeme, token = .at 1 lexeme ∧ Reread hole lexeme ∧
      ∀ chunks, lexeme ≠ .template chunks) :
    Clear hole (Token.spelled tokens) 1 := by
  induction tokens with
  | nil => exact .nil 1
  | cons token tokens ih =>
    rw [List.forall_mem_cons] at reread
    obtain ⟨⟨lexeme, rfl, ⟨c, cs, same, read⟩, plain⟩, others⟩ := reread
    have gap : ' ' :: Token.spelled tokens = [' '] ++ Token.spelled tokens := rfl
    have blank : Clear hole (' ' :: Token.spelled tokens) 1 :=
      .cons (next_blank _ 1) gap (fun closed => by rcases closed with h | ⟨h, -⟩ <;> cases h)
        (ih others)
    have whole : c :: (cs ++ ' ' :: Token.spelled tokens) =
        (c :: cs) ++ ' ' :: Token.spelled tokens := rfl
    rw [Token.spelled, same, List.cons_append]
    refine .cons (read _) whole ?_ blank
    -- neither a template literal nor a comment has been read here
    rintro (rfl | ⟨-, none⟩)
    · have template := read []
      rw [next_template] at template
      obtain ⟨s, -, found⟩ := map_eq_ok.mp template
      have value := Option.some.inj (congrArg Scan.value found)
      exact absurd (Token.at.inj value).2.symm (plain _)
    · cases none

end Lexing

/-! ## Matching brackets -/

def Mark.isBracket : Mark → Bool
  | .leftParen | .rightParen | .leftBrace | .rightBrace => true
  | _ => false

/-- Tokens of the first line in which parentheses and braces match, while the other lexemes have a
property. -/
inductive Matched (holds : Lexeme → Prop) : List Token → Prop
  | nil : Matched holds []
  | lexeme {lexeme : Lexeme} : holds lexeme → Matched holds [.at 1 lexeme]
  | append {before after : List Token} :
    Matched holds before → Matched holds after → Matched holds (before ++ after)
  | parens {tokens : List Token} : Matched holds tokens → Matched holds (parenthesized tokens)
  | braces {tokens : List Token} : Matched holds tokens → Matched holds (braced tokens)

/-- Can the lexeme be written, and is it neither a bracket nor a template literal? -/
def Lexeme.IsSimple : Lexeme → Prop
  | .name word => isWord word = true
  | .number value => IsWhole value
  | .text _ => True
  | .template _ => False
  | .mark m => m.isBracket = false

def Chunk.text? : Chunk → Option String
  | .text content => some content
  | .code _ => none

/-- Can the lexeme be written? No template literal can be written in a hole of another one. -/
def Lexeme.IsWritten (inHole : Bool) : Lexeme → Prop
  | .template chunks =>
    inHole = false ∧ (chunks = [.text ""] ∨ chunks ≠ [] ∧ TextsApart Chunk.text? chunks) ∧
      ∀ tokens, .code tokens ∈ chunks → Matched IsSimple tokens
  | lexeme => lexeme.IsSimple

namespace Matched

variable {holds : Lexeme → Prop} {tokens : List Token}

/-- A property of all tokens. -/
theorem forall_mem (matched : Matched holds tokens) {token : Token} (member : token ∈ tokens) :
    ∃ lexeme, token = .at 1 lexeme ∧ (holds lexeme ∨ ∃ m, lexeme = .mark m) := by
  induction matched with
  | nil => cases member
  | lexeme isIt => exact ⟨_, List.mem_singleton.mp member, .inl isIt⟩
  | append _ _ first second =>
    rcases List.mem_append.mp member with before | after
    · exact first before
    · exact second after
  | parens _ ih | braces _ ih =>
    rcases List.mem_cons.mp member with rfl | member
    · exact ⟨_, rfl, .inr ⟨_, rfl⟩⟩
    rcases List.mem_append.mp member with inside | last
    · exact ih inside
    · exact ⟨_, List.mem_singleton.mp last, .inr ⟨_, rfl⟩⟩

theorem mono {holds' : Lexeme → Prop} (stronger : ∀ lexeme, holds lexeme → holds' lexeme)
    (matched : Matched holds tokens) : Matched holds' tokens := by
  induction matched with
  | nil => exact .nil
  | lexeme isIt => exact .lexeme (stronger _ isIt)
  | append _ _ first second => exact first.append second
  | parens _ ih => exact ih.parens
  | braces _ ih => exact ih.braces

/-- All braces are closed. -/
theorem level (matched : Matched holds tokens)
    (brackets : ∀ m, holds (.mark m) → m.isBracket = false) (depth : Nat) :
    Lexing.levelAfter tokens depth = some depth := by
  induction matched generalizing depth with
  | nil => rfl
  | @lexeme lexeme isIt =>
    rw [Lexing.levelAfter_singleton]
    cases lexeme with
    | mark m =>
      have other := brackets m isIt
      cases m <;> first | rfl | cases other
    | _ => rfl
  | append _ _ first second => rw [Lexing.levelAfter_append, first, Option.bind_some, second]
  | @parens tokens _ ih =>
    show Lexing.levelAfter (tokens ++ [Mark.rightParen.token]) depth = some depth
    rw [Lexing.levelAfter_append, ih]
    rfl
  | @braces tokens _ ih =>
    show Lexing.levelAfter (tokens ++ [Mark.rightBrace.token]) (depth + 1) = some depth
    rw [Lexing.levelAfter_append, ih]
    rfl

end Matched

namespace Lexing

variable {hole : Option HoleReader}

theorem Reread.simple {lexeme : Lexeme} (simple : lexeme.IsSimple) : Reread hole lexeme :=
  match lexeme, simple with
  | .name _, form => .name form
  | .number _, whole => .number whole
  | .text content, _ => .text content
  | .mark m, _ => .mark m

/-- The code of a hole, and what the scanner that looks for its end makes of it. -/
theorem hole_spelled {tokens : List Token} (matched : Matched Lexeme.IsSimple tokens)
    (holes : Nat) :
    tokensWithin holes (Token.spelled tokens) 1 = .ok ⟨tokens, 1⟩ ∧
      Crosses (Token.spelled tokens) 0 0 ∧ linesAfter (Token.spelled tokens) 1 = 1 := by
  have each : ∀ token ∈ tokens, ∃ lexeme, token = .at 1 lexeme ∧ Reread (reader holes) lexeme ∧
      ∀ chunks, lexeme ≠ .template chunks := by
    intro token member
    obtain ⟨lexeme, rfl, simple | ⟨m, rfl⟩⟩ := matched.forall_mem member
    · refine ⟨lexeme, rfl, .simple simple, ?_⟩
      rintro chunks rfl
      exact simple
    · exact ⟨_, rfl, .mark m, fun chunks same => by cases same⟩
  have read : tokensFrom (reader holes) (Token.spelled tokens) 1 = .ok ⟨tokens, 1⟩ := by
    have whole := tokensFrom_spelled (fun token member =>
      (each token member).imp fun _ ⟨same, reread, _⟩ => ⟨same, reread⟩) []
    simpa [tokensFrom_nil, Except.map] using whole
  obtain ⟨crosses, lines⟩ := (clear_spelled each).crosses read
    (matched.level (fun _ other => other) 0)
  rw [tokensWithin_eq]
  exact ⟨read, crosses, lines.symm⟩

/-- The chunks of a template literal are read from their characters, if the text that was read
before them is empty or a hole follows. -/
theorem templateChunks_spelled {holes : Nat} {chunks : List Chunk} (start : Nat)
    (apart : TextsApart Chunk.text? chunks)
    (codes : ∀ tokens, .code tokens ∈ chunks → Matched Lexeme.IsSimple tokens)
    (backwards : List Char)
    (new : backwards = [] ∨ ∀ next ∈ chunks.head?, Chunk.text? next = none) (rest : List Char) :
    templateChunks (some (tokensWithin holes)) start backwards
        (Chunk.spelled chunks ++ '\x60' :: rest) 1 =
      .ok ⟨textChunk backwards ++ chunks, rest, 1⟩ := by
  induction chunks generalizing backwards with
  | nil =>
    rw [Chunk.spelled, List.nil_append, templateChunks.eq_def, List.append_nil]
    rfl
  | cons chunk chunks ih =>
    have others := ih apart.2 fun tokens member => codes tokens (.tail _ member)
    cases chunk with
    | text content =>
      -- two texts in a row would become one chunk, and an empty one none
      obtain ⟨filled, next⟩ := apart.1 content rfl
      obtain rfl : backwards = [] := new.resolve_right fun none => by cases none _ rfl
      have kept : textChunk content.toList.reverse = [.text content] := by
        have some : content.toList.reverse.isEmpty = false := by
          simpa [List.isEmpty_iff] using filled
        simp [textChunk, some]
      rw [Chunk.spelled, List.append_assoc, templateChunks_text, List.append_nil,
        others _ (.inr next), kept]
      rfl
    | code tokens =>
      obtain ⟨read, crosses, lines⟩ := hole_spelled (codes tokens List.mem_cons_self) holes
      rw [Chunk.spelled, List.cons_append, List.cons_append, List.append_assoc, List.cons_append,
        templateChunks_hole crosses, read, lines]
      show (templateChunks _ start [] (Chunk.spelled chunks ++ '\x60' :: rest) 1 >>= _) = _
      rw [others [] (.inl rfl)]
      rfl

theorem Reread.template {holes : Nat} {chunks : List Chunk}
    (written : (Lexeme.template chunks).IsWritten false) :
    Reread (some (tokensWithin holes)) (.template chunks) := by
  obtain ⟨-, tidy, codes⟩ := written
  refine ⟨'\x60', Chunk.spelled chunks ++ ['\x60'], rfl, fun rest => ?_⟩
  rw [List.append_assoc, List.singleton_append, next_template]
  rcases tidy with rfl | ⟨some, apart⟩
  · rw [Chunk.spelled, templateChunks.eq_def]
    rfl
  · rw [templateChunks_spelled 1 apart codes [] (.inl rfl)]
    have filled : chunks.isEmpty = false := by simpa [List.isEmpty_iff] using some
    simp [Except.map, Scan.map, templateLexeme, textChunk, filled]

/-- Written tokens are cut from their characters again, if template literals may have holes. -/
theorem tokensWithin_spelled {tokens : List Token}
    (matched : Matched (Lexeme.IsWritten false) tokens) (holes : Nat) (rest : List Char) :
    tokensWithin (holes + 1) (Token.spelled tokens ++ rest) 1 =
      (tokensWithin (holes + 1) rest 1).map fun after =>
        { after with items := tokens ++ after.items } := by
  refine tokensFrom_spelled (fun token member => ?_) rest
  obtain ⟨lexeme, rfl, written | ⟨m, rfl⟩⟩ := matched.forall_mem member
  · refine ⟨lexeme, rfl, ?_⟩
    cases lexeme with
    | template chunks => exact .template written
    | _ => exact .simple written
  · exact ⟨_, rfl, .mark m⟩

end Lexing

/-! ## The tokens of a tree -/

theorem textsApart_chunks {parts : List Part} (apart : TextsApart Part.text? parts) :
    TextsApart Chunk.text? (Part.chunks parts) := by
  induction parts with
  | nil => exact trivial
  | cons part parts ih =>
    have others := ih apart.2
    have next : ∀ chunk ∈ (Part.chunks parts).head?,
        ∃ part ∈ parts.head?, part.text? = chunk.text? := by
      cases parts with
      | nil => exact fun _ none => by cases none
      | cons part parts =>
        intro chunk same
        cases part <;> cases same <;> exact ⟨_, rfl, rfl⟩
    cases part with
    | text content =>
      refine ⟨fun content' same => ?_, others⟩
      cases same
      obtain ⟨filled, free⟩ := apart.1 content rfl
      refine ⟨filled, fun chunk head => ?_⟩
      obtain ⟨part, first, same⟩ := next chunk head
      exact same.symm.trans (free part first)
    | value e => exact ⟨fun _ none => (by cases none), others⟩

theorem isWord_of_reserved {word : String} (reserved : word ∈ reservedWords) :
    isWord word = true := by
  have all : reservedWords.all isWord = true := by decide +kernel
  exact List.all_eq_true.mp all word reserved

section

variable {inHole : Bool}

theorem Matched.mark {m : Mark} (other : m.isBracket = false) :
    Matched (Lexeme.IsWritten inHole) [m.token] :=
  .lexeme other

theorem Matched.word {word : String} (form : isWord word = true) :
    Matched (Lexeme.IsWritten inHole) [wordToken word] :=
  .lexeme form

theorem Matched.keyword {word : String} (reserved : word ∈ reservedWords) :
    Matched (Lexeme.IsWritten inHole) [wordToken word] :=
  .word (isWord_of_reserved reserved)

theorem Matched.cons {token : Token} {tokens : List Token}
    (first : Matched (Lexeme.IsWritten inHole) [token])
    (others : Matched (Lexeme.IsWritten inHole) tokens) :
    Matched (Lexeme.IsWritten inHole) (token :: tokens) :=
  first.append others

theorem Matched.separated {items : List (List Token)}
    (each : ∀ item ∈ items, Matched (Lexeme.IsWritten inHole) item) :
    Matched (Lexeme.IsWritten inHole) (separated items) := by
  fun_induction EventLoop.separated items with
  | case1 => exact .nil
  | case2 item => exact each item List.mem_cons_self
  | case3 item items _ ih =>
    rw [List.forall_mem_cons] at each
    exact each.1.append ((Matched.mark rfl).cons (ih each.2))

theorem Matched.params {params : List String} (names : ∀ param ∈ params, IsName param) :
    Matched (Lexeme.IsWritten inHole) (paramTokens params) := by
  refine (Matched.separated fun item member => ?_).parens
  obtain ⟨param, listed, rfl⟩ := List.mem_map.mp member
  exact .word (names param listed).1

end

theorem Declarator.word_reserved (word : Declarator) : word.word ∈ reservedWords := by
  cases word <;> decide

mutual

/-- The tokens of an expression that complies with the rules can be written. -/
theorem Expr.tokens_matched {inHole : Bool} :
    (e : Expr) → e.Meets .writable inHole → Matched (Lexeme.IsWritten inHole) e.tokens
  | .number _ _, meets => .lexeme meets.1.1
  | .text _ _, _ => .lexeme trivial
  | .template _ parts, meets => by
    obtain ⟨⟨⟨outside, tidy⟩, filled⟩, each⟩ := meets
    refine .lexeme ⟨outside, ?_, Part.chunks_matched parts each⟩
    rcases tidy with rfl | apart
    · exact .inl rfl
    · refine .inr ⟨?_, textsApart_chunks apart⟩
      cases parts with
      | nil => exact absurd rfl filled
      | cons part parts => cases part <;> exact List.cons_ne_nil _ _
  | .bool _ true, _ => .keyword (by decide)
  | .bool _ false, _ => .keyword (by decide)
  | .null _, _ => .keyword (by decide)
  | .undefined _, _ => .keyword (by decide)
  | .name _ _, meets => .word meets.1.1.1
  | .assign _ op _ value, meets =>
    (Matched.word meets.1.1.1).cons <| (Matched.mark (by cases op <;> rfl)).cons
      (value.tokens_matched meets.2).parens
  | .update _ count .after _, meets =>
    (Matched.mark (by cases count <;> rfl)).cons (.word meets.1.1.1)
  | .update _ count .before _, meets =>
    (Matched.word meets.1.1.1).cons (.mark (by cases count <;> rfl))
  | .binary _ op left right, meets =>
    (left.tokens_matched meets.2.1).parens.append <|
      (Matched.mark (by cases op <;> rfl)).cons (right.tokens_matched meets.2.2).parens
  | .logical _ op left right, meets =>
    (left.tokens_matched meets.2.1).parens.append <|
      (Matched.mark (by cases op <;> rfl)).cons (right.tokens_matched meets.2.2).parens
  | .unary _ op operand, meets => by
    refine Matched.cons ?_ (operand.tokens_matched meets.2).parens
    cases op with
    | typeOf => exact .keyword (by decide)
    | _ => exact .mark rfl
  | .conditional _ condition yes no, meets =>
    ((condition.tokens_matched meets.2.1).parens.append <|
      (Matched.mark rfl).cons (yes.tokens_matched meets.2.2.1).parens).append <|
        (Matched.mark rfl).cons (no.tokens_matched meets.2.2.2).parens
  | .call _ callee args, meets =>
    (callee.tokens_matched meets.2.1).parens.append
      (Matched.separated (Expr.eachTokens_matched args meets.2.2)).parens
  | .member _ object _, meets =>
    (object.tokens_matched meets.2).parens.append <| (Matched.mark rfl).cons (.word meets.1.2)
  | .function _ definition, meets => definition.tokens_matched meets.2

theorem Expr.eachTokens_matched {inHole : Bool} :
    (es : List Expr) → Expr.EachMeets .writable inHole es →
      ∀ item ∈ Expr.eachTokens es, Matched (Lexeme.IsWritten inHole) item
  | [], _ => List.forall_mem_nil _
  | e :: rest, meets =>
    List.forall_mem_cons.mpr
      ⟨(e.tokens_matched meets.1).parens, Expr.eachTokens_matched rest meets.2⟩

theorem Expr.tokens?_matched {inHole : Bool} :
    (e : Option Expr) → Expr.Meets? .writable inHole e →
      Matched (Lexeme.IsWritten inHole) (Expr.tokens? e)
  | none, _ => .nil
  | some e, meets => (e.tokens_matched meets).parens

theorem Part.chunks_matched :
    (parts : List Part) → Part.EachMeets .writable parts →
      ∀ tokens, .code tokens ∈ Part.chunks parts → Matched Lexeme.IsSimple tokens
  | [], _, _, member => nomatch member
  | .text _ :: rest, meets, tokens, member =>
    Part.chunks_matched rest meets tokens ((List.mem_cons.mp member).resolve_left nofun)
  | .value e :: rest, meets, tokens, member => by
    rcases List.mem_cons.mp member with same | member
    · cases same
      refine (e.tokens_matched meets.1).parens.mono fun lexeme written => ?_
      cases lexeme with
      | template _ => cases written.1
      | _ => exact written
    · exact Part.chunks_matched rest meets.2 tokens member

theorem Definition.tokens_matched {inHole declared : Bool} :
    (definition : Definition) → definition.Meets .writable inHole declared →
      Matched (Lexeme.IsWritten inHole) definition.tokens
  | .mk name params (.block statements) _, meets => by
    have named : Matched (Lexeme.IsWritten inHole) (name.toList.map wordToken) := by
      cases name with
      | none => exact .nil
      | some name => exact .word (meets.1.1.1 name rfl).1
    have word : Matched (Lexeme.IsWritten inHole) [wordToken "function"] :=
      .keyword (by decide)
    exact ((word.cons named).append (.params meets.1.1.2)).append
      (Stmt.eachTokens_matched statements meets.2).braces
  | .mk _ _ (.value e) _, meets =>
    (Matched.params meets.1.1.2).append <| (Matched.mark rfl).cons (e.tokens_matched meets.2).parens

theorem Stmt.tokens_matched {inHole : Bool} {around : Surroundings} :
    (s : Stmt) → s.Meets .writable inHole around → Matched (Lexeme.IsWritten inHole) s.tokens
  | .declare _ word _ none, meets =>
    (Matched.keyword word.word_reserved).cons <| (Matched.word meets.1.1.1.1).cons (.mark rfl)
  | .declare _ word _ (some init), meets =>
    ((Matched.keyword word.word_reserved).cons <| (Matched.word meets.1.1.1.1).cons <|
      (Matched.mark rfl).cons (init.tokens_matched meets.2).parens).append (.mark rfl)
  | .define definition, meets => definition.tokens_matched meets.2
  | .choose condition yes none, meets =>
    ((Matched.keyword (by decide)).cons
      (condition.tokens_matched meets.2.1).parens).append (yes.tokens_matched meets.2.2.1)
  | .choose condition yes (some no), meets =>
    (((Matched.keyword (by decide)).cons
      (condition.tokens_matched meets.2.1).parens).append
        (yes.tokens_matched meets.2.2.1)).append <|
          (Matched.keyword (by decide)).cons (no.tokens_matched meets.2.2.2)
  | .whileLoop condition body, meets =>
    ((Matched.keyword (by decide)).cons
      (condition.tokens_matched meets.2.1).parens).append (body.tokens_matched meets.2.2)
  | .forLoop init condition update body, meets =>
    ((Matched.keyword (by decide)).cons
      ((Stmt.startTokens_matched init meets.2.1).append
        (Expr.tokens?_matched condition meets.2.2.1) |>.append <|
          (Matched.mark rfl).cons (Expr.tokens?_matched update meets.2.2.2.1)).parens).append
            (body.tokens_matched meets.2.2.2.2)
  | .giveBack value, meets =>
    ((Matched.keyword (by decide)).cons
      (Expr.tokens?_matched value meets.2)).append (.mark rfl)
  | .breakLoop, _ => (Matched.keyword (by decide)).cons (.mark rfl)
  | .continueLoop, _ => (Matched.keyword (by decide)).cons (.mark rfl)
  | .block statements, meets => (Stmt.eachTokens_matched statements meets.2).braces
  | .evaluate e, meets => (e.tokens_matched meets.2).parens.append (.mark rfl)
  | .empty, _ => .mark rfl

theorem Stmt.startTokens_matched {inHole : Bool} {around : Surroundings} :
    (s : Option Stmt) → Stmt.Meets? .writable inHole around s →
      Matched (Lexeme.IsWritten inHole) (Stmt.startTokens s)
  | none, _ => .mark rfl
  | some s, meets => s.tokens_matched meets

theorem Stmt.eachTokens_matched {inHole : Bool} {around : Surroundings} :
    (statements : List Stmt) → Stmt.EachMeets .writable inHole around statements →
      Matched (Lexeme.IsWritten inHole) (Stmt.eachTokens statements).flatten
  | [], _ => .nil
  | s :: rest, meets => (s.tokens_matched meets.1).append (Stmt.eachTokens_matched rest meets.2)

end

end EventLoop
