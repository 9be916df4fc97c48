import EventLoop.Proofs.Language.Sources
import EventLoop.Proofs.Loop.Locating

/-!
# Where names stand

Lines are counted twice: a text is cut into tokens with a count of the line feeds passed, through
comments, escapes, template literals and the code of their holes, and a call is looked for in the
text cut at its line feeds. The two agree on names. A name is read from a place of the text, its
token has the line of that place, and no name goes on over the end of a line.
-/

namespace EventLoop

mutual

/-- The names in a lexeme that begins on the given line, each with its line. -/
def Lexeme.names (line : Nat) : Lexeme → List (Nat × String)
  | .name word => [(line, word)]
  | .template chunks => Chunk.names chunks
  | .number _ | .text _ | .mark _ => []

def Chunk.names : List Chunk → List (Nat × String)
  | [] => []
  | .text _ :: rest => Chunk.names rest
  | .code tokens :: rest => Token.names tokens ++ Chunk.names rest

/-- The names among tokens, those in the holes of template literals included. -/
def Token.names : List Token → List (Nat × String)
  | [] => []
  | .at line lexeme :: rest => lexeme.names line ++ Token.names rest

end

theorem Token.names_append (first rest : List Token) :
    Token.names (first ++ rest) = Token.names first ++ Token.names rest := by
  induction first with
  | nil => rfl
  | cons token first ih =>
    cases token
    rw [List.cons_append, Token.names, ih, Token.names, List.append_assoc]

/-! ## In the text -/

namespace Lexing

/-- The name is a part of the text, and its line is that of the place. The text begins on the given
line. -/
def Stands (cs : List Char) (line : Nat) (name : Nat × String) : Prop :=
  isWord name.2 = true ∧
    ∃ before after, cs = before ++ name.2.toList ++ after ∧ name.1 = linesAfter before line

theorem Stands.before {cs : List Char} {line : Nat} {name : Nat × String}
    (stands : Stands cs line name) (more : List Char) : Stands (cs ++ more) line name := by
  obtain ⟨form, before, after, rfl, here⟩ := stands
  exact ⟨form, before, after ++ more, List.append_assoc .., here⟩

theorem Stands.after {part rest : List Char} {line : Nat} {name : Nat × String}
    (stands : Stands rest (linesAfter part line) name) : Stands (part ++ rest) line name := by
  obtain ⟨form, before, after, rfl, here⟩ := stands
  refine ⟨form, part ++ before, after, ?_, here.trans (linesAfter_append ..).symm⟩
  rw [List.append_assoc part, List.append_assoc part, List.append_assoc before]

/-- The names have their places in the text. -/
def AllStand (cs : List Char) (line : Nat) (names : List (Nat × String)) : Prop :=
  ∀ name ∈ names, Stands cs line name

namespace AllStand

variable {cs rest : List Char} {line line' : Nat} {names others : List (Nat × String)}

theorem nil : AllStand cs line [] := fun _ member => by cases member

theorem append (first : AllStand cs line names) (second : AllStand cs line others) :
    AllStand cs line (names ++ others) :=
  List.forall_mem_append.mpr ⟨first, second⟩

theorem before (all : AllStand cs line names) (more : List Char) :
    AllStand (cs ++ more) line names :=
  fun name member => (all name member).before more

/-- What stands in what follows a part of a text stands in the text. -/
theorem after (all : AllStand rest line' names) (part : List Char) (split : cs = part ++ rest)
    (lines : line' = linesAfter part line) : AllStand cs line names := by
  subst split lines
  exact fun name member => (all name member).after

end AllStand

variable {hole : Option HoleReader}

/-- The names in the code of a hole are read from places of the code. -/
def KeepsPlaces (hole : Option HoleReader) : Prop :=
  ∀ read ∈ hole, ∀ code line tokens, read code line = .ok tokens →
    AllStand code line (Token.names tokens.items)

theorem names_textChunk (backwards : List Char) (rest : List Chunk) :
    Chunk.names (textChunk backwards ++ rest) = Chunk.names rest := by
  unfold textChunk
  split <;> rfl

theorem templateChunks_names (keeps : KeepsPlaces hole) {start line : Nat}
    {backwards cs : List Char} {s : Scan (List Chunk)}
    (read : templateChunks hole start backwards cs line = .ok s) :
    AllStand cs line (Chunk.names s.value) := by
  fun_induction templateChunks hole start backwards cs line generalizing s with
  | case1 => cases read
  | case2 backwards =>
    cases read
    rw [← List.append_nil (textChunk backwards), names_textChunk]
    exact .nil
  | case3 => cases read
  | case4 _ _ d cs _ ih => exact (ih read).after ['\\', d] rfl rfl
  | case5 => cases read
  | case6 => cases read
  | case7 backwards c cs line _ _ opens reader same code found ih =>
    subst same
    obtain ⟨rfl, brace⟩ := opens
    obtain ⟨tail, rfl⟩ : ∃ tail, cs = '{' :: tail := List.head?_eq_some_iff.mp brace
    rw [List.tail_cons] at found
    obtain ⟨tokens, inside, read⟩ := bind_eq_ok.mp read
    obtain ⟨after, scanned, read⟩ := bind_eq_ok.mp read
    cases read
    -- the code is a part of the text, and the rest of the literal follows its closing brace
    have code : AllStand tail line (Token.names tokens.items) := by
      rw [holeCode_value found]
      exact (keeps reader rfl _ _ _ inside).before _
    obtain ⟨part, split, lines⟩ := holeCode_part found
    have rest : AllStand tail line (Chunk.names after.value) := (ih scanned).after part split lines
    show AllStand _ _ (Chunk.names (textChunk backwards ++ .code tokens.items :: after.value))
    rw [names_textChunk]
    exact (code.append rest).after ['$', '{'] rfl rfl
  | case8 _ c cs _ _ _ _ ih => exact (ih read).after [c] rfl rfl

theorem names_templateLexeme (line : Nat) (chunks : List Chunk) :
    (templateLexeme chunks).names line = Chunk.names chunks := by
  cases chunks <;> rfl

theorem next_names (keeps : KeepsPlaces hole) {c : Char} {cs : List Char} {line : Nat}
    {s : Scan (Option Token)} (read : next hole c cs line = .ok s) :
    AllStand (c :: cs) line (Token.names s.value.toList) := by
  unfold next at read
  split at read
  · cases read
    exact .nil
  split at read
  · cases read
    exact .nil
  split at read
  · split at read <;> cases read
    exact .nil
  split at read
  · split at read <;> cases read
    exact .nil
  split at read
  · rename_i template
    subst template
    obtain ⟨t, found, rfl⟩ := map_eq_ok.mp read
    show AllStand _ _ ((templateLexeme t.value).names line ++ [])
    rw [List.append_nil, names_templateLexeme]
    exact (templateChunks_names keeps found).after ['\x60'] rfl rfl
  split at read
  · cases read
    exact .nil
  split at read
  · rename_i start
    cases read
    refine List.forall_mem_singleton.mpr ⟨?_, [], cs.dropWhile isNamePart, ?_, rfl⟩
    · exact isWord_scanned start cs
    · rw [String.toList_ofList]
      exact congrArg (c :: ·) List.takeWhile_append_dropWhile.symm
  split at read <;> cases read
  exact .nil

theorem tokensFrom_names (keeps : KeepsPlaces hole) {cs : List Char} {line : Nat} {tokens : Tokens}
    (read : tokensFrom hole cs line = .ok tokens) :
    AllStand cs line (Token.names tokens.items) := by
  fun_induction tokensFrom hole cs line generalizing tokens with
  | case1 line =>
    cases read
    exact .nil
  | case2 => cases read
  | case3 line c cs s found ih =>
    obtain ⟨after, rest, rfl⟩ := first_eq_ok read
    obtain ⟨part, split, lines, -⟩ := next_part found
    rw [Token.names_append]
    exact (next_names keeps found).append ((ih rest).after part split lines)

theorem reader_keepsPlaces (holes : Nat) : KeepsPlaces (reader holes) := by
  induction holes with
  | zero => exact nofun
  | succ holes ih =>
    intro read same code line tokens found
    cases same
    rw [tokensWithin_eq] at found
    exact tokensFrom_names ih found

end Lexing

/-! ## In the lines of the text -/

section

variable {part : List Char}

/-- Without a line feed, a text goes on as one line. -/
theorem linesOf_go_append (feed : '\n' ∉ part) (rest current : List Char) :
    linesOf.go (part ++ rest) current = linesOf.go rest (part.reverse ++ current) := by
  induction part generalizing current with
  | nil => rfl
  | cons c part ih =>
    rw [List.mem_cons, not_or] at feed
    rw [List.cons_append, linesOf.go, if_neg (Ne.symm feed.1), ih feed.2, List.reverse_cons,
      List.append_assoc]
    rfl

/-- A part of a line without a carriage return is not touched when one is dropped at the end. -/
theorem infix_dropReturn {line : List Char} (return_ : '\r' ∉ part) (inside : part <:+: line) :
    part <:+: dropReturn line := by
  unfold dropReturn
  split
  · rename_i last
    obtain ⟨before, after, rfl⟩ := inside
    rcases List.eq_nil_or_concat after with rfl | ⟨after, c, rfl⟩
    · rcases List.eq_nil_or_concat part with rfl | ⟨part, c, rfl⟩
      · exact List.nil_infix
      · simp at last
        simp [last] at return_
    · rw [List.concat_eq_append, ← List.append_assoc, List.dropLast_concat]
      exact ⟨before, after, rfl⟩
  · exact inside

/-- The line that a text begins with, after characters that hold the part. -/
theorem exists_linesOf_go_head {current : List Char} (filled : part ≠ []) (return_ : '\r' ∉ part)
    (inside : part <:+: current.reverse) (rest : List Char) :
    ∃ line, (linesOf.go rest current)[0]? = some line ∧ part <:+: line := by
  induction rest generalizing current with
  | nil =>
    cases current with
    | nil => exact absurd (List.eq_nil_of_infix_nil inside) filled
    | cons c current => exact ⟨_, rfl, inside⟩
  | cons c rest ih =>
    rw [linesOf.go]
    split
    · exact ⟨_, rfl, infix_dropReturn return_ inside⟩
    · refine ih ?_
      rw [List.reverse_cons]
      exact inside.trans (List.prefix_append _ _).isInfix

/-- A part of a text that does not go on over the end of a line is in the line that has as many
line feeds before it as the part. -/
theorem exists_linesOf_getElem? (filled : part ≠ []) (feed : '\n' ∉ part) (return_ : '\r' ∉ part)
    (before after : List Char) :
    ∃ line, (linesOf (before ++ part ++ after))[before.count '\n']? = some line ∧
      part <:+: line := by
  unfold linesOf
  generalize [] = current
  induction before generalizing current with
  | nil =>
    rw [List.nil_append, linesOf_go_append feed]
    refine exists_linesOf_go_head filled return_ ?_ after
    rw [List.reverse_append, List.reverse_reverse]
    exact (List.suffix_append _ _).isInfix
  | cons c before ih =>
    rw [List.cons_append, List.cons_append, linesOf.go]
    by_cases newline : c = '\n'
    · rw [if_pos newline, newline, List.count_cons_self, List.getElem?_cons_succ]
      exact ih []
    · rw [if_neg newline, List.count_cons_of_ne newline]
      exact ih (c :: current)

end

namespace Lexing

/-- A word has a character, and consists of those that names have. -/
theorem isWord_chars {word : String} (form : isWord word = true) :
    word.toList ≠ [] ∧ ∀ c ∈ word.toList, isNamePart c = true := by
  unfold isWord at form
  split at form
  · cases form
  · rename_i c cs chars
    rw [Bool.and_eq_true, List.all_eq_true] at form
    rw [chars]
    exact ⟨List.cons_ne_nil c cs,
      List.forall_mem_cons.mpr ⟨isNamePart_of_isNameStart form.1, form.2⟩⟩

theorem notMem_of_isWord {word : String} (form : isWord word = true) {c : Char}
    (other : isNamePart c = false) : c ∉ word.toList :=
  fun member => Bool.false_ne_true (other.symm.trans ((isWord_chars form).2 c member))

/-- What stands in a source is in the line with its number. -/
theorem Stands.lineHas {source : String} {name : Nat × String}
    (stands : Stands source.toList 1 name) : LineHas source name.2.toList name.1 := by
  obtain ⟨form, before, after, split, here⟩ := stands
  rw [linesAfter_count] at here
  obtain ⟨line, there, inside⟩ := exists_linesOf_getElem? (isWord_chars form).1
    (notMem_of_isWord form (by decide +kernel)) (notMem_of_isWord form (by decide +kernel)) before
    after
  refine ⟨by omega, line, ?_, inside⟩
  rwa [split, here, Nat.add_sub_cancel_left]

end Lexing

theorem trimBlanks_isInfix (text : List Char) : trimBlanks text <:+: text := by
  have start : text.dropWhile isBlank <:+ text := List.dropWhile_suffix isBlank
  have kept : trimBlanks text <+: text.dropWhile isBlank := by
    have trimmed := List.reverse_prefix.mpr
      (List.dropWhile_suffix isBlank : _ <:+ (text.dropWhile isBlank).reverse)
    rwa [List.reverse_reverse] at trimmed
  exact kept.isInfix.trans start.isInfix

namespace Locator

/-- A line that contains a text is found for one of the occurrences. -/
theorem exists_locate {source signature : String} {n : Nat}
    (has : LineHas source signature.toList n) :
    ∃ k, (ofSource source).locate signature k = some n := by
  obtain ⟨positive, line, there, inside⟩ := has
  have trimmed : LineHas source (trimBlanks signature.toList) n :=
    ⟨positive, line, there, (trimBlanks_isInfix _).trans inside⟩
  exact List.mem_iff_getElem?.mp (mem_linesWith_ofSource.mpr trimmed)

end Locator

open Lexing

/-- Tokens and searches number lines alike. The token of a name, also in a hole of a template
literal, has the number of one of the lines into which the source is cut for searches, and that line
contains the name; so the line is found for some occurrence of the name. -/
theorem tokenize_names_located {limit : Nat} {source : String} {tokens : Tokens}
    (read : tokenize limit source = .ok tokens) {line : Nat} {word : String}
    (named : (line, word) ∈ Token.names tokens.items) :
    1 ≤ line ∧ line ≤ (Locator.ofSource source).lines.length ∧
      (∃ text, (Locator.ofSource source).lines[line - 1]? = some text ∧ word.toList <:+: text) ∧
      ∃ k, (Locator.ofSource source).locate word k = some line := by
  rw [tokenize, tokensWithin_eq] at read
  have has : LineHas source word.toList line :=
    (tokensFrom_names (reader_keepsPlaces limit) read (line, word) named).lineHas
  have found := Locator.exists_locate has
  obtain ⟨positive, text, there, inside⟩ := has
  have short : line - 1 < (Locator.ofSource source).lines.length :=
    (List.getElem?_eq_some_iff.mp there).1
  exact ⟨positive, by omega, ⟨text, there, inside⟩, found⟩

/-- A name in a hole, in a template literal with a line break of two characters. A comment above has
the name, too. -/
theorem tokenize_names_located_hole :
    ∃ tokens, tokenize 1 "// x\n\x60\r\n$\x7bx\x7d\x60" = .ok tokens ∧
      (3, "x") ∈ Token.names tokens.items ∧
      ∃ k, (Locator.ofSource "// x\n\x60\r\n$\x7bx\x7d\x60").locate "x" k = some 3 := by
  have names : (tokenize 1 "// x\n\x60\r\n$\x7bx\x7d\x60").toOption.map (Token.names ·.items) =
      some [(3, "x")] := by
    decide +kernel
  cases read : tokenize 1 "// x\n\x60\r\n$\x7bx\x7d\x60" with
  | error e =>
    rw [read] at names
    cases names
  | ok tokens =>
    rw [read] at names
    have named : (3, "x") ∈ Token.names tokens.items := by
      rw [show Token.names tokens.items = [(3, "x")] from Option.some.inj names]
      exact List.mem_singleton_self _
    exact ⟨tokens, rfl, named, (tokenize_names_located read named).2.2.2⟩

end EventLoop
