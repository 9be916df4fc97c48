import EventLoop.Proofs.Language.Holes

/-!
# Line breaks between texts

A line feed ends every token that a text can end with, and takes part in none that goes on after it.
So the tokens of two texts with a line feed between them are those of the first, and then those of
the second on lines further down. Two facts are behind this. What a scanner reads does not depend on
the line on which its text begins, but for the lines that it reports; and what it has read from a
text it reads as well if a line feed and more follow.
-/

namespace EventLoop

/-! ## Lines further down -/

mutual

/-- The lexeme with all lines in it `k` further down. -/
def Lexeme.down (k : Nat) : Lexeme → Lexeme
  | .template chunks => .template (Chunk.eachDown k chunks)
  | .name word => .name word
  | .number value => .number value
  | .text content => .text content
  | .mark m => .mark m

def Chunk.eachDown (k : Nat) : List Chunk → List Chunk
  | [] => []
  | .text content :: rest => .text content :: Chunk.eachDown k rest
  | .code tokens :: rest => .code (Token.eachDown k tokens) :: Chunk.eachDown k rest

def Token.eachDown (k : Nat) : List Token → List Token
  | [] => []
  | .at line lexeme :: rest => .at (line + k) (lexeme.down k) :: Token.eachDown k rest

end

/-- The token and all lines in it `k` further down. -/
def Token.down (k : Nat) : Token → Token
  | .at line lexeme => .at (line + k) (lexeme.down k)

/-- The tokens and the end of the text `k` lines further down. -/
def Tokens.down (k : Nat) (tokens : Tokens) : Tokens :=
  ⟨Token.eachDown k tokens.items, tokens.endLine + k⟩

/-- The failure `k` lines further down. -/
def ScriptError.down (k : Nat) : ScriptError → ScriptError
  | .malformed line fault => .malformed (line + k) fault
  | .undefinedName line name => .undefinedName (line + k) name
  | .misuse line fault => .misuse (line + k) fault
  | .callDepth line limit => .callDepth (line + k) limit
  | .budget limit => .budget limit

/-- The tokens of one text and then those of another. -/
def Tokens.append (first second : Tokens) : Tokens :=
  { second with items := first.items ++ second.items }

theorem Chunk.eachDown_textChunk (k : Nat) (backwards : List Char) (rest : List Chunk) :
    Chunk.eachDown k (Lexing.textChunk backwards ++ rest) =
      Lexing.textChunk backwards ++ Chunk.eachDown k rest := by
  unfold Lexing.textChunk
  split <;> simp [Chunk.eachDown]

/-- The scan `k` lines further down, where `lower` says what that is for its value. -/
def Scan.down {α : Type} (k : Nat) (lower : α → α) (s : Scan α) : Scan α :=
  ⟨lower s.value, s.rest, s.line + k⟩

theorem Scan.map_down {α : Type} (k : Nat) (f : α → α) (s : Scan α) :
    (s.down k id).map f = (s.map f).down k id := rfl

/-- The scan with more characters after it. -/
def Scan.before {α : Type} (s : Scan α) (more : List Char) : Scan α :=
  { s with rest := s.rest ++ more }

theorem Scan.map_before {α β : Type} (f : α → β) (s : Scan α) (more : List Char) :
    (s.before more).map f = (s.map f).before more := rfl

namespace Lexing

variable {α : Type} {hole : Option HoleReader}

/-- What was read, or why nothing was, `k` lines further down. -/
def lowered (k : Nat) (lower : α → α) : Except ScriptError α → Except ScriptError α
  | .ok a => .ok (lower a)
  | .error e => .error (e.down k)

theorem lineAfter_add (c : Char) (line k : Nat) :
    lineAfter c (line + k) = lineAfter c line + k := by
  unfold lineAfter
  split <;> omega

theorem afterBlockComment_add (cs : List Char) (line k : Nat) :
    afterBlockComment cs (line + k) = (afterBlockComment cs line).map (Scan.down k id) := by
  fun_induction afterBlockComment cs line with
  | case1 => rfl
  | case2 line c cs other ih => rw [afterBlockComment, lineAfter_add, ih]; exact other
  | case3 => rfl

theorem literal_add (quote : Char) (cs : List Char) (line k : Nat) :
    literal quote cs (line + k) = (literal quote cs line).map (Scan.down k id) := by
  fun_induction literal quote cs line with
  | case1 => rfl
  | case4 line d cs escape ih =>
    simp [literal, escape, lineAfter_add, ih, Function.comp_def, Scan.map_down]
  | case6 c cs line other escape feed ih =>
    rw [literal.eq_def]
    simp [other, escape, feed, ih, Function.comp_def, Scan.map_down]
  | _ =>
    rw [literal.eq_def]
    simp_all [Scan.down]

theorem holeCode_add (cs : List Char) (quote : Option Char) (depth line k : Nat) :
    holeCode cs quote depth (line + k) = (holeCode cs quote depth line).map (Scan.down k id) := by
  fun_induction holeCode cs quote depth line with
  | case1 => rfl
  | case5 => rfl
  | case2 => rfl
  | case3 depth line quote d cs ih =>
    simp [holeCode, lineAfter_add, ih, Function.comp_def, Scan.map_down]
  | case4 c cs depth line quote escape ih =>
    rw [holeCode.eq_def]
    simp only [escape, if_false, lineAfter_add, Option.map_map]
    simp [ih, Function.comp_def, Scan.map_down]
  | case6 line cs depth ih => simp [holeCode, ih, Function.comp_def, Scan.map_down]
  | case7 c cs depth line closing depth' ih =>
    rw [holeCode.eq_def]
    simp only [closing, if_false, lineAfter_add]
    rw [ih]
    simp [Function.comp_def, Scan.map_down]

/-- What is read from the code of a hole does not depend on where the hole is, but for the lines. -/
def Placeless (k : Nat) (hole : Option HoleReader) : Prop :=
  ∀ read, hole = some read → ∀ code line,
    read code (line + k) = lowered k (Tokens.down k) (read code line)

theorem templateChunks_add {k : Nat} (placeless : Placeless k hole) (start : Nat)
    (backwards cs : List Char) (line : Nat) :
    templateChunks hole (start + k) backwards cs (line + k) =
      lowered k (Scan.down k (Chunk.eachDown k)) (templateChunks hole start backwards cs line) := by
  fun_induction templateChunks hole start backwards cs line with
  | case2 backwards cs line =>
    rw [templateChunks.eq_def]
    have same := Chunk.eachDown_textChunk k backwards []
    simp only [Chunk.eachDown, List.append_nil] at same
    simp [lowered, Scan.down, same]
  | case7 backwards c cs line plain escape opens read same code found ih =>
    subst same
    obtain ⟨rfl, brace⟩ := opens
    obtain ⟨tail, rfl⟩ : ∃ tail, cs = '{' :: tail := List.head?_eq_some_iff.mp brace
    have found' : holeCode tail none 0 (line + k) = some (code.down k id) := by
      rw [holeCode_add, show holeCode tail none 0 line = some code from found]
      rfl
    rw [templateChunks_code found', placeless read rfl]
    show (lowered k (Tokens.down k) (read code.value line) >>= _) = _
    cases read code.value line with
    | error e => rfl
    | ok tokens =>
      show (templateChunks (some read) (start + k) [] code.rest (code.line + k) >>= _) = _
      rw [ih]
      cases templateChunks (some read) start [] code.rest code.line with
      | error e => rfl
      | ok after =>
        simp [lowered, Scan.map, Scan.down, bind, Except.bind, pure, Except.pure,
          Chunk.eachDown_textChunk, Chunk.eachDown, Tokens.down]
  | case6 backwards c cs line plain escape opens read same missed =>
    subst same
    obtain ⟨rfl, brace⟩ := opens
    obtain ⟨tail, rfl⟩ : ∃ tail, cs = '{' :: tail := List.head?_eq_some_iff.mp brace
    have missed' : holeCode tail none 0 (line + k) = none := by
      rw [holeCode_add, show holeCode tail none 0 line = none from missed]
      rfl
    rw [templateChunks_open missed']
    rfl
  | _ =>
    rw [templateChunks.eq_def]
    simp_all [lineAfter_add, lowered, ScriptError.down]

theorem templateLexeme_down (k : Nat) (chunks : List Chunk) :
    (templateLexeme chunks).down k = templateLexeme (Chunk.eachDown k chunks) := by
  unfold templateLexeme
  rcases chunks with _ | ⟨_ | _, _⟩ <;> simp [Lexeme.down, Chunk.eachDown]

theorem next_add {k : Nat} (placeless : Placeless k hole) (c : Char) (cs : List Char)
    (line : Nat) :
    next hole c cs (line + k) =
      lowered k (Scan.down k (Option.map (Token.down k))) (next hole c cs line) := by
  unfold next
  split_ifs
  · simp [lowered, Scan.down, lineAfter_add]
  · rfl
  · rw [afterBlockComment_add]
    cases afterBlockComment cs.tail line <;> rfl
  · rw [literal_add]
    cases literal c cs line <;> rfl
  · rw [templateChunks_add placeless]
    cases templateChunks hole line [] cs line with
    | error e => rfl
    | ok s => simp [lowered, Except.map, Scan.map, Scan.down, Token.down, templateLexeme_down]
  · rfl
  · rfl
  · cases markAt c cs <;> rfl

/-- The tokens of a text that begins further down. -/
theorem tokensFrom_add {k : Nat} (placeless : Placeless k hole) (cs : List Char) (line : Nat) :
    tokensFrom hole cs (line + k) = lowered k (Tokens.down k) (tokensFrom hole cs line) := by
  fun_induction tokensFrom hole cs line with
  | case1 line =>
    rw [tokensFrom_nil]
    rfl
  | case2 line c cs e failed =>
    rw [tokensFrom_error (by rw [next_add placeless, failed]; rfl)]
    rfl
  | case3 line c cs s found ih =>
    have found' : next hole c cs (line + k) = .ok (s.down k (Option.map (Token.down k))) := by
      rw [next_add placeless, found]
      rfl
    rw [tokensFrom_cons found']
    show (tokensFrom hole s.rest (s.line + k)).map _ = _
    rw [ih]
    cases tokensFrom hole s.rest s.line with
    | error e => rfl
    | ok after => rcases s with ⟨_ | ⟨line, lexeme⟩, rest, line'⟩ <;> rfl

theorem placeless_reader (k holes : Nat) : Placeless k (reader holes) := by
  induction holes with
  | zero =>
    intro read same
    cases same
  | succ holes ih =>
    intro read same code line
    cases same
    rw [tokensWithin_eq]
    exact tokensFrom_add ih code line

/-! ## More text on a new line

`feed` says of each scanner that what it has read it reads as well if a line feed follows. -/

variable {cs : List Char} {line : Nat}

theorem takeWhile_feed {p : Char → Bool} (stops : p '\n' = false) (cs b : List Char) :
    (cs ++ '\n' :: b).takeWhile p = cs.takeWhile p := by
  induction cs with
  | nil => simp [stops]
  | cons c cs ih => by_cases passes : p c = true <;> simp [passes, ih]

theorem dropWhile_feed {p : Char → Bool} (stops : p '\n' = false) (cs b : List Char) :
    (cs ++ '\n' :: b).dropWhile p = cs.dropWhile p ++ '\n' :: b := by
  induction cs with
  | nil => simp [stops]
  | cons c cs ih => by_cases passes : p c = true <;> simp [passes, ih]

theorem afterBlockComment_append {s : Scan Unit} (read : afterBlockComment cs line = some s)
    (more : List Char) : afterBlockComment (cs ++ more) line = some (s.before more) := by
  fun_induction afterBlockComment cs line with
  | case1 =>
    cases read
    rfl
  | case2 c cs line other ih =>
    rw [List.cons_append, afterBlockComment, ih read]
    intro rest star split
    cases cs with
    | nil => cases read
    | cons d cs =>
      cases split
      exact other cs star rfl
  | case3 => cases read

theorem literal_append {quote : Char} {s : Scan (List Char)}
    (read : literal quote cs line = some s) (more : List Char) :
    literal quote (cs ++ more) line = some (s.before more) := by
  fun_induction literal quote cs line generalizing s with
  | case2 => 
    cases read
    rw [literal.eq_def]
    simp [Scan.before]
  | case4 line d cs escape ih =>
    obtain ⟨t, inside, rfl⟩ := Option.map_eq_some_iff.mp read
    simp [literal, escape, ih inside, Scan.map_before]
  | case6 c cs line other escape feed ih =>
    obtain ⟨t, inside, rfl⟩ := Option.map_eq_some_iff.mp read
    rw [literal.eq_def]
    simp [other, escape, feed, ih inside, Scan.map_before]
  | _ => cases read

theorem holeCode_append {quote : Option Char} {depth : Nat} {s : Scan (List Char)}
    (read : holeCode cs quote depth line = some s) (more : List Char) :
    holeCode (cs ++ more) quote depth line = some (s.before more) := by
  fun_induction holeCode cs quote depth line generalizing s with
  | case1 => cases read
  | case2 => cases read
  | case3 depth line quote d cs ih =>
    obtain ⟨t, inside, rfl⟩ := Option.map_eq_some_iff.mp read
    simp [holeCode, ih inside, Scan.map_before]
  | case4 c cs depth line quote escape ih =>
    obtain ⟨t, inside, rfl⟩ := Option.map_eq_some_iff.mp read
    have inside' := ih inside
    rw [List.cons_append, holeCode.eq_def]
    simp only [escape, if_false]
    rw [inside']
    rfl
  | case5 =>
    cases read
    rfl
  | case6 line cs depth ih => 
    obtain ⟨t, inside, rfl⟩ := Option.map_eq_some_iff.mp read
    simp [holeCode, ih inside, Scan.map_before]
  | case7 c cs =>
    rename_i closing _ ih
    obtain ⟨t, inside, rfl⟩ := Option.map_eq_some_iff.mp read
    rw [List.cons_append, holeCode.eq_def]
    simp only [closing, if_false]
    rw [ih inside]
    rfl

theorem templateChunks_append {start : Nat} {backwards : List Char} {s : Scan (List Chunk)}
    (read : templateChunks hole start backwards cs line = .ok s) (more : List Char) :
    templateChunks hole start backwards (cs ++ more) line = .ok (s.before more) := by
  fun_induction templateChunks hole start backwards cs line generalizing s with
  | case2 =>
    cases read
    rw [List.cons_append, templateChunks.eq_def]
    simp [Scan.before]
  | case4 backwards line d cs feed ih => 
    rw [List.cons_append, templateChunks.eq_def]
    simp [ih read]
  | case7 backwards c cs line plain escape opens reader same code found ih =>
    subst same
    obtain ⟨rfl, brace⟩ := opens
    obtain ⟨tail, rfl⟩ : ∃ tail, cs = '{' :: tail := List.head?_eq_some_iff.mp brace
    obtain ⟨tokens, inside, read⟩ := bind_eq_ok.mp read
    obtain ⟨after, scanned, read⟩ := bind_eq_ok.mp read
    cases read
    have found' : holeCode (tail ++ more) none 0 line = some (code.before more) :=
      holeCode_append found more
    rw [List.cons_append, List.cons_append, templateChunks_code found']
    show (reader code.value line >>= _) = _
    rw [inside]
    show (templateChunks _ _ _ (code.rest ++ more) code.line >>= _) = _
    rw [ih scanned]
    rfl
  | case8 backwards c cs line plain escape opens ih =>
    have opens' : ¬ (c = '$' ∧ (cs ++ more).head? = some '{') := by
      cases cs with
      | nil =>
        rw [templateChunks] at read
        cases read
      | cons d cs => exact opens
    rw [List.cons_append, templateChunks.eq_def]
    simp only [plain, escape, opens', if_false]
    exact ih read
  | _ => cases read

theorem numeral_feed (cs b : List Char) :
    numeral (cs ++ '\n' :: b) = ((numeral cs).1, (numeral cs).2 ++ '\n' :: b) := by
  unfold numeral
  rw [takeWhile_feed (by decide), dropWhile_feed (by decide)]
  rcases cs.dropWhile isDigitOrGap with _ | ⟨point, _ | ⟨d, rest⟩⟩
  · simp
  · by_cases same : point = '.' <;> simp [same]
  · by_cases same : point = '.'
    · have digits := takeWhile_feed (p := Char.isDigit) (by decide) (d :: rest) b
      have others := dropWhile_feed (p := Char.isDigit) (by decide) (d :: rest) b
      rw [List.cons_append] at digits others
      by_cases digit : d.isDigit <;> simp [same, digit, digits, others]
    · simp [same]

/-- No mark goes on with a line feed. -/
theorem markAt_feed {c : Char} {rest : List Char} {m : Mark} (read : markAt c cs = some (m, rest))
    (b : List Char) : markAt c (cs ++ '\n' :: b) = some (m, rest ++ '\n' :: b) := by
  unfold markAt at read
  split at read <;> cases read <;> first | rfl | skip
  -- where a longer mark was possible, its next character is missing or another one
  all_goals first | cases rest | cases cs
  all_goals first | rfl | simp_all [markAt]

theorem head?_feed {x : Char} (other : x ≠ '\n') (cs b : List Char) :
    (cs ++ '\n' :: b).head? = some x ↔ cs.head? = some x := by
  cases cs with
  | nil => simp [Ne.symm other]
  | cons c cs => rfl

theorem next_feed {c : Char} {s : Scan (Option Token)} (read : next hole c cs line = .ok s)
    (b : List Char) : next hole c (cs ++ '\n' :: b) line = .ok (s.before ('\n' :: b)) := by
  unfold next at read ⊢
  simp only [head?_feed (show '/' ≠ '\n' by decide), head?_feed (show '*' ≠ '\n' by decide)]
  split_ifs at read ⊢
  · cases read; rfl
  · cases read
    rw [afterLineComment, dropWhile_feed (by decide)]
    rfl
  · rename_i comment
    obtain ⟨tail, rfl⟩ : ∃ tail, cs = '*' :: tail := List.head?_eq_some_iff.mp comment.2
    split at read
    · rename_i t found
      cases read
      have found' : afterBlockComment (('*' :: tail) ++ '\n' :: b).tail line = _ :=
        afterBlockComment_append found ('\n' :: b)
      rw [found']
      rfl
    · cases read
  · split at read
    · rename_i t found
      cases read
      rw [literal_append found]
      rfl
    · cases read
  · obtain ⟨t, found, rfl⟩ := map_eq_ok.mp read
    rw [templateChunks_append found]
    rfl
  · cases read
    rw [← List.cons_append, numeral_feed]
    rfl
  · cases read
    rw [takeWhile_feed (by decide +kernel), dropWhile_feed (by decide +kernel)]
    rfl
  · split at read
    · rename_i m rest found
      cases read
      rw [markAt_feed found]
      rfl
    · cases read

theorem next_lineFeed (cs : List Char) (line : Nat) :
    next hole '\n' cs line = .ok ⟨none, cs, line + 1⟩ := by
  simp [next, lineAfter]

/-- What comes first and the tokens of the rest. -/
theorem first_eq_ok {first : Option Token} {rest : Except ScriptError Tokens} {tokens : Tokens}
    (read : (do
      let after ← rest
      match first with
      | some token => return { after with items := token :: after.items }
      | none => return after) = Except.ok tokens) :
    ∃ after, rest = .ok after ∧ tokens = ⟨first.toList ++ after.items, after.endLine⟩ := by
  obtain ⟨after, later, read⟩ := bind_eq_ok.mp read
  refine ⟨after, later, ?_⟩
  cases first <;> cases read <;> rfl

/-- The tokens of a text that goes on after a line feed are those before it and those after it. -/
theorem tokensFrom_feed {tokens : Tokens} (read : tokensFrom hole cs line = .ok tokens)
    (b : List Char) :
    tokensFrom hole (cs ++ '\n' :: b) line =
      (tokensFrom hole b (tokens.endLine + 1)).map tokens.append := by
  fun_induction tokensFrom hole cs line generalizing tokens with
  | case1 line =>
    cases read
    rw [List.nil_append, tokensFrom_cons (next_lineFeed b line)]
    rfl
  | case2 => cases read
  | case3 line c cs s found ih =>
    obtain ⟨after, rest, rfl⟩ := first_eq_ok read
    rw [List.cons_append, tokensFrom_cons (next_feed found b)]
    show (tokensFrom hole (s.rest ++ '\n' :: b) s.line).map _ = _
    rw [ih rest]
    cases tokensFrom hole b (after.endLine + 1) with
    | error e => rfl
    | ok later => simp [Except.map, Tokens.append, Scan.before]

theorem linesAfter_count (cs : List Char) (line : Nat) :
    linesAfter cs line = line + cs.count '\n' := by
  induction cs generalizing line with
  | nil => rfl
  | cons c cs ih =>
    rw [linesAfter_cons, ih, lineAfter, List.count_cons]
    by_cases feed : c = '\n' <;> simp [feed] 
    omega

/-- A text ends as many lines down as it has line feeds. -/
theorem tokensFrom_endLine {tokens : Tokens} (read : tokensFrom hole cs line = .ok tokens) :
    tokens.endLine = linesAfter cs line := by
  fun_induction tokensFrom hole cs line generalizing tokens with
  | case1 line =>
    cases read
    rfl
  | case2 => cases read
  | case3 line c cs s found ih =>
    obtain ⟨after, rest, rfl⟩ := first_eq_ok read
    obtain ⟨part, split, lines, -⟩ := next_part found
    rw [split, linesAfter_append, ← lines, ← ih rest]

end Lexing

open Lexing

/-- The tokens of two texts with a line feed between them are those of the first and then those of
the second, further down by the line feed and those of the first text; and what is wrong with the
second text is wrong so many lines further down. -/
theorem tokenize_append_newline {limit : Nat} {a : String} {tokens : Tokens}
    (read : tokenize limit a = .ok tokens) (b : String) :
    tokenize limit (a ++ "\n" ++ b) =
      let k := 1 + a.toList.count '\n'
      match tokenize limit b with
      | .ok after => .ok (tokens.append (after.down k))
      | .error e => .error (e.down k) := by
  unfold tokenize at read ⊢
  rw [tokensWithin_eq] at read
  have lines : tokens.endLine + 1 = 1 + (1 + a.toList.count '\n') := by
    rw [tokensFrom_endLine read, linesAfter_count]
    omega
  rw [String.toList_append, String.toList_append, List.append_assoc, tokensWithin_eq]
  show tokensFrom _ (a.toList ++ '\n' :: b.toList) 1 = _
  rw [tokensFrom_feed read, lines, tokensFrom_add (placeless_reader _ limit)]
  cases tokensFrom (reader limit) b.toList 1 <;> rfl

/-- A comment ends with its line, and the hole of a template literal is one line further down than
it was. -/
theorem tokenize_append_newline_comment :
    ∃ tokens, tokenize 1 "x // y" = .ok tokens ∧
      tokenize 1 ("x // y" ++ "\n" ++ "\x60$\x7bz\x7d\x60") =
        let k := 1 + "x // y".toList.count '\n'
        match tokenize 1 "\x60$\x7bz\x7d\x60" with
        | .ok after => .ok (tokens.append (after.down k))
        | .error e => .error (e.down k) := by
  have succeeds : (tokenize 1 "x // y").toOption.isSome = true := by decide +kernel
  cases read : tokenize 1 "x // y" with
  | error e =>
    rw [read] at succeeds
    cases succeeds
  | ok tokens => exact ⟨tokens, rfl, tokenize_append_newline read _⟩

end EventLoop
