import EventLoop.Language.Token
import EventLoop.Text.Letter

/-!
# From text to tokens

`tokenize` cuts a text into tokens. Each scanner takes the characters that are left and the line on
which they begin, and returns what it read with the characters and the line after it; it never
returns more characters than it was given, so cutting ends with the text. The code in a hole of a
template literal is cut out first, up to the closing brace that matches outside quotes, and then cut
into tokens on its own; how deep such holes may nest is bounded.
-/

namespace EventLoop

/-- What a scanner read, the characters after it, and the line on which they begin. -/
structure Scan (α : Type) where
  value : α
  rest : List Char
  line : Nat

namespace Scan

variable {α β : Type}

/-- The same place with another value. -/
def map (f : α → β) (s : Scan α) : Scan β :=
  { s with value := f s.value }

@[simp] theorem rest_map (f : α → β) (s : Scan α) : (s.map f).rest = s.rest := rfl

end Scan

/-- The line after a character on the given line. -/
def lineAfter (c : Char) (line : Nat) : Nat :=
  if c = '\n' then line + 1 else line

namespace Lexing

/-- The characters from the next line feed on, which ends a line comment. -/
def afterLineComment (cs : List Char) : List Char :=
  cs.dropWhile (· != '\n')

/-- What follows a comment that is already open, if it is closed. -/
def afterBlockComment : List Char → Nat → Option (Scan Unit)
  | '*' :: '/' :: cs, line => some ⟨(), cs, line⟩
  | c :: cs, line => afterBlockComment cs (lineAfter c line)
  | [], _ => none

/-- The character that stands for itself after a backslash, but for four letters. -/
def unescape : Char → Char
  | 'n' => '\n'
  | 't' => '\t'
  | 'r' => '\r'
  | '0' => '\x00'
  | c => c

/-- The content of a text literal whose opening quote has been read. It ends on the line on which it
began, unless its line feeds are escaped. -/
def literal (quote : Char) : List Char → Nat → Option (Scan (List Char))
  | [], _ => none
  | c :: cs, line =>
    if c = quote then some ⟨[], cs, line⟩
    else if c = '\\' then
      match cs with
      | [] => none
      | d :: cs => (literal quote cs (lineAfter d line)).map (·.map (unescape d :: ·))
    else if c = '\n' then none
    else (literal quote cs line).map (·.map (c :: ·))

/-- Does the character open and close text literals? -/
def isQuote (c : Char) : Bool :=
  c == '\x22' || c == '\x27'

/-- The code of a hole whose opening brace has been read, up to the brace that closes it. Braces
between quotes do not count; `quote` is the quote that is open and `depth` the number of open braces
inside the hole. -/
def holeCode : List Char → Option Char → Nat → Nat → Option (Scan (List Char))
  | [], _, _, _ => none
  | c :: cs, some quote, depth, line =>
    if c = '\\' then
      match cs with
      | [] => none
      | d :: cs =>
        (holeCode cs (some quote) depth (lineAfter d line)).map (·.map (c :: d :: ·))
    else
      (holeCode cs (if c = quote then none else some quote) depth (lineAfter c line)).map
        (·.map (c :: ·))
  | c :: cs, none, depth, line =>
    if c = '}' then
      match depth with
      | 0 => some ⟨[], cs, line⟩
      | depth + 1 => (holeCode cs none depth line).map (·.map (c :: ·))
    else
      let depth := if c = '{' then depth + 1 else depth
      (holeCode cs (if isQuote c then some c else none) depth (lineAfter c line)).map
        (·.map (c :: ·))

theorem length_dropWhile_le (p : Char → Bool) (cs : List Char) :
    (cs.dropWhile p).length ≤ cs.length :=
  (List.dropWhile_sublist p).length_le

theorem afterBlockComment_length {cs : List Char} {line : Nat} {s : Scan Unit}
    (h : afterBlockComment cs line = some s) : s.rest.length < cs.length := by
  fun_induction afterBlockComment cs line with
  | case1 cs line =>
    cases h
    simp only [List.length_cons]; omega
  | case2 line c cs _ ih =>
    have := ih h
    simp only [List.length_cons]; omega
  | case3 => cases h

theorem literal_length {quote : Char} {cs : List Char} {line : Nat} {s : Scan (List Char)}
    (h : literal quote cs line = some s) : s.rest.length < cs.length := by
  fun_induction literal quote cs line generalizing s with
  | case1 => cases h
  | case2 => cases h; simp
  | case3 => cases h
  | case4 line d cs _ ih =>
    obtain ⟨t, ht, rfl⟩ := Option.map_eq_some_iff.1 h
    have := ih ht
    simp only [Scan.rest_map, List.length_cons]; omega
  | case5 => cases h
  | case6 line c cs _ _ _ ih =>
    obtain ⟨t, ht, rfl⟩ := Option.map_eq_some_iff.1 h
    have := ih ht
    simp only [Scan.rest_map, List.length_cons]; omega

theorem holeCode_length {cs : List Char} {quote : Option Char} {depth line : Nat}
    {s : Scan (List Char)} (h : holeCode cs quote depth line = some s) :
    s.rest.length < cs.length := by
  fun_induction holeCode cs quote depth line generalizing s with
  | case1 => cases h
  | case2 => cases h
  | case3 _ _ _ d cs ih =>
    obtain ⟨t, ht, rfl⟩ := Option.map_eq_some_iff.1 h
    have := ih ht
    simp only [Scan.rest_map, List.length_cons]; omega
  | case4 _ _ _ _ _ _ ih =>
    obtain ⟨t, ht, rfl⟩ := Option.map_eq_some_iff.1 h
    have := ih ht
    simp only [Scan.rest_map, List.length_cons]; omega
  | case5 => cases h; simp
  | case6 _ _ _ ih =>
    obtain ⟨t, ht, rfl⟩ := Option.map_eq_some_iff.1 h
    have := ih ht
    simp only [Scan.rest_map, List.length_cons]; omega
  | case7 =>
    rename_i ih
    obtain ⟨t, ht, rfl⟩ := Option.map_eq_some_iff.1 h
    have := ih ht
    simp only [Scan.rest_map, List.length_cons]; omega

/-- How the code of a hole, beginning on the given line, is cut into tokens. -/
abbrev HoleReader := List Char → Nat → Except ScriptError Tokens

/-- A text chunk, unless the text is empty. The text is given backwards. -/
def textChunk (backwards : List Char) : List Chunk :=
  if backwards.isEmpty then [] else [.text (String.ofList backwards.reverse)]

/-- The chunks of a template literal whose opening quote has been read. Its faults are reported for
the line on which it begins, those of the code in its holes for their own. -/
def templateChunks (hole : Option HoleReader) (start : Nat) (backwards : List Char) :
    (cs : List Char) → Nat → Except ScriptError (Scan (List Chunk))
  | [], _ => .error (.malformed start .unterminatedTemplate)
  | c :: cs, line =>
    if c = '\x60' then .ok ⟨textChunk backwards, cs, line⟩
    else if c = '\\' then
      match cs with
      | [] => .error (.malformed start .unterminatedText)
      | d :: cs => templateChunks hole start (unescape d :: backwards) cs (lineAfter d line)
    else if c = '$' ∧ cs.head? = some '{' then
      match hole with
      | none => .error (.malformed start .templateTooDeep)
      | some read =>
        match h : holeCode cs.tail none 0 line with
        | none => .error (.malformed start .unterminatedTemplate)
        | some code => do
          let tokens ← read code.value line
          let after ← templateChunks hole start [] code.rest code.line
          return after.map fun chunks => textChunk backwards ++ .code tokens.items :: chunks
    else templateChunks hole start (c :: backwards) cs (lineAfter c line)
termination_by cs => cs.length
decreasing_by
  · simp only [List.length_cons]; omega
  · have := holeCode_length h
    simp only [List.length_cons, List.length_tail] at this ⊢; omega
  · simp

/-- The lexeme of a template literal. Even an empty one has a chunk. -/
def templateLexeme (chunks : List Chunk) : Lexeme :=
  .template (if chunks.isEmpty then [.text ""] else chunks)

/-- Decimal digits, among which underscores do not count. -/
def isDigitOrGap (c : Char) : Bool :=
  c.isDigit || c == '_'

/-- A number: digits, and a fraction if a digit follows the point. -/
def numeral (cs : List Char) : Float × List Char :=
  let whole := (cs.takeWhile isDigitOrGap).filter (· != '_')
  match cs.dropWhile isDigitOrGap with
  | '.' :: d :: rest =>
    if d.isDigit then
      (Number.ofDecimal whole ((d :: rest).takeWhile Char.isDigit) 0,
        (d :: rest).dropWhile Char.isDigit)
    else (Number.ofDecimal whole [] 0, '.' :: d :: rest)
  | rest => (Number.ofDecimal whole [] 0, rest)

/-- The longest mark that the character `c` and those after it begin with. -/
def markAt (c : Char) (cs : List Char) : Option (Mark × List Char) :=
  match c, cs with
  | '(', _ => some (.leftParen, cs)
  | ')', _ => some (.rightParen, cs)
  | '{', _ => some (.leftBrace, cs)
  | '}', _ => some (.rightBrace, cs)
  | ',', _ => some (.comma, cs)
  | ';', _ => some (.semicolon, cs)
  | '.', _ => some (.dot, cs)
  | '?', _ => some (.question, cs)
  | ':', _ => some (.colon, cs)
  | '*', _ => some (.star, cs)
  | '/', _ => some (.slash, cs)
  | '%', _ => some (.percent, cs)
  | '+', '+' :: rest => some (.plusPlus, rest)
  | '+', '=' :: rest => some (.plusAssign, rest)
  | '+', _ => some (.plus, cs)
  | '-', '-' :: rest => some (.minusMinus, rest)
  | '-', '=' :: rest => some (.minusAssign, rest)
  | '-', _ => some (.minus, cs)
  | '=', '>' :: rest => some (.arrow, rest)
  | '=', '=' :: '=' :: rest => some (.strictEqual, rest)
  | '=', '=' :: rest => some (.equal, rest)
  | '=', _ => some (.assign, cs)
  | '!', '=' :: '=' :: rest => some (.strictNotEqual, rest)
  | '!', '=' :: rest => some (.notEqual, rest)
  | '!', _ => some (.bang, cs)
  | '<', '=' :: rest => some (.lessEqual, rest)
  | '<', _ => some (.less, cs)
  | '>', '=' :: rest => some (.greaterEqual, rest)
  | '>', _ => some (.greater, cs)
  | '&', '&' :: rest => some (.andAnd, rest)
  | '|', '|' :: rest => some (.orOr, rest)
  | _, _ => none

/-- Reads what begins with the character `c` on the given line: a token, or something between
tokens. -/
def next (hole : Option HoleReader) (c : Char) (cs : List Char) (line : Nat) :
    Except ScriptError (Scan (Option Token)) :=
  if isBlank c then .ok ⟨none, cs, lineAfter c line⟩
  else if c = '/' ∧ cs.head? = some '/' then .ok ⟨none, afterLineComment cs, line⟩
  else if c = '/' ∧ cs.head? = some '*' then
    match afterBlockComment cs.tail line with
    | some s => .ok ⟨none, s.rest, s.line⟩
    | none => .error (.malformed line .unterminatedComment)
  else if isQuote c then
    match literal c cs line with
    | some s => .ok ⟨some (.at line (.text (String.ofList s.value))), s.rest, s.line⟩
    | none => .error (.malformed line .unterminatedText)
  else if c = '\x60' then
    (templateChunks hole line [] cs line).map (·.map (some <| .at line <| templateLexeme ·))
  else if c.isDigit then
    let (value, rest) := numeral (c :: cs)
    .ok ⟨some (.at line (.number value)), rest, line⟩
  else if isNameStart c then
    .ok ⟨some (.at line (.name (String.ofList (c :: cs.takeWhile isNamePart)))),
      cs.dropWhile isNamePart, line⟩
  else
    match markAt c cs with
    | some (m, rest) => .ok ⟨some (.at line (.mark m)), rest, line⟩
    | none => .error (.malformed line (.unexpectedCharacter c))

theorem templateChunks_length {hole : Option HoleReader} {start line : Nat}
    {backwards cs : List Char} {s : Scan (List Chunk)}
    (h : templateChunks hole start backwards cs line = .ok s) : s.rest.length < cs.length := by
  fun_induction templateChunks hole start backwards cs line generalizing s with
  | case1 => cases h
  | case2 => cases h; simp
  | case3 => cases h
  | case4 _ _ d cs _ ih =>
    have := ih h
    simp only [List.length_cons]; omega
  | case5 => cases h
  | case6 => cases h
  | case7 backwards c cs line _ _ _ read hread code hcode ih =>
    subst hread
    cases hr : read code.value line with
    | error e => simp [hr, bind, Except.bind] at h
    | ok tokens =>
      cases ha : templateChunks (some read) start [] code.rest code.line with
      | error e => simp [hr, ha, bind, Except.bind] at h
      | ok after =>
        simp only [hr, ha, bind, Except.bind, pure, Except.pure, Except.ok.injEq] at h
        have := holeCode_length hcode
        have := ih ha
        subst h
        simp only [Scan.rest_map, List.length_cons, List.length_tail] at *; omega
  | case8 _ c cs _ _ _ _ ih =>
    have := ih h
    simp only [List.length_cons]; omega

theorem markAt_length {c : Char} {cs rest : List Char} {m : Mark}
    (h : markAt c cs = some (m, rest)) : rest.length ≤ cs.length := by
  unfold markAt at h
  split at h <;> simp at h <;> obtain ⟨_, rfl⟩ := h <;> simp <;> omega

theorem numeral_length (c : Char) (cs : List Char) (hc : c.isDigit = true) :
    (numeral (c :: cs)).2.length ≤ cs.length := by
  have hdrop : (c :: cs).dropWhile isDigitOrGap = cs.dropWhile isDigitOrGap := by
    simp [isDigitOrGap, hc]
  have hle := length_dropWhile_le isDigitOrGap cs
  unfold numeral
  rw [hdrop]
  split
  · next d rest hd =>
    rw [hd] at hle
    split
    · have := length_dropWhile_le Char.isDigit (d :: rest)
      simp only [List.length_cons] at *; omega
    · exact hle
  · exact hle

/-- A scanner leaves fewer characters than it was given. -/
theorem next_length {hole : Option HoleReader} {c : Char} {cs : List Char} {line : Nat}
    {s : Scan (Option Token)} (h : next hole c cs line = .ok s) :
    s.rest.length ≤ cs.length := by
  unfold next at h
  split at h
  · cases h; exact Nat.le_refl _
  split at h
  · cases h; exact length_dropWhile_le _ cs
  split at h
  · split at h
    · next b hb =>
      cases h
      have := afterBlockComment_length hb
      simp only [List.length_tail] at this ⊢; omega
    · cases h
  split at h
  · split at h
    · next t ht =>
      cases h
      exact Nat.le_of_lt (literal_length ht)
    · cases h
  split at h
  · cases ht : templateChunks hole line [] cs line with
    | error e => simp [ht, Except.map] at h
    | ok t =>
      simp only [ht, Except.map, Except.ok.injEq] at h
      subst h
      exact Nat.le_of_lt (templateChunks_length ht)
  split at h
  · next hd => cases h; exact numeral_length c cs hd
  split at h
  · cases h; exact length_dropWhile_le _ cs
  split at h
  · next hm => cases h; exact markAt_length hm
  · cases h

/-- The tokens of a text that begins on the given line. -/
def tokensFrom (hole : Option HoleReader) (cs : List Char) (line : Nat) :
    Except ScriptError Tokens :=
  match cs with
  | [] => .ok ⟨[], line⟩
  | c :: cs =>
    match _h : next hole c cs line with
    | .error e => .error e
    | .ok s => do
      let after ← tokensFrom hole s.rest s.line
      match s.value with
      | some token => return { after with items := token :: after.items }
      | none => return after
termination_by cs.length
decreasing_by
  have := next_length (by assumption)
  simp only [List.length_cons]; omega

/-- The tokens of a text in which template literals stand in holes of at most `holes` others. -/
def tokensWithin : Nat → List Char → Nat → Except ScriptError Tokens
  | 0 => tokensFrom none
  | holes + 1 => tokensFrom (some (tokensWithin holes))

end Lexing

/-- The tokens of a script, whose template literals may nest as deeply as `maxNesting` says. -/
def tokenize (maxNesting : Nat) (source : String) : Except ScriptError Tokens :=
  Lexing.tokensWithin maxNesting source.toList 1

end EventLoop
