import EventLoop.Proofs.Language.Pieces

/-!
# Flat scripts

A flat script is a list of operations, one on each line. An operation prints its label at once, or
has it printed by a callback: that of a timer, one that is deferred, or a continuation. One kind of
operation defers another callback from its callback.
-/

namespace EventLoop

open Parsing Lexing

/-- What a line of a flat script does. -/
inductive FlatOp where
  | print
  /-- Prints after a delay. -/
  | timer (delay : Nat)
  | deferred
  /-- Prints in a deferred callback, which defers another one that prints. -/
  | nested
  /-- Prints in a continuation of a promise that has a value. -/
  | continuation
deriving DecidableEq, Repr

namespace FlatOp

def isTimer : FlatOp → Bool
  | timer _ => true
  | _ => false

/-- What the callback prints that an operation defers in its callback. -/
def nestedLabel (label : String) : String := label ++ "-nested"

/-- What an operation prints at once. -/
def printed? (label : String) : FlatOp → Option String
  | print => some label
  | _ => none

/-- What the callback prints that an operation defers. -/
def deferred? (label : String) : FlatOp → Option String
  | deferred | nested | continuation => some label
  | _ => none

/-- What the callback prints that is deferred in the callback of an operation. -/
def nested? (label : String) : FlatOp → Option String
  | nested => some (nestedLabel label)
  | _ => none

/-- The delay of the timer that an operation registers, and what its callback prints. -/
def timer? (label : String) : FlatOp → Option (Nat × String)
  | timer delay => some (delay, label)
  | _ => none

/-- The line of an operation. -/
def text (label : String) : FlatOp → String
  | print => "console.log('" ++ label ++ "');\n"
  | timer delay =>
    "setTimeout(() => console.log('" ++ label ++ "'), " ++ toString delay ++ ");\n"
  | deferred => "queueMicrotask(() => console.log('" ++ label ++ "'));\n"
  | nested => "queueMicrotask(() => \x7b console.log('" ++ label ++
      "'); queueMicrotask(() => console.log('" ++ nestedLabel label ++ "')); \x7d);\n"
  | continuation => "Promise.resolve().then(() => console.log('" ++ label ++ "'));\n"

/-- A call that prints a label. -/
def logCall (line : Nat) (label : String) : Expr :=
  .call line (.member line (.name line "console") "log") [.text line label]

/-- A function without parameters. -/
def arrow (line : Nat) (body : Body) : Expr :=
  .function line (.mk none [] body line)

/-- A function that prints a label. -/
def logger (line : Nat) (label : String) : Expr :=
  arrow line (.value (logCall line label))

def deferCall (line : Nat) (function : Expr) : Expr :=
  .call line (.name line "queueMicrotask") [function]

/-- The expression of an operation. -/
def expr (line : Nat) (label : String) : FlatOp → Expr
  | print => logCall line label
  | timer delay =>
    .call line (.name line "setTimeout") [logger line label, .number line (Float.ofNat delay)]
  | deferred => deferCall line (logger line label)
  | nested => deferCall line (arrow line (.block
      [.evaluate (logCall line label),
        .evaluate (deferCall line (logger line (nestedLabel label)))]))
  | continuation =>
    .call line (.member line (.call line (.member line (.name line "Promise") "resolve") []) "then")
      [logger line label]

def logLexemes (label : String) : List Lexeme :=
  [.name "console", .mark .dot, .name "log", .mark .leftParen, .text label, .mark .rightParen]

def loggerLexemes (label : String) : List Lexeme :=
  .mark .leftParen :: .mark .rightParen :: .mark .arrow :: logLexemes label

/-- The lexemes of an operation. -/
def lexemes (label : String) : FlatOp → List Lexeme
  | print => logLexemes label ++ [.mark .semicolon]
  | timer delay => .name "setTimeout" :: .mark .leftParen :: (loggerLexemes label ++
      [.mark .comma, .number (Float.ofNat delay), .mark .rightParen, .mark .semicolon])
  | deferred => .name "queueMicrotask" :: .mark .leftParen ::
      (loggerLexemes label ++ [.mark .rightParen, .mark .semicolon])
  | nested => .name "queueMicrotask" :: .mark .leftParen :: .mark .leftParen ::
      .mark .rightParen :: .mark .arrow :: .mark .leftBrace :: (logLexemes label ++
        .mark .semicolon :: .name "queueMicrotask" :: .mark .leftParen ::
          (loggerLexemes (nestedLabel label) ++ [.mark .rightParen, .mark .semicolon,
            .mark .rightBrace, .mark .rightParen, .mark .semicolon]))
  | continuation => .name "Promise" :: .mark .dot :: .name "resolve" :: .mark .leftParen ::
      .mark .rightParen :: .mark .dot :: .name "then" :: .mark .leftParen ::
        (loggerLexemes label ++ [.mark .rightParen, .mark .semicolon])

/-! ## The lexemes of an operation -/

/-- The characters of a call that prints a label, before the given ones. -/
def logChars (label : String) (rest : List Char) : List Char :=
  "console".toList ++ '.' :: ("log".toList ++ '(' :: '\x27' ::
    (label.toList ++ '\x27' :: ')' :: rest))

/-- The characters of a function that prints a label, before the given ones. -/
def loggerChars (label : String) (rest : List Char) : List Char :=
  '(' :: ')' :: ' ' :: '=' :: '>' :: ' ' :: logChars label rest

/-- The characters of an operation, before the given ones. -/
def chars (label : String) (rest : List Char) : FlatOp → List Char
  | print => logChars label (';' :: rest)
  | timer delay => "setTimeout".toList ++ '(' :: loggerChars label
      (',' :: ' ' :: ((toString delay).toList ++ ')' :: ';' :: rest))
  | deferred => "queueMicrotask".toList ++ '(' :: loggerChars label (')' :: ';' :: rest)
  | nested => "queueMicrotask".toList ++ '(' :: '(' :: ')' :: ' ' :: '=' :: '>' :: ' ' :: '{' ::
      ' ' :: logChars label (';' :: ' ' :: ("queueMicrotask".toList ++ '(' ::
        loggerChars (nestedLabel label) (')' :: ';' :: ' ' :: '}' :: ')' :: ';' :: rest)))
  | continuation => "Promise".toList ++ '.' :: ("resolve".toList ++ '(' :: ')' :: '.' ::
      ("then".toList ++ '(' :: loggerChars label (')' :: ';' :: rest)))

theorem toList_text (op : FlatOp) (label : String) (rest : List Char) :
    (op.text label).toList ++ rest = op.chars label ('\n' :: rest) := by
  cases op
  all_goals
    dsimp only [text]
    repeat rw [String.toList_append]
    repeat rw [List.append_assoc]
    rfl

/-- Can the label stand between quotes as it is? -/
def IsLabel (label : String) : Prop :=
  label.toList.all isUnescaped = true

section

variable {hole : Option HoleReader} {line : Nat} {label : String} {cs rest : List Char}
  {others : List Lexeme}

/-- The beginning of a call of a name. -/
theorem cuts_call {name : String} (form : isWord name = true)
    (second : Cuts hole line cs others rest) :
    Cuts hole line (name.toList ++ '(' :: cs) (.name name :: .mark .leftParen :: others) rest :=
  .word form (by decide +kernel) <| .mark .leftParen (by decide +kernel) rfl second

/-- A name whose member is named next. -/
theorem cuts_owner {name : String} (form : isWord name = true)
    (second : Cuts hole line cs others rest) :
    Cuts hole line (name.toList ++ '.' :: cs) (.name name :: .mark .dot :: others) rest :=
  .word form (by decide +kernel) <| .mark .dot (by decide +kernel) rfl second

/-- The end of a call that is a statement. -/
theorem cuts_close (second : Cuts hole line cs others rest) :
    Cuts hole line (')' :: ';' :: cs) (.mark .rightParen :: .mark .semicolon :: others) rest :=
  .mark .rightParen (by decide +kernel) rfl <| .mark .semicolon (by decide +kernel) rfl second

/-- The beginning of a function without parameters. -/
theorem cuts_arrow (second : Cuts hole line cs others rest) :
    Cuts hole line ('(' :: ')' :: ' ' :: '=' :: '>' :: ' ' :: cs)
      (.mark .leftParen :: .mark .rightParen :: .mark .arrow :: others) rest :=
  .mark .leftParen (by decide +kernel) rfl <|
    .mark .rightParen (by decide +kernel) rfl <|
    .blank <| .arrow <| .blank second

theorem cuts_log (plain : IsLabel label) (second : Cuts hole line cs others rest) :
    Cuts hole line (logChars label cs) (logLexemes label ++ others) rest :=
  cuts_owner (by decide +kernel) <|
    cuts_call (by decide +kernel) <|
    .text plain <|
    .mark .rightParen (by decide +kernel) rfl second

theorem cuts_logger (plain : IsLabel label) (second : Cuts hole line cs others rest) :
    Cuts hole line (loggerChars label cs) (loggerLexemes label ++ others) rest :=
  cuts_arrow <| cuts_log plain second

theorem isLabel_nested (plain : IsLabel label) : IsLabel (nestedLabel label) := by
  unfold IsLabel nestedLabel
  rw [String.toList_append, List.all_append, show label.toList.all isUnescaped = true from plain]
  decide +kernel

/-- The lexemes of an operation are cut off its characters. -/
theorem cuts_chars (op : FlatOp) (plain : IsLabel label)
    (small : ∀ delay, op = .timer delay → delay < 2 ^ 53) :
    Cuts hole line (op.chars label rest) (op.lexemes label) rest := by
  cases op with
  | print => exact cuts_log plain <| .mark .semicolon (by decide +kernel) rfl <| .refl rest
  | timer delay =>
    refine cuts_call (by decide +kernel) <| cuts_logger plain ?_
    refine .mark .comma (by decide +kernel) rfl ?_
    exact .blank <| .number (small delay rfl) (by decide) (by decide) <| cuts_close <| .refl rest
  | deferred =>
    exact cuts_call (by decide +kernel) <| cuts_logger plain <| cuts_close <| .refl rest
  | nested =>
    -- the call in the callback, and what closes the callback
    have inner : Cuts hole line
        (loggerChars (nestedLabel label) (')' :: ';' :: ' ' :: '}' :: ')' :: ';' :: rest)) _ rest :=
      cuts_logger (isLabel_nested plain) <| cuts_close <| .blank <|
        .mark .rightBrace (by decide +kernel) rfl <| cuts_close <| .refl rest
    refine cuts_call (by decide +kernel) <| cuts_arrow ?_
    refine .mark .leftBrace (by decide +kernel) rfl <| .blank <| cuts_log plain ?_
    exact .mark .semicolon (by decide +kernel) rfl <| .blank <| cuts_call (by decide +kernel) inner
  | continuation =>
    refine cuts_owner (by decide +kernel) <| cuts_call (by decide +kernel) ?_
    refine .mark .rightParen (by decide +kernel) rfl <| .mark .dot (by decide +kernel) rfl ?_
    exact cuts_call (by decide +kernel) <| cuts_logger plain <| cuts_close <| .refl rest

end

/-! ## Reading an operation -/

theorem lexemes_ne_nil (op : FlatOp) (label : String) : op.lexemes label ≠ [] := by
  cases op <;> simp [lexemes, logLexemes]

set_option maxRecDepth 2000 in
/-- The statement of an operation is read from its lexemes, on any line. -/
theorem statement_lexemes (op : FlatOp) (line : Nat) (label : String) (rest : List Token)
    (endLine : Nat) :
    ((levels 64).statement ⟨false, false⟩).run
        ⟨(op.lexemes label).map (.at line) ++ rest, endLine⟩ =
      .ok (.evaluate (op.expr line label), ⟨rest, endLine⟩) := by
  cases op with
  | timer delay =>
    simp only [lexemes, expr]
    -- the number is no more than a value here, and not to be computed
    generalize Float.ofNat delay = value
    cbv
  | _ => cbv

end FlatOp

/-! ## Whole scripts -/

/-- The operations of a flat script with their labels. -/
abbrev FlatScript := List (String × FlatOp)

namespace FlatScript

/-- The text of a script. -/
def source : FlatScript → String
  | [] => ""
  | (label, op) :: rest => op.text label ++ source rest

/-- The statements of a script that begins on the given line. -/
def statements : FlatScript → Nat → Script
  | [], _ => []
  | (label, op) :: rest, line => .evaluate (op.expr line label) :: statements rest (line + 1)

/-- The tokens of a script that begins on the given line. -/
def tokens : FlatScript → Nat → List Token
  | [], _ => []
  | (label, op) :: rest, line => (op.lexemes label).map (.at line) ++ tokens rest (line + 1)

/-- The labels stand between quotes as they are, and the delays are exact numbers. -/
def Readable (script : FlatScript) : Prop :=
  ∀ line ∈ script, FlatOp.IsLabel line.1 ∧ ∀ delay, line.2 = .timer delay → delay < 2 ^ 53

theorem tokensFrom_source {script : FlatScript} (readable : script.Readable)
    (hole : Option HoleReader) (line : Nat) :
    tokensFrom hole script.source.toList line =
      .ok ⟨script.tokens line, line + script.length⟩ := by
  induction script generalizing line with
  | nil => exact tokensFrom_nil hole line
  | cons first rest ih =>
    obtain ⟨label, op⟩ := first
    obtain ⟨⟨plain, small⟩, others⟩ := List.forall_mem_cons.mp readable
    rw [source, String.toList_append, op.toList_text, op.cuts_chars plain small,
      tokensFrom_cons (next_lineFeed ..)]
    show ((tokensFrom hole (source rest).toList (line + 1)).map _).map _ = _
    rw [ih others]
    simp [Except.map, Tokens.append, tokens]
    omega

theorem length_le_tokens (script : FlatScript) (line : Nat) :
    script.length ≤ (script.tokens line).length := by
  induction script generalizing line with
  | nil => simp
  | cons first rest ih =>
    have some := List.length_pos_iff.mpr (first.2.lexemes_ne_nil first.1)
    have others := ih (line + 1)
    simp only [tokens, List.length_cons, List.length_append, List.length_map]
    omega

theorem statementsToEnd_tokens (script : FlatScript) (line endLine : Nat) {bound : Nat}
    (enough : script.length < bound) :
    (statementsToEnd ((levels 64).statement ⟨false, false⟩) bound).run
      ⟨script.tokens line, endLine⟩ = .ok (script.statements line, ⟨[], endLine⟩) := by
  induction script generalizing line bound with
  | nil =>
    obtain ⟨bound, rfl⟩ := Nat.exists_eq_add_of_lt enough
    rfl
  | cons first rest ih =>
    obtain ⟨label, op⟩ := first
    obtain ⟨bound, rfl⟩ := Nat.exists_eq_add_of_le' (Nat.zero_lt_of_lt enough)
    obtain ⟨lexeme, more, found⟩ := List.exists_cons_of_ne_nil (op.lexemes_ne_nil label)
    have read := op.statement_lexemes line label (tokens rest (line + 1)) endLine
    have later := ih (line + 1) (Nat.lt_of_succ_lt_succ enough)
    have peeked : peek.run ⟨tokens ((label, op) :: rest) line, endLine⟩ =
        .ok (some lexeme, ⟨tokens ((label, op) :: rest) line, endLine⟩) := by
      rw [tokens, found]
      rfl
    rw [statementsToEnd, StateT.run_bind, peeked]
    show (((levels 64).statement ⟨false, false⟩).run _ >>= _) = _
    rw [tokens, read]
    show ((statementsToEnd _ bound).run _ >>= _) = _
    rw [later]
    rfl

/-- A flat script is read as its statements. -/
theorem parse_source {script : FlatScript} (readable : script.Readable) :
    parse 64 script.source = .ok (script.statements 1) := by
  have enough := length_le_tokens script 1
  have read := statementsToEnd_tokens script 1 (1 + script.length) (Nat.lt_succ_of_le enough)
  unfold parse tokenize
  rw [tokensWithin_eq, tokensFrom_source readable]
  show Prod.fst <$> (statementsToEnd _ _).run _ = _
  rw [read]
  rfl

end FlatScript

end EventLoop
