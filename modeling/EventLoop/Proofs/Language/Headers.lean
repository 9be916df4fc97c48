import EventLoop.Proofs.Language.Sources
import EventLoop.Proofs.Language.Spelling

/-!
# Headers of loops

An accepted script is spelled by its tokens, so wherever the word for loops with a header stands, a
header follows. It has two semicolons, or one if a condition follows a declaration without any. The
semicolons in function bodies inside the header are not counted: they stand between brackets of
their own, and the brackets of each phrase match.
-/

namespace EventLoop

open Parsing (Operator declarator? strengths)

/-! ## Semicolons between brackets -/

def Mark.opens : Mark → Bool
  | leftParen | leftBrace => true
  | _ => false

def Mark.closes : Mark → Bool
  | rightParen | rightBrace => true
  | _ => false

/-- The number of semicolons up to the bracket that closes the one opened before these tokens,
without those between further brackets. The depth says how many of those are open. -/
def outerSemicolons : List Token → Nat → Option Nat
  | [], _ => none
  | .at _ (.mark m) :: rest, depth =>
    if m.opens then outerSemicolons rest (depth + 1)
    else if m.closes then
      match depth with
      | 0 => some 0
      | depth + 1 => outerSemicolons rest depth
    else if m = .semicolon ∧ depth = 0 then (outerSemicolons rest depth).map (· + 1)
    else outerSemicolons rest depth
  | _ :: rest, depth => outerSemicolons rest depth

/-- The tokens do not matter to the number. -/
def Balanced (tokens : List Token) : Prop :=
  ∀ rest depth, outerSemicolons (tokens ++ rest) depth = outerSemicolons rest depth

/-- Between further brackets, the tokens do not matter to the number. -/
def Enclosable (tokens : List Token) : Prop :=
  ∀ rest depth, outerSemicolons (tokens ++ rest) (depth + 1) = outerSemicolons rest (depth + 1)

/-- How the tokens of a phrase count. -/
def Phrase.Balances : Phrase → List Token → Prop
  | statement _, tokens | statements _, tokens => Enclosable tokens
  | header semicolons _ _ _, tokens => Enclosable tokens ∧
    ∀ line rest,
      outerSemicolons (tokens ++ Mark.rightParen.on line :: rest) 0 = some semicolons
  | _, tokens => Balanced tokens

theorem Params.balanced {tokens : List Token} {names : List String} (spelled : Params tokens names) :
    Balanced tokens := by
  intro rest depth
  induction spelled with
  | none => rfl
  | last _ => rfl
  | more _ _ ih => exact ih

/-- The mark is no bracket and no semicolon. -/
def Mark.IsPlain (m : Mark) : Prop :=
  m.opens = false ∧ m.closes = false ∧ m ≠ .semicolon

instance (m : Mark) : Decidable m.IsPlain :=
  inferInstanceAs (Decidable (_ ∧ _))

theorem Mark.IsPlain.skipped {m : Mark} (plain : m.IsPlain) (line : Nat) (rest : List Token)
    (depth : Nat) : outerSemicolons (m.on line :: rest) depth = outerSemicolons rest depth := by
  obtain ⟨opens, closes, other⟩ := plain
  simp [outerSemicolons, opens, closes, other]

theorem operators_plain {operator : Operator} (listed : operator ∈ strengths) {m : Mark}
    {combine : Expr → Expr → Expr} (found : operator m = some combine) : m.IsPlain := by
  simp only [strengths, List.mem_cons, List.not_mem_nil, or_false] at listed
  rcases listed with rfl | rfl | rfl | rfl | rfl | rfl <;> cases m <;>
    cases found <;> decide

theorem Count.mark_plain (count : Count) : count.mark.IsPlain := by
  cases count <;> decide

theorem AssignOp.mark_plain (op : AssignOp) : op.mark.IsPlain := by
  cases op <;> decide

theorem UnaryOp.token_skipped (op : UnaryOp) (line : Nat) (rest : List Token) (depth : Nat) :
    outerSemicolons (.at line op.token.lexeme :: rest) depth = outerSemicolons rest depth := by
  cases op with
  | typeOf => rfl
  | not | neg | plus => exact Mark.IsPlain.skipped (by decide) line rest depth

theorem Spells.balances {tokens : List Token} {phrase : Phrase} (spells : Spells tokens phrase) :
    phrase.Balances tokens := by
  induction spells with
  | link line listed found _ _ ih₁ ih₂ =>
    intro rest depth
    rw [List.append_assoc, ih₁, List.cons_append, (operators_plain listed found).skipped, ih₂]
  | countedBefore count _ ih =>
    intro rest depth
    rw [List.append_assoc, ih]
    exact count.mark_plain.skipped _ rest depth
  | countedAfter _ _ count _ =>
    intro rest depth
    exact count.mark_plain.skipped _ _ depth
  | unary line op _ ih =>
    intro rest depth
    rw [List.cons_append, op.token_skipped, ih]
  | assignment _ line' op _ _ ih =>
    intro rest depth
    exact (op.mark_plain.skipped line' _ depth).trans (ih rest depth)
  | arrowWith params _ ih =>
    have names := params.balanced
    simp_all [Phrase.Balances, Balanced, outerSemicolons, Mark.opens, Mark.closes]
  | unnamed params _ ih =>
    have names := params.balanced
    simp_all [Phrase.Balances, Balanced, Enclosable, outerSemicolons, Mark.opens, Mark.closes]
  -- The marks and words between the smaller phrases are given, so their semicolons are counted.
  | _ => simp_all [Phrase.Balances, Balanced, Enclosable, outerSemicolons, Mark.opens, Mark.closes]

/-! ## Loops in code -/

/-- The tokens are the header of a loop between parentheses and what follows. The number of its
semicolons, without those between further brackets, is one of these. -/
def Headed (semicolons : Set Nat) (tokens : List Token) : Prop :=
  ∃ line line' header rest init condition update, ∃ count ∈ semicolons,
    tokens = Mark.leftParen.on line :: (header ++ Mark.rightParen.on line' :: rest) ∧
      outerSemicolons (header ++ Mark.rightParen.on line' :: rest) 0 = some count ∧
        Spells header (.header count init condition update)

mutual

def Lexeme.EachLoop (holds : List Token → Prop) : Lexeme → Prop
  | .template chunks => Chunk.EachLoop holds chunks
  | .name _ | .number _ | .text _ | .mark _ => True

def Chunk.EachLoop (holds : List Token → Prop) : List Chunk → Prop
  | [] => True
  | .text _ :: rest => Chunk.EachLoop holds rest
  | .code tokens :: rest => Token.EachLoop holds false tokens ∧ Chunk.EachLoop holds rest

/-- Wherever the word for loops with a header stands, also in holes of template literals, the
property holds of what follows it there. After a dot, the word is the name of a property. -/
def Token.EachLoop (holds : List Token → Prop) (afterDot : Bool) : List Token → Prop
  | [] => True
  | .at _ lexeme :: rest =>
    (afterDot = false → lexeme = .name "for" → holds rest) ∧ lexeme.EachLoop holds ∧
      Token.EachLoop holds (Parsing.isMark .dot (some lexeme)) rest

end

section

variable {semicolons : Set Nat} {line : Nat} {afterDot : Bool} {front tokens : List Token}

theorem Spells.headed {header : List Token} {count line line' : Nat} {init : Option Stmt}
    {condition update : Option Expr} (spells : Spells header (.header count init condition update))
    (member : count ∈ semicolons) (rest : List Token) :
    Headed semicolons (Mark.leftParen.on line :: (header ++ Mark.rightParen.on line' :: rest)) :=
  ⟨line, line', header, rest, init, condition, update, count, member, rfl,
    spells.balances.2 line' rest, spells⟩

theorem Headed.append (headed : Headed semicolons front) (tokens : List Token) :
    Headed semicolons (front ++ tokens) := by
  obtain ⟨line, line', header, rest, _, _, _, count, member, rfl, -, spells⟩ := headed
  rw [List.cons_append, List.append_assoc, List.cons_append]
  exact spells.headed member (rest ++ tokens)

namespace Token.EachLoop

theorem nil : Token.EachLoop (Headed semicolons) afterDot [] :=
  trivial

theorem afterAny (each : Token.EachLoop (Headed semicolons) false tokens) :
    Token.EachLoop (Headed semicolons) afterDot tokens := by
  cases tokens with
  | nil => trivial
  | cons token rest =>
    cases token
    exact ⟨fun _ => each.1 rfl, each.2⟩

theorem append (first : Token.EachLoop (Headed semicolons) afterDot front)
    (second : Token.EachLoop (Headed semicolons) false tokens) :
    Token.EachLoop (Headed semicolons) afterDot (front ++ tokens) := by
  induction front generalizing afterDot with
  | nil => exact afterAny second
  | cons token rest ih =>
    cases token
    exact ⟨fun plain loop => (first.1 plain loop).append tokens, first.2.1, ih first.2.2⟩

theorem mark (m : Mark) (line : Nat) (rest : Token.EachLoop (Headed semicolons) false tokens) :
    Token.EachLoop (Headed semicolons) afterDot (m.on line :: tokens) :=
  ⟨nofun, trivial, afterAny rest⟩

theorem word {word : String} (other : word ≠ "for") (line : Nat)
    (rest : Token.EachLoop (Headed semicolons) false tokens) :
    Token.EachLoop (Headed semicolons) afterDot (wordOn word line :: tokens) :=
  ⟨fun _ same => absurd (Lexeme.name.inj same) other, trivial, rest⟩

end Token.EachLoop

/-! Of the words that the grammar has, only the one for loops with a header is that word. -/

theorem not_loop_of_not_reserved {word : String} (allowed : word ∉ reservedWords) :
    word ≠ "for" := by
  rintro rfl
  exact allowed (by decide)

theorem IsFree.not_loop {word : String} (free : IsFree word) : word ≠ "for" :=
  not_loop_of_not_reserved free.1

theorem literal?_not_loop {word : String} {e : Expr} (found : literal? line word = some e) :
    word ≠ "for" := by
  rintro rfl
  cases found

theorem declarator?_not_loop {word : String} {declarator : Declarator}
    (found : declarator? word = some declarator) : word ≠ "for" := by
  rintro rfl
  cases found

theorem Params.eachLoop {names : List String} (spelled : Params tokens names) :
    Token.EachLoop (Headed semicolons) false tokens := by
  induction spelled with
  | none => exact .nil
  | last free => exact .word free.not_loop _ .nil
  | more free _ ih => exact .word free.not_loop _ (.mark _ _ ih)

theorem Spells.one_or_two {count : Nat} {init : Option Stmt} {condition update : Option Expr}
    (spells : Spells tokens (.header count init condition update)) :
    count ∈ ({1, 2} : Set Nat) := by
  cases spells with
  | header => exact .inr rfl
  | joinedHeader => exact .inl rfl

theorem Spells.eachLoop {phrase : Phrase} (spells : Spells tokens phrase) :
    Token.EachLoop (Headed {1, 2}) false tokens := by
  induction spells with
  | number | text | noParts => simp [Token.EachLoop, Lexeme.EachLoop, Chunk.EachLoop]
  | template _ ih => exact ih
  | textPart _ _ ih => exact ⟨nofun, ih.2⟩
  | codePart _ _ ih₁ ih₂ => exact ⟨nofun, ⟨ih₁, ih₂.2.1⟩, trivial⟩
  | literal found => exact .word (literal?_not_loop found) _ .nil
  -- The name of the property may be the word for loops.
  | member _ _ _ _ ih => exact ih.append ⟨nofun, trivial, nofun, trivial, trivial⟩
  | unary _ op _ ih =>
    cases op with
    | typeOf => exact .word (by decide) _ ih
    | not | neg | plus => exact .mark _ _ ih
  | assignment _ _ _ allowed _ ih =>
    exact .word (not_loop_of_not_reserved allowed) _ (.mark _ _ ih)
  | arrowWith params _ ih =>
    exact .mark _ _ (params.eachLoop.append (.mark _ _ (.mark _ _ ih)))
  | unnamed params _ ih =>
    exact .mark _ _ (params.eachLoop.append (.mark _ _ (.mark _ _ (ih.append (.mark _ _ .nil)))))
  | declaration _ _ found free =>
    exact .word (declarator?_not_loop found) _ (.word free.not_loop _ .nil)
  | declarationWith _ _ _ found free _ ih =>
    exact .word (declarator?_not_loop found) _ (.word free.not_loop _ (.mark _ _ ih))
  | forLoop header _ ih₁ ih₂ =>
    exact ⟨fun _ _ => header.headed header.one_or_two _, trivial,
      .mark _ _ (ih₁.append (.mark _ _ ih₂))⟩
  -- What is left is put together of marks, words and smaller phrases.
  | _ =>
    apply_rules [Token.EachLoop.mark, Token.EachLoop.word, Token.EachLoop.append,
      Token.EachLoop.nil] <;> first | decide | exact IsFree.not_loop ‹_›

end

/-- The semicolons in the header of the loop that the tokens begin with. -/
def loopSemicolons : List Token → Option Nat
  | .at _ (.name "for") :: .at _ (.mark .leftParen) :: rest => outerSemicolons rest 0
  | _ => none

theorem Token.EachLoop.count_mem {semicolons : Set Nat} {tokens : List Token} {count : Nat}
    (each : Token.EachLoop (Headed semicolons) false tokens)
    (counted : loopSemicolons tokens = some count) : count ∈ semicolons := by
  unfold loopSemicolons at counted
  split at counted
  · obtain ⟨_, _, header, rest, _, _, _, _, member, same, headerCounted, _⟩ := each.1 rfl rfl
    obtain ⟨-, rfl⟩ := List.cons.inj same
    cases headerCounted.symm.trans counted
    exact member
  · cases counted

/-- Whatever the source, it is rejected with a syntax error, or its tokens spell its script, and each
of its loops with a header has two semicolons in it, or one if a condition follows a declaration
without any. This covers function bodies and holes. -/
theorem parse_headed (limit : Nat) (source : String) :
    Outcome (sourceLines source)
      (fun script => ∃ tokens, tokenize limit source = .ok tokens ∧
        Spells tokens.items (.statements script) ∧
          Token.EachLoop (Headed {1, 2}) false tokens.items)
      (parse limit source) := by
  have outcome := parse_outcome limit source
  cases found : parse limit source with
  | error e =>
    rw [found] at outcome
    exact outcome
  | ok script =>
    obtain ⟨tokens, read, spells⟩ := spells_of_parse found
    exact ⟨tokens, read, spells, spells.eachLoop⟩

/-- A header with one semicolon, between its condition and what follows, is accepted. -/
theorem parse_joined :
    ∃ tokens script, tokenize 64 "for (let i = 0 i < 3; i++) console.log(i)" = .ok tokens ∧
      parse 64 "for (let i = 0 i < 3; i++) console.log(i)" = .ok script ∧
        ¬ Token.EachLoop (Headed {2}) false tokens.items := by
  have accepted : (parse 64 "for (let i = 0 i < 3; i++) console.log(i)").toOption.isSome = true := by
    decide +kernel
  have counted : (tokenize 64 "for (let i = 0 i < 3; i++) console.log(i)").toOption.map
      (fun tokens => loopSemicolons tokens.items) = some (some 1) := by
    decide +kernel
  cases found : parse 64 "for (let i = 0 i < 3; i++) console.log(i)" with
  | error e =>
    rw [found] at accepted
    cases accepted
  | ok script =>
    obtain ⟨tokens, read, -⟩ := spells_of_parse found
    rw [read] at counted
    refine ⟨tokens, script, read, rfl, ?_⟩
    intro each
    have two : (1 : Nat) = 2 := each.count_mem (Option.some.inj counted)
    omega

/-- After an expression in its place, the semicolon is missed. -/
example : (parse 64 "for (i = 0 i < 3; i++) console.log(i)").toOption.isNone = true := by
  decide +kernel

end EventLoop
