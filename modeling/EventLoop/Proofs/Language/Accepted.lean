import Mathlib.Order.SetNotation
import Mathlib.Tactic.SplitIfs
import EventLoop.Proofs.Language.Rules

/-!
# What parsers make of their tokens

Whatever tokens a parser is given, the tree that it makes of them complies with the rules for
accepted scripts, where the lines in question are those of the tokens. If the parser rejects its
tokens, it does so on one of their lines, too. This is shown once for each parser, given that it
holds of the parsers of the next level.
-/

namespace EventLoop

open Parsing (Surroundings)

/-! ## Lines of tokens -/

mutual

/-- All lines in the lexeme are among these, and its names are words. -/
def Lexeme.Within (lines : Set Nat) : Lexeme → Prop
  | .template chunks => Chunk.EachWithin lines chunks
  | .name word => isWord word
  | .number _ | .text _ | .mark _ => True

def Chunk.EachWithin (lines : Set Nat) : List Chunk → Prop
  | [] => True
  | .text _ :: rest => Chunk.EachWithin lines rest
  | .code tokens :: rest => Token.EachWithin lines tokens ∧ Chunk.EachWithin lines rest

def Token.EachWithin (lines : Set Nat) : List Token → Prop
  | [] => True
  | .at line lexeme :: rest => line ∈ lines ∧ lexeme.Within lines ∧ Token.EachWithin lines rest

end

/-- All lines of the tokens, also of those in holes, and of their end are among these. -/
def Tokens.Within (lines : Set Nat) (tokens : Tokens) : Prop :=
  Token.EachWithin lines tokens.items ∧ tokens.endLine ∈ lines

/-- The script was rejected, on one of these lines. -/
def ScriptError.RejectsOn (lines : Set Nat) (e : ScriptError) : Prop :=
  ∃ line ∈ lines, ∃ fault, e = .malformed line fault

/-- Something with the property was read, or the script was rejected on one of these lines. -/
def Outcome {α : Type} (lines : Set Nat) (holds : α → Prop) : Except ScriptError α → Prop
  | .ok a => holds a
  | .error e => e.RejectsOn lines

namespace Outcome

variable {α β : Type} {lines : Set Nat} {holds : α → Prop} {x : Except ScriptError α}

theorem bind {f : α → Except ScriptError β} {holds' : β → Prop} (first : Outcome lines holds x)
    (second : ∀ a, holds a → Outcome lines holds' (f a)) : Outcome lines holds' (x >>= f) := by
  cases x with
  | error e => exact first
  | ok a => exact second a first

theorem map {f : α → β} {holds' : β → Prop} (first : Outcome lines holds x)
    (second : ∀ a, holds a → holds' (f a)) : Outcome lines holds' (x.map f) := by
  cases x with
  | error e => exact first
  | ok a => exact second a first

theorem mono {holds' : α → Prop} (outcome : Outcome lines holds x)
    (weaker : ∀ a, holds a → holds' a) : Outcome lines holds' x := by
  cases x with
  | error e => exact outcome
  | ok a => exact weaker a outcome

end Outcome

theorem Token.EachWithin.tail {lines : Set Nat} {tokens : List Token}
    (within : Token.EachWithin lines tokens) : Token.EachWithin lines tokens.tail := by
  cases tokens with
  | nil => trivial
  | cons token rest =>
    cases token
    exact within.2.2

/-- The last of some tokens, or else this line. -/
theorem Token.EachWithin.last {lines : Set Nat} {line : Nat} (member : line ∈ lines)
    {tokens : List Token} (within : Token.EachWithin lines tokens) :
    (tokens.getLast?.map Token.line).getD line ∈ lines := by
  induction tokens generalizing line with
  | nil => exact member
  | cons token rest ih =>
    cases token with
    | «at» here lexeme =>
      cases rest with
      | nil => exact within.1
      | cons next rest => exact ih member within.2.2

namespace Parsing

/-- Of tokens with these lines, the parser makes something with the property and leaves such tokens,
or it rejects them on one of these lines. -/
def Ensures {α : Type} (lines : Set Nat) (p : Parser α) (holds : α → Prop) : Prop :=
  ∀ tokens : Tokens, tokens.Within lines →
    Outcome lines (fun (a, rest) => holds a ∧ rest.Within lines) (p.run tokens)

namespace Ensures

variable {α β : Type} {lines : Set Nat} {p : Parser α} {holds : α → Prop}

theorem pure {a : α} (h : holds a) : Ensures lines (Pure.pure a) holds :=
  fun _ within => ⟨h, within⟩

theorem bind {f : α → Parser β} {holds' : β → Prop} (first : Ensures lines p holds)
    (second : ∀ a, holds a → Ensures lines (f a) holds') : Ensures lines (p >>= f) holds' := by
  intro tokens within
  rw [StateT.run_bind]
  exact (first tokens within).bind fun (a, rest) h => second a h.1 rest h.2

theorem mono {holds' : α → Prop} (ensures : Ensures lines p holds)
    (weaker : ∀ a, holds a → holds' a) : Ensures lines p holds' :=
  fun tokens within => (ensures tokens within).mono fun (a, _) h => ⟨weaker a h.1, h.2⟩

theorem map {f : α → β} {holds' : β → Prop} (first : Ensures lines p holds)
    (second : ∀ a, holds a → holds' (f a)) : Ensures lines (f <$> p) holds' := by
  rw [map_eq_pure_bind]
  exact first.bind fun a h => .pure (second a h)

end Ensures

variable {α : Type} {lines : Set Nat} {holds : α → Prop}

/-! ## Single tokens -/

theorem nextLine_ensures : Ensures lines nextLine (· ∈ lines) := by
  rintro ⟨_ | ⟨⟨line, lexeme⟩, rest⟩, endLine⟩ within
  · exact ⟨within.2, within⟩
  · exact ⟨within.1.1, within⟩

theorem peek_ensures : Ensures lines peek fun next => ∀ lexeme ∈ next, lexeme.Within lines := by
  rintro ⟨_ | ⟨⟨line, lexeme⟩, rest⟩, endLine⟩ within
  · exact ⟨nofun, within⟩
  · refine ⟨?_, within⟩
    intro _ same
    cases same
    exact within.1.2.1

theorem peekSecond_ensures : Ensures lines peekSecond fun _ => True :=
  fun _ within => ⟨trivial, within⟩

theorem skip_ensures : Ensures lines skip fun _ => True :=
  fun _ within => ⟨trivial, within.1.tail, within.2⟩

theorem rejectAt_ensures {line : Nat} (member : line ∈ lines) (fault : SyntaxFault) :
    Ensures lines (rejectAt line fault) holds :=
  fun _ _ => ⟨line, member, fault, rfl⟩

theorem rejectAt_bind_ensures {β : Type} {line : Nat} (member : line ∈ lines) (fault : SyntaxFault)
    (f : β → Parser α) : Ensures lines (rejectAt line fault >>= f) holds :=
  fun _ _ => ⟨line, member, fault, rfl⟩

theorem reject_ensures (fault : SyntaxFault) : Ensures lines (reject fault) holds :=
  nextLine_ensures.bind fun _ member => rejectAt_ensures member fault

theorem unexpected_ensures (wanted : String) : Ensures lines (unexpected wanted) holds :=
  peek_ensures.bind fun _ _ => reject_ensures _

theorem sees_ensures (m : Mark) : Ensures lines (sees m) fun _ => True :=
  peek_ensures.bind fun _ _ => .pure trivial

theorem eat_ensures (m : Mark) : Ensures lines (eat m) fun _ => True := by
  refine (sees_ensures m).bind ?_
  intro seen _
  split
  · exact skip_ensures.bind fun _ _ => .pure trivial
  · exact .pure trivial

theorem expect_ensures (m : Mark) : Ensures lines (expect m) fun _ => True := by
  refine (eat_ensures m).bind ?_
  intro eaten _
  split
  · exact .pure trivial
  · exact unexpected_ensures _

theorem terminator_ensures : Ensures lines terminator fun _ => True :=
  (eat_ensures _).bind fun _ _ => .pure trivial

theorem bindingName_ensures :
    Ensures lines bindingName fun name => IsFree name ∧ isWord name := by
  refine peek_ensures.bind ?_
  intro next within
  split
  · split_ifs with reserved unsupported
    · exact unexpected_ensures _
    · exact reject_ensures _
    · exact skip_ensures.bind fun _ _ => .pure ⟨⟨reserved, unsupported⟩, within _ rfl⟩
  · exact unexpected_ensures _

theorem freeName_ensures : Ensures lines bindingName IsFree :=
  bindingName_ensures.mono fun _ both => both.1

/-- The look-ahead for an arrow takes nothing. -/
theorem seesArrowParameters_run (tokens : Tokens) : seesArrowParameters.run tokens =
    .ok (isMark .leftParen (tokens.items.head?.map Token.lexeme) &&
      arrowAfterParen tokens.items.tail 0, tokens) := by
  rcases tokens with ⟨_ | ⟨⟨line, _ | _ | _ | _ | m⟩, rest⟩, endLine⟩
  case cons.mark => cases m <;> rfl
  all_goals rfl

theorem seesArrowParameters_ensures : Ensures lines seesArrowParameters fun _ => True := by
  intro tokens within
  rw [seesArrowParameters_run]
  exact ⟨trivial, within⟩

/-! ## Lists -/

theorem commaList_ensures {item : Parser α} (each : Ensures lines item holds) (bound : Nat) :
    Ensures lines (commaList item bound) fun items => ∀ a ∈ items, holds a := by
  induction bound with
  | zero => exact .pure (List.forall_mem_nil _)
  | succ bound ih =>
    refine (eat_ensures _).bind ?_
    intro closed _
    split
    · exact .pure (List.forall_mem_nil _)
    refine each.bind ?_
    intro first h
    refine (sees_ensures _).bind ?_
    intro last _
    have rest : Ensures lines (do return first :: (← commaList item bound))
        fun items => ∀ a ∈ items, holds a :=
      ih.bind fun items others => .pure (List.forall_mem_cons.mpr ⟨h, others⟩)
    split
    · exact rest
    · exact (expect_ensures _).bind fun _ _ => rest

theorem closedList_ensures {item : Parser α} (each : Ensures lines item holds) :
    Ensures lines (closedList item) fun items => ∀ a ∈ items, holds a :=
  fun tokens within => commaList_ensures each (tokens.items.length + 1) tokens within

theorem parameters_ensures :
    Ensures lines parameters fun params => ∀ param ∈ params, IsFree param :=
  (expect_ensures _).bind fun _ _ => closedList_ensures freeName_ensures

/-! ## Phrases -/

/-- What the parsers of a level make complies with the rules. -/
structure Level.Accepts (level : Level) (lines : Set Nat) : Prop where
  statement : ∀ inHole around,
    Ensures lines (level.statement around) (Stmt.Meets (.spelled lines) inHole around)
  assignment : ∀ inHole around,
    Ensures lines (level.assignment around) (Expr.Meets (.spelled lines) inHole)
  operand : ∀ inHole around,
    Ensures lines (level.operand around) (Expr.Meets (.spelled lines) inHole)

variable {level : Level} {inHole : Bool} {around : Surroundings} {room : Nat}

theorem statementsToBrace_ensures {statement : Parser Stmt}
    (each : Ensures lines statement (Stmt.Meets (.spelled lines) inHole around)) (bound : Nat) :
    Ensures lines (statementsToBrace statement bound)
      (Stmt.EachMeets (.spelled lines) inHole around) := by
  induction bound with
  | zero => exact .pure trivial
  | succ bound ih =>
    refine peek_ensures.bind ?_
    intro next _
    split
    · exact skip_ensures.bind fun _ _ => .pure trivial
    · exact unexpected_ensures _
    · exact each.bind fun first h => ih.bind fun rest others => .pure ⟨h, others⟩

theorem statementsToEnd_ensures {statement : Parser Stmt}
    (each : Ensures lines statement (Stmt.Meets (.spelled lines) inHole around)) (bound : Nat) :
    Ensures lines (statementsToEnd statement bound)
      (Stmt.EachMeets (.spelled lines) inHole around) := by
  induction bound with
  | zero => exact .pure trivial
  | succ bound ih =>
    refine peek_ensures.bind ?_
    intro next _
    split
    · exact .pure trivial
    · exact each.bind fun first h => ih.bind fun rest others => .pure ⟨h, others⟩

theorem Ensures.lift {x : Except ScriptError α} (outcome : Outcome lines holds x) :
    Ensures lines (liftM x : Parser α) holds := by
  intro tokens within
  cases x with
  | error e => exact outcome
  | ok a => exact ⟨outcome, within⟩

/-- What an operator makes of its sides is an operation on the line of the left one. -/
def Operator.Combines (operator : Operator) : Prop :=
  ∀ m combine, operator m = some combine →
    (∃ op, combine = fun left right => .binary left.line op left right) ∨
      ∃ op, combine = fun left right => .logical left.line op left right

theorem operators_combine {operator : Operator}
    (listed : operator ∈
      [disjunction, conjunction, equality, comparison, additive, multiplicative]) :
    operator.Combines := by
  simp only [List.mem_cons, List.not_mem_nil, or_false] at listed
  rcases listed with rfl | rfl | rfl | rfl | rfl | rfl <;> intro m combine found <;>
    cases m <;> cases found <;> first | exact .inl ⟨_, rfl⟩ | exact .inr ⟨_, rfl⟩

theorem operatorChain_ensures {operator : Operator} {operand : Parser Expr}
    (combines : operator.Combines)
    (each : Ensures lines operand (Expr.Meets (.spelled lines) inHole)) {left : Expr}
    (meets : left.Meets (.spelled lines) inHole) :
    Ensures lines (operatorChain operator operand room left)
      (Expr.Meets (.spelled lines) inHole) := by
  induction room generalizing left with
  | zero =>
    rw [operatorChain]
    refine peek_ensures.bind ?_
    intro next _
    split
    · split
      · exact .pure meets
      · exact skip_ensures.bind fun _ _ => reject_ensures _
    · exact .pure meets
  | succ room ih =>
    rw [operatorChain]
    refine peek_ensures.bind ?_
    intro next _
    split
    · split
      · exact .pure meets
      · rename_i combine found
        refine skip_ensures.bind ?_
        intro _ _
        refine each.bind ?_
        intro right meets'
        refine ih ?_
        rcases combines _ combine found with ⟨op, rfl⟩ | ⟨op, rfl⟩ <;>
          exact ⟨⟨trivial, trivial, meets.here.2.2⟩, meets, meets'⟩
    · exact .pure meets

theorem joined_ensures {operand : Parser Expr}
    (each : Ensures lines operand (Expr.Meets (.spelled lines) inHole))
    {operators : List Operator} (combine : ∀ operator ∈ operators, operator.Combines) :
    Ensures lines (joined room operand operators) (Expr.Meets (.spelled lines) inHole) := by
  induction operators with
  | nil => exact each
  | cons operator stronger ih =>
    rw [List.forall_mem_cons] at combine
    have first := ih combine.2
    exact first.bind fun left meets => operatorChain_ensures combine.1 first meets

theorem countedAfter_ensures {e : Expr} (meets : e.Meets (.spelled lines) inHole) (count : Count)
    {line : Nat} (member : line ∈ lines) :
    Ensures lines (countedAfter e count line) (Expr.Meets (.spelled lines) inHole) := by
  cases e with
  | name start target =>
    exact skip_ensures.bind fun _ _ => .pure ⟨⟨meets.1.1, trivial, meets.1.2.2⟩, trivial⟩
  | _ => exact rejectAt_ensures member _

theorem jump_ensures (word : String) {s : Stmt}
    (meets : around.inLoop = true → s.Meets (.spelled lines) inHole around) :
    Ensures lines (jump around word s) (Stmt.Meets (.spelled lines) inHole around) := by
  refine nextLine_ensures.bind ?_
  intro line member
  refine skip_ensures.bind ?_
  intro _ _
  split
  · exact rejectAt_bind_ensures member _ _
  · rename_i outside
    have inside : around.inLoop = true := by simpa using outside
    exact terminator_ensures.bind fun _ _ => .pure (meets inside)

section

variable (accepts : level.Accepts lines) (inHole : Bool) (around : Surroundings)

include accepts

theorem block_ensures : Ensures lines (block level around)
    (Stmt.EachMeets (.spelled lines) inHole around) :=
  (expect_ensures _).bind fun _ _ tokens within =>
    statementsToBrace_ensures (accepts.statement inHole around) (tokens.items.length + 1) tokens
      within

theorem functionRest_ensures (mustBeNamed : Bool) {line : Nat} (member : line ∈ lines)
    (declared : Bool) : Ensures lines (functionRest level mustBeNamed line)
      (Definition.Meets (.spelled lines) inHole declared) := by
  have finish (name : Option String) (free : ∀ word ∈ name, IsFree word ∧ isWord word) :
      Ensures lines (do
        let params ← parameters
        let body ← functionBlock level
        return Definition.mk name params (.block body) line)
        (Definition.Meets (.spelled lines) inHole declared) := by
    refine parameters_ensures.bind ?_
    intro params frees
    refine (block_ensures accepts inHole .function).bind ?_
    intro body meets
    have frees : (Rules.accepted lines).definition declared (.mk name params (.block body) line) :=
      ⟨⟨fun word given => (free word given).1, frees⟩, trivial, member⟩
    exact .pure ⟨⟨frees, fun word given => (free word given).2⟩, meets⟩
  have given : Ensures lines (some <$> bindingName)
      fun name => ∀ word ∈ name, IsFree word ∧ isWord word :=
    bindingName_ensures.map fun _ free _ same => by cases same; exact free
  have missing : Ensures lines (pure none)
      fun name : Option String => ∀ word ∈ name, IsFree word ∧ isWord word :=
    .pure nofun
  refine peek_ensures.bind ?_
  intro next _
  dsimp only
  split
  · exact given.bind finish
  · split
    · exact given.bind finish
    · exact missing.bind finish

theorem arrowBody_ensures {params : List String} (frees : ∀ param ∈ params, IsFree param)
    {line : Nat} (member : line ∈ lines) :
    Ensures lines (arrowBody level params line) (Expr.Meets (.spelled lines) inHole) := by
  have complies (body : Body) :
      (Rules.spelled lines).definition false (.mk none params body line) :=
    ⟨⟨⟨nofun, frees⟩, trivial, member⟩, nofun⟩
  refine (sees_ensures _).bind ?_
  intro braced _
  split
  · rw [map_eq_pure_bind, bind_assoc]
    refine (block_ensures accepts inHole .function).bind ?_
    intro body meets
    exact .pure ⟨⟨trivial, trivial, member⟩, complies _, meets⟩
  · rw [map_eq_pure_bind, bind_assoc]
    refine (accepts.assignment inHole .function).bind ?_
    intro value meets
    exact .pure ⟨⟨trivial, trivial, member⟩, complies _, meets⟩

theorem hole_ensures {line : Nat} (member : line ∈ lines) {tokens : List Token}
    (within : Token.EachWithin lines tokens) :
    Ensures lines (hole level around line tokens)
      fun part => ∃ e, part = .value e ∧ e.Meets (.spelled lines) true := by
  have reading : Ensures lines (do
      let e ← level.assignment { around with inLoop := false }
      if (← peek).isSome then unexpected (Mark.rightBrace.shown ++ " in template literal")
      return e) (Expr.Meets (.spelled lines) true) := by
    refine (accepts.assignment true _).bind ?_
    intro e meets
    refine peek_ensures.bind ?_
    intro next _
    split
    · exact (unexpected_ensures _).bind fun _ h => .pure h
    · exact .pure meets
  refine (Ensures.lift (reading ⟨tokens, _⟩ ⟨within, within.last member⟩)).bind ?_
  rintro ⟨e, _⟩ ⟨meets, _⟩
  exact .pure ⟨e, rfl, meets⟩

theorem templateParts_ensures {line : Nat} (member : line ∈ lines) (chunks : List Chunk)
    (within : Chunk.EachWithin lines chunks) :
    Ensures lines (templateParts level around line chunks)
      (Part.EachMeets (.spelled lines)) := by
  induction chunks with
  | nil => exact .pure trivial
  | cons chunk rest ih =>
    cases chunk with
    | text content => exact (ih within).bind fun _ others => .pure others
    | code tokens =>
      refine (hole_ensures accepts around member within.1).bind ?_
      rintro _ ⟨e, rfl, meets⟩
      exact (ih within.2).bind fun _ others => .pure ⟨meets, others⟩

theorem primary_ensures :
    Ensures lines (primary level around) (Expr.Meets (.spelled lines) inHole) := by
  refine nextLine_ensures.bind ?_
  intro line member
  have plain : (Rules.named (· ∉ reservedWords)).expr inHole (.null line) ∧ True ∧ line ∈ lines :=
    ⟨trivial, trivial, member⟩
  refine peek_ensures.bind ?_
  intro next within
  split
  · exact skip_ensures.bind fun _ _ => .pure ⟨plain, trivial⟩
  · exact skip_ensures.bind fun _ _ => .pure ⟨plain, trivial⟩
  · refine skip_ensures.bind ?_
    intro _ _
    refine (templateParts_ensures accepts around member _ (within _ rfl)).bind ?_
    intro parts meets
    exact .pure ⟨plain, meets⟩
  · refine skip_ensures.bind ?_
    intro _ _
    refine (accepts.assignment inHole around).bind ?_
    intro inner meets
    exact (expect_ensures _).bind fun _ _ => .pure meets
  · split_ifs with _ _ _ _ _ reserved unsupported
    · exact skip_ensures.bind fun _ _ => .pure ⟨plain, trivial⟩
    · exact skip_ensures.bind fun _ _ => .pure ⟨plain, trivial⟩
    · exact skip_ensures.bind fun _ _ => .pure ⟨plain, trivial⟩
    · exact skip_ensures.bind fun _ _ => .pure ⟨plain, trivial⟩
    · refine skip_ensures.bind ?_
      intro _ _
      refine (functionRest_ensures accepts inHole false member false).bind ?_
      intro definition meets
      exact .pure ⟨plain, meets⟩
    · exact unexpected_ensures _
    · exact reject_ensures _
    · refine skip_ensures.bind ?_
      intro _ _
      exact .pure ⟨⟨⟨reserved, unsupported⟩, trivial, member⟩, trivial⟩
  · exact unexpected_ensures _

theorem postfixChain_ensures {e : Expr} (meets : e.Meets (.spelled lines) inHole) :
    Ensures lines (postfixChain level around room e) (Expr.Meets (.spelled lines) inHole) := by
  induction room generalizing e with
  | zero =>
    rw [postfixChain]
    refine nextLine_ensures.bind ?_
    intro line member
    refine peek_ensures.bind ?_
    intro next _
    split
    · exact rejectAt_ensures member _
    · exact rejectAt_ensures member _
    · exact countedAfter_ensures meets _ member
    · exact countedAfter_ensures meets _ member
    · exact .pure meets
  | succ room ih =>
    rw [postfixChain]
    refine nextLine_ensures.bind ?_
    intro line member
    refine peek_ensures.bind ?_
    intro next _
    split
    · refine skip_ensures.bind ?_
      intro _ _
      refine (closedList_ensures (accepts.assignment inHole around)).bind ?_
      intro args each
      exact ih ⟨⟨trivial, trivial, member⟩, meets, .of_forall each⟩
    · refine skip_ensures.bind ?_
      intro _ _
      refine peek_ensures.bind ?_
      intro next _
      split
      · exact skip_ensures.bind fun _ _ => ih ⟨⟨trivial, trivial, member⟩, meets⟩
      · exact unexpected_ensures _
    · exact countedAfter_ensures meets _ member
    · exact countedAfter_ensures meets _ member
    · exact .pure meets

theorem prefixed_ensures :
    Ensures lines (prefixed level room around) (Expr.Meets (.spelled lines) inHole) := by
  have plain : Ensures lines (prefixed.plain level room around)
      (Expr.Meets (.spelled lines) inHole) :=
    (primary_ensures accepts inHole around).bind fun e meets =>
      postfixChain_ensures accepts inHole around meets
  refine nextLine_ensures.bind ?_
  intro line member
  have applied (op : UnaryOp) : Ensures lines (prefixed.applied level around line op)
      (Expr.Meets (.spelled lines) inHole) := by
    refine skip_ensures.bind ?_
    intro _ _
    refine (accepts.operand inHole around).bind ?_
    intro operand meets
    exact .pure ⟨⟨trivial, trivial, member⟩, meets⟩
  have counted (count : Count) : Ensures lines (prefixed.counted line count)
      (Expr.Meets (.spelled lines) inHole) := by
    refine skip_ensures.bind ?_
    intro _ _
    refine freeName_ensures.bind ?_
    intro target free
    exact .pure ⟨⟨free, trivial, member⟩, trivial⟩
  refine peek_ensures.bind ?_
  intro next _
  split
  · exact applied _
  · exact applied _
  · exact applied _
  · exact counted _
  · exact counted _
  · split
    · exact applied _
    · exact plain
  · exact plain

theorem conditional_ensures :
    Ensures lines (conditional level room around) (Expr.Meets (.spelled lines) inHole) := by
  have operation : Ensures lines (operation level room around)
      (Expr.Meets (.spelled lines) inHole) :=
    joined_ensures (prefixed_ensures accepts inHole around) fun _ => operators_combine
  refine operation.bind ?_
  intro condition meets
  refine (eat_ensures _).bind ?_
  intro chosen _
  split
  · refine (accepts.assignment inHole around).bind ?_
    intro yes meetsYes
    refine (expect_ensures _).bind ?_
    intro _ _
    refine (accepts.assignment inHole around).bind ?_
    intro no meetsNo
    exact .pure ⟨⟨trivial, trivial, meets.here.2.2⟩, meets, meetsYes, meetsNo⟩
  · exact .pure meets

theorem assignment_ensures :
    Ensures lines (assignment level room around) (Expr.Meets (.spelled lines) inHole) := by
  refine nextLine_ensures.bind ?_
  intro line member
  have unassigned : Ensures lines (assignment.unassigned level room around line)
      (Expr.Meets (.spelled lines) inHole) := by
    refine seesArrowParameters_ensures.bind ?_
    intro arrow _
    split
    · refine parameters_ensures.bind ?_
      intro params frees
      exact (expect_ensures _).bind fun _ _ => arrowBody_ensures accepts inHole frees member
    · refine (conditional_ensures accepts inHole around).bind ?_
      intro e meets
      refine peek_ensures.bind ?_
      intro next _
      split
      · exact rejectAt_bind_ensures member _ _
      · exact .pure meets
  refine peek_ensures.bind ?_
  intro next _
  refine peekSecond_ensures.bind ?_
  intro second _
  split
  · refine freeName_ensures.bind ?_
    intro param free
    refine skip_ensures.bind ?_
    intro _ _
    exact arrowBody_ensures accepts inHole (List.forall_mem_singleton.mpr free) member
  · split
    · split
      · exact rejectAt_bind_ensures member _ _
      · rename_i reserved
        refine skip_ensures.bind ?_
        intro _ _
        refine skip_ensures.bind ?_
        intro _ _
        refine (accepts.assignment inHole around).bind ?_
        intro value meets
        exact .pure ⟨⟨reserved, trivial, member⟩, meets⟩
    · exact unassigned
  · exact unassigned

theorem given_ensures : Ensures lines (some <$> level.assignment around)
    (Expr.Meets? (.spelled lines) inHole) :=
  (accepts.assignment inHole around).map fun _ meets => meets

theorem declaration_ensures (word : Declarator) :
    Ensures lines (declaration level around word) (Stmt.Meets (.spelled lines) inHole around) := by
  refine nextLine_ensures.bind ?_
  intro line member
  refine skip_ensures.bind ?_
  intro _ _
  refine freeName_ensures.bind ?_
  intro name free
  have finish (init : Option Expr) (meets : Expr.Meets? (.spelled lines) inHole init) :
      Ensures lines (do
        if word = .constWord ∧ init.isNone then rejectAt line .missingInitializer
        if ← sees .comma then rejectAt line .severalVariables
        terminator
        return Stmt.declare line word name init)
        (Stmt.Meets (.spelled lines) inHole around) := by
    split
    · exact rejectAt_bind_ensures member _ _
    refine (sees_ensures _).bind ?_
    intro several _
    split
    · exact rejectAt_bind_ensures member _ _
    · exact terminator_ensures.bind fun _ _ => .pure ⟨⟨free, trivial, member⟩, meets⟩
  refine (eat_ensures _).bind ?_
  intro given _
  split
  · exact (given_ensures accepts inHole around).bind finish
  · exact (Ensures.pure trivial).bind finish

theorem condition_ensures :
    Ensures lines (condition level around) (Expr.Meets (.spelled lines) inHole) := by
  refine (expect_ensures _).bind ?_
  intro _ _
  refine (accepts.assignment inHole around).bind ?_
  intro e meets
  exact (expect_ensures _).bind fun _ _ => .pure meets

theorem choice_ensures :
    Ensures lines (choice level around) (Stmt.Meets (.spelled lines) inHole around) := by
  refine skip_ensures.bind ?_
  intro _ _
  refine (condition_ensures accepts inHole around).bind ?_
  intro condition meets
  refine (accepts.statement inHole around).bind ?_
  intro yes meetsYes
  have alone : Ensures lines (pure (Stmt.choose condition yes none))
      (Stmt.Meets (.spelled lines) inHole around) :=
    .pure ⟨⟨trivial, trivial, trivial⟩, meets, meetsYes, trivial⟩
  refine peek_ensures.bind ?_
  intro next _
  split
  · split
    · refine skip_ensures.bind ?_
      intro _ _
      refine (accepts.statement inHole around).bind ?_
      intro no meetsNo
      exact .pure ⟨⟨trivial, trivial, trivial⟩, meets, meetsYes, meetsNo⟩
    · exact alone
  · exact alone

theorem whileLoop_ensures :
    Ensures lines (whileLoop level around) (Stmt.Meets (.spelled lines) inHole around) := by
  refine skip_ensures.bind ?_
  intro _ _
  refine (condition_ensures accepts inHole around).bind ?_
  intro condition meets
  refine (accepts.statement inHole around.loop).bind ?_
  intro body meetsBody
  exact .pure ⟨⟨trivial, trivial, trivial⟩, meets, meetsBody⟩

theorem loopStart_ensures :
    Ensures lines (loopStart level around) (Stmt.Meets? (.spelled lines) inHole around) := by
  have expression : Ensures lines (loopStart.expression level around)
      (Stmt.Meets? (.spelled lines) inHole around) := by
    refine (accepts.assignment inHole around).bind ?_
    intro e meets
    exact (expect_ensures _).bind fun _ _ => .pure ⟨⟨trivial, trivial, trivial⟩, meets⟩
  refine (eat_ensures _).bind ?_
  intro idle _
  split
  · exact .pure trivial
  refine peek_ensures.bind ?_
  intro next _
  split
  · split
    · exact (declaration_ensures accepts inHole around _).map fun _ meets => meets
    · exact expression
  · exact expression

theorem optionalExpression_ensures (ending : Mark) :
    Ensures lines (optionalExpression level around ending)
      (Expr.Meets? (.spelled lines) inHole) := by
  refine (sees_ensures _).bind ?_
  intro none _
  split
  · exact .pure trivial
  · exact given_ensures accepts inHole around

theorem forLoop_ensures :
    Ensures lines (forLoop level around) (Stmt.Meets (.spelled lines) inHole around) := by
  refine skip_ensures.bind ?_
  intro _ _
  refine (expect_ensures _).bind ?_
  intro _ _
  refine (loopStart_ensures accepts inHole around).bind ?_
  intro init meetsInit
  refine (optionalExpression_ensures accepts inHole around _).bind ?_
  intro condition meets
  refine (expect_ensures _).bind ?_
  intro _ _
  refine (optionalExpression_ensures accepts inHole around _).bind ?_
  intro update meetsUpdate
  refine (expect_ensures _).bind ?_
  intro _ _
  refine (accepts.statement inHole around.loop).bind ?_
  intro body meetsBody
  exact .pure ⟨⟨trivial, trivial, trivial⟩, meetsInit, meets, meetsUpdate, meetsBody⟩

theorem giveBack_ensures :
    Ensures lines (giveBack level around) (Stmt.Meets (.spelled lines) inHole around) := by
  refine nextLine_ensures.bind ?_
  intro line member
  refine skip_ensures.bind ?_
  intro _ _
  split
  · exact rejectAt_bind_ensures member _ _
  rename_i outside
  have inside : around.inFunction = true := by simpa using outside
  have finish (value : Option Expr) (meets : Expr.Meets? (.spelled lines) inHole value) :
      Ensures lines (do terminator; return Stmt.giveBack value)
        (Stmt.Meets (.spelled lines) inHole around) :=
    terminator_ensures.bind fun _ _ => .pure ⟨⟨trivial, inside, trivial⟩, meets⟩
  refine peek_ensures.bind ?_
  intro next _
  split
  · exact (Ensures.pure trivial).bind finish
  · exact (given_ensures accepts inHole around).bind finish

theorem unintroduced_ensures :
    Ensures lines (unintroduced level around) (Stmt.Meets (.spelled lines) inHole around) := by
  refine peek_ensures.bind ?_
  intro next _
  split
  · refine (block_ensures accepts inHole around).bind ?_
    intro statements meets
    exact .pure ⟨⟨trivial, trivial, trivial⟩, meets⟩
  · exact skip_ensures.bind fun _ _ => .pure ⟨⟨trivial, trivial, trivial⟩, trivial⟩
  · refine (accepts.assignment inHole around).bind ?_
    intro e meets
    exact terminator_ensures.bind fun _ _ => .pure ⟨⟨trivial, trivial, trivial⟩, meets⟩

theorem statement_ensures :
    Ensures lines (statement level around) (Stmt.Meets (.spelled lines) inHole around) := by
  have unintroduced := unintroduced_ensures accepts inHole around
  refine peek_ensures.bind ?_
  intro next _
  split
  · split
    · exact declaration_ensures accepts inHole around _
    split_ifs
    · refine peekSecond_ensures.bind ?_
      intro second _
      split
      · refine nextLine_ensures.bind ?_
        intro line member
        refine skip_ensures.bind ?_
        intro _ _
        refine (functionRest_ensures accepts inHole true member true).bind ?_
        intro definition meets
        exact .pure ⟨⟨trivial, trivial, trivial⟩, meets⟩
      · exact unintroduced
    · exact choice_ensures accepts inHole around
    · exact whileLoop_ensures accepts inHole around
    · exact forLoop_ensures accepts inHole around
    · exact giveBack_ensures accepts inHole around
    · exact jump_ensures _ fun inLoop => ⟨⟨trivial, inLoop, trivial⟩, trivial⟩
    · exact jump_ensures _ fun inLoop => ⟨⟨trivial, inLoop, trivial⟩, trivial⟩
    · exact unintroduced
  · exact unintroduced

end

/-- What all levels make complies with the rules. -/
theorem levels_accept (lines : Set Nat) (room : Nat) : (levels room).Accepts lines := by
  induction room with
  | zero =>
    exact ⟨fun _ _ => reject_ensures _, fun _ _ => reject_ensures _, fun _ _ => reject_ensures _⟩
  | succ room ih =>
    exact ⟨statement_ensures ih, assignment_ensures ih, prefixed_ensures ih⟩

theorem script_ensures (lines : Set Nat) (limit : Nat) :
    Ensures lines (Parsing.script limit) (Script.Meets (.spelled lines)) :=
  fun tokens within =>
    statementsToEnd_ensures ((levels_accept lines limit).statement false ⟨false, false⟩)
      (tokens.items.length + 1) tokens within

end Parsing

end EventLoop
