import Mathlib.Order.Filter.AtTopBot.Basic
import EventLoop.Proofs.Language.Reading

/-!
# Written scripts are read back

A script that complies with the rules is read back from its text, if template literals may have
holes and there is enough room for its nesting. How much is enough is not counted: each phrase is
read at every level from some level on, so a whole is, when all of its parts are.
-/

namespace EventLoop

open Filter Parsing

/-- What holds one level higher from some level on. -/
theorem eventually_of_succ {p : Nat → Prop} (next : ∀ᶠ n in atTop, p (n + 1)) :
    ∀ᶠ n in atTop, p n := by
  obtain ⟨least, holds⟩ := eventually_atTop.mp next
  refine eventually_atTop.mpr ⟨least + 1, fun n above => ?_⟩
  obtain ⟨n, rfl⟩ := Nat.exists_eq_add_of_le' (Nat.le_of_add_left_le above)
  exact holds n (Nat.le_of_succ_le_succ above)

/-- With enough room, the expression is read from its tokens. -/
def Expr.IsRead (e : Expr) : Prop :=
  ∀ᶠ n in atTop, ∀ around, ReadsPhrase ((levels n).assignment around) e.tokens (e.onLine 1)

/-- With enough room, the statement is read from its tokens. -/
def Stmt.IsRead (around : Surroundings) (s : Stmt) : Prop :=
  ∀ᶠ n in atTop, ReadsStatement ((levels n).statement around) s.tokens (s.onLine 1)

theorem Expr.line_onLine (e : Expr) (line : Nat) : (e.onLine line).line = line := by
  cases e <;> rfl

/-! ## Expressions from their parts -/

namespace Expr.IsRead

variable {e left right condition yes no : Expr} {inHole : Bool} {line : Nat}

theorem operand (read : e.IsRead) :
    ∀ᶠ n in atTop, ∀ around rest, goesOn (rest.head?.map Token.lexeme) = false →
      Reads ((levels n).operand around) (parenthesized e.tokens ++ rest) (e.onLine 1) rest :=
  eventually_of_succ <| read.mono fun _ read around _ stop =>
    reads_prefixed_parenthesized (read around) stop

section

variable (matched : Matched (Lexeme.IsWritten inHole) e.tokens) (read : e.IsRead)

include matched read

/-- The level that reads an expression is one below the level that reads it in parentheses. -/
theorem item : ∀ᶠ n in atTop, ∀ around,
    ReadsItem ((levels n).assignment around) (parenthesized e.tokens) (e.onLine 1) :=
  eventually_of_succ <| read.mono fun _ read around =>
    readsItem_parenthesized (fun _ other => other) matched (read around)

theorem assign {op : AssignOp} {target : String} (isName : IsName target) :
    (Expr.assign line op target e).IsRead :=
  eventually_of_succ <| (item matched read).mono fun _ value around =>
    reads_assign isName (value around).2

theorem call {args : List Expr}
    (each : ∀ᶠ n in atTop, ∀ around, List.Forall₂ (ReadsItem ((levels n).assignment around))
      (Expr.eachTokens args) (Expr.eachOnLine 1 args)) :
    (Expr.call line e args).IsRead := by
  refine eventually_of_succ ?_
  -- the chain of calls and properties has room for as many links as there are levels left
  filter_upwards [read, each, eventually_ge_atTop 1] with n read each room around
  obtain ⟨n, rfl⟩ := Nat.exists_eq_add_of_le' room
  have free := unassigned_parenthesized (fun _ other => other) matched
    (parenthesized (separated (Expr.eachTokens args))) fun _ _ => rfl
  refine readsPhrase_prefixed free fun rest closing => ?_
  rw [Expr.tokens, List.append_assoc]
  exact reads_prefixed rfl (reads_primary_parenthesized (read around) _)
    (reads_postfixChain_call (each around) closing.goesOn_eq)

theorem member (property : String) : (Expr.member line e property).IsRead := by
  refine eventually_of_succ ?_
  filter_upwards [read, eventually_ge_atTop 1] with n read room around
  obtain ⟨n, rfl⟩ := Nat.exists_eq_add_of_le' room
  have free := unassigned_parenthesized (fun _ other => other) matched
    [Mark.dot.token, wordToken property] fun _ _ => rfl
  refine readsPhrase_prefixed free fun rest closing => ?_
  rw [Expr.tokens, List.append_assoc]
  exact reads_prefixed rfl (reads_primary_parenthesized (read around) _)
    (reads_postfixChain_member property closing.goesOn_eq)

end

/-- The operand is read one level below the operator, without an assignment in between. -/
theorem unary (op : UnaryOp) (read : e.IsRead) : (Expr.unary line op e).IsRead := by
  refine eventually_of_succ (read.operand.mono fun n operand around => ?_)
  have free : Unassigned (op.token :: parenthesized e.tokens) := fun _ _ => by
    cases op <;> exact ⟨rfl, rfl⟩
  refine readsPhrase_prefixed free fun rest closing => ?_
  exact reads_prefixed_unary op (operand around rest closing.goesOn_eq)

section

variable (matched : Matched (Lexeme.IsWritten inHole) left.tokens) (first : left.IsRead)
  (second : right.IsRead)

include matched first second

theorem operation {m : Mark} {combine : Expr → Expr → Expr} {e : Expr}
    (joins : Joins m combine strengths) (free : goesOn (some (.mark m)) = false)
    (arrow : m ≠ .arrow)
    (tokens : e.tokens = parenthesized left.tokens ++ m.token :: parenthesized right.tokens)
    (value : combine (left.onLine 1) (right.onLine 1) = e.onLine 1) : e.IsRead := by
  refine eventually_of_succ ?_
  filter_upwards [first, second, eventually_ge_atTop 1] with n first second room around
  obtain ⟨n, rfl⟩ := Nat.exists_eq_add_of_le' room
  have other : isMark .arrow (some (.mark m)) = false := by simpa [isMark] using arrow.symm
  have unassigned := unassigned_parenthesized (fun _ other => other) matched
    (m.token :: parenthesized right.tokens) fun _ _ => other
  rw [tokens, ← value]
  exact readsPhrase_operation unassigned (reads_operation joins free (first around) (second around))

theorem binary (op : BinaryOp) : (Expr.binary line op left right).IsRead := by
  refine operation matched first second (joins_binary op) ?_ ?_ rfl ?_
  · cases op <;> rfl
  · cases op <;> decide
  · rw [line_onLine, onLine]

theorem logical (op : LogicalOp) : (Expr.logical line op left right).IsRead := by
  refine operation matched first second (joins_logical op) ?_ ?_ rfl ?_
  · cases op <;> rfl
  · cases op <;> decide
  · rw [line_onLine, onLine]

end

theorem conditional (matched : Matched (Lexeme.IsWritten inHole) condition.tokens)
    (matchedYes : Matched (Lexeme.IsWritten inHole) yes.tokens)
    (matchedNo : Matched (Lexeme.IsWritten inHole) no.tokens) (first : condition.IsRead)
    (second : yes.IsRead) (third : no.IsRead) :
    (Expr.conditional line condition yes no).IsRead := by
  refine eventually_of_succ ?_
  filter_upwards [first, second.item matchedYes, third.item matchedNo]
    with n first second third around
  have free := unassigned_parenthesized (fun _ other => other) matched
    (Mark.question.token :: parenthesized yes.tokens ++ Mark.colon.token ::
      parenthesized no.tokens) fun _ _ => rfl
  rw [← List.append_assoc] at free
  refine readsPhrase_conditional free ?_
  have read : ReadsPhrase (Parsing.conditional (levels n) n around) _ _ :=
    reads_conditional (fun rest => reads_operation_parenthesized (first around) rest)
      (second around).2 (third around).2
  rw [line_onLine] at read
  exact read

end Expr.IsRead

/-- One word or literal. -/
theorem Expr.IsRead.of_primary {e : Expr} {lexeme : Lexeme} (single : e.tokens = [.at 1 lexeme])
    (paren : lexeme ≠ .mark .leftParen) (start : plainStart (some lexeme) = true)
    (read : ∀ᶠ n in atTop, ∀ around rest,
      Reads (primary (levels n) around) (.at 1 lexeme :: rest) (e.onLine 1) rest) : e.IsRead := by
  refine eventually_of_succ (read.mono fun n read around => ?_)
  rw [single]
  refine readsPhrase_primary (fun rest closing => ⟨?_, ?_⟩) (fun _ => start) (read around)
  · cases lexeme with
    | name word =>
      have arrow := closing.isMark_arrow
      have op := closing.assignOp?_eq
      simp [startsAssignment, Token.lexeme, arrow, op]
    | _ => rfl
  · cases lexeme with
    | mark m => cases m <;> first | rfl | exact absurd rfl paren
    | _ => rfl

theorem Expr.IsRead.name {line : Nat} {word : String} (isName : IsName word) :
    (Expr.name line word).IsRead := by
  exact .of_primary rfl nofun (plainStart_name isName) <| .of_forall fun n around rest =>
    reads_primary_name isName rest

theorem Expr.IsRead.update {line : Nat} {count : Count} {target : String} (isName : IsName target) :
    (moment : Moment) → (Expr.update line count moment target).IsRead
  | .after => by
    refine eventually_of_succ (.of_forall fun n around => ?_)
    have free : Unassigned [count.mark.token, wordToken target] := fun _ _ => by
      cases count <;> exact ⟨rfl, rfl⟩
    exact readsPhrase_prefixed free fun rest _ => reads_prefixed_count count isName rest
  | .before => by
    refine eventually_of_succ (.of_forall fun n around => ?_)
    have free : Unassigned [wordToken target, count.mark.token] := fun _ _ => by
      cases count <;> exact ⟨rfl, rfl⟩
    exact readsPhrase_prefixed free fun rest _ =>
      reads_prefixed (plainStart_name isName) (reads_primary_name isName _)
        (reads_postfixChain_count count target rest)

/-! ## Functions -/

section

variable {around : Surroundings} {params : List String} (names : ∀ param ∈ params, IsName param)

include names

theorem Expr.IsRead.arrow {e : Expr} {inHole : Bool} {line line' : Nat}
    (matched : Matched (Lexeme.IsWritten inHole) e.tokens) (read : e.IsRead) :
    (Expr.function line (.mk none params (.value e) line')).IsRead := by
  refine eventually_of_succ ((read.item matched).mono fun n value around => ?_)
  have list : Matched (Lexeme.IsWritten false)
      (separated (params.map fun param => [wordToken param])) :=
    .separated fun item member => by
      obtain ⟨param, listed, rfl⟩ := List.mem_map.mp member
      exact .word (names param listed).1
  exact reads_arrow names (fun rest => startsArrow_parenthesized (fun _ other => other) list _)
    (value .function).2

theorem Expr.IsRead.block {name : Option String} {statements : List Stmt} {line line' : Nat}
    (isName : ∀ word ∈ name, IsName word)
    (each : ∀ᶠ n in atTop, List.Forall₂ (ReadsStatement ((levels n).statement .function))
      (Stmt.eachTokens statements) (Stmt.eachOnLine 1 statements)) :
    (Expr.function line (.mk name params (.block statements) line')).IsRead := by
  refine eventually_of_succ (each.mono fun n each around => ?_)
  refine readsPhrase_primary (fun rest closing => ⟨?_, rfl⟩) (fun _ => rfl) fun rest => ?_
  · cases name <;> rfl
  · rw [Expr.tokens, Definition.tokens, List.append_assoc, List.append_assoc]
    have read := reads_functionRest false isName nofun names each 1 rest
    exact (reads_nextLine ..).bind ((reads_peek _).bind ((reads_skip ..).bind
      (read.bind (.pure ..))))

theorem Stmt.IsRead.define {name : String} {statements : List Stmt} {line : Nat}
    (isName : IsName name)
    (each : ∀ᶠ n in atTop, List.Forall₂ (ReadsStatement ((levels n).statement .function))
      (Stmt.eachTokens statements) (Stmt.eachOnLine 1 statements)) :
    (Stmt.define (.mk (some name) params (.block statements) line)).IsRead around := by
  refine eventually_of_succ (each.mono fun n each => ⟨⟨_, _, rfl, rfl, rfl⟩, fun rest _ => ?_⟩)
  rw [Stmt.tokens, Definition.tokens, List.append_assoc, List.append_assoc]
  have named : ∀ word ∈ some name, IsName word := fun _ same => by cases same; exact isName
  exact reads_define (reads_functionRest true named (fun _ => rfl) names each 1 rest)

end

/-! ## Whole trees -/

theorem Stmt.not_isChoice_onLine {s : Stmt} (block : s.IsBlock) (line : Nat) :
    ¬ (s.onLine line).IsChoice := by
  cases s <;> first | exact block.elim | exact id

mutual

/-- An expression that complies with the rules is read from its tokens. -/
theorem Expr.isRead {inHole : Bool} : (e : Expr) → e.Meets .writable inHole → e.IsRead
  | .number _ _, _ | .text _ _, _ | .null _, _ | .undefined _, _ =>
    .of_primary rfl nofun rfl <| .of_forall fun _ _ _ =>
      (reads_nextLine ..).bind ((reads_peek _).bind ((reads_skip ..).bind (.pure ..)))
  | .bool _ true, _ => .of_primary rfl nofun rfl <| .of_forall fun _ _ => reads_primary_bool true
  | .bool _ false, _ => .of_primary rfl nofun rfl <| .of_forall fun _ _ => reads_primary_bool false
  | .template _ parts, meets => .of_primary rfl nofun rfl <|
    (Part.eachIsRead parts meets.2).mono fun _ each _ rest => reads_primary_template each rest
  | .name _ _, meets => .name meets.1.1
  | .assign _ _ _ value, meets =>
    .assign (value.tokens_matched meets.2) (value.isRead meets.2) meets.1.1
  | .update _ _ moment _, meets => .update meets.1.1 moment
  | .binary _ op left right, meets =>
    .binary (left.tokens_matched meets.2.1) (left.isRead meets.2.1) (right.isRead meets.2.2) op
  | .logical _ op left right, meets =>
    .logical (left.tokens_matched meets.2.1) (left.isRead meets.2.1) (right.isRead meets.2.2) op
  | .unary _ op operand, meets => .unary op (operand.isRead meets.2)
  | .conditional _ condition yes no, meets =>
    .conditional (condition.tokens_matched meets.2.1) (yes.tokens_matched meets.2.2.1)
      (no.tokens_matched meets.2.2.2) (condition.isRead meets.2.1) (yes.isRead meets.2.2.1)
      (no.isRead meets.2.2.2)
  | .call _ callee args, meets =>
    .call (callee.tokens_matched meets.2.1) (callee.isRead meets.2.1)
      (Expr.eachIsRead args meets.2.2)
  | .member _ object property, meets =>
    .member (object.tokens_matched meets.2) (object.isRead meets.2) property
  | .function _ (.mk _ _ (.block statements) _), meets =>
    .block meets.2.1.1.2 meets.2.1.1.1 (Stmt.eachIsRead statements meets.2.2)
  -- an arrow function has no word for its name to stand behind
  | .function _ (.mk name params (.value e) _), meets => by
    obtain rfl : name = none := by
      cases name with
      | none => rfl
      | some name => exact (meets.2.1.2.2 rfl).elim
    exact .arrow meets.2.1.1.2 (e.tokens_matched meets.2.2) (e.isRead meets.2.2)

theorem Expr.eachIsRead {inHole : Bool} :
    (es : List Expr) → Expr.EachMeets .writable inHole es →
      ∀ᶠ n in atTop, ∀ around, List.Forall₂ (ReadsItem ((levels n).assignment around))
        (Expr.eachTokens es) (Expr.eachOnLine 1 es)
  | [], _ => .of_forall fun _ _ => .nil
  | e :: rest, meets => by
    filter_upwards [(e.isRead meets.1).item (e.tokens_matched meets.1),
      Expr.eachIsRead rest meets.2] with n first others around
    exact .cons (first around) (others around)

theorem Expr.isRead? {inHole : Bool} :
    (e : Option Expr) → Expr.Meets? .writable inHole e →
      ∀ᶠ n in atTop, ∀ around, ReadsOptional ((levels n).assignment around) (Expr.tokens? e)
        (Expr.onLine? 1 e)
  | none, _ => .of_forall fun _ _ => .absent
  | some e, meets => ((e.isRead meets).item (e.tokens_matched meets)).mono fun _ item around =>
    .present (item around)

theorem Part.eachIsRead : (parts : List Part) → Part.EachMeets .writable parts →
    ∀ᶠ n in atTop, List.Forall₂ (ReadsChunk (levels n)) (Part.chunks parts)
      (Part.eachOnLine 1 parts)
  | [], _ => .of_forall fun _ => .nil
  | .text content :: rest, meets =>
    (Part.eachIsRead rest meets).mono fun _ each => .cons (.text content) each
  | .value e :: rest, meets => by
    filter_upwards [(e.isRead meets.1).item (e.tokens_matched meets.1),
      Part.eachIsRead rest meets.2] with n value each
    exact .cons (.code fun around => (value around).2) each

/-- A statement that complies with the rules is read from its tokens. -/
theorem Stmt.isRead {inHole : Bool} {around : Surroundings} :
    (s : Stmt) → s.Meets .writable inHole around → s.IsRead around
  | .declare _ word _ none, meets => by
    have optional : word ≠ .constWord := fun same => by cases meets.1.1.2 same
    exact eventually_of_succ <| .of_forall fun _ => ⟨⟨_, _, rfl, rfl, by cases word <;> rfl⟩,
      fun rest _ => reads_statement_declaration (reads_declaration_none meets.1.1.1 optional rest)⟩
  | .declare _ word _ (some init), meets => by
    refine eventually_of_succ (((init.isRead meets.2).item (init.tokens_matched meets.2)).mono ?_)
    refine fun n item => ⟨⟨_, _, rfl, rfl, by cases word <;> rfl⟩, fun rest _ => ?_⟩
    rw [Stmt.tokens, List.append_assoc]
    exact reads_statement_declaration (reads_declaration_some meets.1.1.1 (item around).2 rest)
  | .define (.mk (some _) _ (.block statements) _), meets =>
    .define meets.2.1.1.2 (meets.2.1.1.1 _ rfl) (Stmt.eachIsRead statements meets.2.2)
  | .define (.mk none _ (.block _) _), meets => by cases (meets.2.1.2.1 rfl).1
  | .define (.mk _ _ (.value _) _), meets => (meets.2.1.2.1 rfl).2.elim
  | .choose condition yes none, meets => by
    refine eventually_of_succ ?_
    filter_upwards [condition.isRead meets.2.1, yes.isRead meets.2.2.1] with n condition yes'
    exact ⟨⟨_, _, rfl, rfl, rfl⟩, fun rest after =>
      reads_choice_none (condition around) yes' (Stmt.not_isChoice_onLine meets.1.1.1 1)
        (after trivial)⟩
  | .choose condition yes (some no), meets => by
    refine eventually_of_succ ?_
    filter_upwards [condition.isRead meets.2.1, yes.isRead meets.2.2.1, no.isRead meets.2.2.2]
      with n condition yes' no
    exact ⟨⟨_, _, rfl, rfl, rfl⟩, fun rest after =>
      reads_choice_some (condition around) yes' (Stmt.not_isChoice_onLine meets.1.1.1 1) no
        (after trivial)⟩
  | .whileLoop condition body, meets => by
    refine eventually_of_succ ?_
    filter_upwards [condition.isRead meets.2.1, body.isRead meets.2.2] with n condition body'
    exact ⟨⟨_, _, rfl, rfl, rfl⟩, fun rest _ =>
      reads_while (condition around) body' (Stmt.not_isChoice_onLine meets.1.1 1) rest⟩
  | .forLoop init condition update body, meets => by
    refine eventually_of_succ ?_
    filter_upwards [Stmt.startIsRead init meets.2.1 meets.1.2, Expr.isRead? condition meets.2.2.1,
      Expr.isRead? update meets.2.2.2.1, body.isRead meets.2.2.2.2]
      with n init condition update body'
    exact ⟨⟨_, _, rfl, rfl, rfl⟩, fun rest _ =>
      reads_for init (condition around) (update around) body'
        (Stmt.not_isChoice_onLine meets.1.1 1) rest⟩
  | .giveBack value, meets => by
    refine eventually_of_succ ((Expr.isRead? value meets.2).mono fun n value => ?_)
    exact ⟨⟨_, _, rfl, rfl, rfl⟩, fun rest _ => reads_return meets.1.1 (value around) rest⟩
  | .breakLoop, meets => eventually_of_succ <| .of_forall fun _ =>
    ⟨⟨_, _, rfl, rfl, rfl⟩, fun rest _ => (reads_peek _).bind (reads_jump meets.1.1 rest)⟩
  | .continueLoop, meets => eventually_of_succ <| .of_forall fun _ =>
    ⟨⟨_, _, rfl, rfl, rfl⟩, fun rest _ => (reads_peek _).bind (reads_jump meets.1.1 rest)⟩
  | .block statements, meets =>
    eventually_of_succ <| (Stmt.eachIsRead statements meets.2).mono fun _ each =>
      ⟨⟨_, _, rfl, rfl, rfl⟩, fun rest _ => reads_statement_block each rest⟩
  | .evaluate e, meets =>
    eventually_of_succ <| ((e.isRead meets.2).item (e.tokens_matched meets.2)).mono fun _ item =>
      ⟨⟨_, _, rfl, rfl, rfl⟩, fun rest _ => reads_evaluate (item around) rest⟩
  | .empty, _ => eventually_of_succ <| .of_forall fun _ =>
    ⟨⟨_, _, rfl, rfl, rfl⟩, fun rest _ =>
      (reads_peek _).bind ((reads_peek _).bind ((reads_skip ..).bind (.pure ..)))⟩

theorem Stmt.startIsRead {inHole : Bool} {around : Surroundings} :
    (init : Option Stmt) → Stmt.Meets? .writable inHole around init → (∀ s ∈ init, s.IsStart) →
      ∀ᶠ n in atTop, ∀ rest, Reads (loopStart (levels n) around) (Stmt.startTokens init ++ rest)
        (Stmt.onLine? 1 init) rest
  | none, _, _ => .of_forall fun _ => reads_loopStart_none
  | some (.declare _ word _ none), meets, _ => by
    have optional : word ≠ .constWord := fun same => by cases meets.1.1.2 same
    exact .of_forall fun _ rest =>
      reads_loopStart_declaration (reads_declaration_none meets.1.1.1 optional rest)
  | some (.declare _ word _ (some init)), meets, _ => by
    filter_upwards [(init.isRead meets.2).item (init.tokens_matched meets.2)] with n item rest
    rw [Stmt.startTokens, Stmt.tokens, List.append_assoc]
    exact reads_loopStart_declaration (reads_declaration_some meets.1.1.1 (item around).2 rest)
  | some (.evaluate e), meets, _ => by
    filter_upwards [(e.isRead meets.2).item (e.tokens_matched meets.2)] with n item rest
    exact reads_loopStart_evaluate (item around) rest
  | some (.define _), _, start | some (.choose _ _ _), _, start | some (.whileLoop _ _), _, start
  | some (.forLoop _ _ _ _), _, start | some (.giveBack _), _, start | some .breakLoop, _, start
  | some .continueLoop, _, start | some (.block _), _, start | some .empty, _, start =>
    (start _ rfl).elim

theorem Stmt.eachIsRead {inHole : Bool} {around : Surroundings} :
    (statements : List Stmt) → Stmt.EachMeets .writable inHole around statements →
      ∀ᶠ n in atTop, List.Forall₂ (ReadsStatement ((levels n).statement around))
        (Stmt.eachTokens statements) (Stmt.eachOnLine 1 statements)
  | [], _ => .of_forall fun _ => .nil
  | s :: rest, meets => by
    filter_upwards [s.isRead meets.1, Stmt.eachIsRead rest meets.2] with n first others
    exact .cons first others

end

/-! ## Whole scripts -/

/-- With enough nesting allowed, the script is read back from its text, up to its lines. -/
def Script.IsReadBack (script : Script) : Prop :=
  ∀ᶠ limit in atTop, parse limit script.print = .ok (script.onLine 1)

theorem parse_of_reads {limit : Nat} {text : String} {tokens : List Token} {script : Script}
    (cut : tokenize limit text = .ok ⟨tokens, 1⟩)
    (read : Reads (Parsing.script limit) tokens script []) : parse limit text = .ok script := by
  rw [parse, cut]
  show Prod.fst <$> (Parsing.script limit).run _ = _
  rw [show (Parsing.script limit).run ⟨tokens, 1⟩ = _ from read]
  rfl

theorem tokenize_spelled {tokens : List Token} (matched : Matched (Lexeme.IsWritten false) tokens)
    (holes : Nat) :
    tokenize (holes + 1) (String.ofList (Token.spelled tokens)) = .ok ⟨tokens, 1⟩ := by
  have whole := Lexing.tokensWithin_spelled matched holes []
  rw [List.append_nil, Lexing.tokensWithin_eq, Lexing.tokensFrom_nil] at whole
  rw [tokenize, String.toList_ofList, Lexing.tokensWithin_eq, whole]
  simp [Except.map]

theorem reads_script {limit : Nat} {items : List (List Token)} {script : Script}
    (each : List.Forall₂ (ReadsStatement ((levels limit).statement ⟨false, false⟩)) items script) :
    Reads (Parsing.script limit) items.flatten script [] :=
  reads_statementsToEnd each (Nat.lt_succ_of_le (length_le_flatten each))

/-- The text of a script that complies with the rules is read as that script. -/
theorem eventually_parse {script : Script} (meets : script.Meets .writable) {text : String}
    (alike : text = script.print) :
    ∀ᶠ limit in atTop, parse limit text = .ok (script.onLine 1) := by
  filter_upwards [Stmt.eachIsRead script meets, eventually_ge_atTop 1] with limit each some
  obtain ⟨holes, rfl⟩ := Nat.exists_eq_add_of_le' some
  rw [alike]
  exact parse_of_reads (tokenize_spelled (Stmt.eachTokens_matched script meets) holes)
    (reads_script each)

/-- A script that complies with the rules is read back. -/
theorem Script.isReadBack {script : Script} (meets : script.Meets .writable) : script.IsReadBack :=
  eventually_parse meets rfl

/-- A constant whose value is a sum with a template literal. -/
theorem Script.isReadBack_const :
    IsReadBack [.declare 3 .constWord "x" (some (.binary 4 .add (.number 4 1)
      (.template 5 [.text "a", .value (.name 6 "y")])))] := by
  have one : (Expr.number 4 1).Meets .writable false :=
    ⟨⟨⟨1, by decide, rfl⟩, trivial⟩, trivial⟩
  have x : IsName "x" := by decide +kernel
  have y : IsName "y" := by decide +kernel
  have template : (Expr.template 5 [.text "a", .value (.name 6 "y")]).Meets .writable false :=
    ⟨⟨⟨rfl, .inr (by simp [TextsApart, Part.text?])⟩, List.cons_ne_nil _ _⟩,
      ⟨⟨y, trivial⟩, trivial⟩, trivial⟩
  exact isReadBack ⟨⟨⟨⟨x, fun _ => rfl⟩, trivial⟩, ⟨trivial, trivial⟩, one, template⟩, trivial⟩

/-! ## Trees that cannot be written -/

theorem not_isReadBack {script other : Script}
    (read : ∀ᶠ limit in atTop, parse limit script.print = .ok other)
    (differs : other ≠ script.onLine 1) : ¬ script.IsReadBack := fun back => by
  obtain ⟨limit, read, back⟩ := (read.and back).exists
  exact differs (Except.ok.inj (read.symm.trans back))

/-- A statement at the end of a script. -/
theorem reads_script_last {limit : Nat} {token : Token} {more : List Token} {s : Stmt}
    (read : Reads ((levels limit).statement ⟨false, false⟩) (token :: more) s []) :
    Reads (Parsing.script limit) (token :: more) [s] [] := by
  have last : Reads (statementsToEnd ((levels limit).statement ⟨false, false⟩) (more.length + 1))
      [] [] [] := by
    rw [statementsToEnd]
    exact (reads_peek _).bind (.pure ..)
  have whole : Reads (statementsToEnd ((levels limit).statement ⟨false, false⟩)
      (more.length + 1 + 1)) (token :: more) [s] [] := by
    rw [statementsToEnd]
    exact (reads_peek _).bind (read.bind (last.bind (.pure ..)))
  exact whole

/-- A function without a name is no declaration where a statement begins. -/
theorem eventually_parse_function {script : Script} {params : List String} {body : Body}
    {line : Nat}
    (alike : (Stmt.eachTokens script).flatten = (Definition.mk none params body line).tokens)
    (meets : (Definition.mk none params body line).Meets .writable false false) :
    ∀ᶠ limit in atTop, parse limit script.print =
      .ok [(Stmt.evaluate (.function line (.mk none params body line))).onLine 1] := by
  have whole : (Expr.function line (.mk none params body line)).Meets .writable false :=
    ⟨⟨trivial, trivial⟩, meets⟩
  refine eventually_of_succ ?_
  filter_upwards [Expr.isRead _ whole] with n read
  rw [Script.print, alike]
  refine parse_of_reads (tokenize_spelled (Definition.tokens_matched _ meets) n) ?_
  have value := read ⟨false, false⟩ [] rfl
  rw [List.append_nil] at value
  -- no semicolon was written, as after a declaration, but none is asked for either
  have unended : Reads terminator [] () [] := (reads_eat_other rfl).bind (.pure ..)
  cases body with
  | block statements =>
    exact reads_script_last <| (reads_peek _).bind <| (reads_peekSecond _).bind <|
      (reads_peek _).bind <| value.bind (unended.bind (.pure ..))
  | value e =>
    exact reads_script_last <| (reads_peek _).bind <| (reads_peek _).bind <|
      value.bind (unended.bind (.pure ..))

/-- Is the script legal, and is it not read back all the same? -/
def Script.IsLost (script : Script) : Prop :=
  script.Meets .legal ∧ ¬ script.IsReadBack

namespace Script.IsLost

theorem of_print {script other : Script} (meets : script.Meets .legal)
    (writable : other.Meets .writable) (alike : script.print = other.print)
    (differs : other.onLine 1 ≠ script.onLine 1) : script.IsLost :=
  ⟨meets, not_isReadBack (eventually_parse writable alike) differs⟩

/-- A template literal without parts is read as an empty text. -/
theorem template : IsLost [.evaluate (.template 1 [])] := by
  have empty : Meets .writable [.evaluate (.template 1 [.text ""])] :=
    ⟨⟨⟨trivial, trivial⟩, ⟨⟨rfl, .inl rfl⟩, List.cons_ne_nil _ _⟩, trivial⟩, trivial⟩
  exact of_print ⟨⟨trivial, ⟨rfl, .inr trivial⟩, trivial⟩, trivial⟩ empty rfl nofun

/-- Anything can be the text of a property, also the end of its statement and another one. -/
theorem member : IsLost [.evaluate (.member 1 (.null 1) "y ) ; ( null")] := by
  have null : (Expr.null 1).Meets .writable false := ⟨⟨trivial, trivial⟩, trivial⟩
  have y : isWord "y" = true := by decide +kernel
  have two : Meets .writable [.evaluate (.member 1 (.null 1) "y"), .evaluate (.null 1)] :=
    ⟨⟨⟨trivial, trivial⟩, ⟨trivial, y⟩, null⟩, ⟨⟨trivial, trivial⟩, null⟩, trivial⟩
  refine of_print ⟨⟨trivial, trivial, trivial, trivial⟩, trivial⟩ two (by decide +kernel) ?_
  exact fun same => nomatch (congrArg List.length same : 2 = 1)

/-- A loop that begins with an empty statement is read as one that begins with nothing. -/
theorem forLoop : IsLost [.forLoop (some .empty) none none (.block [])] := by
  have idle : Meets .writable [.forLoop none none none (.block [])] :=
    ⟨⟨⟨trivial, nofun⟩, trivial, trivial, trivial, ⟨trivial, trivial⟩, trivial⟩, trivial⟩
  refine of_print ⟨⟨trivial, ⟨trivial, trivial⟩, trivial, trivial, ⟨trivial, trivial⟩⟩, trivial⟩
    idle rfl ?_
  intro same
  injection same with loop
  injection loop with init
  cases init

/-- A function without a name is not read as a declaration. -/
theorem nameless : IsLost [.define (.mk none [] (.block []) 1)] := by
  have function : (Definition.mk none [] (.block []) 1).Meets .writable false false :=
    ⟨⟨⟨nofun, List.forall_mem_nil _⟩, nofun, nofun⟩, trivial⟩
  exact ⟨⟨⟨trivial, ⟨nofun, List.forall_mem_nil _⟩, trivial⟩, trivial⟩,
    not_isReadBack (eventually_parse_function rfl function) nofun⟩

theorem null_arrow : (Definition.mk none [] (.value (.null 1)) 1).Meets .writable false false :=
  ⟨⟨⟨nofun, List.forall_mem_nil _⟩, nofun, nofun⟩, ⟨trivial, trivial⟩, trivial⟩

theorem named_arrow :
    (∀ name ∈ some "f", IsName name) ∧ ∀ param ∈ ([] : List String), IsName param := by
  have f : IsName "f" := by decide +kernel
  exact ⟨fun _ same => by cases same; exact f, List.forall_mem_nil _⟩

/-- A function with the value of an expression is not read as a declaration either. -/
theorem declared_arrow : IsLost [.define (.mk (some "f") [] (.value (.null 1)) 1)] :=
  ⟨⟨⟨trivial, named_arrow, trivial, trivial⟩, trivial⟩,
    not_isReadBack (eventually_parse_function rfl null_arrow) nofun⟩

/-- A function with the value of an expression is read without its name. -/
theorem arrow : IsLost [.evaluate (.function 1 (.mk (some "f") [] (.value (.null 1)) 1))] := by
  have value : Meets .writable [.evaluate (.function 1 (.mk none [] (.value (.null 1)) 1))] :=
    ⟨⟨⟨trivial, trivial⟩, ⟨trivial, trivial⟩, null_arrow⟩, trivial⟩
  refine of_print ⟨⟨trivial, trivial, named_arrow, trivial, trivial⟩, trivial⟩ value rfl ?_
  intro same
  injection same with evaluate
  injection evaluate with function
  injection function with _ definition
  injection definition with name
  cases name

end Script.IsLost

/-- For each shape that no text has, a legal script is lost. -/
theorem Script.exists_isLost :
    IsLost [.evaluate (.template 1 [])] ∧
    IsLost [.evaluate (.member 1 (.null 1) "y ) ; ( null")] ∧
    IsLost [.forLoop (some .empty) none none (.block [])] ∧
    IsLost [.define (.mk none [] (.block []) 1)] ∧
    IsLost [.define (.mk (some "f") [] (.value (.null 1)) 1)] ∧
    IsLost [.evaluate (.function 1 (.mk (some "f") [] (.value (.null 1)) 1))] :=
  ⟨IsLost.template, IsLost.member, IsLost.forLoop, IsLost.nameless, IsLost.declared_arrow,
    IsLost.arrow⟩

end EventLoop
