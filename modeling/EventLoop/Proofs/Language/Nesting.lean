import Mathlib.Tactic.SplitIfs
import EventLoop.Proofs.Language.Holes
import EventLoop.Language.Parsing

/-!
# More room for nesting

The bound on nesting only rejects scripts. What is read, or rejected for another reason, within one
bound is so within any larger one. Two readings with different bounds do the same until the first
gives up because of its bound, and this is so for each part that they are built of.
-/

namespace EventLoop

/-- Was the script rejected because of how deeply it is nested? -/
def ScriptError.IsTooDeep : ScriptError → Prop
  | malformed _ .codeTooDeep | malformed _ .templateTooDeep => True
  | _ => False

/-- Both readings give the same, unless the first gives up because of how deep it is. -/
def Loosened {α : Type} (x y : Except ScriptError α) : Prop :=
  x = y ∨ ∃ e, x = .error e ∧ e.IsTooDeep

namespace Loosened

variable {α β : Type} {x y : Except ScriptError α}

theorem refl (x : Except ScriptError α) : Loosened x x :=
  .inl rfl

theorem tooDeep {e : ScriptError} (deep : e.IsTooDeep) : Loosened (.error e) y :=
  .inr ⟨e, rfl, deep⟩

theorem bind {f g : α → Except ScriptError β} (first : Loosened x y)
    (second : ∀ a, Loosened (f a) (g a)) : Loosened (x >>= f) (y >>= g) := by
  rcases first with rfl | ⟨e, rfl, deep⟩
  · cases x with
    | error e => exact refl _
    | ok a => exact second a
  · exact tooDeep deep

theorem map (f : α → β) (first : Loosened x y) : Loosened (x.map f) (y.map f) := by
  rcases first with rfl | ⟨e, rfl, deep⟩
  · exact refl _
  · exact tooDeep deep

end Loosened

/-! ## Tokens -/

namespace Lexing

variable {hole hole' : Option HoleReader}

/-- Where holes can be read, they can be read in the second way, too, with the same outcome unless
the first gives up because of how deep it is. -/
def ReadsOn (hole hole' : Option HoleReader) : Prop :=
  ∀ read, hole = some read → ∃ read', hole' = some read' ∧
    ∀ code line, Loosened (read code line) (read' code line)

theorem templateChunks_loosened (reads : ReadsOn hole hole') (start : Nat)
    (backwards cs : List Char) (line : Nat) :
    Loosened (templateChunks hole start backwards cs line)
      (templateChunks hole' start backwards cs line) := by
  fun_induction templateChunks hole start backwards cs line with
  | case5 => exact .tooDeep trivial
  | case6 backwards c cs line plain escape opens read same missed =>
    obtain ⟨read', rfl, -⟩ := reads read same
    obtain ⟨rfl, brace⟩ := opens
    obtain ⟨tail, rfl⟩ : ∃ tail, cs = '{' :: tail := List.head?_eq_some_iff.mp brace
    rw [List.tail_cons] at missed
    rw [templateChunks_open missed]
    exact .refl _
  | case7 backwards c cs line plain escape opens read same code found ih =>
    obtain ⟨read', rfl, agree⟩ := reads read same
    subst same
    obtain ⟨rfl, brace⟩ := opens
    obtain ⟨tail, rfl⟩ : ∃ tail, cs = '{' :: tail := List.head?_eq_some_iff.mp brace
    rw [List.tail_cons] at found
    rw [templateChunks_code found]
    exact (agree code.value line).bind fun _ => ih.bind fun _ => .refl _
  | case8 backwards c cs line plain escape text ih =>
    rw [templateChunks.eq_def hole']
    simpa only [plain, escape, text, if_false] using ih
  | _ =>
    rw [templateChunks.eq_def hole']
    simp_all [Loosened.refl]

theorem next_loosened (reads : ReadsOn hole hole') (c : Char) (cs : List Char) (line : Nat) :
    Loosened (next hole c cs line) (next hole' c cs line) := by
  unfold next
  split_ifs <;>
    first | exact .refl _ | exact (templateChunks_loosened reads line [] cs line).map _

theorem tokensFrom_loosened (reads : ReadsOn hole hole') (cs : List Char) (line : Nat) :
    Loosened (tokensFrom hole cs line) (tokensFrom hole' cs line) := by
  fun_induction tokensFrom hole cs line with
  | case1 line =>
    rw [tokensFrom_nil]
    exact .refl _
  | case2 line c cs e failed =>
    rcases next_loosened reads c cs line with same | ⟨e', failed', deep⟩
    · rw [tokensFrom_error (same.symm.trans failed)]
      exact .refl _
    · cases failed.symm.trans failed'
      exact .tooDeep deep
  | case3 line c cs s found ih =>
    rcases next_loosened reads c cs line with same | ⟨e', failed, -⟩
    · rw [tokensFrom_cons (same.symm.trans found)]
      rcases s with ⟨_ | token, rest, line'⟩
      · exact ih.bind fun _ => .refl _
      · exact ih.bind fun _ => .refl _
    · cases found.symm.trans failed

theorem reader_readsOn {n m : Nat} (le : n ≤ m) : ReadsOn (reader n) (reader m) := by
  induction n generalizing m with
  | zero => exact nofun
  | succ n ih =>
    obtain ⟨m, rfl⟩ := Nat.exists_eq_add_of_le' le
    intro read same
    cases same
    refine ⟨tokensWithin (m + n), rfl, ?_⟩
    intro code line
    rw [tokensWithin_eq, tokensWithin_eq]
    exact tokensFrom_loosened (ih (by omega)) code line

end Lexing

theorem tokenize_loosened {n m : Nat} (le : n ≤ m) (source : String) :
    Loosened (tokenize n source) (tokenize m source) := by
  rw [tokenize, tokenize, Lexing.tokensWithin_eq, Lexing.tokensWithin_eq]
  exact Lexing.tokensFrom_loosened (Lexing.reader_readsOn le) source.toList 1

/-! ## Trees -/

namespace Parsing

variable {α β : Type}

/-- Both parsers do the same, unless the first gives up because of how deep the code is. -/
def Loosens (p q : Parser α) : Prop :=
  ∀ tokens, Loosened (p.run tokens) (q.run tokens)

namespace Loosens

variable {p q : Parser α}

theorem refl (p : Parser α) : Loosens p p :=
  fun _ => .refl _

theorem bind {f g : α → Parser β} (first : Loosens p q) (second : ∀ a, Loosens (f a) (g a)) :
    Loosens (p >>= f) (q >>= g) := by
  intro tokens
  rw [StateT.run_bind, StateT.run_bind]
  exact (first tokens).bind fun (a, rest) => second a rest

/-- The same parser first. -/
theorem after {f g : α → Parser β} (second : ∀ a, Loosens (f a) (g a)) :
    Loosens (p >>= f) (p >>= g) :=
  (refl p).bind second

theorem map (f : α → β) (first : Loosens p q) : Loosens (f <$> p) (f <$> q) := by
  rw [map_eq_pure_bind, map_eq_pure_bind]
  exact first.bind fun _ => refl _

theorem lift {x y : Except ScriptError α} (first : Loosened x y) :
    Loosens (liftM x : Parser α) (liftM y) :=
  fun _ => first.bind fun _ => .refl _

/-- Whatever the second does, the first has given up. -/
theorem tooDeep (line : Nat) (q : Parser α) : Loosens (rejectAt line .codeTooDeep) q :=
  fun _ => .tooDeep trivial

end Loosens

theorem reject_loosens (q : Parser α) : Loosens (reject .codeTooDeep) q :=
  fun _ => .tooDeep trivial

/-! ### Lists -/

theorem commaList_loosens {item item' : Parser α} (each : Loosens item item') (bound : Nat) :
    Loosens (commaList item bound) (commaList item' bound) := by
  induction bound with
  | zero => exact .refl _
  | succ bound ih =>
    refine .after fun closed => ?_
    split
    · exact .refl _
    · exact each.bind fun first => .after fun last => by
        split
        · exact ih.bind fun _ => .refl _
        · exact .after fun _ => ih.bind fun _ => .refl _

theorem closedList_loosens {item item' : Parser α} (each : Loosens item item') :
    Loosens (closedList item) (closedList item') :=
  .after fun _ => commaList_loosens each _

theorem statementsToBrace_loosens {statement statement' : Parser Stmt}
    (each : Loosens statement statement') (bound : Nat) :
    Loosens (statementsToBrace statement bound) (statementsToBrace statement' bound) := by
  induction bound with
  | zero => exact .refl _
  | succ bound ih =>
    refine .after fun next => ?_
    split
    · exact .refl _
    · exact .refl _
    · exact each.bind fun first => ih.bind fun _ => .refl _

theorem statementsToEnd_loosens {statement statement' : Parser Stmt}
    (each : Loosens statement statement') (bound : Nat) :
    Loosens (statementsToEnd statement bound) (statementsToEnd statement' bound) := by
  induction bound with
  | zero => exact .refl _
  | succ bound ih =>
    refine .after fun next => ?_
    split
    · exact .refl _
    · exact each.bind fun first => ih.bind fun _ => .refl _

theorem operatorChain_loosens {operand operand' : Parser Expr} (each : Loosens operand operand')
    (operator : Operator) {room room' : Nat} (le : room ≤ room') (left : Expr) :
    Loosens (operatorChain operator operand room left)
      (operatorChain operator operand' room' left) := by
  induction room generalizing room' left with
  | zero =>
    rw [operatorChain, operatorChain.eq_def _ operand']
    refine .after fun next => ?_
    split
    · split
      · exact .refl _
      · exact .after fun _ => reject_loosens _
    · exact .refl _
  | succ room ih =>
    obtain ⟨room', rfl⟩ := Nat.exists_eq_add_of_le' (Nat.le_of_add_left_le le)
    rw [operatorChain, operatorChain]
    refine .after fun next => ?_
    split
    · split
      · exact .refl _
      · exact .after fun _ => each.bind fun right => ih (by omega) _
    · exact .refl _

theorem joined_loosens {operand operand' : Parser Expr} (each : Loosens operand operand')
    {room room' : Nat} (le : room ≤ room') (operators : List Operator) :
    Loosens (joined room operand operators) (joined room' operand' operators) := by
  induction operators with
  | nil => exact each
  | cons operator stronger ih =>
    exact ih.bind fun left => operatorChain_loosens ih operator le left

/-! ### Phrases -/

/-- The second level does what the first does, unless that gives up because of its depth. -/
structure Level.Loosens (level level' : Level) : Prop where
  statement : ∀ around, Parsing.Loosens (level.statement around) (level'.statement around)
  assignment : ∀ around, Parsing.Loosens (level.assignment around) (level'.assignment around)
  operand : ∀ around, Parsing.Loosens (level.operand around) (level'.operand around)

section

variable {level level' : Level} (loosens : level.Loosens level') (around : Surroundings)

include loosens

theorem block_loosens : Loosens (block level around) (block level' around) :=
  .after fun _ => .after fun _ => statementsToBrace_loosens (loosens.statement around) _

theorem functionRest_loosens (mustBeNamed : Bool) (line : Nat) :
    Loosens (functionRest level mustBeNamed line) (functionRest level' mustBeNamed line) := by
  have finish (name : Option String) :
      Loosens (do
        let params ← parameters
        let body ← functionBlock level
        return Definition.mk name params (.block body) line) (do
        let params ← parameters
        let body ← functionBlock level'
        return Definition.mk name params (.block body) line) :=
    .after fun _ => (block_loosens loosens .function).bind fun _ => .refl _
  refine .after fun next => ?_
  dsimp only
  split
  · exact .after finish
  · split
    · exact .after finish
    · exact .after finish

theorem arrowBody_loosens (params : List String) (line : Nat) :
    Loosens (arrowBody level params line) (arrowBody level' params line) := by
  refine .after fun braced => ?_
  split
  · exact ((block_loosens loosens .function).map _).bind fun _ => .refl _
  · exact ((loosens.assignment .function).map _).bind fun _ => .refl _

theorem hole_loosens (line : Nat) (tokens : List Token) :
    Loosens (hole level around line tokens) (hole level' around line tokens) := by
  have reading := (loosens.assignment { around with inLoop := false }).bind
    fun e => Loosens.refl (do
      if (← peek).isSome then unexpected (Mark.rightBrace.shown ++ " in template literal")
      return e)
  exact (Loosens.lift (reading ⟨tokens, _⟩)).bind fun _ => .refl _

theorem templateParts_loosens (line : Nat) (chunks : List Chunk) :
    Loosens (templateParts level around line chunks) (templateParts level' around line chunks) := by
  induction chunks with
  | nil => exact .refl _
  | cons chunk rest ih =>
    cases chunk with
    | text content => exact ih.bind fun _ => .refl _
    | code tokens =>
      exact (hole_loosens loosens around line tokens).bind fun _ => ih.bind fun _ => .refl _

theorem primary_loosens : Loosens (primary level around) (primary level' around) := by
  refine .after fun line => .after fun next => ?_
  split
  · exact .refl _
  · exact .refl _
  · exact .after fun _ => (templateParts_loosens loosens around line _).bind fun _ => .refl _
  · exact .after fun _ => (loosens.assignment around).bind fun _ => .refl _
  · have function : Loosens (do skip; return Expr.function line (← functionRest level false line))
        (do skip; return Expr.function line (← functionRest level' false line)) :=
      .after fun _ => (functionRest_loosens loosens false line).bind fun _ => .refl _
    split_ifs <;> first | exact function | exact .refl _
  · exact .refl _

theorem postfixChain_loosens {room room' : Nat} (le : room ≤ room') (e : Expr) :
    Loosens (postfixChain level around room e) (postfixChain level' around room' e) := by
  induction room generalizing room' e with
  | zero =>
    rw [postfixChain, postfixChain.eq_def level']
    refine .after fun line => .after fun next => ?_
    split
    · exact .tooDeep line _
    · exact .tooDeep line _
    · exact .refl _
    · exact .refl _
    · exact .refl _
  | succ room ih =>
    obtain ⟨room', rfl⟩ := Nat.exists_eq_add_of_le' (Nat.le_of_add_left_le le)
    rw [postfixChain, postfixChain]
    refine .after fun line => .after fun next => ?_
    split
    · exact .after fun _ => (closedList_loosens (loosens.assignment around)).bind
        fun args => ih (by omega) _
    · refine .after fun _ => .after fun next => ?_
      split
      · exact .after fun _ => ih (by omega) _
      · exact .refl _
    · exact .refl _
    · exact .refl _
    · exact .refl _

variable {room room' : Nat} (le : room ≤ room')

include le

theorem prefixed_loosens : Loosens (prefixed level room around) (prefixed level' room' around) := by
  have applied (line : Nat) (op : UnaryOp) : Loosens (prefixed.applied level around line op)
      (prefixed.applied level' around line op) :=
    .after fun _ => (loosens.operand around).bind fun _ => .refl _
  have plain : Loosens (prefixed.plain level room around) (prefixed.plain level' room' around) :=
    (primary_loosens loosens around).bind fun e => postfixChain_loosens loosens around le e
  refine .after fun line => .after fun next => ?_
  split
  · exact applied line _
  · exact applied line _
  · exact applied line _
  · exact .refl _
  · exact .refl _
  · split
    · exact applied line _
    · exact plain
  · exact plain

theorem conditional_loosens :
    Loosens (conditional level room around) (conditional level' room' around) := by
  have operation : Loosens (operation level room around) (operation level' room' around) :=
    joined_loosens (prefixed_loosens loosens around le) le _
  refine operation.bind fun condition => .after fun chosen => ?_
  split
  · exact (loosens.assignment around).bind fun _ => .after fun _ =>
      (loosens.assignment around).bind fun _ => .refl _
  · exact .refl _

theorem assignment_loosens :
    Loosens (assignment level room around) (assignment level' room' around) := by
  have unassigned (line : Nat) : Loosens (assignment.unassigned level room around line)
      (assignment.unassigned level' room' around line) := by
    refine .after fun arrow => ?_
    split
    · exact .after fun params => .after fun _ => arrowBody_loosens loosens params line
    · exact (conditional_loosens loosens around le).bind fun _ => .refl _
  refine .after fun line => .after fun next => .after fun second => ?_
  split
  · exact .after fun param => .after fun _ => arrowBody_loosens loosens [param] line
  · split
    · split
      · exact .refl _
      · exact .after fun _ => .after fun _ => (loosens.assignment around).bind fun _ => .refl _
    · exact unassigned line
  · exact unassigned line

omit le

theorem declaration_loosens (word : Declarator) :
    Loosens (declaration level around word) (declaration level' around word) := by
  refine .after fun line => .after fun _ => .after fun name => .after fun given => ?_
  split
  · exact ((loosens.assignment around).map some).bind fun _ => .refl _
  · exact .refl _

theorem condition_loosens : Loosens (condition level around) (condition level' around) :=
  .after fun _ => (loosens.assignment around).bind fun _ => .refl _

theorem choice_loosens : Loosens (choice level around) (choice level' around) := by
  refine .after fun _ => (condition_loosens loosens around).bind fun condition =>
    (loosens.statement around).bind fun yes => .after fun next => ?_
  split
  · split
    · exact .after fun _ => (loosens.statement around).bind fun _ => .refl _
    · exact .refl _
  · exact .refl _

theorem whileLoop_loosens : Loosens (whileLoop level around) (whileLoop level' around) :=
  .after fun _ => (condition_loosens loosens around).bind fun _ =>
    (loosens.statement around.loop).bind fun _ => .refl _

theorem loopStart_loosens : Loosens (loopStart level around) (loopStart level' around) := by
  have expression : Loosens (loopStart.expression level around)
      (loopStart.expression level' around) :=
    (loosens.assignment around).bind fun _ => .refl _
  refine .after fun idle => ?_
  split
  · exact .refl _
  refine .after fun next => ?_
  split
  · split
    · exact (declaration_loosens loosens around _).map some
    · exact expression
  · exact expression

theorem optionalExpression_loosens (ending : Mark) :
    Loosens (optionalExpression level around ending)
      (optionalExpression level' around ending) := by
  refine .after fun none => ?_
  split
  · exact .refl _
  · exact (loosens.assignment around).map some

theorem forLoop_loosens : Loosens (forLoop level around) (forLoop level' around) :=
  .after fun _ => .after fun _ => (loopStart_loosens loosens around).bind fun _ =>
    (optionalExpression_loosens loosens around .semicolon).bind fun _ => .after fun _ =>
      (optionalExpression_loosens loosens around .rightParen).bind fun _ => .after fun _ =>
        (loosens.statement around.loop).bind fun _ => .refl _

theorem giveBack_loosens : Loosens (giveBack level around) (giveBack level' around) := by
  refine .after fun line => .after fun _ => ?_
  split
  · exact .refl _
  refine .after fun next => ?_
  split
  · exact .refl _
  · exact ((loosens.assignment around).map some).bind fun _ => .refl _

theorem unintroduced_loosens :
    Loosens (unintroduced level around) (unintroduced level' around) := by
  refine .after fun next => ?_
  split
  · exact (block_loosens loosens around).bind fun _ => .refl _
  · exact .refl _
  · exact (loosens.assignment around).bind fun _ => .refl _

theorem statement_loosens : Loosens (statement level around) (statement level' around) := by
  have unintroduced := unintroduced_loosens loosens around
  refine .after fun next => ?_
  split
  · split
    · exact declaration_loosens loosens around _
    split_ifs
    · refine .after fun second => ?_
      split
      · exact .after fun line => .after fun _ =>
          (functionRest_loosens loosens true line).bind fun _ => .refl _
      · exact unintroduced
    · exact choice_loosens loosens around
    · exact whileLoop_loosens loosens around
    · exact forLoop_loosens loosens around
    · exact giveBack_loosens loosens around
    · exact .refl _
    · exact .refl _
    · exact unintroduced
  · exact unintroduced

end

theorem levels_loosens {n m : Nat} (le : n ≤ m) : (levels n).Loosens (levels m) := by
  induction n generalizing m with
  | zero => exact ⟨fun _ => reject_loosens _, fun _ => reject_loosens _, fun _ => reject_loosens _⟩
  | succ n ih =>
    obtain ⟨m, rfl⟩ := Nat.exists_eq_add_of_le' (Nat.le_of_add_left_le le)
    have deeper := ih (Nat.le_of_succ_le_succ le)
    have room := Nat.le_of_succ_le_succ le
    exact ⟨statement_loosens deeper, fun around => assignment_loosens deeper around room,
      fun around => prefixed_loosens deeper around room⟩

theorem script_loosens {n m : Nat} (le : n ≤ m) :
    Loosens (Parsing.script n) (Parsing.script m) :=
  .after fun _ => statementsToEnd_loosens ((levels_loosens le).statement ⟨false, false⟩) _

end Parsing

theorem parse_loosened {n m : Nat} (le : n ≤ m) (source : String) :
    Loosened (parse n source) (parse m source) :=
  (tokenize_loosened le source).bind fun tokens => (Parsing.script_loosens le tokens).map Prod.fst

/-- What is not rejected because of how deeply it is nested is read, or rejected, in the same way
where it may be nested more deeply. -/
theorem parse_of_le {n m : Nat} (le : n ≤ m) (source : String)
    (settled : ∀ e, parse n source = .error e → ¬ e.IsTooDeep) :
    parse m source = parse n source := by
  rcases parse_loosened le source with same | ⟨e, failed, deep⟩
  · exact same.symm
  · exact absurd deep (settled e failed)

theorem parse_of_le_hole :
    4 ≤ 64 ∧ (∀ e, parse 4 "f(`a$\x7bb\x7d`)" = .error e → ¬ e.IsTooDeep) ∧
      parse 64 "f(`a$\x7bb\x7d`)" = parse 4 "f(`a$\x7bb\x7d`)" := by
  have accepted : (parse 4 "f(`a$\x7bb\x7d`)").isOk = true := by decide +kernel
  have settled : ∀ e, parse 4 "f(`a$\x7bb\x7d`)" = .error e → ¬ e.IsTooDeep := by
    intro e failed
    rw [failed] at accepted
    cases accepted
  exact ⟨by decide, settled, parse_of_le (by decide) _ settled⟩

end EventLoop
