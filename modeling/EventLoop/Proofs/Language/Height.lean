import Mathlib.Data.Nat.Choose.Basic
import Mathlib.Tactic.SplitIfs
import EventLoop.Proofs.Language.Accepted

/-!
# How high accepted trees are

The bound on nesting limits how many levels a parser goes down and, on each level, the length of
each chain of operators or of calls and properties. One chain is the operand of the next, so the
chains of a level add to one another, and those of one level to those of the next. The height of a
tree is bounded by the square of the bound, and not by a multiple of it.
-/

namespace EventLoop

/-! ## Height -/

mutual

/-- The expressions and statements on the longest way down from an expression. -/
def Expr.height : Expr → Nat
  | .number .. | .text .. | .bool .. | .null _ | .undefined _ | .name .. | .update .. => 1
  | .template _ parts => Part.heights parts + 1
  | .assign _ _ _ e | .unary _ _ e | .member _ e _ => e.height + 1
  | .binary _ _ left right | .logical _ _ left right => max left.height right.height + 1
  | .conditional _ condition yes no => max condition.height (max yes.height no.height) + 1
  | .call _ callee args => max callee.height (Expr.heights args) + 1
  | .function _ definition => definition.height + 1

/-- The greatest height of some expressions. -/
def Expr.heights : List Expr → Nat
  | [] => 0
  | e :: rest => max e.height (Expr.heights rest)

def Expr.height? : Option Expr → Nat
  | none => 0
  | some e => e.height

def Part.heights : List Part → Nat
  | [] => 0
  | .text _ :: rest => Part.heights rest
  | .value e :: rest => max e.height (Part.heights rest)

/-- The height of what a function does. -/
def Definition.height : Definition → Nat
  | .mk _ _ (.block statements) _ => Stmt.heights statements
  | .mk _ _ (.value e) _ => e.height

def Stmt.height : Stmt → Nat
  | .breakLoop | .continueLoop | .empty => 1
  | .declare _ _ _ e | .giveBack e => Expr.height? e + 1
  | .define definition => definition.height + 1
  | .choose condition yes no => max condition.height (max yes.height (Stmt.height? no)) + 1
  | .whileLoop condition body => max condition.height body.height + 1
  | .forLoop init condition update body =>
    max (max (Stmt.height? init) (Expr.height? condition))
      (max (Expr.height? update) body.height) + 1
  | .block statements => Stmt.heights statements + 1
  | .evaluate e => e.height + 1

def Stmt.height? : Option Stmt → Nat
  | none => 0
  | some s => s.height

def Stmt.heights : List Stmt → Nat
  | [] => 0
  | s :: rest => max s.height (Stmt.heights rest)

end

/-- The greatest height of the statements of a script. -/
def Script.height (script : Script) : Nat :=
  Stmt.heights script

theorem Expr.height_pos (e : Expr) : 0 < e.height := by
  cases e <;> simp [Expr.height]

theorem Stmt.height_pos (s : Stmt) : 0 < s.height := by
  cases s <;> simp [Stmt.height]

theorem Expr.heights_le {es : List Expr} {n : Nat} (each : ∀ e ∈ es, e.height ≤ n) :
    Expr.heights es ≤ n := by
  induction es with
  | nil => simp [Expr.heights]
  | cons e es ih =>
    rw [List.forall_mem_cons] at each
    exact max_le each.1 (ih each.2)

namespace Parsing

variable {α β : Type}

/-- Whatever the parser makes of its tokens, if it accepts them, has the property. -/
def Yields (p : Parser α) (holds : α → Prop) : Prop :=
  ∀ tokens a rest, p.run tokens = .ok (a, rest) → holds a

namespace Yields

variable {p : Parser α} {holds : α → Prop} {holds' : β → Prop}

theorem pure {a : α} (h : holds a) : Yields (Pure.pure a) holds := by
  intro tokens a' rest run
  cases run
  exact h

theorem bind {f : α → Parser β} (first : Yields p holds)
    (second : ∀ a, holds a → Yields (f a) holds') : Yields (p >>= f) holds' := by
  intro tokens b rest run
  rw [StateT.run_bind] at run
  cases taken : p.run tokens with
  | error e =>
    rw [taken] at run
    cases run
  | ok found =>
    rw [taken] at run
    exact second found.1 (first tokens found.1 found.2 taken) found.2 b rest run

/-- Whatever comes first. -/
theorem after {f : α → Parser β} (second : ∀ a, Yields (f a) holds') : Yields (p >>= f) holds' :=
  have anything : Yields p fun _ => True := fun _ _ _ _ => trivial
  anything.bind fun a _ => second a

theorem map {f : α → β} (first : Yields p holds) (second : ∀ a, holds a → holds' (f a)) :
    Yields (f <$> p) holds' := by
  rw [map_eq_pure_bind]
  exact first.bind fun a h => .pure (second a h)

theorem mono (h : Yields p holds) {weaker : α → Prop} (implies : ∀ a, holds a → weaker a) :
    Yields p weaker :=
  fun tokens a rest run => implies a (h tokens a rest run)

/-- Reading other tokens in between. -/
theorem aside (h : Yields p holds) (tokens : Tokens) :
    Yields (liftM (p.run tokens) : Parser (α × Tokens)) fun found => holds found.1 := by
  intro here found rest run
  cases taken : p.run tokens with
  | error e =>
    rw [taken] at run
    cases run
  | ok result =>
    rw [taken] at run
    cases run
    exact h tokens found.1 found.2 taken

theorem rejectAt (line : Nat) (fault : SyntaxFault) : Yields (rejectAt line fault) holds := by
  intro tokens a rest run
  cases run

theorem rejectAt_bind (line : Nat) (fault : SyntaxFault) (f : β → Parser α) :
    Yields (Parsing.rejectAt line fault >>= f) holds := by
  intro tokens a rest run
  cases run

theorem reject (fault : SyntaxFault) : Yields (reject fault) holds :=
  after fun line => rejectAt line fault

theorem unexpected (wanted : String) : Yields (unexpected wanted) holds :=
  after fun _ => reject _

end Yields

/-! ## Lists -/

theorem commaList_yields {item : Parser α} {holds : α → Prop} (each : Yields item holds)
    (bound : Nat) : Yields (commaList item bound) fun items => ∀ a ∈ items, holds a := by
  induction bound with
  | zero => exact .pure (List.forall_mem_nil _)
  | succ bound ih =>
    apply Yields.after
    intro closed
    split
    · exact .pure (List.forall_mem_nil _)
    refine each.bind ?_
    intro first h
    have rest : Yields (do return first :: (← commaList item bound))
        fun items => ∀ a ∈ items, holds a :=
      ih.bind fun items others => .pure (List.forall_mem_cons.mpr ⟨h, others⟩)
    apply Yields.after
    intro last
    split
    · exact rest
    · exact .after fun _ => rest

theorem closedList_yields {item : Parser α} {holds : α → Prop} (each : Yields item holds) :
    Yields (closedList item) fun items => ∀ a ∈ items, holds a :=
  .after fun _ => commaList_yields each _

variable {statement : Parser Stmt} {n : Nat}

theorem statementsToBrace_height (each : Yields statement (·.height ≤ n)) (bound : Nat) :
    Yields (statementsToBrace statement bound) (Stmt.heights · ≤ n) := by
  induction bound with
  | zero => exact .pure (Nat.zero_le n)
  | succ bound ih =>
    apply Yields.after
    intro next
    split
    · exact .after fun _ => .pure (Nat.zero_le n)
    · exact .unexpected _
    · exact each.bind fun first low => ih.bind fun rest others => .pure (max_le low others)

theorem statementsToEnd_height (each : Yields statement (·.height ≤ n)) (bound : Nat) :
    Yields (statementsToEnd statement bound) (Stmt.heights · ≤ n) := by
  induction bound with
  | zero => exact .pure (Nat.zero_le n)
  | succ bound ih =>
    apply Yields.after
    intro next
    split
    · exact .pure (Nat.zero_le n)
    · exact each.bind fun first low => ih.bind fun rest others => .pure (max_le low others)

/-! ## Chains of operators -/

/-- What an operator makes of its sides is one higher than the higher of them. -/
theorem Operator.Combines.height {operator : Operator} (combines : operator.Combines) {m : Mark}
    {combine : Expr → Expr → Expr} (found : operator m = some combine) (left right : Expr) :
    (combine left right).height = max left.height right.height + 1 := by
  rcases combines m combine found with ⟨op, rfl⟩ | ⟨op, rfl⟩ <;> simp only [Expr.height]

/-- Each link of a chain makes the tree one higher. -/
theorem operatorChain_height {operator : Operator} {operand : Parser Expr}
    (combines : operator.Combines) (each : Yields operand (·.height ≤ n)) (room : Nat) {left : Expr}
    {most : Nat} (low : left.height ≤ most) (enough : n ≤ most) :
    Yields (operatorChain operator operand room left) (·.height ≤ most + room) := by
  induction room generalizing left most with
  | zero =>
    rw [operatorChain]
    apply Yields.after
    intro next
    split
    · split
      · exact .pure low
      · exact .after fun _ => .reject _
    · exact .pure low
  | succ room ih =>
    rw [operatorChain]
    apply Yields.after
    intro next
    split
    · split
      · exact .pure (by omega)
      · rename_i combine found
        apply Yields.after
        intro _
        refine each.bind ?_
        intro right low'
        have higher := combines.height found left right
        have more : most + 1 + room = most + (room + 1) := by omega
        rw [← more]
        exact ih (by omega) (by omega)
    · exact .pure (by omega)

theorem joined_height {operand : Parser Expr} (each : Yields operand (·.height ≤ n)) (room : Nat)
    {operators : List Operator} (combine : ∀ operator ∈ operators, operator.Combines) :
    Yields (joined room operand operators) (·.height ≤ n + operators.length * room) := by
  induction operators with
  | nil => simpa [joined] using each
  | cons operator stronger ih =>
    rw [List.forall_mem_cons] at combine
    have first := ih combine.2
    have more : n + (stronger.length + 1) * room = n + stronger.length * room + room := by
      rw [Nat.add_mul, Nat.one_mul, Nat.add_assoc]
    rw [List.length_cons, more]
    exact first.bind fun left low => operatorChain_height combine.1 first room low le_rfl

/-! ## Phrases -/

/-- The expressions and the statements of a level are at most so high. -/
structure Level.Bounded (level : Level) (e s : Nat) : Prop where
  statement : ∀ around, Yields (level.statement around) (·.height ≤ s)
  assignment : ∀ around, Yields (level.assignment around) (·.height ≤ e)
  operand : ∀ around, Yields (level.operand around) (·.height ≤ e)

section

variable {level : Level} {e s : Nat} (bounded : level.Bounded e s) (around : Surroundings)

include bounded

theorem block_height : Yields (block level around) (Stmt.heights · ≤ s) :=
  .after fun _ => .after fun _ => statementsToBrace_height (bounded.statement around) _

theorem functionRest_height (mustBeNamed : Bool) (line : Nat) :
    Yields (functionRest level mustBeNamed line) (·.height ≤ s) := by
  have finish (name : Option String) : Yields (do
      let params ← parameters
      let body ← functionBlock level
      return Definition.mk name params (.block body) line) (·.height ≤ s) :=
    .after fun _ => (block_height bounded .function).bind fun _ low => .pure low
  apply Yields.after
  intro next
  dsimp only
  split
  · exact .after finish
  · split
    · exact .after finish
    · exact .after finish

theorem arrowBody_height (params : List String) (line : Nat) :
    Yields (arrowBody level params line) (·.height ≤ max e s + 1) := by
  apply Yields.after
  intro braced
  split
  · rw [map_eq_pure_bind, bind_assoc]
    refine (block_height bounded .function).bind ?_
    intro body low
    apply Yields.pure
    simp only [Expr.height, Definition.height]
    omega
  · rw [map_eq_pure_bind, bind_assoc]
    refine (bounded.assignment .function).bind ?_
    intro value low
    apply Yields.pure
    simp only [Expr.height, Definition.height]
    omega

theorem hole_height (line : Nat) (tokens : List Token) :
    Yields (hole level around line tokens) fun part => Part.heights [part] ≤ e := by
  have reading : Yields (do
      let e ← level.assignment { around with inLoop := false }
      if (← peek).isSome then unexpected (Mark.rightBrace.shown ++ " in template literal")
      return e) (·.height ≤ e) := by
    refine (bounded.assignment _).bind ?_
    intro value low
    apply Yields.after
    intro next
    split
    · exact .after fun _ => .pure low
    · exact .pure low
  refine (reading.aside _).bind ?_
  intro found low
  apply Yields.pure
  simpa [Part.heights] using low

theorem templateParts_height (line : Nat) (chunks : List Chunk) :
    Yields (templateParts level around line chunks) (Part.heights · ≤ e) := by
  induction chunks with
  | nil => exact .pure (Nat.zero_le e)
  | cons chunk rest ih =>
    cases chunk with
    | text content => exact ih.bind fun _ others => .pure others
    | code tokens =>
      refine (hole_height bounded around line tokens).bind ?_
      intro part low
      refine ih.bind ?_
      intro parts others
      apply Yields.pure
      cases part with
      | text content => exact others
      | value value =>
        simp only [Part.heights] at low ⊢
        omega

theorem primary_height : Yields (primary level around) (·.height ≤ max e s + 1) := by
  have single {x : Expr} (one : x.height = 1) : Yields (do skip; return x)
      (·.height ≤ max e s + 1) :=
    .after fun _ => .pure (by omega)
  apply Yields.after
  intro line
  apply Yields.after
  intro next
  split
  · exact single rfl
  · exact single rfl
  · apply Yields.after
    intro _
    refine (templateParts_height bounded around line _).bind ?_
    intro parts low
    apply Yields.pure
    simp only [Expr.height]
    omega
  · apply Yields.after
    intro _
    refine (bounded.assignment around).bind ?_
    intro inner low
    exact .after fun _ => .pure (by omega)
  · have function : Yields (do skip; return Expr.function line (← functionRest level false line))
        (·.height ≤ max e s + 1) := by
      apply Yields.after
      intro _
      refine (functionRest_height bounded false line).bind ?_
      intro definition low
      apply Yields.pure
      simp only [Expr.height]
      omega
    split_ifs <;>
      first | exact single rfl | exact function | exact .unexpected _ | exact .reject _
  · exact .unexpected _

omit bounded in
theorem countedAfter_height {x : Expr} {most : Nat} (low : x.height ≤ most) (count : Count)
    (line : Nat) : Yields (countedAfter x count line) (·.height ≤ most) := by
  cases x with
  | name start target => exact .after fun _ => .pure low
  | _ => exact .rejectAt _ _

/-- Each call and each property makes the tree one higher. -/
theorem postfixChain_height (room : Nat) {x : Expr} {most : Nat} (low : x.height ≤ most)
    (enough : e ≤ most) :
    Yields (postfixChain level around room x) (·.height ≤ most + room) := by
  induction room generalizing x most with
  | zero =>
    rw [postfixChain]
    apply Yields.after
    intro line
    apply Yields.after
    intro next
    split
    · exact .rejectAt _ _
    · exact .rejectAt _ _
    · exact countedAfter_height low _ _
    · exact countedAfter_height low _ _
    · exact .pure low
  | succ room ih =>
    have more : most + 1 + room = most + (room + 1) := by omega
    rw [postfixChain, ← more]
    apply Yields.after
    intro line
    apply Yields.after
    intro next
    split
    · apply Yields.after
      intro _
      refine (closedList_yields (bounded.assignment around)).bind ?_
      intro args each
      have inside := Expr.heights_le each
      refine ih ?_ (by omega)
      simp only [Expr.height]
      omega
    · apply Yields.after
      intro _
      apply Yields.after
      intro property
      split
      · apply Yields.after
        intro _
        refine ih ?_ (by omega)
        simp only [Expr.height]
        omega
      · exact .unexpected _
    · exact countedAfter_height (by omega) _ _
    · exact countedAfter_height (by omega) _ _
    · exact .pure (by omega)

theorem prefixed_height (room : Nat) :
    Yields (prefixed level room around) (·.height ≤ max e s + 1 + room) := by
  have applied (line : Nat) (op : UnaryOp) :
      Yields (prefixed.applied level around line op) (·.height ≤ max e s + 1 + room) := by
    apply Yields.after
    intro _
    refine (bounded.operand around).bind ?_
    intro x low
    apply Yields.pure
    simp only [Expr.height]
    omega
  have counted (line : Nat) (count : Count) :
      Yields (prefixed.counted line count) (·.height ≤ max e s + 1 + room) :=
    .after fun _ => .after fun _ => .pure (by simp only [Expr.height]; omega)
  have plain : Yields (prefixed.plain level room around) (·.height ≤ max e s + 1 + room) :=
    (primary_height bounded around).bind fun x low =>
      postfixChain_height bounded around room low (by omega)
  apply Yields.after
  intro line
  apply Yields.after
  intro next
  split
  · exact applied line _
  · exact applied line _
  · exact applied line _
  · exact counted line _
  · exact counted line _
  · split
    · exact applied line _
    · exact plain
  · exact plain

theorem operation_height (room : Nat) :
    Yields (operation level room around) (·.height ≤ max e s + 1 + 7 * room) := by
  have six := joined_height (prefixed_height bounded around room) room
    fun operator listed => operators_combine listed
  have all : max e s + 1 + room + 6 * room = max e s + 1 + 7 * room := by omega
  rw [← all]
  exact six

/-- The sides of a choice need a level below this one. -/
theorem conditional_height (room : Nat) :
    Yields (conditional level room around) (·.height ≤ max e s + 1 + 7 * room + min e 1) := by
  refine (operation_height bounded around room).bind ?_
  intro condition low
  apply Yields.after
  intro chosen
  split
  · refine (bounded.assignment around).bind ?_
    intro yes low₁
    apply Yields.after
    intro _
    refine (bounded.assignment around).bind ?_
    intro no low₂
    apply Yields.pure
    have positive := yes.height_pos
    simp only [Expr.height]
    omega
  · exact .pure (by omega)

theorem assignment_height (room : Nat) :
    Yields (assignment level room around) (·.height ≤ max e s + 1 + 7 * room + min e 1) := by
  have arrow (params : List String) (line : Nat) : Yields (arrowBody level params line)
      (·.height ≤ max e s + 1 + 7 * room + min e 1) :=
    (arrowBody_height bounded params line).mono fun _ low => by omega
  have unassigned (line : Nat) : Yields (assignment.unassigned level room around line)
      (·.height ≤ max e s + 1 + 7 * room + min e 1) := by
    apply Yields.after
    intro seen
    split
    · exact .after fun params => .after fun _ => arrow params line
    · refine (conditional_height bounded around room).bind ?_
      intro x low
      apply Yields.after
      intro next
      split
      · exact .rejectAt_bind _ _ _
      · exact .pure low
  apply Yields.after
  intro line
  apply Yields.after
  intro next
  apply Yields.after
  intro second
  split
  · exact .after fun param => .after fun _ => arrow [param] line
  · split
    · have assigned (op : AssignOp) (target : String) : Yields (do
          skip
          skip
          return Expr.assign line op target (← level.assignment around))
          (·.height ≤ max e s + 1 + 7 * room + min e 1) := by
        apply Yields.after
        intro _
        apply Yields.after
        intro _
        refine (bounded.assignment around).bind ?_
        intro x low
        apply Yields.pure
        simp only [Expr.height]
        omega
      split
      · exact .rejectAt_bind _ _ _
      · exact assigned _ _
    · exact unassigned line
  · exact unassigned line

theorem declaration_height (word : Declarator) :
    Yields (declaration level around word) (·.height ≤ e + 1) := by
  apply Yields.after
  intro line
  apply Yields.after
  intro _
  apply Yields.after
  intro name
  have finish (init : Option Expr) (low : Expr.height? init ≤ e) : Yields (do
      if word = .constWord ∧ init.isNone then rejectAt line .missingInitializer
      if ← sees .comma then rejectAt line .severalVariables
      terminator
      return Stmt.declare line word name init) (·.height ≤ e + 1) := by
    split
    · exact .rejectAt_bind _ _ _
    apply Yields.after
    intro several
    split
    · exact .rejectAt_bind _ _ _
    · exact .after fun _ => .pure (by simp only [Stmt.height]; omega)
  have missing : Yields (pure none) (Expr.height? · ≤ e) := .pure (Nat.zero_le e)
  apply Yields.after
  intro given
  split
  · exact ((bounded.assignment around).map fun _ low => low).bind finish
  · exact missing.bind finish

theorem condition_height : Yields (condition level around) (·.height ≤ e) :=
  .after fun _ => (bounded.assignment around).bind fun _ low => .after fun _ => .pure low

theorem choice_height : Yields (choice level around) (·.height ≤ max e s + 1) := by
  apply Yields.after
  intro _
  refine (condition_height bounded around).bind ?_
  intro condition low
  refine (bounded.statement around).bind ?_
  intro yes low₁
  have short : Yields (pure (Stmt.choose condition yes none)) (·.height ≤ max e s + 1) :=
    .pure (by simp only [Stmt.height, Stmt.height?]; omega)
  apply Yields.after
  intro next
  split
  · split
    · apply Yields.after
      intro _
      refine (bounded.statement around).bind ?_
      intro no low₂
      apply Yields.pure
      simp only [Stmt.height, Stmt.height?]
      omega
    · exact short
  · exact short

theorem whileLoop_height : Yields (whileLoop level around) (·.height ≤ max e s + 1) := by
  apply Yields.after
  intro _
  refine (condition_height bounded around).bind ?_
  intro condition low
  refine (bounded.statement around.loop).bind ?_
  intro body low₁
  apply Yields.pure
  simp only [Stmt.height]
  omega

theorem loopStart_height : Yields (loopStart level around) (Stmt.height? · ≤ e + 1) := by
  have expression : Yields (loopStart.expression level around) (Stmt.height? · ≤ e + 1) :=
    (bounded.assignment around).bind fun x low => .after fun _ =>
      .pure (by simp only [Stmt.height?, Stmt.height]; omega)
  apply Yields.after
  intro idle
  split
  · exact .pure (Nat.zero_le _)
  apply Yields.after
  intro next
  split
  · split
    · exact (declaration_height bounded around _).map fun _ low => low
    · exact expression
  · exact expression

theorem optionalExpression_height (ending : Mark) :
    Yields (optionalExpression level around ending) (Expr.height? · ≤ e) := by
  apply Yields.after
  intro missing
  split
  · exact .pure (Nat.zero_le e)
  · exact (bounded.assignment around).map fun _ low => low

/-- What the header of a loop declares or does first is a statement in a statement. Without a level
below this one for the expressions in it, there is none for the body either. -/
theorem forLoop_height :
    Yields (forLoop level around) (·.height ≤ max (e + 1 + min e 1) (s + 1)) := by
  apply Yields.after
  intro _
  apply Yields.after
  intro _
  refine (loopStart_height bounded around).bind ?_
  intro init low
  refine (optionalExpression_height bounded around .semicolon).bind ?_
  intro condition low₁
  apply Yields.after
  intro _
  refine (optionalExpression_height bounded around .rightParen).bind ?_
  intro update low₂
  apply Yields.after
  intro _
  refine (bounded.statement around.loop).bind ?_
  intro body low₃
  apply Yields.pure
  have positive := body.height_pos
  simp only [Stmt.height]
  omega

theorem giveBack_height : Yields (giveBack level around) (·.height ≤ e + 1) := by
  apply Yields.after
  intro line
  apply Yields.after
  intro _
  have finish (value : Option Expr) (low : Expr.height? value ≤ e) : Yields (do
      terminator
      return Stmt.giveBack value) (·.height ≤ e + 1) :=
    .after fun _ => .pure (by simp only [Stmt.height]; omega)
  split
  · exact .rejectAt_bind _ _ _
  have missing : Yields (pure none) (Expr.height? · ≤ e) := .pure (Nat.zero_le e)
  apply Yields.after
  intro next
  split
  · exact missing.bind finish
  · exact ((bounded.assignment around).map fun _ low => low).bind finish

omit bounded in
theorem jump_height (word : String) (statement : Stmt) :
    Yields (jump around word statement) (· = statement) := by
  apply Yields.after
  intro line
  apply Yields.after
  intro _
  split
  · exact .rejectAt_bind _ _ _
  · exact .after fun _ => .pure rfl

theorem unintroduced_height :
    Yields (unintroduced level around) (·.height ≤ max e s + 1) := by
  apply Yields.after
  intro next
  split
  · refine (block_height bounded around).bind ?_
    intro statements low
    apply Yields.pure
    simp only [Stmt.height]
    omega
  · exact .after fun _ => .pure (by simp only [Stmt.height]; omega)
  · refine (bounded.assignment around).bind ?_
    intro x low
    exact .after fun _ => .pure (by simp only [Stmt.height]; omega)

theorem statement_height :
    Yields (Parsing.statement level around) (·.height ≤ max (e + 1 + min e 1) (s + 1)) := by
  have unintroduced : Yields (unintroduced level around)
      (·.height ≤ max (e + 1 + min e 1) (s + 1)) :=
    (unintroduced_height bounded around).mono fun _ low => by omega
  have jump (word : String) {statement : Stmt} (one : statement.height = 1) :
      Yields (jump around word statement) (·.height ≤ max (e + 1 + min e 1) (s + 1)) :=
    (jump_height around word statement).mono fun _ same => by rw [same, one]; omega
  apply Yields.after
  intro next
  split
  · split
    · exact (declaration_height bounded around _).mono fun _ low => by omega
    split_ifs
    · apply Yields.after
      intro second
      split
      · apply Yields.after
        intro line
        apply Yields.after
        intro _
        refine (functionRest_height bounded true line).bind ?_
        intro definition low
        apply Yields.pure
        simp only [Stmt.height]
        omega
      · exact unintroduced
    · exact (choice_height bounded around).mono fun _ low => by omega
    · exact (whileLoop_height bounded around).mono fun _ low => by omega
    · exact forLoop_height bounded around
    · exact (giveBack_height bounded around).mono fun _ low => by omega
    · exact jump _ rfl
    · exact jump _ rfl
    · exact unintroduced
  · exact unintroduced

end

/-- With no room there is nothing at all. -/
theorem levels_zero_bounded : (levels 0).Bounded 0 0 :=
  ⟨fun _ => .reject _, fun _ => .reject _, fun _ => .reject _⟩

theorem Level.Bounded.next {room e s : Nat} (bounded : (levels room).Bounded e s) :
    (levels (room + 1)).Bounded (max e s + 1 + 7 * room + min e 1)
      (max (e + 1 + min e 1) (s + 1)) where
  statement around := statement_height bounded around
  assignment around := assignment_height bounded around room
  operand around := (prefixed_height bounded around room).mono fun _ low => by omega

theorem levels_bounded (room : Nat) :
    (levels (room + 1)).Bounded (2 * room + 1 + 7 * (room + 1).choose 2)
      (2 * room + 1 + 7 * room.choose 2) := by
  induction room with
  | zero => exact levels_zero_bounded.next
  | succ room ih =>
    have first : (room + 1).choose 2 = room + room.choose 2 := by
      rw [Nat.choose_succ_succ' room 1, Nat.choose_one_right]
    have second : (room + 2).choose 2 = room + 1 + (room + 1).choose 2 := by
      rw [Nat.choose_succ_succ' (room + 1) 1, Nat.choose_one_right]
    have next := ih.next
    have expressions : max (2 * room + 1 + 7 * (room + 1).choose 2)
        (2 * room + 1 + 7 * room.choose 2) + 1 + 7 * (room + 1) +
          min (2 * room + 1 + 7 * (room + 1).choose 2) 1 =
        2 * (room + 1) + 1 + 7 * (room + 2).choose 2 := by omega
    have statements : max (2 * room + 1 + 7 * (room + 1).choose 2 + 1 +
        min (2 * room + 1 + 7 * (room + 1).choose 2) 1) (2 * room + 1 + 7 * room.choose 2 + 1) =
        2 * (room + 1) + 1 + 7 * (room + 1).choose 2 := by omega
    rw [expressions, statements] at next
    exact next

theorem script_height (maxNesting : Nat) :
    Yields (script maxNesting)
      (Script.height · ≤ 2 * maxNesting - 1 + 7 * (maxNesting - 1).choose 2) := by
  apply Yields.after
  intro tokens
  cases maxNesting with
  | zero => exact statementsToEnd_height (levels_zero_bounded.statement _) _
  | succ room => exact statementsToEnd_height ((levels_bounded room).statement _) _

end Parsing

/-- A script that is accepted is at most this high: twice the bound on nesting, and seven times the
pairs of levels below the first, since on each level the six chains of operators and the one of
calls and properties may be as long as the levels below are many. -/
theorem parse_height {maxNesting : Nat} {source : String} {script : Script}
    (accepted : parse maxNesting source = .ok script) :
    script.height ≤ 2 * maxNesting - 1 + 7 * (maxNesting - 1).choose 2 := by
  unfold parse at accepted
  cases lexed : tokenize maxNesting source with
  | error e =>
    rw [lexed] at accepted
    cases accepted
  | ok tokens =>
    rw [lexed] at accepted
    have accepted : ((Parsing.script maxNesting).run tokens).map Prod.fst = .ok script := accepted
    cases run : (Parsing.script maxNesting).run tokens with
    | error e =>
      rw [run] at accepted
      cases accepted
    | ok found =>
      rw [run] at accepted
      cases accepted
      exact Parsing.script_height maxNesting tokens found.1 found.2 run

theorem parse_height_sum :
    ∃ script, parse 3 "a + a;" = .ok script ∧ script.height ≤ 2 * 3 - 1 + 7 * (3 - 1).choose 2 := by
  have accepted : (parse 3 "a + a;").isOk = true := by decide +kernel
  cases read : parse 3 "a + a;" with
  | error e =>
    rw [read] at accepted
    cases accepted
  | ok script => exact ⟨script, rfl, parse_height read⟩

/-- Five chains of one link each make a tree more than twice as high as the bound on nesting. -/
theorem parse_higher_than_twice :
    ∃ script, parse 3 "a() * b + b < b == b" = .ok script ∧ 2 * 3 < script.height := by
  have height : (parse 3 "a() * b + b < b == b").toOption.map Script.height = some 7 := by
    decide +kernel
  cases read : parse 3 "a() * b + b < b == b" with
  | error e =>
    rw [read] at height
    cases height
  | ok script =>
    rw [read] at height
    have seven : script.height = 7 := Option.some.inj height
    exact ⟨script, rfl, by omega⟩

/-- All seven chains, with a template at the bottom and a header of a loop on top: the bound is
attained. -/
example : (parse 3 "for (let x = `$\x7bx\x7d`.a * b + b < b == b && b || b ? b : b;;);").toOption.map
    Script.height = some (2 * 3 - 1 + 7 * (3 - 1).choose 2) := by
  decide +kernel

end EventLoop
