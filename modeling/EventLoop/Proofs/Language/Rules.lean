import Mathlib.Order.SetNotation
import EventLoop.Proofs.Language.Printing

/-!
# Rules that accepted scripts comply with

Names are none of the words that the language keeps, but for the targets of assignments. Returns and
jumps stand where they can be taken. All lines in a tree are lines of its text. A tree that complies
with rules complies with all that follows from them at each of its nodes.
-/

namespace EventLoop

open Parsing (Surroundings)

/-- Does the language leave the word for names? -/
def IsFree (word : String) : Prop :=
  word ∉ reservedWords ∧ word ∉ unsupportedWords

instance (word : String) : Decidable (IsFree word) :=
  inferInstanceAs (Decidable (_ ∧ _))

namespace Rules

/-- The names that are looked up, declared or counted, and those of functions and parameters, are
free; of those that are assigned to, something else may hold. -/
def named (target : String → Prop) : Rules where
  expr
    | _, .name _ word => IsFree word
    | _, .assign _ _ word _ => target word
    | _, .update _ _ _ word => IsFree word
    | _, _ => True
  definition _ definition :=
    (∀ name ∈ definition.name, IsFree name) ∧ ∀ param ∈ definition.params, IsFree param
  stmt
    | _, .declare _ _ name _ => IsFree name
    | _, _ => True

/-- Values are returned inside functions, and jumps lead out of loops of the same function. -/
def placed : Rules where
  expr _ _ := True
  definition _ _ := True
  stmt
    | around, .giveBack _ => around.inFunction
    | around, .breakLoop => around.inLoop
    | around, .continueLoop => around.inLoop
    | _, _ => True

/-- All lines in the tree are among these. -/
def onLines (lines : Set Nat) : Rules where
  expr _ e := e.line ∈ lines
  definition _ definition := definition.line ∈ lines
  stmt
    | _, .declare line _ _ _ => line ∈ lines
    | _, _ => True

/-- All three. -/
def accepted (lines : Set Nat) : Rules :=
  (named (· ∉ reservedWords)).and (placed.and (onLines lines))

/-- Those for accepted scripts; and the names of functions are words. -/
def spelled (lines : Set Nat) : Rules :=
  { accepted lines with
    definition := fun declared definition =>
      (accepted lines).definition declared definition ∧ ∀ name ∈ definition.name, isWord name }

/-- In trees that comply with the first rules, each node complies with the second. -/
structure Implies (strong weak : Rules) : Prop where
  expr : ∀ {inHole} {e : Expr}, e.Meets strong inHole → weak.expr inHole e
  definition : ∀ {inHole declared} {d : Definition},
    d.Meets strong inHole declared → weak.definition declared d
  stmt : ∀ {inHole around} {s : Stmt}, s.Meets strong inHole around → weak.stmt around s

end Rules

section

variable {strong weak : Rules} (implies : strong.Implies weak)

set_option linter.unusedSectionVars false

include implies

mutual

/-- A tree that complies with rules complies with weaker ones. -/
theorem Expr.Meets.mono {inHole : Bool} :
    (e : Expr) → e.Meets strong inHole → e.Meets weak inHole
  | .number .., meets | .text .., meets | .bool .., meets | .null .., meets
  | .undefined .., meets | .name .., meets | .update .., meets => ⟨implies.expr meets, trivial⟩
  | .template _ parts, meets => ⟨implies.expr meets, Part.EachMeets.mono parts meets.2⟩
  | .assign _ _ _ e, meets | .unary _ _ e, meets | .member _ e _, meets =>
    ⟨implies.expr meets, Expr.Meets.mono e meets.2⟩
  | .binary _ _ left right, meets | .logical _ _ left right, meets =>
    ⟨implies.expr meets, Expr.Meets.mono left meets.2.1, Expr.Meets.mono right meets.2.2⟩
  | .conditional _ condition yes no, meets =>
    ⟨implies.expr meets, Expr.Meets.mono condition meets.2.1, Expr.Meets.mono yes meets.2.2.1,
      Expr.Meets.mono no meets.2.2.2⟩
  | .call _ callee args, meets =>
    ⟨implies.expr meets, Expr.Meets.mono callee meets.2.1, Expr.EachMeets.mono args meets.2.2⟩
  | .function _ definition, meets =>
    ⟨implies.expr meets, Definition.Meets.mono definition meets.2⟩

theorem Expr.EachMeets.mono {inHole : Bool} :
    (es : List Expr) → Expr.EachMeets strong inHole es → Expr.EachMeets weak inHole es
  | [], _ => trivial
  | e :: rest, meets => ⟨Expr.Meets.mono e meets.1, Expr.EachMeets.mono rest meets.2⟩

theorem Expr.Meets?.mono {inHole : Bool} :
    (e : Option Expr) → Expr.Meets? strong inHole e → Expr.Meets? weak inHole e
  | none, _ => trivial
  | some e, meets => Expr.Meets.mono e meets

theorem Part.EachMeets.mono :
    (parts : List Part) → Part.EachMeets strong parts → Part.EachMeets weak parts
  | [], _ => trivial
  | .text _ :: rest, meets => Part.EachMeets.mono rest meets
  | .value e :: rest, meets => ⟨Expr.Meets.mono e meets.1, Part.EachMeets.mono rest meets.2⟩

theorem Definition.Meets.mono {inHole declared : Bool} :
    (d : Definition) → d.Meets strong inHole declared → d.Meets weak inHole declared
  | .mk _ _ (.block statements) _, meets =>
    ⟨implies.definition meets, Stmt.EachMeets.mono statements meets.2⟩
  | .mk _ _ (.value e) _, meets => ⟨implies.definition meets, Expr.Meets.mono e meets.2⟩

theorem Stmt.Meets.mono {inHole : Bool} {around : Surroundings} :
    (s : Stmt) → s.Meets strong inHole around → s.Meets weak inHole around
  | .declare _ _ _ e, meets | .giveBack e, meets =>
    ⟨implies.stmt meets, Expr.Meets?.mono e meets.2⟩
  | .define definition, meets => ⟨implies.stmt meets, Definition.Meets.mono definition meets.2⟩
  | .choose condition yes no, meets =>
    ⟨implies.stmt meets, Expr.Meets.mono condition meets.2.1, Stmt.Meets.mono yes meets.2.2.1,
      Stmt.Meets?.mono no meets.2.2.2⟩
  | .whileLoop condition body, meets =>
    ⟨implies.stmt meets, Expr.Meets.mono condition meets.2.1, Stmt.Meets.mono body meets.2.2⟩
  | .forLoop init condition update body, meets =>
    ⟨implies.stmt meets, Stmt.Meets?.mono init meets.2.1,
      Expr.Meets?.mono condition meets.2.2.1, Expr.Meets?.mono update meets.2.2.2.1,
      Stmt.Meets.mono body meets.2.2.2.2⟩
  | .block statements, meets => ⟨implies.stmt meets, Stmt.EachMeets.mono statements meets.2⟩
  | .evaluate e, meets => ⟨implies.stmt meets, Expr.Meets.mono e meets.2⟩
  | .breakLoop, meets | .continueLoop, meets | .empty, meets => ⟨implies.stmt meets, trivial⟩

theorem Stmt.Meets?.mono {inHole : Bool} {around : Surroundings} :
    (s : Option Stmt) → Stmt.Meets? strong inHole around s → Stmt.Meets? weak inHole around s
  | none, _ => trivial
  | some s, meets => Stmt.Meets.mono s meets

theorem Stmt.EachMeets.mono {inHole : Bool} {around : Surroundings} :
    (statements : List Stmt) → Stmt.EachMeets strong inHole around statements →
      Stmt.EachMeets weak inHole around statements
  | [], _ => trivial
  | s :: rest, meets => ⟨Stmt.Meets.mono s meets.1, Stmt.EachMeets.mono rest meets.2⟩

end

end

theorem Expr.Meets.here {rules : Rules} {inHole : Bool} {e : Expr} (meets : e.Meets rules inHole) :
    rules.expr inHole e := by
  cases e <;> exact meets.1

theorem Definition.Meets.here {rules : Rules} {inHole declared : Bool} {d : Definition}
    (meets : d.Meets rules inHole declared) : rules.definition declared d := by
  rcases d with ⟨_, _, _ | _, _⟩ <;> exact meets.1

theorem Stmt.Meets.here {rules : Rules} {inHole : Bool} {around : Surroundings} {s : Stmt}
    (meets : s.Meets rules inHole around) : rules.stmt around s := by
  cases s <;> exact meets.1

namespace Rules.Implies

theorem and_left (first second : Rules) : (first.and second).Implies first where
  expr meets := meets.here.1
  definition meets := meets.here.1
  stmt meets := meets.here.1

theorem spelled_accepted (lines : Set Nat) : (spelled lines).Implies (accepted lines) where
  expr meets := meets.here
  definition meets := meets.here.1
  stmt meets := meets.here

theorem and_right (first second : Rules) : (first.and second).Implies second where
  expr meets := meets.here.2
  definition meets := meets.here.2
  stmt meets := meets.here.2

theorem trans {first second third : Rules} (one : first.Implies second)
    (two : second.Implies third) : first.Implies third where
  expr meets := two.expr (Expr.Meets.mono one _ meets)
  definition meets := two.definition (Definition.Meets.mono one _ meets)
  stmt meets := two.stmt (Stmt.Meets.mono one _ meets)

end Rules.Implies

theorem Expr.EachMeets.of_forall {rules : Rules} {es : List Expr} {inHole : Bool}
    (each : ∀ e ∈ es, e.Meets rules inHole) : Expr.EachMeets rules inHole es := by
  induction es with
  | nil => trivial
  | cons e rest ih =>
    rw [List.forall_mem_cons] at each
    exact ⟨each.1, ih each.2⟩

end EventLoop
