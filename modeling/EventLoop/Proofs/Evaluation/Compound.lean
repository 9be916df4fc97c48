import EventLoop.Proofs.Evaluation.Path

/-!
# Assignments with the old value

`x += e` reads `x` when `e` has been evaluated, and `x = x + e` before that. Here is exactly when
this makes no difference. It makes none where `e` calls nothing and leaves `x` alone.
-/

namespace EventLoop

variable {σ α β : Type}

/-- The assignments that use the old value. -/
inductive Compound where
  | add | sub

namespace Compound

def assignOp : Compound → AssignOp
  | add => .add
  | sub => .sub

def binaryOp : Compound → BinaryOp
  | add => .add
  | sub => .sub

/-- The new value, of the old one and that of the right side. -/
def result (op : Compound) (old right : Value) : Value :=
  Value.binary op.binaryOp old right

/-- The assignment `x op= e`. -/
def short (op : Compound) (line : Nat) (x : String) (e : Expr) : Expr :=
  .assign line op.assignOp x e

/-- The assignment `x = x op e`. -/
def long (op : Compound) (line : Nat) (x : String) (e : Expr) : Expr :=
  .assign line .set x (.binary line op.binaryOp (.name line x) e)

end Compound

namespace Eval

variable (limits : Limits) (host : Host σ) (apply : Apply σ) (env : Env) (line : Nat) (x : String)
  (e : Expr) (op : Compound) (m : Machine σ)

theorem run_read :
    (read env x line).run m = match m.scopes.resolve env x with
      | some (_, binding) => (.ok binding.value, m)
      | none => (.error (.undefinedName line x), m) := by
  unfold read Scopes.read
  rw [run_bind_ok (run_get m)]
  cases m.scopes.resolve env x <;> rfl

/-- Assigns a value, and has it as its value. -/
def store (value : Value) : Eval σ Value := do
  assign env x value line
  return value

theorem run_store (value : Value) :
    (store env line x value).run m = match m.scopes.resolve env x with
      | some (id, binding) =>
        if binding.fixed then (.error (.misuse line (.assignedConstant x)), m)
        else (.ok value, { m with scopes := m.scopes.declare id x { binding with value } })
      | none => (.error (.undefinedName line x), m) := by
  unfold store assign
  rw [bind_assoc, run_bind_ok (run_get m)]
  cases m.scopes.resolve env x with
  | none => rfl
  | some found =>
    obtain ⟨id, binding⟩ := found
    cases fixed : binding.fixed <;> simp only [fixed] <;> rfl

theorem run_short :
    (eval limits host apply env (op.short line x e)).run m =
      match (eval limits host apply env e).run m with
      | (.error error, m') => (.error error, m')
      | (.ok right, m') => match m'.scopes.resolve env x with
        | some (_, binding) => (store env line x (op.result binding.value right)).run m'
        | none => (.error (.undefinedName line x), m') := by
  rw [Compound.short, eval, run_bind]
  rcases (eval limits host apply env e).run m with ⟨_ | right, m'⟩
  · rfl
  · cases op <;>
    · simp only [Compound.assignOp]
      rw [run_bind, run_read]
      cases m'.scopes.resolve env x <;> rfl

theorem run_long :
    (eval limits host apply env (op.long line x e)).run m =
      match m.scopes.resolve env x with
      | none => (.error (.undefinedName line x), m)
      | some (_, binding) => match (eval limits host apply env e).run m with
        | (.error error, m') => (.error error, m')
        | (.ok right, m') => (store env line x (op.result binding.value right)).run m' := by
  rw [Compound.long, eval, eval, eval, bind_assoc, run_bind, run_read]
  cases m.scopes.resolve env x with
  | none => rfl
  | some found =>
    simp only [bind_assoc, run_bind, store]
    rcases (eval limits host apply env e).run m with ⟨_ | right, m'⟩ <;> rfl

/-- Which value is assigned makes a difference, unless the name cannot be assigned to. -/
theorem run_store_eq_iff {a b : Value} {id : ScopeId} {binding : Binding}
    (bound : m.scopes.resolve env x = some (id, binding)) :
    (store env line x a).run m = (store env line x b).run m ↔ binding.fixed = true ∨ a = b := by
  rw [run_store, run_store, bound]
  obtain ⟨value, fixed⟩ := binding
  cases fixed with
  | true => simp
  | false =>
    constructor
    · intro same
      have same := congrArg Prod.fst same
      simpa using same
    · intro same
      have same : a = b := by simpa using same
      rw [same]

/-- An assignment to a name that has a value does not fail for want of one. -/
theorem run_store_ne_undefinedName {value : Value} {m' : Machine σ} {id : ScopeId}
    {binding : Binding} (bound : m.scopes.resolve env x = some (id, binding)) :
    (store env line x value).run m ≠ (.error (.undefinedName line x), m') := by
  rw [run_store, bound]
  obtain ⟨old, fixed⟩ := binding
  cases fixed with
  | true =>
    intro same
    cases same
  | false =>
    intro same
    cases same

theorem run_short_eq_run_long_iff_of_bound {first : ScopeId} {old : Binding}
    (bound : m.scopes.resolve env x = some (first, old)) :
    (eval limits host apply env (op.short line x e)).run m =
        (eval limits host apply env (op.long line x e)).run m ↔
      ∀ right m', (eval limits host apply env e).run m = (.ok right, m') →
        ∀ id binding, m'.scopes.resolve env x = some (id, binding) →
          binding.fixed = true ∨ op.result binding.value right = op.result old.value right := by
  rw [run_short, run_long, bound]
  rcases (eval limits host apply env e).run m with ⟨failure | right, after⟩
  · simp only [true_iff]
    intro right m' same
    cases same
  · cases later : after.scopes.resolve env x with
    | none =>
      simp only [run_store, later, true_iff]
      intro right' m' same id binding found
      cases same
      rw [later] at found
      cases found
    | some target =>
      simp only [later]
      rw [run_store_eq_iff env line x after later]
      constructor
      · intro same right' m' equal id binding found
        cases equal
        rw [later] at found
        cases found
        exact same
      · intro same
        exact same right after rfl target.1 target.2 later

theorem run_short_eq_run_long_iff_of_unbound (unbound : m.scopes.resolve env x = none) :
    (eval limits host apply env (op.short line x e)).run m =
        (eval limits host apply env (op.long line x e)).run m ↔
      ((eval limits host apply env e).run m).2 = m ∧
        ∀ error, ((eval limits host apply env e).run m).1 = .error error →
          error = .undefinedName line x := by
  rw [run_short, run_long, unbound]
  rcases (eval limits host apply env e).run m with ⟨failure | right, after⟩
  · constructor
    · intro same
      cases same
      exact ⟨rfl, fun error same => (Except.error.inj same).symm⟩
    · rintro ⟨rfl, only⟩
      rw [only failure rfl]
  · constructor
    · intro same
      cases later : after.scopes.resolve env x with
      | none =>
        simp only [later] at same
        cases same
        exact ⟨rfl, fun error same => by cases same⟩
      | some found =>
        simp only [later] at same
        exact absurd same (run_store_ne_undefinedName env line x after later)
    · rintro ⟨rfl, -⟩
      simp only [unbound]

/-- The two ways to write an assignment with the old value do the same in exactly these cases. Where
the name has a value to begin with: if the right side succeeds, the name is a constant then, or its
value gives the same result with the right side as the value it had to begin with. Where the name
has none: the right side does nothing, and if it fails, then for want of that name on that line. -/
theorem run_short_eq_run_long_iff :
    (eval limits host apply env (op.short line x e)).run m =
        (eval limits host apply env (op.long line x e)).run m ↔
      match m.scopes.read env x with
      | some old => ∀ right m', (eval limits host apply env e).run m = (.ok right, m') →
        ∀ id binding, m'.scopes.resolve env x = some (id, binding) →
          binding.fixed = true ∨ op.result binding.value right = op.result old right
      | none => ((eval limits host apply env e).run m).2 = m ∧
        ∀ error, ((eval limits host apply env e).run m).1 = .error error →
          error = .undefinedName line x := by
  cases bound : m.scopes.resolve env x with
  | some found =>
    simp only [Scopes.read, bound, Option.map_some]
    exact run_short_eq_run_long_iff_of_bound limits host apply env line x e op m bound
  | none =>
    simp only [Scopes.read, bound, Option.map_none]
    exact run_short_eq_run_long_iff_of_unbound limits host apply env line x e op m bound

/-- With the text `a` for `x` to begin with, `x += (x = "b")` is `bb`, and `x = x + (x = "b")` is
`ab`. -/
theorem run_short_ne_run_long :
    let m : Machine Unit :=
      { Machine.initial () with scopes := #[[("x", ⟨.text "a", false⟩)]] }
    let e : Expr := .assign 1 .set "x" (.text 1 "b")
    (eval ⟨100, 10⟩ Host.silent (invoke ⟨100, 10⟩ Host.silent 100) [0]
        (Compound.add.short 1 "x" e)).run m ≠
      (eval ⟨100, 10⟩ Host.silent (invoke ⟨100, 10⟩ Host.silent 100) [0]
        (Compound.add.long 1 "x" e)).run m := by
  intro m e same
  have same := congrArg (fun outcome => outcome.1.toOption.map Value.display) same
  revert same
  decide

end Eval

/-! ## Right sides that leave the name alone -/

theorem Scopes.resolve_declare_of_ne {name x : String} (other : name ≠ x) (scopes : Scopes)
    (env : Env) (id : ScopeId) (binding : Binding) :
    Scopes.resolve (scopes.declare id name binding) env x = Scopes.resolve scopes env x := by
  have same (key : ScopeId) :
      Scopes.find? (scopes.declare id name binding) key x = Scopes.find? scopes key x := by
    simp [Scopes.find?_declare, other]
  simp only [Scopes.resolve, same]

mutual

/-- Calls nothing, and assigns to other names only. -/
def Expr.Spares (x : String) : Expr → Prop
  | .number .. | .text .. | .bool .. | .null _ | .undefined _ | .name .. | .function .. => True
  | .template _ parts => Part.EachSpares x parts
  | .assign _ _ target e => target ≠ x ∧ e.Spares x
  | .update _ _ _ target => target ≠ x
  | .binary _ _ left right | .logical _ _ left right => left.Spares x ∧ right.Spares x
  | .unary _ _ e | .member _ e _ => e.Spares x
  | .conditional _ condition yes no => condition.Spares x ∧ yes.Spares x ∧ no.Spares x
  | .call .. => False

def Part.EachSpares (x : String) : List Part → Prop
  | [] => True
  | .text _ :: rest => Part.EachSpares x rest
  | .value e :: rest => e.Spares x ∧ Part.EachSpares x rest

end

namespace Eval

/-- The name means the same binding afterwards. -/
def Leaves (env : Env) (x : String) (c : Eval σ α) : Prop :=
  ∀ m, (c.run m).2.scopes.resolve env x = m.scopes.resolve env x

namespace Leaves

variable {env : Env} {x : String}

theorem pure (a : α) : Leaves env x (Pure.pure a : Eval σ α) := fun _ => rfl

theorem bind {c : Eval σ α} {f : α → Eval σ β} (first : Leaves env x c)
    (second : ∀ a, Leaves env x (f a)) : Leaves env x (c >>= f) := by
  intro m
  have before := first m
  rw [run_bind]
  rcases run : c.run m with ⟨_ | a, m'⟩
  · rwa [run] at before
  · rw [run] at before
    exact (second a m').trans before

theorem read (name : String) (line : Nat) :
    Leaves env x (Eval.read env name line : Eval σ Value) := by
  intro m
  rw [run_read]
  cases m.scopes.resolve env name <;> rfl

theorem assign {target : String} (other : target ≠ x) (value : Value) (line : Nat) :
    Leaves env x (Eval.assign env target value line : Eval σ Unit) := by
  intro m
  unfold Eval.assign
  rw [run_bind_ok (run_get m)]
  cases m.scopes.resolve env target with
  | none => rfl
  | some found =>
    obtain ⟨id, old, fixed⟩ := found
    cases fixed with
    | true => rfl
    | false => exact Scopes.resolve_declare_of_ne other m.scopes env id _

theorem property (object : Value) (name : String) (source : Expr) (line : Nat) :
    Leaves env x (Eval.property object name source line : Eval σ Value) := by
  intro m
  unfold Eval.property
  split <;> rfl

theorem newClosure (definition : Definition) (inner : Env) :
    Leaves env x (Eval.newClosure definition inner : Eval σ Closure) := fun _ => rfl

end Leaves

section

variable (limits : Limits) (host : Host σ) (apply : Apply σ) (env : Env) (x : String)

mutual

theorem eval_leaves : (e : Expr) → e.Spares x → Leaves env x (eval limits host apply env e)
  | .number .., _ | .text .., _ | .bool .., _ | .null _, _ | .undefined _, _ => by
    rw [eval]
    exact .pure _
  | .template _ parts, spares => by
    rw [eval]
    apply Leaves.bind (evalParts_leaves parts spares)
    intro text
    exact .pure _
  | .name line name, _ => by
    rw [eval]
    exact .read name line
  | .assign line op target e, spares => by
    have right := eval_leaves e spares.2
    rw [eval]
    apply right.bind
    intro right
    have stored (value : Value) : Leaves env x (do
        Eval.assign env target value line
        return value : Eval σ Value) :=
      (Leaves.assign spares.1 value line).bind fun _ => .pure _
    cases op with
    | set => exact stored right
    | add => exact (Leaves.read target line).bind fun old => stored _
    | sub => exact (Leaves.read target line).bind fun old => stored _
  | .update line count moment target, spares => by
    rw [eval]
    apply (Leaves.read target line).bind
    intro old
    apply (Leaves.assign spares _ line).bind
    intro _
    exact .pure _
  | .binary _ op left right, spares => by
    have first := eval_leaves left spares.1
    have second := eval_leaves right spares.2
    rw [eval]
    exact first.bind fun a => second.bind fun b => .pure _
  | .logical _ op left right, spares => by
    have first := eval_leaves left spares.1
    have second := eval_leaves right spares.2
    rw [eval]
    apply first.bind
    intro a
    split
    · exact .pure _
    · exact .pure _
    · exact second
    · exact second
  | .unary _ op e, spares => by
    have operand := eval_leaves e spares
    rw [eval]
    exact operand.bind fun a => .pure _
  | .conditional _ condition yes no, spares => by
    have first := eval_leaves condition spares.1
    have second := eval_leaves yes spares.2.1
    have third := eval_leaves no spares.2.2
    rw [eval]
    apply first.bind
    intro a
    split
    · exact second
    · exact third
  | .member line object name, spares => by
    have whole := eval_leaves object spares
    rw [eval]
    exact whole.bind fun value => .property value name object line
  | .call .., spares => spares.elim
  | .function _ definition, _ => by
    rw [eval]
    exact (Leaves.newClosure definition env).bind fun closure => .pure _

theorem evalParts_leaves : (parts : List Part) → Part.EachSpares x parts →
    Leaves env x (evalParts limits host apply env parts)
  | [], _ => by
    rw [evalParts]
    exact .pure _
  | .text s :: rest, spares => by
    have others := evalParts_leaves rest spares
    rw [evalParts]
    apply others.bind
    intro text
    exact .pure _
  | .value e :: rest, spares => by
    have first := eval_leaves e spares.1
    have others := evalParts_leaves rest spares.2
    rw [evalParts]
    apply first.bind
    intro value
    apply others.bind
    intro text
    exact .pure _

end

end

/-- Where the right side calls nothing and leaves the name alone, the two ways to write an
assignment do the same, if the name has a value at all. -/
theorem run_short_of_spares (limits : Limits) (host : Host σ) (apply : Apply σ) (line : Nat)
    {env : Env} {x : String} {e : Expr} (op : Compound) {m : Machine σ} {first : ScopeId}
    {old : Binding} (bound : m.scopes.resolve env x = some (first, old)) (spares : e.Spares x) :
    (eval limits host apply env (op.short line x e)).run m =
      (eval limits host apply env (op.long line x e)).run m := by
  rw [run_short_eq_run_long_iff_of_bound limits host apply env line x e op m bound]
  intro right m' run id binding found
  have same := eval_leaves limits host apply env x e spares m
  rw [run, bound] at same
  cases same.symm.trans found
  exact .inr rfl

end Eval

end EventLoop
