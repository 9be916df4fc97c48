import EventLoop.Proofs.Evaluation.Running

/-!
# Relations that evaluation respects

Two runs of the same script, on two hosts or within two bounds, do the same things in the same
order; so whatever relates the parts that computations are built of relates the computations. This
is shown once, along the evaluator, for any relation that is a congruence: it need only be checked
for the operations on names and closures, for the built-ins, for a step, and for what surrounds a
call.

A relation may depend on the steps made so far. Its number says how many a machine has made at
least: inside a call, and in a later round of a loop, that is one more, while the numbers that bound
calls and rounds go down by one there.
-/

namespace EventLoop.Eval

variable {σ τ α β : Type}

/-- The relation between computations is respected by all that evaluation is built of. On machines
that have made `n` steps, `Enough n` says of the bounds of the two runs that they make no
difference. -/
structure Congruence (limits₁ limits₂ : Limits) (host₁ : Host σ) (host₂ : Host τ)
    (Rel : ∀ {α : Type}, Nat → Eval σ α → Eval τ α → Prop)
    (Enough : Nat → Nat → Nat → Prop) : Prop where
  pure : ∀ {n : Nat} {α : Type} (a : α), Rel n (pure a) (pure a)
  misuse : ∀ {n : Nat} {α : Type} (line : Nat) (fault : TypeFault),
    Rel n (throw (.misuse line fault) : Eval σ α) (throw (.misuse line fault))
  bind : ∀ {n : Nat} {α β : Type} {x : Eval σ α} {y : Eval τ α} {f : α → Eval σ β}
    {g : α → Eval τ β}, Rel n x y → (∀ a, Rel n (f a) (g a)) → Rel n (x >>= f) (y >>= g)
  /-- What holds of machines holds of those among them that have made more steps. -/
  later : ∀ {n : Nat} {α : Type} {x : Eval σ α} {y : Eval τ α}, Rel n x y → Rel (n + 1) x y
  tick : ∀ {n : Nat} {α : Type} {f : Unit → Eval σ α} {g : Unit → Eval τ α},
    (∀ a, Rel (n + 1) (f a) (g a)) → Rel n (tick limits₁ >>= f) (tick limits₂ >>= g)
  read : ∀ {n : Nat} (env : Env) (name : String) (line : Nat),
    Rel n (read env name line) (read env name line)
  assign : ∀ {n : Nat} (env : Env) (name : String) (value : Value) (line : Nat),
    Rel n (assign env name value line) (assign env name value line)
  declare : ∀ {n : Nat} (env : Env) (name : String) (value : Value) (fixed : Bool),
    Rel n (declare env name value fixed) (declare env name value fixed)
  openScope : ∀ {n : Nat} (env : Env), Rel n (openScope env) (openScope env)
  newClosure : ∀ {n : Nat} (definition : Definition) (env : Env),
    Rel n (newClosure definition env) (newClosure definition env)
  openRound : ∀ {n : Nat} (env : Env) (name : Option String),
    Rel n (openRound env name) (openRound env name)
  closeRound : ∀ {n : Nat} (env inner : Env) (name : Option String),
    Rel n (closeRound env inner name) (closeRound env inner name)
  native : ∀ {n : Nat} (native : Native) (args : List Value) (callee : Expr) (line : Nat),
    Rel n (callNative host₁ native args callee line) (callNative host₂ native args callee line)
  /-- What the hosts hear of a call surrounds it. -/
  called : ∀ {n : Nat} {x : Eval σ Value} {y : Eval τ Value} (name : String) (line : Nat),
    Rel n x y →
    Rel n (between (Machine.onHost (host₁.enter name line)) (Machine.onHost host₁.leave) x)
      (between (Machine.onHost (host₂.enter name line)) (Machine.onHost host₂.leave) y)
  /-- So does what counts how deeply calls are nested. -/
  nested : ∀ {n : Nat} {x : Eval σ Value} {y : Eval τ Value} (line : Nat), Rel n x y →
    Rel n (nest limits₁ line x) (nest limits₂ line y)
  /-- If the first run is at its bound, so is the second, or it makes no difference. -/
  spent : ∀ {n bound : Nat} {α : Type}, Enough n 0 bound →
    (bound = 0 ∧
      Rel n (throw (.budget limits₁.maxSteps) : Eval σ α) (throw (.budget limits₂.maxSteps))) ∨
    ∀ y : Eval τ α, Rel n (throw (.budget limits₁.maxSteps)) y
  /-- If the first run is not at its bound, nor is the second, or it makes no difference. -/
  enough : ∀ {n bound₁ bound₂ : Nat} {α : Type}, Enough n (bound₁ + 1) bound₂ →
    (∃ bound, bound₂ = bound + 1 ∧ Enough (n + 1) bound₁ bound) ∨
    ∀ (x : Eval σ α) (y : Eval τ α), Rel n x y

namespace Congruence

variable {limits₁ limits₂ : Limits} {host₁ : Host σ} {host₂ : Host τ}
  {Rel : ∀ {α : Type}, Nat → Eval σ α → Eval τ α → Prop} {Enough : Nat → Nat → Nat → Prop}
  (c : Congruence limits₁ limits₂ host₁ host₂ Rel Enough)

set_option linter.unusedSectionVars false

include c

theorem mono {n k : Nat} (le : n ≤ k) {x : Eval σ α} {y : Eval τ α} (related : Rel n x y) :
    Rel k x y := by
  induction le with
  | refl => exact related
  | step _ ih => exact c.later ih

theorem property {n : Nat} (object : Value) (name : String) (source : Expr) (line : Nat) :
    Rel n (property object name source line) (property object name source line) := by
  unfold Eval.property
  split <;> first | exact c.misuse _ _ | exact c.pure _

section

variable {n : Nat} {apply₁ : Apply σ} {apply₂ : Apply τ}
  (applies : ∀ closure args line, Rel (n + 1) (apply₁ closure args line) (apply₂ closure args line))

include applies

theorem call (function : Value) (args : List Value) (callee : Expr) (line : Nat) :
    Rel n (call limits₁ host₁ apply₁ function args callee line)
      (call limits₂ host₂ apply₂ function args callee line) := by
  refine c.tick ?_
  intro _
  cases function with
  | function closure => exact c.called _ line (applies closure args line)
  | native native => exact c.native native args callee line
  | _ => exact c.misuse _ _

mutual

/-- The two values of an expression are related. -/
theorem eval (env : Env) : ∀ e : Expr,
    Rel n (eval limits₁ host₁ apply₁ env e) (eval limits₂ host₂ apply₂ env e)
  | .number _ _ | .text _ _ | .bool _ _ | .null _ | .undefined _ => c.pure _
  | .template _ parts => by
    rw [Eval.eval, Eval.eval]
    exact c.bind (evalParts env parts) fun _ => c.pure _
  | .name line name => by
    rw [Eval.eval, Eval.eval]
    exact c.read env name line
  | .assign line op target e => by
    rw [Eval.eval, Eval.eval]
    refine c.bind (eval env e) ?_
    intro right
    have finish (value : Value) : Rel n
        (do Eval.assign env target value line; return value)
        (do Eval.assign env target value line; return value) :=
      c.bind (c.assign env target value line) fun _ => c.pure _
    cases op with
    | set => exact c.bind (c.pure right) finish
    | add =>
      refine c.bind (c.read env target line) ?_
      intro old
      exact c.bind (c.pure (old.add right)) finish
    | sub =>
      refine c.bind (c.read env target line) ?_
      intro old
      exact c.bind (c.pure (Value.number (old.toNumber - right.toNumber))) finish
  | .update line count moment target => by
    rw [Eval.eval, Eval.eval]
    refine c.bind (c.read env target line) ?_
    intro old
    cases count <;> exact c.bind (c.assign env target _ line) fun _ => c.pure _
  | .binary _ op left right => by
    rw [Eval.eval, Eval.eval]
    exact c.bind (eval env left) fun _ => c.bind (eval env right) fun _ => c.pure _
  | .logical _ op left right => by
    rw [Eval.eval, Eval.eval]
    refine c.bind (eval env left) ?_
    intro a
    cases op <;> cases a.truthy
    · exact c.pure a
    · exact eval env right
    · exact eval env right
    · exact c.pure a
  | .unary _ op operand => by
    rw [Eval.eval, Eval.eval]
    exact c.bind (eval env operand) fun _ => c.pure _
  | .conditional _ condition yes no => by
    rw [Eval.eval, Eval.eval]
    refine c.bind (eval env condition) ?_
    intro a
    split
    · exact eval env yes
    · exact eval env no
  | .member line object name => by
    rw [Eval.eval, Eval.eval]
    exact c.bind (eval env object) fun value => c.property value name object line
  | .call line callee args => by
    rw [Eval.eval, Eval.eval]
    refine c.bind (eval env callee) ?_
    intro function
    refine c.bind (evalAll env args) ?_
    intro values
    exact c.call applies function values callee line
  | .function _ definition => by
    rw [Eval.eval, Eval.eval]
    exact c.bind (c.newClosure definition env) fun _ => c.pure _

theorem evalAll (env : Env) : ∀ es : List Expr,
    Rel n (evalAll limits₁ host₁ apply₁ env es) (evalAll limits₂ host₂ apply₂ env es)
  | [] => by
    rw [Eval.evalAll, Eval.evalAll]
    exact c.pure _
  | e :: rest => by
    rw [Eval.evalAll, Eval.evalAll]
    exact c.bind (eval env e) fun _ => c.bind (evalAll env rest) fun _ => c.pure _

theorem evalParts (env : Env) : ∀ parts : List Part,
    Rel n (evalParts limits₁ host₁ apply₁ env parts) (evalParts limits₂ host₂ apply₂ env parts)
  | [] => by
    rw [Eval.evalParts, Eval.evalParts]
    exact c.pure _
  | .text s :: rest => by
    rw [Eval.evalParts, Eval.evalParts]
    exact c.bind (evalParts env rest) fun _ => c.pure _
  | .value e :: rest => by
    rw [Eval.evalParts, Eval.evalParts]
    exact c.bind (eval env e) fun _ => c.bind (evalParts env rest) fun _ => c.pure _

end

end

theorem hoist {n : Nat} (env : Env) (statements : List Stmt) :
    Rel n (hoist env statements) (hoist env statements) := by
  induction statements with
  | nil => exact c.pure ()
  | cons statement rest ih =>
    cases statement with
    | define definition =>
      rw [Eval.hoist, Eval.hoist]
      cases definition.name with
      | none => exact ih
      | some name =>
        refine c.bind (c.newClosure definition env) ?_
        intro closure
        exact c.bind (c.declare env name _ false) fun _ => ih
    | _ =>
      rw [Eval.hoist, Eval.hoist]
      · exact ih
      · simp
      · simp

end Congruence

/-- The rounds are related by what follows them: the loop ends, or goes on after one more step. -/
def RoundsRelated (Rel : ∀ {α : Type}, Nat → Eval σ α → Eval τ α → Prop) (n : Nat)
    (x : Eval σ (Option Flow)) (y : Eval τ (Option Flow)) : Prop :=
  ∀ (f : Option Flow → Eval σ Flow) (g : Option Flow → Eval τ Flow),
    (∀ flow, Rel n (f (some flow)) (g (some flow))) → Rel (n + 1) (f none) (g none) →
    Rel n (x >>= f) (y >>= g)

namespace Congruence

variable {limits₁ limits₂ : Limits} {host₁ : Host σ} {host₂ : Host τ}
  {Rel : ∀ {α : Type}, Nat → Eval σ α → Eval τ α → Prop} {Enough : Nat → Nat → Nat → Prop}
  (c : Congruence limits₁ limits₂ host₁ host₂ Rel Enough)

include c

theorem round_bind {n : Nat} {x : Eval σ α} {y : Eval τ α} {f : α → Eval σ (Option Flow)}
    {g : α → Eval τ (Option Flow)} (first : Rel n x y)
    (second : ∀ a, RoundsRelated Rel n (f a) (g a)) :
    RoundsRelated Rel n (x >>= f) (y >>= g) := by
  intro goOn₁ goOn₂ ends goesOn
  rw [bind_assoc, bind_assoc]
  exact c.bind first fun a => second a goOn₁ goOn₂ ends goesOn

omit c in
/-- A round that ends the loop. -/
theorem round_end {n : Nat} (flow : Flow) :
    RoundsRelated Rel n (Pure.pure (some flow)) (Pure.pure (some flow)) := by
  intro goOn₁ goOn₂ ends _
  rw [pure_bind, pure_bind]
  exact ends flow

theorem afterBody {n : Nat} (flow : Flow) {go₁ : Eval σ Unit} {go₂ : Eval τ Unit}
    (go : Rel n go₁ go₂) :
    RoundsRelated Rel n (afterBody limits₁ flow go₁) (afterBody limits₂ flow go₂) := by
  have goesOn : RoundsRelated Rel n (do go₁; Eval.tick limits₁; return none)
      (do go₂; Eval.tick limits₂; return none) := by
    refine c.round_bind go ?_
    intro _ goOn₁ goOn₂ _ goesOn
    rw [bind_assoc, bind_assoc]
    refine c.tick ?_
    intro _
    rw [pure_bind, pure_bind]
    exact goesOn
  cases flow with
  | broke => exact round_end .normal
  | returned value => exact round_end (.returned value)
  | normal | continued => exact goesOn

/-- A loop is related to itself if its rounds are, whatever the number of steps already made. The
induction is on the bound of the first run: each round costs a step. -/
theorem rounds {n bound₁ bound₂ : Nat} {round₁ : Eval σ (Option Flow)}
    {round₂ : Eval τ (Option Flow)} (related : ∀ k, n ≤ k → RoundsRelated Rel k round₁ round₂)
    (enough : Enough n bound₁ bound₂) :
    Rel n (rounds limits₁ round₁ bound₁) (rounds limits₂ round₂ bound₂) := by
  induction bound₁ generalizing n bound₂ with
  | zero =>
    rcases c.spent enough with ⟨rfl, spent⟩ | spent
    · exact spent
    · exact spent _
  | succ bound₁ ih =>
    rcases c.enough enough with ⟨bound, rfl, fewer⟩ | any
    · refine related n (Nat.le_refl n) _ _ (fun flow => c.pure flow) ?_
      exact ih (fun k le => related k (Nat.le_of_succ_le le)) fewer
    · exact any _ _

section

variable {n : Nat} {apply₁ : Apply σ} {apply₂ : Apply τ}
  (applies : ∀ closure args line, Rel (n + 1) (apply₁ closure args line) (apply₂ closure args line))

include applies

theorem forBody (env : Env) (update : Option Expr) {body₁ : Env → Eval σ Flow}
    {body₂ : Env → Eval τ Flow} (name : Option String)
    (body : ∀ inner, Rel n (body₁ inner) (body₂ inner)) :
    RoundsRelated Rel n (forBody limits₁ host₁ apply₁ env update name body₁)
      (forBody limits₂ host₂ apply₂ env update name body₂) := by
  refine c.round_bind (c.openRound env name) ?_
  intro inner
  refine c.round_bind (body inner) ?_
  intro flow
  refine c.round_bind (c.closeRound env inner name) ?_
  intro _
  refine c.afterBody flow ?_
  cases update with
  | some update => exact c.bind (c.eval applies env update) fun _ => c.pure _
  | none => exact c.pure _

theorem forRound (env : Env) (condition update : Option Expr) {body₁ : Env → Eval σ Flow}
    {body₂ : Env → Eval τ Flow} (name : Option String)
    (body : ∀ inner, Rel n (body₁ inner) (body₂ inner)) :
    RoundsRelated Rel n (forRound limits₁ host₁ apply₁ env condition update name body₁)
      (forRound limits₂ host₂ apply₂ env condition update name body₂) := by
  have finish (goOn : Bool) : RoundsRelated Rel n
      (if goOn then Eval.forBody limits₁ host₁ apply₁ env update name body₁
        else return some .normal)
      (if goOn then Eval.forBody limits₂ host₂ apply₂ env update name body₂
        else return some .normal) := by
    cases goOn with
    | true => exact c.forBody applies env update name body
    | false => exact round_end .normal
  unfold Eval.forRound
  cases condition with
  | some condition =>
    exact c.round_bind (c.eval applies env condition) fun value => finish value.truthy
  | none => exact finish true

end

section

variable {n : Nat} {apply₁ : Apply σ} {apply₂ : Apply τ}
  (applies : ∀ closure args line, Rel (n + 1) (apply₁ closure args line) (apply₂ closure args line))
  {bound₁ bound₂ : Nat} (enough : Enough n bound₁ bound₂)

set_option linter.unusedSectionVars false

include applies enough

mutual

/-- The two runs of a statement are related. -/
theorem exec : ∀ (env : Env) (statement : Stmt),
    Rel n (exec limits₁ host₁ apply₁ bound₁ env statement)
      (exec limits₂ host₂ apply₂ bound₂ env statement)
  | env, .declare _ word name init => by
    rw [Eval.exec, Eval.exec]
    refine c.tick ?_
    intro _
    have finish (value : Value) : Rel (n + 1)
        (do Eval.declare env name value (word = .constWord); return Flow.normal)
        (do Eval.declare env name value (word = .constWord); return Flow.normal) :=
      c.bind (c.declare env name value _) fun _ => c.pure _
    cases init with
    | some e => exact c.bind (c.later (c.eval applies env e)) finish
    | none => exact c.bind (c.pure Value.undefined) finish
  | _, .define _ => by
    simp only [Eval.exec]
    exact c.tick fun _ => c.pure _
  | _, .empty => by
    rw [Eval.exec, Eval.exec]
    exact c.tick fun _ => c.pure _
  | env, .choose condition yes no => by
    unfold Eval.exec
    refine c.tick ?_
    intro _
    refine c.bind (c.later (c.eval applies env condition)) ?_
    intro value
    split
    · exact c.later (exec env yes)
    · cases no with
      | some no => exact c.later (exec env no)
      | none => exact c.pure _
  | env, .whileLoop condition body => by
    rw [Eval.exec, Eval.exec]
    refine c.tick ?_
    intro _
    refine c.later (c.rounds ?_ enough)
    intro k le
    refine c.round_bind (c.mono le (c.eval applies env condition)) ?_
    intro value
    split
    · exact c.round_bind (c.mono le (exec env body)) fun flow => c.afterBody flow (c.pure ())
    · exact round_end _
  | env, .forLoop init condition update body => by
    rw [Eval.exec, Eval.exec]
    refine c.tick ?_
    intro _
    refine c.later (c.bind (c.openScope env) ?_)
    intro env
    have loop : Rel n
        (Eval.rounds limits₁ (Eval.forRound limits₁ host₁ apply₁ env condition update
          (roundName init) fun inner => Eval.exec limits₁ host₁ apply₁ bound₁ inner body) bound₁)
        (Eval.rounds limits₂ (Eval.forRound limits₂ host₂ apply₂ env condition update
          (roundName init) fun inner => Eval.exec limits₂ host₂ apply₂ bound₂ inner body)
          bound₂) := by
      refine c.rounds ?_ enough
      intro k le
      exact c.forRound (fun closure args line =>
        c.mono (Nat.succ_le_succ le) (applies closure args line)) env condition update _
        fun inner => c.mono le (exec inner body)
    cases init with
    | some init => exact c.bind (exec env init) fun _ => loop
    | none => exact loop
  | env, .giveBack value => by
    simp only [Eval.exec]
    refine c.tick ?_
    intro _
    cases value with
    | some e => exact c.bind (c.later (c.eval applies env e)) fun _ => c.pure _
    | none => exact c.pure _
  | _, .breakLoop => by
    rw [Eval.exec, Eval.exec]
    exact c.tick fun _ => c.pure _
  | _, .continueLoop => by
    rw [Eval.exec, Eval.exec]
    exact c.tick fun _ => c.pure _
  | env, .block statements => by
    rw [Eval.exec, Eval.exec]
    refine c.tick ?_
    intro _
    refine c.later (c.bind (c.openScope env) ?_)
    intro env
    exact c.bind (c.hoist env statements) fun _ => execAll env statements
  | env, .evaluate e => by
    rw [Eval.exec, Eval.exec]
    refine c.tick ?_
    intro _
    exact c.bind (c.later (c.eval applies env e)) fun _ => c.pure _

theorem execAll : ∀ (env : Env) (statements : List Stmt),
    Rel n (execAll limits₁ host₁ apply₁ bound₁ env statements)
      (execAll limits₂ host₂ apply₂ bound₂ env statements)
  | _, [] => by
    rw [Eval.execAll, Eval.execAll]
    exact c.pure _
  | env, statement :: rest => by
    rw [Eval.execAll, Eval.execAll]
    refine c.bind (exec env statement) ?_
    intro flow
    cases flow with
    | normal => exact execAll env rest
    | _ => exact c.pure _

end

theorem execBlock (env : Env) (statements : List Stmt) :
    Rel n (execBlock limits₁ host₁ apply₁ bound₁ env statements)
      (execBlock limits₂ host₂ apply₂ bound₂ env statements) :=
  c.bind (c.hoist env statements) fun _ => c.execAll applies enough env statements

end

theorem bindParams {n : Nat} (env : Env) (params : List String) (args : List Value) :
    Rel n (bindParams env params args) (bindParams env params args) := by
  induction params generalizing args with
  | nil => exact c.pure ()
  | cons param params ih => exact c.bind (c.declare env param _ false) fun _ => ih args.tail

/-- The two runs of the body of a closure are related. The induction is on the number of calls that
may lie inside one another: each of them costs a step. -/
theorem invoke {n bound₁ bound₂ : Nat} (enough : Enough n bound₁ bound₂) (closure : Closure)
    (args : List Value) (line : Nat) :
    Rel n (invoke limits₁ host₁ bound₁ closure args line)
      (invoke limits₂ host₂ bound₂ closure args line) := by
  induction bound₁ generalizing n bound₂ closure args line with
  | zero =>
    rcases c.spent enough with ⟨rfl, spent⟩ | spent
    · exact spent
    · exact spent _
  | succ bound₁ ih =>
    rcases c.enough enough with ⟨bound, rfl, fewer⟩ | any
    · rw [invoke_succ, invoke_succ]
      refine c.nested line ?_
      refine c.bind (c.openScope closure.env) ?_
      intro env
      refine c.bind (c.bindParams env _ args) ?_
      intro _
      have applies (closure : Closure) (args : List Value) (line : Nat) :=
        ih fewer closure args line
      cases closure.definition.body with
      | block statements =>
        refine c.bind (c.execBlock applies enough env statements) ?_
        intro flow
        cases flow <;> exact c.pure _
      | value e => exact c.eval applies env e
    · exact any _ _

/-- The two runs of a script are related. -/
theorem runScript {n : Nat} (calls : Enough (n + 1) limits₁.maxSteps limits₂.maxSteps)
    (loops : Enough n (limits₁.maxSteps + 1) (limits₂.maxSteps + 1)) (script : Script) :
    Rel n (runScript limits₁ host₁ script) (runScript limits₂ host₂ script) := by
  have applies (closure : Closure) (args : List Value) (line : Nat) :=
    c.invoke calls closure args line
  exact c.bind (c.execBlock applies loops globalEnv script) fun _ => c.pure ()

/-- The two runs of a callback are related, if settling the promise that it settles is. -/
theorem runCallback {n : Nat} (calls : Enough n (limits₁.maxSteps + 1) (limits₂.maxSteps + 1))
    (settle : ∀ (p : PromiseId) (value : Value),
      Rel n (settle host₁ p value) (settle host₂ p value)) (callback : Callback) :
    Rel n (runCallback limits₁ host₁ callback) (runCallback limits₂ host₂ callback) := by
  refine c.bind (c.invoke calls _ _ _) ?_
  intro value
  cases callback.settles with
  | some p => exact settle p value
  | none => exact c.pure ()

end Congruence

end EventLoop.Eval
