import EventLoop.Proofs.Evaluation.Congruence
import EventLoop.Proofs.Evaluation.Steady

/-!
# The budget of steps

Evaluation recurs on two numbers beside the syntax: how many calls may lie inside one another, and
how many rounds a loop may make. Both are there for the recursion only. A call inside a call costs a
step, and so does a round of a loop, so the budget of steps is spent before either number is; from
there on all numbers give the same result. So every evaluation ends, and the failure that is
reported when a number is used up is never seen.
-/

namespace EventLoop.Eval

variable {σ α β : Type} {limits : Limits}

/-- What a run from the machine does to its count of steps: a run that gives a value has not spent
the budget, and one that fails for want of steps has. -/
structure Spends (limits : Limits) (m : Machine σ) (ran : Except ScriptError α × Machine σ) :
    Prop where
  more : m.steps ≤ ran.2.steps
  within : m.steps ≤ limits.maxSteps → ∀ a, ran.1 = .ok a → ran.2.steps ≤ limits.maxSteps
  spent : ∀ limit, ran.1 = .error (.budget limit) → limits.maxSteps < ran.2.steps

/-- On all machines that have made so many steps, at least, the two computations do the same, and
count their steps. If some have been made, the budget is not spent. -/
def Meters (limits : Limits) (n : Nat) (x y : Eval σ α) : Prop :=
  ∀ m : Machine σ, n ≤ m.steps → (0 < n → m.steps ≤ limits.maxSteps) →
    y.run m = x.run m ∧ Spends limits m (x.run m)

/-- Numbers that bound calls or rounds, and are not used up before the budget is. -/
def Ample (limits : Limits) (n bound₁ bound₂ : Nat) : Prop :=
  limits.maxSteps < n + bound₁ ∧ limits.maxSteps < n + bound₂

namespace Meters

variable {n : Nat}

/-- When more steps have been made than the budget has, there is nothing to show. -/
theorem of_spent (spent : limits.maxSteps < n) (x y : Eval σ α) : Meters limits n x y := by
  intro m steps within
  exact absurd (within (by omega)) (by omega)

theorem of_steady (host : Host σ) {x : Eval σ α} (steady : Steady host x) :
    Meters limits n x x := by
  intro m _ _
  have counts := (steady m).steps
  refine ⟨rfl, Nat.le_of_eq counts.symm, fun within _ _ => ?_, fun limit failed => ?_⟩
  · rw [counts]
    exact within
  · exact absurd failed ((steady m).unspent limit)

theorem bind {x y : Eval σ α} {f g : α → Eval σ β} (first : Meters limits n x y)
    (second : ∀ a, Meters limits n (f a) (g a)) : Meters limits n (x >>= f) (y >>= g) := by
  intro m steps within
  obtain ⟨same, spends⟩ := first m steps within
  rcases run : x.run m with ⟨_ | a, m'⟩
  · rw [run] at same spends
    rw [run_bind_error same, run_bind_error run]
    exact ⟨rfl, spends.more, fun _ _ ok => (by cases ok), fun limit failed =>
      spends.spent limit (by cases failed; rfl)⟩
  · rw [run] at same spends
    rw [run_bind_ok same, run_bind_ok run]
    have later : n ≤ m'.steps := Nat.le_trans steps spends.more
    obtain ⟨same', spends'⟩ := second a m' later fun some => spends.within (within some) a rfl
    exact ⟨same', Nat.le_trans spends.more spends'.more,
      fun unspent => spends'.within (spends.within unspent a rfl), spends'.spent⟩

theorem later {x y : Eval σ α} (h : Meters limits n x y) : Meters limits (n + 1) x y :=
  fun m steps within => h m (Nat.le_of_succ_le steps) fun _ => within (Nat.succ_pos n)

/-- A step is counted, and it is one more than before; or the budget is spent, whatever follows. -/
theorem tick {f g : Unit → Eval σ α} (h : ∀ a, Meters limits (n + 1) (f a) (g a)) :
    Meters limits n (tick limits >>= f) (tick limits >>= g) := by
  intro m steps _
  by_cases spent : limits.maxSteps ≤ m.steps
  · have run : (Eval.tick limits).run m = (.error (.budget limits.maxSteps), m.tick) := by
      rw [run_tick, if_pos spent]
    rw [run_bind_error run, run_bind_error run]
    refine ⟨rfl, Nat.le_succ m.steps, ?_, ?_⟩
    · exact fun _ _ ok => by cases ok
    · exact fun _ _ => Nat.lt_succ_of_le spent
  · have run : (Eval.tick limits).run m = (.ok ⟨⟩, m.tick) := by rw [run_tick, if_neg spent]
    rw [run_bind_ok run, run_bind_ok run]
    have unspent : m.tick.steps ≤ limits.maxSteps := Nat.lt_of_not_le spent
    obtain ⟨same, spends⟩ := h ⟨⟩ m.tick (Nat.succ_le_succ steps) fun _ => unspent
    exact ⟨same, Nat.le_of_succ_le spends.more, fun _ => spends.within unspent, spends.spent⟩

/-- What does not change the count of steps may surround what counts them. -/
theorem between {before after : Machine σ → Machine σ} {x y : Eval σ α}
    (h : Meters limits n x y) (steps : ∀ m : Machine σ, (before m).steps = m.steps)
    (steps' : ∀ m : Machine σ, (after m).steps = m.steps) :
    Meters limits n (between before after x) (between before after y) := by
  intro m le within
  obtain ⟨same, spends⟩ := h (before m) (by rwa [steps]) (by rwa [steps])
  rw [run_between, run_between, same]
  refine ⟨rfl, ?_, ?_, ?_⟩
  · show m.steps ≤ (after _).steps
    rw [steps', ← steps m]
    exact spends.more
  · intro unspent a ok
    show (after _).steps ≤ _
    rw [steps']
    exact spends.within (by rwa [steps]) a ok
  · intro limit failed
    show _ < (after _).steps
    rw [steps']
    exact spends.spent limit failed

theorem nest {x y : Eval σ α} (line : Nat) (h : Meters limits n x y) :
    Meters limits n (nest limits line x) (nest limits line y) := by
  have inside : Meters limits n (Eval.between Machine.deeper Machine.shallower x)
      (Eval.between Machine.deeper Machine.shallower y) := h.between (fun _ => rfl) fun _ => rfl
  intro m steps within
  by_cases deep : limits.maxCallDepth ≤ m.depth
  · rw [run_nest, run_nest, if_pos deep, if_pos deep]
    exact ⟨rfl, Nat.le_refl _, fun _ _ ok => (by cases ok), fun _ failed => by cases failed⟩
  · rw [run_nest, run_nest, if_neg deep, if_neg deep]
    exact inside m steps within

end Meters

/-- Evaluation counts its steps, and ample numbers make no difference to it. -/
theorem meters_congruence (limits : Limits) (host : Host σ) :
    Congruence limits limits host host (Meters limits) (Ample limits) where
  pure a := .of_steady host (.pure a)
  misuse line fault := .of_steady host (.misuse line fault)
  bind := .bind
  later := .later
  tick := .tick
  read env name line := .of_steady host (.read env name line)
  assign env name value line := .of_steady host (.assign env name value line)
  declare env name value fixed := .of_steady host (.declare env name value fixed)
  openScope env := .of_steady host (.openScope env)
  newClosure definition env := .of_steady host (.newClosure definition env)
  openRound env name := .of_steady host (.openRound env name)
  closeRound env inner name := .of_steady host (.closeRound env inner name)
  native native args callee line := .of_steady host (.callNative native args callee line)
  called _ _ h := h.between (fun _ => rfl) fun _ => rfl
  nested line h := h.nest line
  spent ample := .inr fun y => .of_spent ample.1 _ y
  enough {n bound₁ bound₂} α ample := by
    cases bound₂ with
    | zero => exact .inr fun x y => .of_spent ample.2 x y
    | succ bound =>
      have := ample.1
      have := ample.2
      exact .inl ⟨bound, rfl, by omega, by omega⟩

/-- The two numbers bound the calls inside one another and the rounds of a loop. When they are not
below the budget, what the computation does on the machine does not depend on them: it ends. Its
failure for want of steps means that the budget is spent. -/
def Terminates (limits : Limits) (m : Machine σ) (x : Nat → Nat → Eval σ α) : Prop :=
  ∃ ran, Spends limits m ran ∧
    ∀ calls rounds, limits.maxSteps ≤ calls → limits.maxSteps < rounds →
      (x calls rounds).run m = ran

theorem Terminates.of_meters {x : Nat → Nat → Eval σ α} (m : Machine σ)
    (h : ∀ calls rounds, limits.maxSteps ≤ calls → limits.maxSteps < rounds →
      Meters limits 0 (x limits.maxSteps (limits.maxSteps + 1)) (x calls rounds)) :
    Terminates limits m x := by
  have any (calls rounds : Nat) (le : limits.maxSteps ≤ calls) (lt : limits.maxSteps < rounds) :=
    h calls rounds le lt m (Nat.zero_le _) fun none => absurd none (Nat.lt_irrefl 0)
  exact ⟨_, (any _ _ (Nat.le_refl _) (Nat.lt_succ_self _)).2, fun calls rounds le lt =>
    (any calls rounds le lt).1⟩

section

variable (limits) (host : Host σ) (env : Env) (m : Machine σ)

theorem applies_meters {calls : Nat} (le : limits.maxSteps ≤ calls) (closure : Closure)
    (args : List Value) (line : Nat) :
    Meters limits (0 + 1) (invoke limits host limits.maxSteps closure args line)
      (invoke limits host calls closure args line) :=
  (meters_congruence limits host).invoke ⟨by omega, by omega⟩ closure args line

/-- Every evaluation of an expression ends. -/
theorem eval_terminates (e : Expr) :
    Terminates limits m fun calls _ => eval limits host (invoke limits host calls) env e :=
  .of_meters m fun _ _ le _ =>
    (meters_congruence limits host).eval (applies_meters limits host le) env e

/-- Every run of a statement ends. -/
theorem exec_terminates (statement : Stmt) :
    Terminates limits m fun calls rounds =>
      exec limits host (invoke limits host calls) rounds env statement :=
  .of_meters m fun _ _ le lt =>
    (meters_congruence limits host).exec (applies_meters limits host le) ⟨by omega, by omega⟩ env
      statement

end

end EventLoop.Eval
