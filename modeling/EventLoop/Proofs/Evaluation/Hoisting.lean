import EventLoop.Proofs.Evaluation.Congruence

/-!
# Definitions may stand anywhere in their block

The functions that statements define are known before the first of them runs, and a definition that
is met later does no more than count a step. So a block that has its definitions first does the
same, unless the steps run out. Nothing else that evaluation does depends on the steps made so far.
-/

namespace EventLoop

variable {σ α β : Type}

/-- The machine, as if it had made so many steps. -/
def Machine.withSteps (k : Nat) (m : Machine σ) : Machine σ :=
  { m with steps := k }

/-- The result tells that the steps have run out. -/
def Exhausted (result : Except ScriptError α) : Prop :=
  ∃ limit, result = .error (.budget limit)

namespace Eval

/-- The computation neither counts steps nor depends on how many were made. -/
def Stepless (x : Eval σ α) : Prop :=
  ∀ (k : Nat) (m : Machine σ), x.run (m.withSteps k) = ((x.run m).1, (x.run m).2.withSteps k)

namespace Stepless

theorem pure (a : α) : Stepless (Pure.pure a : Eval σ α) := fun _ _ => rfl

theorem throw (e : ScriptError) : Stepless (MonadExcept.throw e : Eval σ α) := fun _ _ => rfl

theorem bind {x : Eval σ α} {f : α → Eval σ β} (first : Stepless x)
    (second : ∀ a, Stepless (f a)) : Stepless (x >>= f) := by
  intro k m
  rw [run_bind, run_bind, first]
  rcases x.run m with ⟨_ | a, m'⟩
  · rfl
  · exact second a k m'

theorem get_bind {f : Machine σ → Eval σ α} (same : ∀ k m, f (m.withSteps k) = f m)
    (each : ∀ m, Stepless (f m)) : Stepless (get >>= f) := by
  intro k m
  rw [run_bind_ok (run_get m), run_bind_ok (run_get _), same]
  exact each m k m

theorem modifyGet {f : Machine σ → α × Machine σ}
    (same : ∀ k m, f (m.withSteps k) = ((f m).1, (f m).2.withSteps k)) :
    Stepless (modifyGet f : Eval σ α) := by
  intro k m
  rw [run_modifyGet, run_modifyGet, same]

theorem onHost (f : σ → σ) : Stepless (onHost f) := .modifyGet fun _ _ => rfl

theorem onScopes (f : Scopes → Scopes) : Stepless (onScopes f : Eval σ Unit) :=
  .modifyGet fun _ _ => rfl

theorem read (env : Env) (name : String) (line : Nat) :
    Stepless (read env name line : Eval σ Value) := by
  refine .get_bind (fun _ _ => rfl) ?_
  intro m
  cases m.scopes.read env name with
  | some value => exact .pure value
  | none => exact .throw _

theorem assign (env : Env) (name : String) (value : Value) (line : Nat) :
    Stepless (assign env name value line : Eval σ Unit) := by
  refine .get_bind (fun _ _ => rfl) ?_
  intro m
  cases m.scopes.resolve env name with
  | none => exact .throw _
  | some target =>
    obtain ⟨id, binding⟩ := target
    cases fixed : binding.fixed with
    | true =>
      simp only [fixed, if_true]
      exact .bind (.throw (.misuse line (.assignedConstant name))) fun _ => .onScopes _
    | false =>
      simp only [fixed, Bool.false_eq_true, if_false]
      exact .onScopes _

theorem openScope (env : Env) : Stepless (openScope env : Eval σ Env) := .modifyGet fun _ _ => rfl

theorem declare (env : Env) (name : String) (value : Value) (fixed : Bool) :
    Stepless (declare env name value fixed : Eval σ Unit) := by
  cases env with
  | nil => exact .pure ()
  | cons id _ => exact .onScopes (·.declare id name ⟨value, fixed⟩)

theorem newClosure (definition : Definition) (env : Env) :
    Stepless (newClosure definition env : Eval σ Closure) := .modifyGet fun _ _ => rfl

theorem newPromise (state : PromiseState) : Stepless (newPromise state : Eval σ PromiseId) :=
  .modifyGet fun _ _ => rfl

theorem openRound (env : Env) (name : Option String) :
    Stepless (openRound env name : Eval σ Env) := by
  refine .bind (.openScope env) ?_
  intro inner
  cases name with
  | none => exact .pure inner
  | some name =>
    exact .get_bind (fun _ _ => rfl) fun m =>
      .bind (.declare inner name _ false) fun _ => .pure inner

theorem closeRound (env inner : Env) (name : Option String) :
    Stepless (closeRound env inner name : Eval σ Unit) := by
  cases name with
  | none => exact .pure ()
  | some name =>
    refine .get_bind (fun _ _ => rfl) ?_
    intro m
    cases env with
    | nil => exact .pure ()
    | cons id _ => exact .onScopes _

theorem wantFunction (args : List Value) (primitive : String) (line : Nat) :
    Stepless (wantFunction args primitive line : Eval σ Closure) := by
  unfold Eval.wantFunction
  split <;> first | exact .pure _ | exact .throw _

variable (host : Host σ)

theorem chain (receiver : PromiseId) (args : List Value) (line : Nat) :
    Stepless (chain host receiver args line) := by
  refine .bind (.wantFunction args _ line) ?_
  intro function
  refine .bind (.newPromise _) ?_
  intro next
  refine .get_bind (fun _ _ => rfl) ?_
  intro m
  have told (callback : Option Callback) : Stepless
      (do Eval.onHost (host.chain callback line); return Value.promise next) :=
    .bind (.onHost (host.chain callback line)) fun _ => .pure _
  cases m.promises[receiver]? with
  | none => exact .bind (.throw (.misuse line .droppedPromise)) fun _ => .pure _
  | some state =>
    cases state with
    | resolved value => exact told _
    | pending waiting => exact .bind (.modifyGet fun _ _ => rfl) fun _ => told none

theorem callNative (native : Native) (args : List Value) (callee : Expr) (line : Nat) :
    Stepless (callNative host native args callee line) := by
  cases native with
  | console | promise => exact .throw _
  | log => exact .bind (.onHost _) fun _ => .pure _
  | setTimeout =>
    exact .bind (.wantFunction args _ line) fun _ => .bind (.modifyGet fun _ _ => rfl) fun _ =>
      .pure _
  | queueMicrotask =>
    exact .bind (.wantFunction args _ line) fun _ => .bind (.onHost _) fun _ => .pure _
  | resolve =>
    unfold Eval.callNative
    cases args.head?.getD .undefined with
    | promise p => exact .pure _
    | _ => exact .bind (.newPromise _) fun _ => .pure _
  | thenOf receiver => exact .chain host receiver args line

end Stepless

/-- Unless steps run out, the computations have the same result and leave machines that are equal
but for their steps, if they begin on such machines. -/
def SameButSteps (x y : Eval σ α) : Prop :=
  ∀ (k : Nat) (m : Machine σ), Exhausted (x.run m).1 ∨ Exhausted (y.run (m.withSteps k)).1 ∨
    ∃ k', y.run (m.withSteps k) = ((x.run m).1, (x.run m).2.withSteps k')

namespace SameButSteps

variable {limits : Limits} {host : Host σ}

theorem of_stepless {x : Eval σ α} (stepless : Stepless x) : SameButSteps x x :=
  fun k m => .inr (.inr ⟨k, stepless k m⟩)

theorem bind {x y : Eval σ α} {f g : α → Eval σ β} (first : SameButSteps x y)
    (second : ∀ a, SameButSteps (f a) (g a)) : SameButSteps (x >>= f) (y >>= g) := by
  intro k m
  have started := first k m
  rw [run_bind, run_bind]
  generalize x.run m = ran₁ at started ⊢
  generalize y.run (m.withSteps k) = ran₂ at started ⊢
  obtain ⟨result₁, m₁⟩ := ran₁
  obtain ⟨result₂, m₂⟩ := ran₂
  rcases started with ⟨limit, out⟩ | ⟨limit, out⟩ | ⟨k', same⟩
  · cases out
    exact .inl ⟨limit, rfl⟩
  · cases out
    exact .inr (.inl ⟨limit, rfl⟩)
  · cases same
    cases result₁ with
    | error e => exact .inr (.inr ⟨k', rfl⟩)
    | ok a => exact second a k' m₁

/-- A step that only the first makes is no difference. -/
theorem tick_left {x : Unit → Eval σ α} {y : Eval σ α} (same : SameButSteps (x ()) y) :
    SameButSteps (tick limits >>= x) y := by
  intro k m
  have counted := run_tick limits m
  by_cases spent : limits.maxSteps ≤ m.steps
  · rw [if_pos spent] at counted
    exact .inl ⟨limits.maxSteps, by rw [run_bind_error counted]⟩
  · rw [if_neg spent] at counted
    rw [run_bind_ok counted]
    exact same k m.tick

/-- Nor is one that only the second makes. -/
theorem tick_right {x : Eval σ α} {y : Unit → Eval σ α} (same : SameButSteps x (y ())) :
    SameButSteps x (tick limits >>= y) := by
  intro k m
  have counted : (tick limits).run (m.withSteps k) =
      if limits.maxSteps ≤ k then (.error (.budget limits.maxSteps), m.withSteps (k + 1))
      else (.ok ⟨⟩, m.withSteps (k + 1)) := run_tick limits (m.withSteps k)
  by_cases spent : limits.maxSteps ≤ k
  · rw [if_pos spent] at counted
    exact .inr (.inl ⟨limits.maxSteps, by rw [run_bind_error counted]⟩)
  · rw [if_neg spent] at counted
    rw [run_bind_ok counted]
    exact same (k + 1) m

theorem between {x y : Eval σ α} {before after : Machine σ → Machine σ}
    (first : ∀ k m, before (m.withSteps k) = (before m).withSteps k) (same : SameButSteps x y)
    (last : ∀ k m, after (m.withSteps k) = (after m).withSteps k) :
    SameButSteps (between before after x) (between before after y) := by
  intro k m
  rw [run_between, run_between, first]
  refine (same k (before m)).imp id (.imp id ?_)
  rintro ⟨k', ran⟩
  exact ⟨k', by rw [ran, last]⟩

theorem nest {x y : Eval σ Value} (line : Nat) (same : SameButSteps x y) :
    SameButSteps (nest limits line x) (nest limits line y) := by
  intro k m
  have inside : SameButSteps (Eval.between Machine.deeper Machine.shallower x)
      (Eval.between Machine.deeper Machine.shallower y) :=
    .between (fun _ _ => rfl) same fun _ _ => rfl
  rw [run_nest, run_nest]
  by_cases deep : limits.maxCallDepth ≤ m.depth
  · have deep' : limits.maxCallDepth ≤ (m.withSteps k).depth := deep
    rw [if_pos deep, if_pos deep']
    exact .inr (.inr ⟨k, rfl⟩)
  · have deep' : ¬ limits.maxCallDepth ≤ (m.withSteps k).depth := deep
    rw [if_neg deep, if_neg deep']
    exact inside k m

/-- How many steps were made makes no difference to evaluation, unless they run out. -/
theorem congruence (limits : Limits) (host : Host σ) :
    Congruence limits limits host host (fun _ => SameButSteps) (fun _ a b => a = b) where
  pure a := .of_stepless (.pure a)
  misuse _ _ := .of_stepless (.throw _)
  bind := .bind
  later same := same
  tick same := .tick_left (.tick_right (same ()))
  read env name line := .of_stepless (.read env name line)
  assign env name value line := .of_stepless (.assign env name value line)
  declare env name value fixed := .of_stepless (.declare env name value fixed)
  openScope env := .of_stepless (.openScope env)
  newClosure definition env := .of_stepless (.newClosure definition env)
  openRound env name := .of_stepless (.openRound env name)
  closeRound env inner name := .of_stepless (.closeRound env inner name)
  native native args callee line := .of_stepless (.callNative host native args callee line)
  called _ _ same := .between (fun _ _ => rfl) same fun _ _ => rfl
  nested line same := same.nest line
  spent same := .inl ⟨same.symm, .of_stepless (.throw _)⟩
  enough := fun {_ bound₁ _ _} same => .inl ⟨bound₁, same.symm, rfl⟩

end SameButSteps

end Eval

/-- Does the statement define a function? -/
def Stmt.isDefinition : Stmt → Bool
  | .define _ => true
  | _ => false

/-- The statements with those first that define functions, and otherwise in the same order. -/
def definitionsFirst (statements : List Stmt) : List Stmt :=
  statements.filter Stmt.isDefinition ++ statements.filter (!·.isDefinition)

namespace Eval

/-- What is made known in advance are the definitions. -/
theorem hoist_filter (env : Env) (statements : List Stmt) :
    (hoist env (statements.filter Stmt.isDefinition) : Eval σ Unit) = hoist env statements := by
  induction statements with
  | nil => rfl
  | cons statement rest ih =>
    cases statement with
    | define definition =>
      rw [List.filter_cons_of_pos rfl, hoist, hoist, ih]
    | _ =>
      rw [List.filter_cons_of_neg (by simp [Stmt.isDefinition]), ih, hoist]
      simp

theorem hoist_definitionsFirst (env : Env) (statements : List Stmt) :
    (hoist env (definitionsFirst statements) : Eval σ Unit) = hoist env statements := by
  have same : (definitionsFirst statements).filter Stmt.isDefinition =
      statements.filter Stmt.isDefinition := by
    simp [definitionsFirst, List.filter_append, List.filter_filter]
  rw [← hoist_filter, same, hoist_filter]

section

variable (limits : Limits) (host : Host σ) (calls bound : Nat) (env : Env)

/-- A definition that is met counts a step. -/
theorem execAll_definition {statement : Stmt} (definition : statement.isDefinition = true)
    (apply : Apply σ) (rest : List Stmt) :
    execAll limits host apply bound env (statement :: rest) =
      tick limits >>= fun _ => execAll limits host apply bound env rest := by
  cases statement with
  | define => simp only [execAll, exec, bind_assoc, pure_bind]
  | _ => cases definition

/-- Statements that run in order do the same without their definitions. -/
theorem execAll_filter (statements : List Stmt) :
    SameButSteps (execAll limits host (invoke limits host calls) bound env statements)
      (execAll limits host (invoke limits host calls) bound env
        (statements.filter (!·.isDefinition))) := by
  have c := SameButSteps.congruence limits host
  induction statements with
  | nil => exact .of_stepless (.pure Flow.normal)
  | cons statement rest ih =>
    cases definition : statement.isDefinition with
    | true =>
      rw [execAll_definition limits host bound env definition,
        List.filter_cons_of_neg (by simp [definition])]
      exact .tick_left ih
    | false =>
      rw [List.filter_cons_of_pos (by simp [definition]), execAll, execAll]
      refine .bind (c.exec (n := 0)
        (fun closure args line => c.invoke (n := 1) rfl closure args line)
        rfl env statement) ?_
      intro flow
      cases flow with
      | normal => exact ih
      | _ => exact .of_stepless (.pure _)

/-- Definitions in front of statements that run in order make no difference. -/
theorem execAll_append {x : Eval σ Flow} {definitions : List Stmt}
    (all : ∀ statement ∈ definitions, statement.isDefinition = true) {apply : Apply σ}
    {others : List Stmt} (same : SameButSteps x (execAll limits host apply bound env others)) :
    SameButSteps x (execAll limits host apply bound env (definitions ++ others)) := by
  induction definitions with
  | nil => exact same
  | cons statement rest ih =>
    obtain ⟨definition, all⟩ := List.forall_mem_cons.mp all
    rw [List.cons_append, execAll_definition limits host bound env definition]
    exact .tick_right (ih all)

theorem execBlock_sameButSteps (statements : List Stmt) :
    SameButSteps (execBlock limits host (invoke limits host calls) bound env statements)
      (execBlock limits host (invoke limits host calls) bound env
        (definitionsFirst statements)) := by
  unfold execBlock
  rw [hoist_definitionsFirst]
  refine .bind ((SameButSteps.congruence limits host).hoist (n := 0) env statements) ?_
  intro _
  refine execAll_append limits host bound env (fun statement member => ?_)
    (execAll_filter limits host calls bound env statements)
  exact (List.mem_filter.mp member).2

end

/-- The definitions of a program, of a block or of the body of a function may stand anywhere among
its statements: with the definitions first, and in any environment and on any machine and host, it
has the same result and leaves the same machine and host but for the number of steps, if the steps
do not run out in either. -/
theorem execBlock_definitionsFirst (limits : Limits) (host : Host σ) (calls bound : Nat)
    (env : Env) (statements : List Stmt) (m : Machine σ)
    (lasts : ¬ Exhausted
      ((execBlock limits host (invoke limits host calls) bound env statements).run m).1)
    (lasts' : ¬ Exhausted ((execBlock limits host (invoke limits host calls) bound env
      (definitionsFirst statements)).run m).1) :
    ∃ k, (execBlock limits host (invoke limits host calls) bound env
        (definitionsFirst statements)).run m =
      (((execBlock limits host (invoke limits host calls) bound env statements).run m).1,
        ((execBlock limits host (invoke limits host calls) bound env statements).run
          m).2.withSteps k) := by
  rcases execBlock_sameButSteps limits host calls bound env statements m.steps m with
    out | out | same
  · exact absurd out lasts
  · exact absurd out lasts'
  · exact same

theorem execBlock_definitionsFirst_late :
    let late : List Stmt :=
      [.evaluate (.call 1 (.name 1 "f") []), .define ⟨some "f", [], .block [], 2⟩]
    ∃ m' k, (execBlock ⟨9, 9⟩ Host.silent (invoke ⟨9, 9⟩ Host.silent 1) 1 globalEnv late).run
        (.initial ()) = (.ok .normal, m') ∧
      (execBlock ⟨9, 9⟩ Host.silent (invoke ⟨9, 9⟩ Host.silent 1) 1 globalEnv
        (definitionsFirst late)).run (.initial ()) = (.ok .normal, m'.withSteps k) := by
  intro late
  have lasts : ((execBlock ⟨9, 9⟩ Host.silent (invoke ⟨9, 9⟩ Host.silent 1) 1 globalEnv late).run
      (.initial ())).1 = .ok .normal := rfl
  have lasts' : ((execBlock ⟨9, 9⟩ Host.silent (invoke ⟨9, 9⟩ Host.silent 1) 1 globalEnv
      (definitionsFirst late)).run (.initial ())).1 = .ok .normal := rfl
  obtain ⟨k, same⟩ := execBlock_definitionsFirst ⟨9, 9⟩ Host.silent 1 1 globalEnv late
    (.initial ()) (by rw [lasts]; exact fun ⟨_, out⟩ => by cases out)
    (by rw [lasts']; exact fun ⟨_, out⟩ => by cases out)
  exact ⟨_, k, Prod.ext lasts rfl, same.trans (Prod.ext lasts rfl)⟩

end Eval

end EventLoop
