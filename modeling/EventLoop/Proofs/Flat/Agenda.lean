import EventLoop.Proofs.Flat.Evaluation

/-!
# The agenda of a flat script

An agenda says what a plain event loop has printed, and what the callbacks that it holds will print.
For each thing that a flat script does to a machine there is one that it does to the agenda, so an
operation, and a job on the agenda, is followed step by step. Steps are accounted for in advance:
an operation pays for the jobs that it puts on the agenda.
-/

namespace EventLoop

open Eval FlatOp

/-- What a plain event loop has printed, and what its callbacks will print. -/
structure Agenda where
  deferred : List Job
  /-- What the callbacks of timers print, with their delays. -/
  waiting : List (Nat × String)
  output : List String

namespace Agenda

def print (label : String) (agenda : Agenda) : Agenda :=
  { agenda with output := agenda.output ++ [label] }

def defer (job : Job) (agenda : Agenda) : Agenda :=
  { agenda with deferred := agenda.deferred ++ [job] }

def addTimer (delay : Nat) (label : String) (agenda : Agenda) : Agenda :=
  { agenda with waiting := agenda.waiting ++ [(delay, label)] }

/-- The agenda after an operation. -/
def perform (label : String) : FlatOp → Agenda → Agenda
  | .print => print label
  | .timer delay => addTimer delay label
  | .deferred | .continuation => defer (.prints label)
  | .nested => defer (.nests label)

/-- The agenda after a job that was on it. -/
def run : Job → Agenda → Agenda
  | .prints label => print label
  | .nests label => fun agenda => (agenda.print label).defer (.prints (nestedLabel label))

/-- The steps that all jobs together take. -/
def steps (agenda : Agenda) : Nat :=
  (agenda.deferred.map Job.steps).sum + agenda.waiting.length

end Agenda

/-- The steps that an operation takes, with those of its jobs. -/
def FlatOp.steps : FlatOp → Nat
  | print => 2
  | timer _ | deferred => 3
  | nested => 7
  | continuation => 4

namespace FlatScript

/-- The steps that a script takes, with those of its jobs. -/
def steps : FlatScript → Nat
  | [] => 0
  | (_, op) :: rest => steps rest + op.steps

theorem statements_evaluate (script : FlatScript) (line : Nat) :
    ∀ statement ∈ script.statements line, ∃ e, statement = .evaluate e := by
  induction script generalizing line with
  | nil => simp [statements]
  | cons first rest ih => simpa [statements] using ih (line + 1)

/-- The agenda after the operations of a script. -/
def performed : FlatScript → Agenda → Agenda
  | [], agenda => agenda
  | (label, op) :: rest, agenda => performed rest (agenda.perform label op)

end FlatScript

/-- Nothing waits for any of the promises. -/
def Promises.Unawaited (promises : Promises) : Prop :=
  ∀ (p : PromiseId) (reactions : List Reaction), promises[p]? = some (.pending reactions) →
    reactions = []

/-- The timer's callback prints the label after the same delay. -/
def Timed (scopes : Scopes) (entry : Nat × Callback) (timer : Nat × String) : Prop :=
  entry.1 = timer.1 ∧ entry.2.Does scopes (.prints timer.2)

/-- The machine, in so many calls, holds what is on the agenda. It has steps for that, and so many
more. Nothing waits for a promise. -/
structure Fits (limits : Limits) (depth : Nat) (agenda : Agenda) (reserve : Nat)
    (m : Machine Plain) : Prop where
  globals : m.scopes.Sees globalEnv
  depth : m.depth = depth
  unawaited : m.promises.Unawaited
  deferred : List.Forall₂ (Callback.Does m.scopes) m.host.deferred agenda.deferred
  waiting : List.Forall₂ (Timed m.scopes) m.host.waiting agenda.waiting
  output : m.host.output = agenda.output
  affords : m.steps + agenda.steps + reserve ≤ limits.maxSteps

namespace Fits

variable {limits : Limits} {depth reserve : Nat} {agenda : Agenda} {m : Machine Plain}

theorem lt (fits : Fits limits depth agenda (reserve + 1) m) : m.steps < limits.maxSteps := by
  have affords := fits.affords
  omega

theorem tick (fits : Fits limits depth agenda (reserve + 1) m) :
    Fits limits depth agenda reserve m.tick :=
  { fits with
    affords := by
      have affords := fits.affords
      simp only [Machine.tick]
      omega }

theorem withClosure (fits : Fits limits depth agenda reserve m) :
    Fits limits depth agenda reserve m.withClosure :=
  { fits with }

theorem withPromise (fits : Fits limits depth agenda reserve m) (state : PromiseState)
    (new : ∀ reactions, state = .pending reactions → reactions = []) :
    Fits limits depth agenda reserve (m.withPromise state) :=
  { fits with
    unawaited := by
      intro p reactions found
      simp only [Machine.withPromise, Array.getElem?_push] at found
      split at found
      · exact new reactions (Option.some.inj found)
      · exact fits.unawaited p reactions found }

theorem deeper (fits : Fits limits depth agenda reserve m) :
    Fits limits (depth + 1) agenda reserve m.deeper :=
  { fits with depth := congrArg (· + 1) fits.depth }

theorem shallower (fits : Fits limits (depth + 1) agenda reserve m) :
    Fits limits depth agenda reserve m.shallower :=
  { fits with depth := congrArg (· - 1) fits.depth }

/-- A new scope changes the meaning of no name. -/
theorem openScope (fits : Fits limits depth agenda reserve m) :
    Fits limits depth agenda reserve { m with scopes := m.scopes.push [] } :=
  { fits with
    globals := fits.globals.push
    deferred := fits.deferred.imp fun _ _ does => does.push
    waiting := fits.waiting.imp fun _ _ timed => ⟨timed.1, timed.2.push⟩ }

theorem print (fits : Fits limits depth agenda reserve m) (label : String) :
    Fits limits depth (agenda.print label) reserve (m.onHost (·.printLine label)) :=
  { fits with output := congrArg (· ++ [label]) fits.output }

theorem defer (job : Job) (fits : Fits limits depth agenda (reserve + job.steps) m)
    {callback : Callback} (does : callback.Does m.scopes job) :
    Fits limits depth (agenda.defer job) reserve (m.onHost (·.defer callback)) :=
  { fits with
    deferred := List.rel_append fits.deferred (.cons does .nil)
    affords := by
      have affords := fits.affords
      simp [Agenda.steps, Agenda.defer, Machine.onHost] at affords ⊢
      omega }

theorem addTimer {label : String} (fits : Fits limits depth agenda (reserve + 1) m) (delay : Nat)
    {callback : Callback} (does : callback.Does m.scopes (.prints label)) :
    Fits limits depth (agenda.addTimer delay label) reserve
      (m.onHost (·.addTimer delay callback)) :=
  { fits with
    waiting := List.rel_append fits.waiting (.cons ⟨rfl, does⟩ .nil)
    affords := by
      have affords := fits.affords
      simp [Agenda.steps, Agenda.addTimer, Machine.onHost] at affords ⊢
      omega }

end Fits

section

variable {limits : Limits} {apply : Apply Plain} {bound : Nat} {m n : Machine Plain}
  {agenda : Agenda} {depth reserve : Nat}

/-- Where no statement defines a function, a block only executes its statements. -/
theorem execBlock_evaluate {env : Env} {statements : List Stmt}
    (plain : ∀ statement ∈ statements, ∃ e, statement = .evaluate e) :
    execBlock limits Plain.host apply bound env statements =
      execAll limits Plain.host apply bound env statements := by
  have none : (hoist env statements : Eval Plain Unit) = pure () := by
    induction statements with
    | nil => rfl
    | cons statement rest ih =>
      obtain ⟨⟨e, rfl⟩, others⟩ := List.forall_mem_cons.mp plain
      exact ih others
  rw [execBlock, none]
  rfl

theorem exec_evaluate {env : Env} {e : Expr} {value : Value} (affords : m.steps < limits.maxSteps)
    (run : (eval limits Plain.host apply env e).run m.tick = (.ok value, n)) :
    (exec limits Plain.host apply bound env (.evaluate e)).run m = (.ok .normal, n) := by
  rw [exec, run_bind_ok (run_tick_of_lt affords), run_bind_ok run]
  rfl

/-- An operation does to the machine what it does to the agenda. -/
theorem exec_op (op : FlatOp) (small : ∀ delay, op = .timer delay → delay < 2 ^ 53) (line : Nat)
    (label : String) (fits : Fits limits depth agenda (reserve + op.steps) m) :
    ∃ n, (exec limits Plain.host apply bound globalEnv (.evaluate (op.expr line label))).run m =
      (.ok .normal, n) ∧ Fits limits depth (agenda.perform label op) reserve n := by
  have sees : m.tick.scopes.Sees globalEnv := fits.globals
  cases op with
  | print =>
    have fits : Fits limits depth agenda (reserve + 2) m := fits
    exact ⟨_, exec_evaluate fits.lt (eval_log sees fits.tick.lt line label),
      fits.tick.tick.print label⟩
  | timer delay =>
    have fits : Fits limits depth agenda (reserve + 3) m := fits
    obtain ⟨value, run⟩ := eval_setTimeout sees fits.tick.lt line ((Job.prints label).body line)
      (small delay rfl)
    exact ⟨_, exec_evaluate fits.lt run,
      fits.tick.withClosure.tick.addTimer delay ⟨fits.globals, line, rfl⟩⟩
  | deferred =>
    have fits : Fits limits depth agenda (reserve + 3) m := fits
    exact ⟨_, exec_evaluate fits.lt (eval_defer sees fits.tick.lt line _),
      fits.tick.withClosure.tick.defer (.prints label) ⟨fits.globals, line, rfl⟩⟩
  | nested =>
    have fits : Fits limits depth agenda (reserve + 7) m := fits
    exact ⟨_, exec_evaluate fits.lt (eval_defer sees fits.tick.lt line _),
      fits.tick.withClosure.tick.defer (.nests label) ⟨fits.globals, line, rfl⟩⟩
  | continuation =>
    have fits : Fits limits depth agenda (reserve + 4) m := fits
    have resolved := fits.tick.tick.withPromise (.resolved .undefined) (by simp)
    have pending := resolved.withClosure.tick.withPromise (.pending []) (by simp)
    exact ⟨_, exec_evaluate fits.lt (eval_then sees fits.tick.tick.lt line _),
      pending.defer (.prints label) ⟨fits.globals, line, rfl⟩⟩

/-- The operations of a script do to the machine what they do to the agenda. -/
theorem execAll_statements (script : FlatScript) (readable : script.Readable) (line : Nat)
    (fits : Fits limits depth agenda (reserve + script.steps) m) :
    ∃ n, (execAll limits Plain.host apply bound globalEnv (script.statements line)).run m =
      (.ok .normal, n) ∧ Fits limits depth (script.performed agenda) reserve n := by
  induction script generalizing line agenda m with
  | nil => exact ⟨m, rfl, fits⟩
  | cons first rest ih =>
    obtain ⟨label, op⟩ := first
    obtain ⟨⟨-, small⟩, others⟩ := List.forall_mem_cons.mp readable
    have fits : Fits limits depth agenda (reserve + FlatScript.steps rest + op.steps) m := by
      rw [Nat.add_assoc]
      exact fits
    obtain ⟨n₁, first, fits₁⟩ := exec_op op small line label fits
    obtain ⟨n, later, fits⟩ := ih others (line + 1) fits₁
    refine ⟨n, ?_, fits⟩
    rw [FlatScript.statements, execAll, run_bind_ok first]
    exact later

/-- A block that prints a label and defers a job that prints the nested one. -/
theorem execBlock_nests {env : Env} (sees : m.scopes.Sees env) (line : Nat) (label : String)
    (fits : Fits limits depth agenda (reserve + 5) m) :
    ∃ n, (execBlock limits Plain.host apply bound env [.evaluate (logCall line label),
        .evaluate (deferCall line (logger line (nestedLabel label)))]).run m = (.ok .normal, n) ∧
      Fits limits depth (agenda.run (.nests label)) reserve n := by
  let m₁ := m.tick.tick.onHost (·.printLine label)
  have printed : Fits limits depth (agenda.print label) (reserve + 3) m₁ :=
    fits.tick.tick.print label
  let callback := Callback.plain
    (m₁.tick.nextClosure env line ((Job.prints (nestedLabel label)).body line))
  have does : callback.Does m₁.scopes (.prints (nestedLabel label)) := ⟨sees, line, rfl⟩
  have ticked : m.tick.scopes.Sees env := sees
  have ticked₁ : m₁.tick.scopes.Sees env := sees
  have first : (exec limits Plain.host apply bound env (.evaluate (logCall line label))).run m =
      (.ok .normal, m₁) :=
    exec_evaluate fits.lt (eval_log ticked fits.tick.lt line label)
  have second : (exec limits Plain.host apply bound env
      (.evaluate (deferCall line (logger line (nestedLabel label))))).run m₁ = (.ok .normal, _) :=
    exec_evaluate printed.lt (eval_defer ticked₁ printed.tick.lt line _)
  refine ⟨_, ?_, printed.tick.withClosure.tick.defer (.prints (nestedLabel label)) does⟩
  rw [execBlock_evaluate (by simp), execAll, run_bind_ok first]
  dsimp only
  rw [execAll, run_bind_ok second]
  rfl

/-- The function of a job does what the job does to the agenda. -/
theorem enterBody_job (job : Job) {callback : Callback} (does : callback.Does m.scopes job)
    (args : List Value) (fits : Fits limits depth agenda (reserve + job.steps) m) :
    ∃ n, (enterBody limits Plain.host apply bound callback.function args).run m =
      (.ok .undefined, n) ∧ Fits limits depth (agenda.run job) reserve n := by
  obtain ⟨⟨identity, definition, env⟩, argument, settles⟩ := callback
  obtain ⟨sees, line, same⟩ := does
  cases same
  have inside : Scopes.Sees (m.scopes.push []) (m.scopes.size :: env) := sees.inside
  cases job with
  | prints label =>
    have fits : Fits limits depth agenda (reserve + 1) m := fits
    exact ⟨_, eval_log inside fits.openScope.lt line label, fits.openScope.tick.print label⟩
  | nests label =>
    have fits : Fits limits depth agenda (reserve + 5) m := fits
    obtain ⟨n, ran, after⟩ := execBlock_nests inside line label fits.openScope
    exact ⟨n, run_bind_ok ran, after⟩

end

namespace Promises.Unawaited

variable {promises : Promises}

/-- When nothing waits for promises, a value that is no promise releases nothing. -/
theorem settle (unawaited : promises.Unawaited) (p : PromiseId) :
    (promises.settle p .undefined).1.Unawaited ∧ (promises.settle p .undefined).2 = [] := by
  show (propagate .undefined promises [.follow p]).1.Unawaited ∧
    (propagate .undefined promises [.follow p]).2 = []
  by_cases pending : ∃ waiting, promises[p]? = some (.pending waiting)
  · obtain ⟨waiting, found⟩ := pending
    rw [propagate_pending _ found, unawaited p waiting found, List.append_nil, propagate_nil]
    refine ⟨?_, rfl⟩
    intro q reactions found'
    rw [Array.getElem?_setIfInBounds] at found'
    split at found'
    · split at found' <;> cases found'
    · exact unawaited q reactions found'
  · have other : ∀ waiting, promises[p]? ≠ some (.pending waiting) := by
      intro waiting found
      exact pending ⟨waiting, found⟩
    rw [propagate_other _ other, propagate_nil]
    exact ⟨unawaited, rfl⟩

end Promises.Unawaited

section

variable {limits : Limits} {m : Machine Plain} {agenda : Agenda} {depth reserve : Nat}

theorem Fits.finish (fits : Fits limits depth agenda reserve m) (settles : Option PromiseId) :
    Fits limits depth agenda reserve (m.finish Plain.host settles .undefined) := by
  cases settles with
  | none => exact fits
  | some p =>
    obtain ⟨unawaited, released⟩ := fits.unawaited.settle p
    have same : m.settle Plain.host p .undefined =
        { m with promises := (m.promises.settle p .undefined).1 } := by
      simp [Machine.settle, released]
    rw [Machine.finish, same]
    exact { fits with unawaited := unawaited }

/-- A callback does its job. -/
theorem runCallback_job (job : Job) {callback : Callback} (does : callback.Does m.scopes job)
    (calls : 1 ≤ limits.maxCallDepth) (fits : Fits limits 0 agenda (reserve + job.steps) m) :
    ∃ n, (runCallback limits Plain.host callback).run m = (.ok (), n) ∧
      Fits limits 0 (agenda.run job) reserve n := by
  have shallow : ¬ limits.maxCallDepth ≤ m.depth := by
    rw [fits.depth]
    omega
  obtain ⟨n, ran, fits⟩ :=
    enterBody_job job (m := m.deeper) does callback.argument.toList fits.deeper
  refine ⟨n.shallower.finish Plain.host callback.settles .undefined, ?_,
    fits.shallower.finish callback.settles⟩
  rw [run_runCallback, invoke_succ, run_nest, if_neg shallow]
  rw [ran]

theorem Fits.initial (affords : reserve ≤ limits.maxSteps) :
    Fits limits 0 ⟨[], [], []⟩ reserve (.initial .empty) where
  globals := by
    intro name
    cases found : globalScope.find? name <;>
      simp [Machine.initial, Scopes.read, Scopes.resolve, Scopes.find?, globalEnv, found]
  depth := rfl
  unawaited := by
    intro p reactions found
    cases found
  deferred := .nil
  waiting := .nil
  output := rfl
  affords := by
    simpa [Machine.initial, Agenda.steps] using affords

/-- A flat script does to a new machine what it does to an empty agenda. -/
theorem runScript_statements (script : FlatScript) (readable : script.Readable) (line : Nat)
    (affords : script.steps ≤ limits.maxSteps) :
    ∃ n, (runScript limits Plain.host (script.statements line)).run (.initial .empty) =
      (.ok (), n) ∧ Fits limits 0 (script.performed ⟨[], [], []⟩) 0 n := by
  have fits : Fits limits 0 ⟨[], [], []⟩ (0 + script.steps) (.initial .empty) := by
    rw [Nat.zero_add]
    exact .initial affords
  obtain ⟨n, ran, fits⟩ := execAll_statements script readable line fits
  have main : (execBlock limits Plain.host (invoke limits Plain.host limits.maxSteps)
      (limits.maxSteps + 1) globalEnv (script.statements line)).run (.initial .empty) =
        (.ok .normal, n) := by
    rw [execBlock_evaluate (script.statements_evaluate line)]
    exact ran
  exact ⟨n, run_bind_ok main, fits⟩

end

end EventLoop
