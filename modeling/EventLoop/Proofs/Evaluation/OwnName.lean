import EventLoop.Loop.Generation
import EventLoop.Proofs.Evaluation.Compound

/-!
# What a function's own name means in its body

A call opens a scope inside the environment of the closure, binds the parameters there, and makes
the functions known that the body defines. So a name that is neither a parameter nor defined in the
body means at its start what it means outside. This goes for the own name of a function expression,
too: to evaluate the expression binds nothing, and the closure finds itself under its own name only
if a scope around it binds that name to the closure. A function that a statement defines does find
itself, since the name is bound in the block whose scope the closure is made in.
-/

namespace EventLoop

variable {σ : Type}

/-- The names of the functions that statements of a block define. -/
def Stmt.eachDefines : List Stmt → List String
  | [] => []
  | .define definition :: rest => definition.name.toList ++ Stmt.eachDefines rest
  | _ :: rest => Stmt.eachDefines rest

/-- The names of the functions known from the start of a body. -/
def Body.defines : Body → List String
  | .block statements => Stmt.eachDefines statements
  | .value _ => []

namespace Scopes

theorem resolve_push (scopes : Scopes) (env : Env) (name : String) :
    Scopes.resolve (scopes.push []) env name = scopes.resolve env name := by
  simp only [Scopes.resolve, find?_push]

/-- A scope that is not there yet binds nothing. -/
theorem resolve_size_cons (scopes : Scopes) (env : Env) (name : String) :
    scopes.resolve (scopes.size :: env) name = scopes.resolve env name := by
  have missing : scopes.find? scopes.size name = none := by simp [Scopes.find?]
  simp [Scopes.resolve, missing]

theorem read_declare_self {scopes : Scopes} {id : ScopeId} (lt : id < scopes.size) (env : Env)
    (name : String) (binding : Binding) :
    Scopes.read (scopes.declare id name binding) (id :: env) name = some binding.value := by
  simp [Scopes.read, Scopes.resolve, find?_declare, lt]

end Scopes

namespace Eval

namespace Leaves

variable {outer : Env} {x : String}

theorem openScope (env : Env) : Leaves outer x (Eval.openScope env : Eval σ Env) :=
  fun m => Scopes.resolve_push m.scopes outer x

theorem declare {name : String} (other : name ≠ x) (env : Env) (value : Value) (fixed : Bool) :
    Leaves outer x (Eval.declare env name value fixed : Eval σ Unit) := by
  intro m
  cases env with
  | nil => rfl
  | cons id rest => exact Scopes.resolve_declare_of_ne other m.scopes outer id ⟨value, fixed⟩

theorem bindParams (env : Env) {params : List String} (notParam : x ∉ params)
    (args : List Value) : Leaves outer x (Eval.bindParams env params args : Eval σ Unit) := by
  induction params generalizing args with
  | nil => exact .pure ()
  | cons param rest ih =>
    obtain ⟨other, notParam⟩ := List.ne_and_not_mem_of_not_mem_cons notParam
    exact (declare (Ne.symm other) env _ false).bind fun _ => ih notParam args.tail

theorem hoist (env : Env) {statements : List Stmt}
    (notDefined : x ∉ Stmt.eachDefines statements) :
    Leaves outer x (Eval.hoist env statements : Eval σ Unit) := by
  induction statements with
  | nil => exact .pure ()
  | cons statement rest ih =>
    cases statement with
    | define definition =>
      obtain ⟨other, others⟩ := not_or.mp (mt List.mem_append.mpr notDefined)
      obtain ⟨_ | name, params, body, line⟩ := definition
      · exact ih others
      · have other : name ≠ x := fun same => other (same ▸ List.mem_singleton_self name)
        exact (newClosure _ env).bind fun _ =>
          (declare other env _ false).bind fun _ => ih others
    | _ => exact ih notDefined

end Leaves

/-- What a call does before the body of the closure begins: it gives the environment of the
body. -/
def prepare (closure : Closure) (args : List Value) : Eval σ Env := do
  let env ← openScope closure.env
  bindParams env closure.definition.params args
  match closure.definition.body with
  | .block statements => hoist env statements
  | .value _ => pure ()
  return env

/-- What a call does from the start of the body on. -/
def runBody (limits : Limits) (host : Host σ) (apply : Apply σ) (bound : Nat) (body : Body)
    (env : Env) : Eval σ Value :=
  match body with
  | .block statements => do
    match ← execAll limits host apply bound env statements with
    | .returned value => return value
    | _ => return .undefined
  | .value e => eval limits host apply env e

theorem enterBody_eq (limits : Limits) (host : Host σ) (apply : Apply σ) (bound : Nat)
    (closure : Closure) (args : List Value) :
    enterBody limits host apply bound closure args =
      prepare closure args >>= runBody limits host apply bound closure.definition.body := by
  unfold enterBody prepare execBlock runBody
  cases closure.definition.body <;> simp only [bind_assoc, pure_bind] <;> rfl

theorem exists_run_declare (env : Env) (name : String) (value : Value) (fixed : Bool)
    (m : Machine σ) : ∃ m', (declare env name value fixed).run m = (.ok (), m') := by
  cases env with
  | nil => exact ⟨m, rfl⟩
  | cons id rest => exact ⟨_, rfl⟩

/-- Parameters are bound without fail. -/
theorem exists_run_bindParams (env : Env) (params : List String) (args : List Value)
    (m : Machine σ) : ∃ m', (bindParams env params args).run m = (.ok (), m') := by
  induction params generalizing args m with
  | nil => exact ⟨m, rfl⟩
  | cons param rest ih =>
    obtain ⟨m₁, declared⟩ := exists_run_declare env param (args.head?.getD .undefined) false m
    obtain ⟨m₂, bound⟩ := ih args.tail m₁
    exact ⟨m₂, (run_bind_ok declared).trans bound⟩

/-- Functions are made known without fail. -/
theorem exists_run_hoist (env : Env) (statements : List Stmt) (m : Machine σ) :
    ∃ m', (hoist env statements).run m = (.ok (), m') := by
  induction statements generalizing m with
  | nil => exact ⟨m, rfl⟩
  | cons statement rest ih =>
    cases statement with
    | define definition =>
      obtain ⟨_ | name, params, body, line⟩ := definition
      · exact ih m
      · obtain ⟨m₁, declared⟩ := exists_run_declare env name
          (.function ⟨m.closures, ⟨some name, params, body, line⟩, env⟩) false
          { m with closures := m.closures + 1 }
        obtain ⟨m₂, known⟩ := ih m₁
        exact ⟨m₂, (run_bind_ok rfl).trans ((run_bind_ok declared).trans known)⟩
    | _ => exact ih m

theorem exists_run_prepare (closure : Closure) (args : List Value) (m : Machine σ) :
    ∃ start, (prepare closure args).run m = (.ok (m.scopes.size :: closure.env), start) := by
  obtain ⟨m₁, bound⟩ := exists_run_bindParams (m.scopes.size :: closure.env)
    closure.definition.params args { m with scopes := m.scopes.push [] }
  cases body : closure.definition.body with
  | block statements =>
    obtain ⟨m₂, known⟩ := exists_run_hoist (m.scopes.size :: closure.env) statements m₁
    refine ⟨m₂, ?_⟩
    unfold prepare
    rw [body]
    exact (run_bind_ok rfl).trans ((run_bind_ok bound).trans (run_bind_ok known))
  | value e =>
    refine ⟨m₁, ?_⟩
    unfold prepare
    rw [body]
    exact (run_bind_ok rfl).trans ((run_bind_ok bound).trans rfl)

theorem prepare_leaves {outer : Env} {x : String} {closure : Closure}
    (notParam : x ∉ closure.definition.params) (notDefined : x ∉ closure.definition.body.defines)
    (args : List Value) : Leaves outer x (prepare closure args : Eval σ Env) := by
  unfold prepare
  refine (Leaves.openScope closure.env).bind fun env => ?_
  refine (Leaves.bindParams env notParam args).bind fun _ => ?_
  cases body : closure.definition.body with
  | block statements =>
    rw [body] at notDefined
    exact (Leaves.hoist env notDefined).bind fun _ => .pure env
  | value e => exact (Leaves.pure ()).bind fun _ => .pure env

/-- A name that is neither a parameter of a closure nor defined in its body means at the start of
the body what it means in the environment of the closure. -/
theorem resolve_of_run_prepare {x : String} {closure : Closure}
    (notParam : x ∉ closure.definition.params) (notDefined : x ∉ closure.definition.body.defines)
    {args : List Value} {m start : Machine σ} {inner : Env}
    (run : (prepare closure args).run m = (.ok inner, start)) :
    start.scopes.resolve inner x = m.scopes.resolve closure.env x := by
  obtain ⟨_, ran⟩ := exists_run_prepare closure args m
  obtain ⟨rfl, rfl⟩ := Prod.mk.inj (ran.symm.trans run) |>.imp Except.ok.inj id
  have leaves : Leaves (m.scopes.size :: closure.env) x (prepare closure args : Eval σ Env) :=
    prepare_leaves notParam notDefined args
  have left := leaves m
  rw [ran] at left
  exact left.trans (Scopes.resolve_size_cons m.scopes closure.env x)

/-- After the functions of a block are made known, the name of a function there, the last one of
that name, means a closure that is made in the block's own scope, so the closure finds itself. -/
theorem read_hoist {id : ScopeId} {env : Env} {name : String} {definition : Definition}
    (named : definition.name = some name) (before : List Stmt) {after : List Stmt}
    (last : name ∉ Stmt.eachDefines after) {m : Machine σ} (lt : id < m.scopes.size) :
    ∃ identity, ((hoist (id :: env) (before ++ .define definition :: after)).run m).2.scopes.read
      (id :: env) name = some (.function ⟨identity, definition, id :: env⟩) := by
  induction before generalizing m with
  | nil =>
    obtain ⟨_, params, body, line⟩ := definition
    cases named
    have leaves : Leaves (id :: env) name (hoist (id :: env) after : Eval σ Unit) :=
      .hoist (id :: env) last
    refine ⟨m.closures, (congrArg (Option.map _) (leaves _)).trans ?_⟩
    exact Scopes.read_declare_self lt env name _
  | cons statement rest ih =>
    cases statement with
    | define other =>
      obtain ⟨_ | word, params, body, line⟩ := other
      · exact ih lt
      · exact ih (m :=
          { m with
            closures := m.closures + 1
            scopes := m.scopes.declare id word
              ⟨.function ⟨m.closures, ⟨some word, params, body, line⟩, id :: env⟩, false⟩ })
          (by simpa [Scopes.declare] using lt)
    | _ => exact ih lt

/-- A function that a statement of a block defines finds itself under its own name once the
functions of the block are known, as long as the name is not bound again. -/
theorem definition_ownName {id : ScopeId} {env : Env} {name : String} {definition : Definition}
    (named : definition.name = some name) (notParam : name ∉ definition.params)
    (notDefined : name ∉ definition.body.defines) {before after : List Stmt}
    (last : name ∉ Stmt.eachDefines after) {m m' : Machine σ} (lt : id < m.scopes.size)
    (known : (hoist (id :: env) (before ++ .define definition :: after)).run m = (.ok (), m')) :
    ∃ closure, closure.definition = definition ∧
      m'.scopes.read (id :: env) name = some (.function closure) ∧
      ∀ args, ∃ inner start, (prepare closure args).run m' = (.ok inner, start) ∧
        start.scopes.read inner name = some (.function closure) := by
  obtain ⟨identity, found⟩ := read_hoist named before last lt
  rw [known] at found
  refine ⟨⟨identity, definition, id :: env⟩, rfl, found, ?_⟩
  intro args
  obtain ⟨start, ran⟩ := exists_run_prepare ⟨identity, definition, id :: env⟩ args m'
  have outside := resolve_of_run_prepare notParam notDefined ran
  exact ⟨_, start, ran, (congrArg (Option.map _) outside).trans found⟩

/-- The own name of a function expression, where it is neither a parameter nor defined in the body.
The expression gives a new closure and binds nothing. Whenever the closure is called, as a call of
the script or as a callback, the call ends for want of depth or comes to the start of the body, and
there the name means what it means outside at that time: it means the closure exactly if a scope
around the expression binds it to the closure. -/
theorem function_ownName (limits : Limits) (host : Host σ) (apply : Apply σ) (env : Env)
    (line : Nat) (definition : Definition) {f : String} (named : definition.name = some f)
    (notParam : f ∉ definition.params) (notDefined : f ∉ definition.body.defines)
    (m : Machine σ) :
    ∃ closure, closure.name = some f ∧
      (eval limits host apply env (.function line definition)).run m =
        (.ok (.function closure), { m with closures := m.closures + 1 }) ∧
      (∀ bound args callLine, invoke limits host (bound + 1) closure args callLine =
        nest limits callLine (prepare closure args >>=
          runBody limits host (invoke limits host bound) (bound + 1) definition.body)) ∧
      ∀ args (later : Machine σ), ∃ inner start,
        (prepare closure args).run later = (.ok inner, start) ∧
          start.scopes.resolve inner f = later.scopes.resolve env f ∧
          (start.scopes.read inner f = some (.function closure) ↔
            later.scopes.read env f = some (.function closure)) := by
  refine ⟨⟨m.closures, definition, env⟩, named, rfl, ?_, ?_⟩
  · intro bound args callLine
    rw [invoke_succ, enterBody_eq]
  · intro args later
    obtain ⟨start, ran⟩ := exists_run_prepare ⟨m.closures, definition, env⟩ args later
    have outside := resolve_of_run_prepare notParam notDefined ran
    refine ⟨_, start, ran, outside, ?_⟩
    unfold Scopes.read
    rw [outside]

/-- `function f() { return f; }` -/
def returnsItself : Definition :=
  ⟨some "f", [], .block [.giveBack (some (.name 1 "f"))], 1⟩

theorem function_ownName_returnsItself : ∃ closure, closure.name = some "f" ∧
    (eval ⟨9, 9⟩ Host.silent (invoke ⟨9, 9⟩ Host.silent 9) globalEnv
        (.function 1 returnsItself)).run (.initial ()) =
      (.ok (.function closure), { Machine.initial () with closures := 1 }) ∧
    ∃ inner start, (prepare closure []).run (.initial ()) = (.ok inner, start) ∧
      start.scopes.read inner "f" = none := by
  obtain ⟨closure, name, made, -, body⟩ := function_ownName ⟨9, 9⟩ Host.silent
    (invoke ⟨9, 9⟩ Host.silent 9) globalEnv 1 returnsItself rfl List.not_mem_nil
    List.not_mem_nil (.initial ())
  obtain ⟨inner, start, ran, outside, -⟩ := body [] (.initial ())
  exact ⟨closure, name, made, inner, start, ran, congrArg (Option.map _) outside⟩

/-- The function does not find itself. -/
theorem finalOutput_returnsItself :
    (Timeline.ofSource .usual
      "let g = function f() \x7b return f; \x7d; console.log(g())").finalOutput =
      ["Uncaught ReferenceError: f is not defined (line 1)"] := by
  decide +kernel

end Eval

end EventLoop
