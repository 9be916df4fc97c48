import EventLoop.Proofs.Evaluation.Running

/-!
# Watching a run

What a run does to names is listed in a log, each thing with the machine as it was just before. A
watch of a computation gives its log from each machine. The log accounts for all that becomes of the
scopes, and it ends where a name is misused. Evaluation is watched part by part, so a log has what
the parts have, in the order in which they run.
-/

namespace EventLoop

variable {σ α β : Type}

/-- What makes a binding. -/
inductive Way where
  /-- A declaration that is reached. -/
  | statement
  /-- The definition of a function, made known when its block begins. -/
  | hoisted
  | parameter
  /-- A copy of the variable of a `for` loop, for one round. -/
  | round

/-- What a scope is opened for. -/
inductive Place where
  | block (statements : List Stmt)
  | loop (init : Option Stmt) (condition update : Option Expr) (body : Stmt)
  | round (body : Stmt)
  | call (closure : Closure)

/-- What a run does to names and scopes. -/
inductive Deed where
  | read (env : Env) (name : String) (line : Nat)
  | assign (env : Env) (name : String) (value : Value) (line : Nat)
  /-- A binding is made in the innermost scope. -/
  | declare (way : Way) (env : Env) (name : String) (binding : Binding)
  /-- The variable of a `for` loop is given the value that a round leaves. -/
  | copyBack (env : Env) (name : String) (value : Value)
  | openScope (env : Env) (place : Place)
  | capture (closure : Closure)

namespace Deed

/-- The scopes that it is done in. -/
def env : Deed → Env
  | read env _ _ | assign env _ _ _ | declare _ env _ _ | copyBack env _ _ | openScope env _ => env
  | capture closure => closure.env

/-- What becomes of the scopes. -/
def effect (scopes : Scopes) : Deed → Scopes
  | read .. | capture _ => scopes
  | assign env name value _ =>
    match scopes.resolve env name with
    | some (id, binding) =>
      if binding.fixed then scopes else scopes.declare id name { binding with value }
    | none => scopes
  | declare _ [] _ _ | copyBack [] _ _ => scopes
  | declare _ (id :: _) name binding => scopes.declare id name binding
  | copyBack (id :: _) name value => scopes.overwrite id name value
  | openScope _ _ => scopes.push []

/-- The failure that it ends in, if it fails. -/
def fault (scopes : Scopes) : Deed → Option ScriptError
  | read env name line =>
    match scopes.read env name with
    | some _ => none
    | none => some (.undefinedName line name)
  | assign env name _ line =>
    match scopes.resolve env name with
    | some (_, binding) =>
      if binding.fixed then some (.misuse line (.assignedConstant name)) else none
    | none => some (.undefinedName line name)
  | _ => none

end Deed

/-- A deed in a log. -/
structure Entry (σ : Type) where
  /-- The machine just before. -/
  machine : Machine σ
  deed : Deed
  /-- The closure whose body does it. If it is done outside of all calls that are watched, there is
  none. -/
  closure : Option Closure

namespace Entry

/-- The scopes just after. -/
def after (entry : Entry σ) : Scopes :=
  entry.deed.effect entry.machine.scopes

/-- The failure that the deed ends in, if it fails. -/
def fault (entry : Entry σ) : Option ScriptError :=
  entry.deed.fault entry.machine.scopes

/-- The entry, in a call of the caller if there is one. -/
def inside (caller : Option Closure) (entry : Entry σ) : Entry σ :=
  { entry with closure := entry.closure.or caller }

theorem inside_none : Entry.inside none = (id : Entry σ → Entry σ) := by
  funext entry
  simp [inside]

end Entry

/-- From the first scopes the deeds lead to the second. -/
def Follows (s : Scopes) : List (Entry σ) → Scopes → Prop
  | [], t => t = s
  | entry :: rest, t => entry.machine.scopes = s ∧ Follows entry.after rest t

namespace Follows

variable {s t u : Scopes} {log log' : List (Entry σ)}

theorem append (first : Follows s log t) (second : Follows t log' u) :
    Follows s (log ++ log') u := by
  induction log generalizing s with
  | nil =>
    cases first
    exact second
  | cons entry rest ih => exact ⟨first.1, ih first.2⟩

theorem inside (caller : Option Closure) (follows : Follows s log t) :
    Follows s (log.map (Entry.inside caller)) t := by
  induction log generalizing s with
  | nil => exact follows
  | cons entry rest ih => exact ⟨follows.1, ih follows.2⟩

theorem split {entry : Entry σ} (follows : Follows s (log ++ entry :: log') t) :
    Follows s log entry.machine.scopes ∧ Follows entry.after log' t := by
  induction log generalizing s with
  | nil => exact ⟨follows.1, follows.2⟩
  | cons first rest ih =>
    obtain ⟨same, follows⟩ := follows
    exact ⟨⟨same, (ih follows).1⟩, (ih follows).2⟩

/-- What each deed preserves holds before each of them, and in the end. -/
theorem invariant {P : Scopes → Prop} (follows : Follows s log t) (start : P s)
    (step : ∀ entry ∈ log, P entry.machine.scopes → P entry.after) :
    (∀ entry ∈ log, P entry.machine.scopes) ∧ P t := by
  induction log generalizing s with
  | nil =>
    cases follows
    exact ⟨nofun, start⟩
  | cons entry rest ih =>
    obtain ⟨rfl, follows⟩ := follows
    obtain ⟨first, steps⟩ := List.forall_mem_cons.mp step
    obtain ⟨held, last⟩ := ih follows (first start) steps
    exact ⟨List.forall_mem_cons.mpr ⟨start, held⟩, last⟩

end Follows

/-- Nothing follows a deed that fails, and its failure is the result. -/
def Stops (log : List (Entry σ)) (result : Except ScriptError α) : Prop :=
  ∀ before entry after e, log = before ++ entry :: after → entry.fault = some e →
    after = [] ∧ result = .error e

namespace Stops

theorem nil (result : Except ScriptError α) : Stops ([] : List (Entry σ)) result :=
  fun _ _ _ _ same => by simp at same

theorem singleton {entry : Entry σ} {result : Except ScriptError α}
    (fails : ∀ e, entry.fault = some e → result = .error e) : Stops [entry] result := by
  intro before other after e same fault
  cases before with
  | nil =>
    cases same
    exact ⟨rfl, fails e fault⟩
  | cons => simp at same

/-- A log that is continued does not fail before. -/
theorem append {log log' : List (Entry σ)} {a : α} {result : Except ScriptError β}
    (first : Stops log (.ok a : Except ScriptError α)) (second : Stops log' result) :
    Stops (log ++ log') result := by
  intro before entry after e same fault
  rcases List.append_eq_append_iff.mp same with ⟨rest, rfl, there⟩ | ⟨rest, rfl, there⟩
  · exact second rest entry after e there fault
  · cases rest with
    | nil => exact second [] entry after e there.symm fault
    | cons head rest =>
      obtain ⟨rfl, -⟩ := List.cons_eq_cons.mp there
      cases (first before entry rest e rfl fault).2

theorem error {log : List (Entry σ)} {e : ScriptError}
    (stops : Stops log (.error e : Except ScriptError α)) :
    Stops log (.error e : Except ScriptError β) := by
  intro before entry after e' same fault
  obtain ⟨rfl, failed⟩ := stops before entry after e' same fault
  cases failed
  exact ⟨rfl, rfl⟩

theorem inside {log : List (Entry σ)} {result : Except ScriptError α} (caller : Option Closure)
    (stops : Stops log result) : Stops (log.map (Entry.inside caller)) result := by
  intro before entry after e same fault
  obtain ⟨first, rest, rfl, rfl, ends⟩ := List.map_eq_append_iff.mp same
  obtain ⟨other, last, rfl, rfl, rfl⟩ := List.map_eq_cons_iff.mp ends
  obtain ⟨rfl, failed⟩ := stops first other last e rfl fault
  exact ⟨rfl, failed⟩

end Stops

/-- The computation leaves the scopes alone. -/
def Aside (x : Eval σ α) : Prop :=
  ∀ m, (x.run m).2.scopes = m.scopes

namespace Aside

theorem pure (a : α) : Aside (Pure.pure a : Eval σ α) := fun _ => rfl

theorem throw (e : ScriptError) : Aside (MonadExcept.throw e : Eval σ α) := fun _ => rfl

theorem bind {x : Eval σ α} {f : α → Eval σ β} (first : Aside x) (second : ∀ a, Aside (f a)) :
    Aside (x >>= f) := by
  intro m
  have same := first m
  rw [Eval.run_bind]
  generalize x.run m = ran at same ⊢
  obtain ⟨_ | a, m'⟩ := ran
  · exact same
  · exact (second a m').trans same

theorem modifyGet {f : Machine σ → α × Machine σ} (same : ∀ m, (f m).2.scopes = m.scopes) :
    Aside (modifyGet f : Eval σ α) := same

theorem tick (limits : Limits) : Aside (Eval.tick limits : Eval σ Unit) := by
  intro m
  rw [Eval.run_tick]
  split <;> rfl

theorem property (object : Value) (name : String) (source : Expr) (line : Nat) :
    Aside (Eval.property object name source line : Eval σ Value) := by
  unfold Eval.property
  split <;> first | exact .pure _ | exact .throw _

theorem wantFunction (args : List Value) (primitive : String) (line : Nat) :
    Aside (Eval.wantFunction args primitive line : Eval σ Closure) := by
  unfold Eval.wantFunction
  split <;> first | exact .pure _ | exact .throw _

variable (host : Host σ)

theorem chain (receiver : PromiseId) (args : List Value) (line : Nat) :
    Aside (Eval.chain host receiver args line) := by
  refine .bind (.wantFunction args _ line) fun function => ?_
  refine .bind (.modifyGet fun _ => rfl) fun next => ?_
  refine .bind (.modifyGet fun _ => rfl) fun (m : Machine σ) => ?_
  have told (callback : Option Callback) : Aside
      (do Eval.onHost (host.chain callback line); return Value.promise next) :=
    .bind (.modifyGet fun _ => rfl) fun _ => .pure _
  cases m.promises[receiver]? with
  | none => exact .bind (.throw (.misuse line .droppedPromise)) fun _ => .pure _
  | some state =>
    cases state with
    | resolved value => exact told _
    | pending waiting => exact .bind (.modifyGet fun _ => rfl) fun _ => told none

theorem callNative (native : Native) (args : List Value) (callee : Expr) (line : Nat) :
    Aside (Eval.callNative host native args callee line) := by
  cases native with
  | console | promise => exact .throw _
  | log => exact .bind (.modifyGet fun _ => rfl) fun _ => .pure _
  | setTimeout =>
    exact .bind (.wantFunction args _ line) fun _ =>
      .bind (.modifyGet fun _ => rfl) fun _ => .pure _
  | queueMicrotask =>
    exact .bind (.wantFunction args _ line) fun _ =>
      .bind (.modifyGet fun _ => rfl) fun _ => .pure _
  | resolve =>
    unfold Eval.callNative
    cases args.head?.getD .undefined with
    | promise p => exact .pure _
    | _ => exact .bind (.modifyGet fun _ => rfl) fun _ => .pure _
  | thenOf receiver => exact .chain host receiver args line

theorem settle (promise : PromiseId) (value : Value) :
    Aside (Eval.settle host promise value) := by
  intro m
  rw [Eval.run_settle]
  rfl

end Aside

/-- A round has a scope of its own. -/
theorem Eval.run_openRound (env : Env) (name : Option String) (m : Machine σ) :
    ((openRound env name).run m).1 = .ok (m.scopes.size :: env) := by
  cases name <;> rfl

/-- A watch of a computation that is done in an environment. -/
structure Watch (env : Env) (x : Eval σ α) where
  /-- What the computation does to names, from the given machine on. -/
  log : Machine σ → List (Entry σ)
  follows : ∀ m, Follows m.scopes (log m) (x.run m).2.scopes
  stops : ∀ m, Stops (log m) (x.run m).1
  /-- What is not done in a call is done in the environment or inside it. -/
  within : ∀ m, ∀ entry ∈ log m, entry.closure = none → env <:+ entry.deed.env

namespace Watch

variable {env : Env}

/-- The computation has nothing to do with names. -/
def silent {x : Eval σ α} (aside : Aside x) : Watch env x where
  log _ := []
  follows := aside
  stops _ := .nil _
  within _ _ member := by cases member

/-- The computation does one thing. -/
def perform (x : Eval σ α) (deed : Machine σ → Deed) (within : ∀ m, env <:+ (deed m).env)
    (effect : ∀ m, (x.run m).2.scopes = (deed m).effect m.scopes)
    (fault : ∀ m e, (deed m).fault m.scopes = some e → (x.run m).1 = .error e) : Watch env x where
  log m := [⟨m, deed m, none⟩]
  follows m := ⟨rfl, effect m⟩
  stops m := .singleton (fault m)
  within m entry member _ := by
    cases List.mem_singleton.mp member
    exact within m

def pure (a : α) : Watch env (Pure.pure a : Eval σ α) :=
  .silent (.pure a)

def throw (e : ScriptError) : Watch env (MonadExcept.throw e : Eval σ α) :=
  .silent (.throw e)

/-- What follows a part in its log. -/
def next {f : α → Eval σ β} (watch : ∀ a, Watch env (f a)) :
    Except ScriptError α × Machine σ → List (Entry σ)
  | (.ok a, m) => (watch a).log m
  | (.error _, _) => []

def bind {x : Eval σ α} {f : α → Eval σ β} (first : Watch env x) (second : ∀ a, Watch env (f a)) :
    Watch env (x >>= f) where
  log m := first.log m ++ next second (x.run m)
  follows m := by
    have follows := first.follows m
    rw [Eval.run_bind]
    generalize x.run m = ran at follows ⊢
    obtain ⟨_ | a, m'⟩ := ran
    · exact follows.append rfl
    · exact follows.append ((second a).follows m')
  stops m := by
    have stops := first.stops m
    rw [Eval.run_bind]
    generalize x.run m = ran at stops ⊢
    obtain ⟨_ | a, m'⟩ := ran
    · exact (List.append_nil (first.log m)).symm ▸ stops.error
    · exact stops.append ((second a).stops m')
  within m entry member := by
    rcases List.mem_append.mp member with member | member
    · exact first.within m entry member
    · generalize x.run m = ran at member
      obtain ⟨_ | a, m'⟩ := ran
      · cases member
      · exact (second a).within m' entry member

/-- What follows in its log when a scope is entered. -/
def nextIn {f : Env → Eval σ β} (watch : ∀ id, Watch env (f (id :: env))) :
    Except ScriptError Env × Machine σ → List (Entry σ)
  | (.ok (id :: _), m) => (watch id).log m
  | _ => []

/-- First a scope is entered. -/
def enter {x : Eval σ Env} {f : Env → Eval σ β} (first : Watch env x)
    (gives : ∀ m, ∃ id, (x.run m).1 = .ok (id :: env))
    (second : ∀ id, Watch env (f (id :: env))) : Watch env (x >>= f) where
  log m := first.log m ++ nextIn second (x.run m)
  follows m := by
    have follows := first.follows m
    obtain ⟨id, given⟩ := gives m
    rw [Eval.run_bind]
    generalize x.run m = ran at follows given ⊢
    obtain ⟨result, m'⟩ := ran
    cases given
    exact follows.append ((second id).follows m')
  stops m := by
    have stops := first.stops m
    obtain ⟨id, given⟩ := gives m
    rw [Eval.run_bind]
    generalize x.run m = ran at stops given ⊢
    obtain ⟨result, m'⟩ := ran
    cases given
    exact stops.append ((second id).stops m')
  within m entry member := by
    rcases List.mem_append.mp member with member | member
    · exact first.within m entry member
    · obtain ⟨id, given⟩ := gives m
      generalize x.run m = ran at given member
      obtain ⟨result, m'⟩ := ran
      cases given
      exact (second id).within m' entry member

def ite {c : Prop} [Decidable c] {x y : Eval σ α} (yes : Watch env x) (no : Watch env y) :
    Watch env (if c then x else y) where
  log m := if c then yes.log m else no.log m
  follows m := by
    split
    · exact yes.follows m
    · exact no.follows m
  stops m := by
    split
    · exact yes.stops m
    · exact no.stops m
  within m entry member := by
    split at member
    · exact yes.within m entry member
    · exact no.within m entry member

def between (before after : Machine σ → Machine σ) (same : ∀ m, (before m).scopes = m.scopes)
    (same' : ∀ m, (after m).scopes = m.scopes) {x : Eval σ α} (watch : Watch env x) :
    Watch env (Eval.between before after x) where
  log m := watch.log (before m)
  follows m := by
    have follows := watch.follows (before m)
    rw [same] at follows
    rw [Eval.run_between, same']
    exact follows
  stops m := watch.stops (before m)
  within m := watch.within (before m)

/-- What is done in an inner environment is done inside the outer one. -/
def under {inner : Env} (suffix : env <:+ inner) {x : Eval σ α} (watch : Watch inner x) :
    Watch env x where
  log := watch.log
  follows := watch.follows
  stops := watch.stops
  within m entry member none := suffix.trans (watch.within m entry member none)

/-- The computation is the body of a closure that is called, wherever that is. -/
def inside (closure : Closure) {x : Eval σ α} (watch : Watch closure.env x) : Watch env x where
  log m := (watch.log m).map (Entry.inside (some closure))
  follows m := (watch.follows m).inside (some closure)
  stops m := (watch.stops m).inside (some closure)
  within m entry member none := by
    obtain ⟨original, -, rfl⟩ := List.mem_map.mp member
    cases Option.or_eq_none_iff.mp none with
    | intro _ never => cases never

/-! ## Names -/

section

variable (env)

def read (name : String) (line : Nat) : Watch env (Eval.read env name line : Eval σ Value) :=
  .perform _ (fun _ => .read env name line) (fun _ => List.suffix_rfl)
    (fun m => by
      rw [Eval.read, Eval.run_bind_ok (Eval.run_get m)]
      split <;> rfl)
    (fun m e fails => by
      rw [Eval.read, Eval.run_bind_ok (Eval.run_get m)]
      simp only [Deed.fault] at fails
      cases found : m.scopes.read env name with
      | some value =>
        rw [found] at fails
        cases fails
      | none =>
        rw [found] at fails
        cases fails
        rfl)

def assign (name : String) (value : Value) (line : Nat) :
    Watch env (Eval.assign env name value line : Eval σ Unit) :=
  .perform _ (fun _ => .assign env name value line) (fun _ => List.suffix_rfl)
    (fun m => by
      rw [Eval.assign, Eval.run_bind_ok (Eval.run_get m)]
      simp only [Deed.effect]
      cases m.scopes.resolve env name with
      | none => rfl
      | some target =>
        obtain ⟨id, value, fixed⟩ := target
        cases fixed <;> rfl)
    (fun m e fails => by
      rw [Eval.assign, Eval.run_bind_ok (Eval.run_get m)]
      simp only [Deed.fault] at fails
      cases target : m.scopes.resolve env name with
      | none =>
        rw [target] at fails
        cases fails
        rfl
      | some found =>
        obtain ⟨id, value, fixed⟩ := found
        rw [target] at fails
        cases fixed <;> cases fails
        rfl)

def declare (way : Way) (name : String) (value : Value) (fixed : Bool) :
    Watch env (Eval.declare env name value fixed : Eval σ Unit) :=
  .perform _ (fun _ => .declare way env name ⟨value, fixed⟩) (fun _ => List.suffix_rfl)
    (fun m => by cases env <;> rfl) fun m e fails => by cases fails

def openScope (place : Place) : Watch env (Eval.openScope env : Eval σ Env) :=
  .perform _ (fun _ => .openScope env place) (fun _ => List.suffix_rfl) (fun _ => rfl)
    fun m e fails => by cases fails

def newClosure (definition : Definition) :
    Watch env (Eval.newClosure definition env : Eval σ Closure) :=
  .perform _ (fun m => .capture ⟨m.closures, definition, env⟩) (fun _ => List.suffix_rfl)
    (fun _ => rfl) fun m e fails => by cases fails

/-- A computation in a new scope. -/
def inScope (place : Place) {f : Env → Eval σ β} (watch : ∀ id, Watch (id :: env) (f (id :: env))) :
    Watch env (Eval.openScope env >>= f) :=
  enter (openScope env place) (fun _ => ⟨_, rfl⟩) fun id =>
    under (List.suffix_cons id env) (watch id)

def openRound (name : Option String) (body : Stmt) :
    Watch env (Eval.openRound env name : Eval σ Env) :=
  enter (openScope env (.round body)) (fun _ => ⟨_, rfl⟩) fun id =>
    match name with
    | none => pure _
    | some name =>
      bind (silent (.modifyGet fun _ => rfl)) fun _ =>
        bind (under (List.suffix_cons id env) (declare (id :: env) .round name _ false)) fun _ =>
          pure _

def closeRound (inner : Env) (name : Option String) :
    Watch env (Eval.closeRound env inner name : Eval σ Unit) :=
  match name with
  | none => pure _
  | some name =>
    .perform _ (fun m => .copyBack env name ((m.scopes.read inner name).getD .undefined))
      (fun _ => List.suffix_rfl) (fun m => by cases env <;> rfl) fun m e fails => by cases fails

end

/-! ## Expressions -/

variable (limits : Limits) (host : Host σ)

/-- A call of a value, if the bodies of closures are watched. -/
def call {apply : Eval.Apply σ}
    (applies : ∀ env closure args line, Watch env (apply closure args line))
    (function : Value) (args : List Value) (callee : Expr) (line : Nat) :
    Watch env (Eval.call limits host apply function args callee line) :=
  bind (silent (.tick limits)) fun _ =>
    match function with
    | .function closure =>
      between (Machine.onHost (host.enter (closure.name.getD "(anonymous)") line))
        (Machine.onHost host.leave) (fun _ => rfl) (fun _ => rfl) (applies env closure args line)
    | .native native => silent (.callNative host native args callee line)
    | .undefined | .null | .bool _ | .number _ | .text _ | .promise _ => throw _

section

variable {apply : Eval.Apply σ}
  (applies : ∀ env closure args line, Watch env (apply closure args line))

mutual

def eval (env : Env) : (e : Expr) → Watch env (Eval.eval limits host apply env e)
  | .number _ _ | .text _ _ | .bool _ _ | .null _ | .undefined _ => pure _
  | .template _ parts => bind (evalParts env parts) fun _ => pure _
  | .name line name => read env name line
  | .assign line op target e =>
    bind (eval env e) fun right =>
      match op with
      | .set => bind (pure right) fun value => bind (assign env target value line) fun _ => pure _
      | .add =>
        bind (read env target line) fun old =>
          bind (pure (old.add right)) fun value =>
            bind (assign env target value line) fun _ => pure _
      | .sub =>
        bind (read env target line) fun old =>
          bind (pure (Value.number (old.toNumber - right.toNumber))) fun value =>
            bind (assign env target value line) fun _ => pure _
  | .update line _ _ target =>
    bind (read env target line) fun _ => bind (assign env target _ line) fun _ => pure _
  | .binary _ _ left right => bind (eval env left) fun _ => bind (eval env right) fun _ => pure _
  | .logical _ op left right =>
    bind (eval env left) fun a =>
      match op, a.truthy with
      | .and, false | .or, true => pure _
      | .and, true | .or, false => eval env right
  | .unary _ _ operand => bind (eval env operand) fun _ => pure _
  | .conditional _ condition yes no =>
    bind (eval env condition) fun _ => ite (eval env yes) (eval env no)
  | .member line object name =>
    bind (eval env object) fun value => silent (.property value name object line)
  | .call line callee args =>
    bind (eval env callee) fun function =>
      bind (evalAll env args) fun values => call limits host applies function values callee line
  | .function _ definition => bind (newClosure env definition) fun _ => pure _

def evalAll (env : Env) : (es : List Expr) →
    Watch env (Eval.evalAll limits host apply env es)
  | [] => pure _
  | e :: rest => bind (eval env e) fun _ => bind (evalAll env rest) fun _ => pure _

def evalParts (env : Env) : (parts : List Part) →
    Watch env (Eval.evalParts limits host apply env parts)
  | [] => pure _
  | .text _ :: rest => bind (evalParts env rest) fun _ => pure _
  | .value e :: rest => bind (eval env e) fun _ => bind (evalParts env rest) fun _ => pure _

end

end

/-! ## Statements -/

/-- The functions that statements define become known. -/
def hoist (env : Env) :
    (statements : List Stmt) → Watch env (Eval.hoist env statements : Eval σ Unit)
  | [] => pure _
  | .define (.mk none _ _ _) :: rest => hoist env rest
  | .define (.mk (some name) params body line) :: rest =>
    bind (newClosure env (.mk (some name) params body line)) fun closure =>
      bind (declare env .hoisted name (.function closure) false) fun _ => hoist env rest
  | .declare .. :: rest | .choose .. :: rest | .whileLoop .. :: rest | .forLoop .. :: rest
  | .giveBack _ :: rest | .breakLoop :: rest | .continueLoop :: rest | .block _ :: rest
  | .evaluate _ :: rest | .empty :: rest => hoist env rest

def rounds {round : Eval σ (Option Flow)} (watch : Watch env round) :
    (bound : Nat) → Watch env (Eval.rounds limits round bound)
  | 0 => throw _
  | bound + 1 =>
    bind watch fun
      | some _ => pure _
      | none => rounds watch bound

def afterBody (flow : Flow) {go : Eval σ Unit} (watch : Watch env go) :
    Watch env (Eval.afterBody limits flow go) :=
  match flow with
  | .broke | .returned _ => pure _
  | .normal | .continued => bind watch fun _ => bind (silent (.tick limits)) fun _ => pure _

section

variable {apply : Eval.Apply σ}
  (applies : ∀ env closure args line, Watch env (apply closure args line))

/-- What is evaluated between two rounds of a `for` loop. -/
def update (env : Env) (update : Option Expr) :
    Watch env (match update with
      | some update => do let _ ← Eval.eval limits host apply env update
      | none => return () : Eval σ Unit) :=
  match update with
  | some update => bind (eval limits host applies env update) fun _ => pure _
  | none => pure _

def forBody (env : Env) (update : Option Expr) (name : Option String) (body : Stmt)
    {run : Env → Eval σ Flow}
    (watch : ∀ id, Watch (id :: env) (run (id :: env))) :
    Watch env (Eval.forBody limits host apply env update name run) :=
  enter (openRound env name body) (fun m => ⟨_, Eval.run_openRound env name m⟩) fun id =>
    bind (under (List.suffix_cons id env) (watch id)) fun flow =>
      bind (closeRound env (id :: env) name) fun _ =>
        afterBody limits flow (Watch.update limits host applies env update)

def forRound (env : Env) (condition update : Option Expr) (name : Option String) (body : Stmt)
    {run : Env → Eval σ Flow} (watch : ∀ id, Watch (id :: env) (run (id :: env))) :
    Watch env (Eval.forRound limits host apply env condition update name run) :=
  match condition with
  | some condition =>
    bind (eval limits host applies env condition) fun _ =>
      bind (pure _) fun _ => ite (forBody limits host applies env update name body watch) (pure _)
  | none =>
    bind (pure _) fun _ => ite (forBody limits host applies env update name body watch) (pure _)

end

section

variable {apply : Eval.Apply σ}
  (applies : ∀ env closure args line, Watch env (apply closure args line)) (bound : Nat)

mutual

def exec (env : Env) :
    (statement : Stmt) → Watch env (Eval.exec limits host apply bound env statement)
  | .declare _ word name none =>
    bind (silent (.tick limits)) fun _ =>
      bind (pure Value.undefined) fun value =>
        bind (declare env .statement name value (word = .constWord)) fun _ => pure _
  | .declare _ word name (some e) =>
    bind (silent (.tick limits)) fun _ =>
      bind (eval limits host applies env e) fun value =>
        bind (declare env .statement name value (word = .constWord)) fun _ => pure _
  | .define _ | .empty | .breakLoop | .continueLoop => bind (silent (.tick limits)) fun _ => pure _
  | .choose condition yes none =>
    bind (silent (.tick limits)) fun _ =>
      bind (eval limits host applies env condition) fun _ => ite (exec env yes) (pure _)
  | .choose condition yes (some no) =>
    bind (silent (.tick limits)) fun _ =>
      bind (eval limits host applies env condition) fun _ => ite (exec env yes) (exec env no)
  | .whileLoop condition body =>
    bind (silent (.tick limits)) fun _ =>
      rounds limits (bind (eval limits host applies env condition) fun _ =>
        ite (bind (exec env body) fun flow => afterBody limits flow (pure ())) (pure _)) bound
  | .forLoop none condition update body =>
    bind (silent (.tick limits)) fun _ =>
      inScope env (.loop none condition update body) fun id =>
        rounds limits (forRound limits host applies (id :: env) condition update none body
          fun round => exec (round :: id :: env) body) bound
  | .forLoop (some init) condition update body =>
    bind (silent (.tick limits)) fun _ =>
      inScope env (.loop (some init) condition update body) fun id =>
        bind (exec (id :: env) init) fun _ =>
          rounds limits (forRound limits host applies (id :: env) condition update
            (Eval.roundName (some init)) body fun round => exec (round :: id :: env) body) bound
  | .giveBack none => bind (silent (.tick limits)) fun _ => pure _
  | .giveBack (some e) =>
    bind (silent (.tick limits)) fun _ => bind (eval limits host applies env e) fun _ => pure _
  | .block statements =>
    bind (silent (.tick limits)) fun _ =>
      inScope env (.block statements) fun id =>
        bind (hoist (id :: env) statements) fun _ => execAll (id :: env) statements
  | .evaluate e =>
    bind (silent (.tick limits)) fun _ => bind (eval limits host applies env e) fun _ => pure _

def execAll (env : Env) :
    (statements : List Stmt) → Watch env (Eval.execAll limits host apply bound env statements)
  | [] => pure _
  | statement :: rest =>
    bind (exec env statement) fun
      | .normal => execAll env rest
      | .returned _ | .broke | .continued => pure _

end

def execBlock (env : Env) (statements : List Stmt) :
    Watch env (Eval.execBlock limits host apply bound env statements) :=
  bind (hoist env statements) fun _ => execAll limits host applies bound env statements

end

/-! ## Calls and runs -/

def bindParams (env : Env) : (params : List String) → (args : List Value) →
    Watch env (Eval.bindParams env params args : Eval σ Unit)
  | [], _ => pure _
  | param :: params, args =>
    bind (declare env .parameter param (args.head?.getD .undefined) false) fun _ =>
      bindParams env params args.tail

def enterBody {apply : Eval.Apply σ}
    (applies : ∀ env closure args line, Watch env (apply closure args line))
    (bound : Nat) (closure : Closure) (args : List Value) :
    Watch closure.env (Eval.enterBody limits host apply bound closure args) :=
  inScope closure.env (.call closure) fun id =>
    bind (bindParams (id :: closure.env) closure.definition.params args) fun _ =>
      match closure.definition.body with
      | .block statements =>
        bind (execBlock limits host applies bound (id :: closure.env) statements) fun
          | .returned _ => pure _
          | .normal | .broke | .continued => pure _
      | .value e => eval limits host applies (id :: closure.env) e

def invoke : (bound : Nat) → ∀ (env : Env) (closure : Closure) (args : List Value) (line : Nat),
    Watch env (Eval.invoke limits host bound closure args line)
  | 0, _, _, _, _ => throw _
  | bound + 1, _, closure, args, _ =>
    bind (silent (.modifyGet fun _ => rfl)) fun _ =>
      ite (throw _) (between Machine.deeper Machine.shallower (fun _ => rfl) (fun _ => rfl)
        (inside closure (enterBody limits host (invoke bound) (bound + 1) closure args)))

def runScript (script : Script) : Watch globalEnv (Eval.runScript limits host script) :=
  bind (execBlock limits host (invoke limits host limits.maxSteps) (limits.maxSteps + 1) globalEnv
    script) fun _ => pure _

def runCallback (callback : Callback) :
    Watch callback.function.env (Eval.runCallback limits host callback) :=
  bind (invoke limits host (limits.maxSteps + 1) _ callback.function callback.argument.toList
    callback.function.definition.line) fun value =>
      match callback.settles with
      | some promise => silent (.settle host promise value)
      | none => pure _

end Watch

end EventLoop
