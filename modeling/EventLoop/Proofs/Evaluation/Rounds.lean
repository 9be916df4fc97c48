import EventLoop.Proofs.Evaluation.Bindings

/-!
# A variable for each round

A `for` loop whose header declares its variable with `let` has a scope of its own, and each round
has a scope inside with a copy of the variable, which is copied back after the round. A closure that
is made in a round sees the copy. If the body leaves the variable alone, nobody else can set the
copy either: so whenever the closure is called, it reads what the variable was when the round began.
-/

namespace EventLoop

variable {σ α β : Type}

namespace Aside

theorem read (env : Env) (name : String) (line : Nat) :
    Aside (Eval.read env name line : Eval σ Value) := by
  intro m
  rw [Eval.read, Eval.run_bind_ok (Eval.run_get m)]
  split <;> rfl

variable (limits : Limits) (host : Host σ) (apply : Eval.Apply σ) (env : Env)

mutual

/-- A quiet expression leaves the scopes alone. -/
theorem eval : ∀ (e : Expr), e.quiet = true → Aside (Eval.eval limits host apply env e)
  | .number .., _ | .text .., _ | .bool .., _ | .null .., _ | .undefined .., _ => .pure _
  | .template _ parts, quiet => .bind (evalParts parts quiet) fun _ => .pure _
  | .name line name, _ => .read env name line
  | .binary _ _ left right, quiet => by
    obtain ⟨ofLeft, ofRight⟩ := Bool.and_eq_true_iff.mp quiet
    exact .bind (eval left ofLeft) fun _ => .bind (eval right ofRight) fun _ => .pure _
  | .logical _ op left right, quiet => by
    obtain ⟨ofLeft, ofRight⟩ := Bool.and_eq_true_iff.mp quiet
    refine .bind (eval left ofLeft) fun a => ?_
    cases op <;> cases a.truthy
    · exact .pure _
    · exact eval right ofRight
    · exact eval right ofRight
    · exact .pure _
  | .unary _ _ operand, quiet => .bind (eval operand quiet) fun _ => .pure _
  | .conditional _ condition yes no, quiet => by
    obtain ⟨both, ofNo⟩ := Bool.and_eq_true_iff.mp quiet
    obtain ⟨ofCondition, ofYes⟩ := Bool.and_eq_true_iff.mp both
    refine .bind (eval condition ofCondition) fun a => ?_
    split
    · exact eval yes ofYes
    · exact eval no ofNo
  | .member line object name, quiet =>
    .bind (eval object quiet) fun a => .property a name object line
  | .function _ definition, _ => .bind (.modifyGet fun _ => rfl) fun _ => .pure _

theorem evalParts : ∀ (parts : List Part), Part.eachQuiet parts = true →
    Aside (Eval.evalParts limits host apply env parts)
  | [], _ => .pure _
  | .text _ :: rest, quiet => .bind (evalParts rest quiet) fun _ => .pure _
  | .value e :: rest, quiet => by
    obtain ⟨first, ofRest⟩ := Bool.and_eq_true_iff.mp quiet
    exact .bind (eval e first) fun _ => .bind (evalParts rest ofRest) fun _ => .pure _

end

end Aside

theorem Watch.log_bind {env : Env} {x : Eval σ α} {f : α → Eval σ β} {first : Watch env x}
    {second : ∀ a, Watch env (f a)} {m m' : Machine σ} {a : α} (run : x.run m = (.ok a, m')) :
    (Watch.bind first second).log m = first.log m ++ (second a).log m' := by
  show first.log m ++ Watch.next second (x.run m) = _
  rw [run]
  rfl

/-- What is bound stays bound during a computation that is watched. -/
theorem Watch.bound {env : Env} {x : Eval σ α} (watch : Watch env x) {m m' : Machine σ}
    {result : Except ScriptError α} (run : x.run m = (result, m')) {id : ScopeId} {name : String}
    {old : Binding} (found : m.scopes.find? id name = some old) :
    ∃ new, m'.scopes.find? id name = some new := by
  have follows := watch.follows m
  rw [run] at follows
  exact follows.bound found

theorem Scopes.mem_of_resolve {scopes : Scopes} {env : Env} {name : String} {id : ScopeId}
    {binding : Binding} (target : scopes.resolve env name = some (id, binding)) : id ∈ env := by
  obtain ⟨other, member, found⟩ := List.exists_of_findSome?_eq_some target
  obtain ⟨_, -, same⟩ := Option.map_eq_some_iff.mp found
  cases same
  exact member

namespace Scopes

variable {scopes : Scopes} {id : ScopeId} {name : String} {binding : Binding}

/-- The innermost scope comes first. -/
theorem read_cons (found : scopes.find? id name = some binding) (env : Env) :
    scopes.read (id :: env) name = some binding.value := by
  unfold Scopes.read Scopes.resolve
  rw [List.findSome?_cons, found]
  rfl

theorem find?_overwrite (found : scopes.find? id name = some binding) (value : Value) :
    (scopes.overwrite id name value).find? id name = some { binding with value } := by
  unfold Scopes.overwrite
  simp only [found]
  rw [Scopes.find?_declare, if_pos ⟨rfl, rfl, Scopes.lt_of_find? found⟩]

end Scopes

/-- The scope of a round has the variable as it was when the round began, and no scope inside binds
it. -/
structure RoundKept (origins : List Origin) (round : ScopeId) (name : String) (value : Value)
    (scopes : Scopes) : Prop where
  own : scopes.find? round name = some ⟨value, false⟩
  inside : ∀ (id : ScopeId) (origin : Origin), origins[id]? = some origin → round ∈ origin.around →
    scopes.find? id name = none

namespace RoundKept

variable {origins : List Origin} {round : ScopeId} {name : String} {value : Value}
  {scopes : Scopes}

/-- In the round and inside it the name means the variable of the round. -/
theorem read {names : List String} {env : Env} (kept : RoundKept origins round name value scopes)
    (stands : Stands origins names env) (member : round ∈ env) :
    scopes.read env name = some value := by
  suffices resolved : scopes.resolve env name = some (round, ⟨value, false⟩) by
    rw [Scopes.read, resolved]
    rfl
  induction env with
  | nil => cases member
  | cons id env ih =>
    obtain ⟨origin, there, rfl, -, rest⟩ := stands
    unfold Scopes.resolve
    rw [List.findSome?_cons]
    by_cases same : id = round
    · rw [same, kept.own]
      rfl
    · have member := (List.mem_cons.mp member).resolve_left (Ne.symm same)
      rw [kept.inside id origin there member]
      exact ih rest member

/-- What is lawful keeps it so, if the code for which the round was opened leaves the variable
alone: all that is done in the round or inside it is done by such code. -/
theorem after {body : Stmt} {outer : Env} {deed : Deed}
    (kept : RoundKept origins round name value scopes) (lawful : deed.Lawful origins scopes)
    (opened : origins[round]? = some ((Place.round body).origin outer))
    (spared : name ∉ body.sets) : RoundKept origins round name value (deed.effect scopes) := by
  have never {env : Env} (stands : Stands origins [name] env) : round ∉ env := by
    intro member
    obtain ⟨origin, there, allows⟩ := stands.allows member
    cases opened.symm.trans there
    exact spared (allows name List.mem_cons_self)
  constructor
  · rcases deed.effect_cases scopes round name with same | ⟨way, env, binding, rfl, -⟩ |
      ⟨_, _, -, -, ⟨env, new, line, old, rfl, target, -⟩ | ⟨env, new, rfl⟩⟩
    · exact same.trans kept.own
    · cases way with
      | round => cases kept.own.symm.trans (lawful.2.2.1 round rfl)
      | _ => exact absurd List.mem_cons_self (never lawful.1)
    · exact absurd (Scopes.mem_of_resolve target) (never lawful)
    · exact absurd List.mem_cons_self (never lawful.1)
  · intro id origin there member
    have missing := kept.inside id origin there member
    rcases deed.effect_cases scopes id name with same | ⟨way, env, binding, rfl, -⟩ |
      ⟨_, _, found, -, -⟩
    · exact same.trans missing
    · have around {names : List String} (stands : Stands origins names (id :: env)) :
          round ∈ env := by
        obtain ⟨other, there', rfl, -⟩ := stands
        cases there.symm.trans there'
        exact member
      cases way with
      | round => exact absurd (around lawful.1) (never lawful.2.1)
      | _ => exact absurd (List.mem_cons_of_mem id (around lawful.1)) (never lawful.1)
    · cases missing.symm.trans found

/-- It holds when the scope of the round has just been opened and has the copy, for no scope inside
is there yet. -/
theorem opened (nested : ∀ (id : ScopeId) (origin : Origin), origins[id]? = some origin →
      ∀ around ∈ origin.around, around < id) (name : String) (value : Value) :
    RoundKept origins scopes.size name value
      (Scopes.declare (scopes.push []) scopes.size name ⟨value, false⟩) := by
  have lt : scopes.size < (scopes.push []).size := by simp
  constructor
  · rw [Scopes.find?_declare, if_pos ⟨rfl, rfl, lt⟩]
  · intro id origin there around
    refine Scopes.find?_of_size_le ?_ _
    rw [Scopes.declare, Array.size_modify, Array.size_push]
    exact nested id origin there _ around

end RoundKept

/-- What is lawful keeps the variable of a round in all that follows. -/
theorem Follows.roundKept {origins : List Origin} {round : ScopeId} {name : String} {value : Value}
    {s t : Scopes} {log : List (Entry σ)} {body : Stmt} {outer : Env} (follows : Follows s log t)
    (lawful : ∀ entry ∈ log, entry.deed.Lawful origins entry.machine.scopes)
    (opened : origins[round]? = some ((Place.round body).origin outer)) (spared : name ∉ body.sets)
    (kept : RoundKept origins round name value s) :
    (∀ entry ∈ log, RoundKept origins round name value entry.machine.scopes) ∧
      RoundKept origins round name value t :=
  follows.invariant kept fun entry member kept => kept.after (lawful entry member) opened spared

/-- The closures that come from a piece of a history: those that are made in it outside of calls,
and those that are made, whenever that is, in calls of closures that come from it. -/
inductive Offspring (piece history : List (Entry σ)) : Closure → Prop
  | own {entry : Entry σ} {closure : Closure} : entry ∈ piece → entry.closure = none →
    entry.deed = .capture closure → Offspring piece history closure
  | called {entry : Entry σ} {caller closure : Closure} : Offspring piece history caller →
    entry ∈ history → entry.closure = some caller → entry.deed = .capture closure →
    Offspring piece history closure

/-- A `for` loop whose header declares its variable with `let`. -/
structure CountedLoop where
  line : Nat
  name : String
  first : Expr
  condition : Option Expr
  update : Option Expr
  body : Stmt

namespace CountedLoop

variable (loop : CountedLoop)

/-- The declaration in the header. -/
def header : Stmt :=
  .declare loop.line .letWord loop.name (some loop.first)

def statement : Stmt :=
  .forLoop (some loop.header) loop.condition loop.update loop.body

/-- The condition sets nothing, and the body leaves the variable alone. -/
structure Steady : Prop where
  condition : ∀ e ∈ loop.condition, e.quiet = true
  body : loop.name ∉ loop.body.sets

variable (limits : Limits) (host : Host σ) (apply : Eval.Apply σ) (bound : Nat) (outer : Env)

/-- Whether there is another round. The environment is that of the loop. -/
def goesOn : Eval σ Bool :=
  match loop.condition with
  | some condition => do return (← Eval.eval limits host apply outer condition).truthy
  | none => return true

def goOn : Eval σ Unit :=
  match loop.update with
  | some update => do let _ ← Eval.eval limits host apply outer update
  | none => return ()

/-- The round after the condition is evaluated. -/
def rest : Eval σ (Option Flow) :=
  Eval.forBody limits host apply outer loop.update (some loop.name)
    fun inner => Eval.exec limits host apply bound inner loop.body

def round : Eval σ (Option Flow) :=
  Eval.forRound limits host apply outer loop.condition loop.update (some loop.name)
    fun inner => Eval.exec limits host apply bound inner loop.body

/-- The machine on which the loop comes to evaluate its condition for the `k`-th time, counted from
zero, if it is run from the given one on. -/
inductive Comes (env : Env) (start : Machine σ) : Nat → Machine σ → Prop
  | first {m : Machine σ} {flow : Flow} : start.steps < limits.maxSteps →
    (Eval.exec limits host apply bound (start.scopes.size :: env) loop.header).run
      { start.tick with scopes := start.scopes.push [] } = (.ok flow, m) →
    Comes env start 0 m
  | next {k : Nat} {m m' : Machine σ} : Comes env start k m →
    (loop.round limits host apply bound (start.scopes.size :: env)).run m = (.ok none, m') →
    Comes env start (k + 1) m'

/-- The body begins for the `k`-th time, in the environment and on the machine. -/
def Begins (env : Env) (start : Machine σ) (k : Nat) (inner : Env) (m : Machine σ) : Prop :=
  k < bound ∧ ∃ come went, loop.Comes limits host apply bound env start k come ∧
    (loop.goesOn limits host apply (start.scopes.size :: env)).run come = (.ok true, went) ∧
    (Eval.openRound (start.scopes.size :: env) (some loop.name)).run went = (.ok inner, m)

variable {apply}
  (applies : ∀ env closure args line, Watch env (apply closure args line))

def watchGoOn : Watch outer (loop.goOn limits host apply outer) :=
  .update limits host applies outer loop.update

def watchRest : Watch outer (loop.rest limits host apply bound outer) :=
  .forBody limits host applies outer loop.update (some loop.name) loop.body fun id =>
    .exec limits host applies bound (id :: outer) loop.body

def watchRound : Watch outer (loop.round limits host apply bound outer) :=
  .forRound limits host applies outer loop.condition loop.update (some loop.name) loop.body
    fun id => .exec limits host applies bound (id :: outer) loop.body

/-- A copy of the variable, for a round whose scope is opened on the machine. -/
def copy (went : Machine σ) : Binding :=
  ⟨((Scopes.read (went.scopes.push []) outer loop.name).getD .undefined), false⟩

/-- What is done before the body of a round. -/
def opening (went : Machine σ) : List (Entry σ) :=
  [⟨went, .openScope outer (.round loop.body), none⟩,
    ⟨{ went with scopes := went.scopes.push [] },
      .declare .round (went.scopes.size :: outer) loop.name (loop.copy outer went), none⟩]

variable {limits host bound outer loop} {env : Env} {start m m' : Machine σ} {k : Nat}

/-- When the loop has come to a round, the rest of its log is that of the rounds to come. -/
theorem Comes.log (comes : loop.Comes limits host apply bound env start k m) (le : k ≤ bound) :
    ∃ before, (Watch.exec limits host applies bound env loop.statement).log start = before ++
      (Watch.rounds limits
        (loop.watchRound limits host bound (start.scopes.size :: env) applies) (bound - k)).log
        m := by
  induction comes with
  | @first m flow steps run =>
    have ticked : (Eval.tick limits).run start = (.ok ⟨⟩, start.tick) := by
      rw [Eval.run_tick, if_neg (Nat.not_le_of_lt steps)]
    refine ⟨⟨start.tick, .openScope env (.loop (some loop.header) loop.condition loop.update
      loop.body), none⟩ :: (Watch.exec limits host applies bound (start.scopes.size :: env)
        loop.header).log { start.tick with scopes := start.scopes.push [] }, ?_⟩
    refine (Watch.log_bind ticked).trans ?_
    exact congrArg (List.cons _) (Watch.log_bind run)
  | @next k m m' _ run ih =>
    obtain ⟨before, log⟩ := ih (Nat.le_of_succ_le le)
    obtain ⟨left, counted⟩ : ∃ left, bound - k = left + 1 := ⟨bound - (k + 1), by omega⟩
    refine ⟨before ++ (loop.watchRound limits host bound (start.scopes.size :: env) applies).log m,
      ?_⟩
    rw [log, counted, List.append_assoc, show bound - (k + 1) = left by omega]
    exact congrArg (before ++ ·) (Watch.log_bind run)

theorem watchRound_log {come went : Machine σ}
    (goes : (loop.goesOn limits host apply outer).run come = (.ok true, went)) :
    ∃ before, (loop.watchRound limits host bound outer applies).log come =
      before ++ (loop.watchRest limits host bound outer applies).log went := by
  obtain ⟨line, name, first, condition, update, body⟩ := loop
  cases condition with
  | none =>
    cases goes
    exact ⟨[], rfl⟩
  | some condition =>
    rcases run : (Eval.eval limits host apply outer condition).run come with ⟨e | value, m⟩
    · cases (Eval.run_bind_error run).symm.trans goes
    · obtain ⟨truthy, rfl⟩ := Prod.mk.inj ((Eval.run_bind_ok run).symm.trans goes)
      have holds : value.truthy = true := Except.ok.inj truthy
      refine ⟨(Watch.eval limits host applies outer condition).log come, ?_⟩
      refine (Watch.log_bind run).trans (congrArg _ ?_)
      exact if_pos holds

/-- Where the body begins, the log has what opens the round before and what the body does after. -/
theorem Begins.log {inner : Env}
    (begins : loop.Begins limits host apply bound env start k inner m) :
    ∃ went before after, inner = went.scopes.size :: start.scopes.size :: env ∧
      m.scopes = Scopes.declare (went.scopes.push []) went.scopes.size loop.name
        (loop.copy (start.scopes.size :: env) went) ∧
      (Watch.exec limits host applies bound env loop.statement).log start =
        before ++ (loop.opening (start.scopes.size :: env) went ++
          (Watch.exec limits host applies bound inner loop.body).log m) ++ after := by
  obtain ⟨lt, come, went, comes, goes, opens⟩ := begins
  obtain ⟨before, log⟩ := comes.log applies (Nat.le_of_lt lt)
  obtain ⟨left, counted⟩ : ∃ left, bound - k = left + 1 := ⟨bound - (k + 1), by omega⟩
  obtain ⟨evaluated, logRound⟩ : ∃ before, (loop.watchRound limits host bound
      (start.scopes.size :: env) applies).log come = before ++ (loop.watchRest limits host bound
        (start.scopes.size :: env) applies).log went := watchRound_log applies goes
  cases opens
  obtain ⟨later, logRounds⟩ : ∃ later, (Watch.rounds limits (loop.watchRound limits host bound
      (start.scopes.size :: env) applies) (left + 1)).log come =
        (loop.watchRound limits host bound (start.scopes.size :: env) applies).log come ++ later :=
    ⟨_, rfl⟩
  obtain ⟨closing, logRest⟩ : ∃ closing, (loop.watchRest limits host bound
      (start.scopes.size :: env) applies).log went =
        loop.opening (start.scopes.size :: env) went ++ ((Watch.exec limits host applies bound
          (went.scopes.size :: start.scopes.size :: env) loop.body).log { went with
            scopes := Scopes.declare (went.scopes.push []) went.scopes.size loop.name
              (loop.copy (start.scopes.size :: env) went) } ++ closing) :=
    ⟨_, rfl⟩
  refine ⟨went, before ++ evaluated, closing ++ later, rfl, rfl, ?_⟩
  rw [log, counted, logRounds, logRound, logRest]
  simp only [List.append_assoc]
  rfl

/-- So does a history that has the log. -/
theorem Begins.split {inner : Env} {caller : Option Closure} {history front back : List (Entry σ)}
    (begins : loop.Begins limits host apply bound env start k inner m)
    (split : history = front ++ ((Watch.exec limits host applies bound env loop.statement).log
      start).map (Entry.inside caller) ++ back) :
    ∃ went before after, inner = went.scopes.size :: start.scopes.size :: env ∧
      m.scopes = Scopes.declare (went.scopes.push []) went.scopes.size loop.name
        (loop.copy (start.scopes.size :: env) went) ∧
      history = before ++
        ((loop.opening (start.scopes.size :: env) went).map (Entry.inside caller) ++
          (((Watch.exec limits host applies bound inner loop.body).log m).map
            (Entry.inside caller) ++ after)) := by
  obtain ⟨went, before, after, inside, scopes, log⟩ := begins.log applies
  refine ⟨went, front ++ before.map (Entry.inside caller), after.map (Entry.inside caller) ++ back,
    inside, scopes, ?_⟩
  rw [split, log]
  simp only [List.map_append, List.append_assoc]

theorem Begins.mem {inner : Env}
    (begins : loop.Begins limits host apply bound env start k inner m) {entry : Entry σ}
    (member : entry ∈ (Watch.exec limits host applies bound inner loop.body).log m) :
    entry ∈ (Watch.exec limits host applies bound env loop.statement).log start := by
  obtain ⟨went, before, after, -, -, log⟩ := begins.log applies
  rw [log]
  exact List.mem_append_left _ (List.mem_append_right _ (List.mem_append_right _ member))

/-- What becomes of the variable between the body of a round, on the machine and in its environment,
and the next round: it is copied back, and then the update is evaluated. -/
def Makes (limits : Limits) (host : Host σ) (apply : Eval.Apply σ) (bound : Nat)
    (loop : CountedLoop) (outer inner : Env) (m : Machine σ) (old new : Value) : Prop :=
  ∃ flow ended closed updated,
    (Eval.exec limits host apply bound inner loop.body).run m = (.ok flow, ended) ∧
    (Eval.closeRound outer inner (some loop.name)).run ended = (.ok ⟨⟩, closed) ∧
    closed.scopes.read outer loop.name = some old ∧
    (loop.goOn limits host apply outer).run closed = (.ok ⟨⟩, updated) ∧
    updated.scopes.read outer loop.name = some new

section

variable (steady : loop.Steady)

include steady

theorem scopes_of_goes {come went : Machine σ}
    (goes : (loop.goesOn limits host apply outer).run come = (.ok true, went)) :
    went.scopes = come.scopes := by
  have aside : Aside (loop.goesOn limits host apply outer) := by
    have quiet := steady.condition
    unfold goesOn
    cases condition : loop.condition with
    | none => exact .pure _
    | some e => exact .bind (.eval limits host apply outer e (quiet e condition)) fun _ => .pure _
  have same := aside come
  rwa [goes] at same

/-- A round begins with what the variable is in the scope of the loop. -/
theorem read_of_opens {come went : Machine σ} {inner : Env} {value : Value}
    (goes : (loop.goesOn limits host apply outer).run come = (.ok true, went))
    (opens : (Eval.openRound outer (some loop.name)).run went = (.ok inner, m))
    (read : come.scopes.read outer loop.name = some value) :
    m.scopes.read inner loop.name = some value := by
  have same := scopes_of_goes steady goes
  cases opens
  have lt : went.scopes.size < (went.scopes.push []).size := by simp
  have found : Scopes.find? (Scopes.declare (went.scopes.push []) went.scopes.size loop.name
      (loop.copy outer went)) went.scopes.size loop.name = some (loop.copy outer went) := by
    rw [Scopes.find?_declare, if_pos ⟨rfl, rfl, lt⟩]
  refine (Scopes.read_cons found outer).trans ?_
  rw [copy, Scopes.read_push, same, read]
  rfl

end

include applies in
/-- The header declares the variable, in the scope of the loop. -/
theorem run_header {id : ScopeId} {flow : Flow} (lt : id < m.scopes.size)
    (run : (Eval.exec limits host apply bound (id :: env) loop.header).run m = (.ok flow, m')) :
    ∃ value, ((Eval.eval limits host apply (id :: env) loop.first).run m.tick).1 = .ok value ∧
      m'.scopes.find? id loop.name = some ⟨value, false⟩ := by
  unfold header at run
  rw [Eval.exec] at run
  obtain ⟨_, ticked, ran, run⟩ := Eval.of_run_bind run
  rw [Eval.run_tick] at ran
  split at ran
  · cases ran
  cases ran
  obtain ⟨value, evaluated, ran, run⟩ := Eval.of_run_bind run
  cases run
  have le := ((Watch.eval limits host applies (id :: env) loop.first).follows m.tick).size_le
  rw [ran] at le
  refine ⟨value, congrArg Prod.fst ran, ?_⟩
  exact (Scopes.find?_declare ..).trans (if_pos ⟨rfl, rfl, Nat.lt_of_lt_of_le lt le⟩)

include applies in
/-- Since then the scope of the loop binds the variable. -/
theorem Comes.binds (comes : loop.Comes limits host apply bound env start k m) :
    ∃ binding, m.scopes.find? start.scopes.size loop.name = some binding := by
  induction comes with
  | first steps run =>
    obtain ⟨value, -, found⟩ := run_header applies (by simp) run
    exact ⟨_, found⟩
  | @next k m m' _ run ih =>
    obtain ⟨binding, found⟩ := ih
    exact (loop.watchRound limits host bound (start.scopes.size :: env) applies).bound run found

include applies in
/-- The first round begins with the value in the header. -/
theorem Begins.first (steady : loop.Steady) {inner : Env} {value : Value}
    (begins : loop.Begins limits host apply bound env start 0 inner m)
    (read : m.scopes.read inner loop.name = some value) :
    ((Eval.eval limits host apply (start.scopes.size :: env) loop.first).run
      { start with steps := start.steps + 2, scopes := start.scopes.push [] }).1 = .ok value := by
  obtain ⟨_, come, went, comes, goes, opens⟩ := begins
  cases comes with
  | first steps run =>
  obtain ⟨first, evaluated, found⟩ := run_header applies (by simp) run
  cases read.symm.trans (read_of_opens steady goes opens (Scopes.read_cons found env))
  exact evaluated

theorem run_round {come next : Machine σ}
    (run : (loop.round limits host apply bound outer).run come = (.ok none, next)) :
    ∃ went, (loop.goesOn limits host apply outer).run come = (.ok true, went) ∧
      (loop.rest limits host apply bound outer).run went = (.ok none, next) := by
  have same : loop.round limits host apply bound outer = (do
      if ← loop.goesOn limits host apply outer then loop.rest limits host apply bound outer
      else return some .normal) := by
    obtain ⟨line, name, first, condition, update, body⟩ := loop
    cases condition with
    | none => rfl
    | some e => exact (bind_assoc ..).symm
  rw [same] at run
  obtain ⟨c, went, ran, run⟩ := Eval.of_run_bind run
  cases c with
  | false => cases run
  | true => exact ⟨went, ran, run⟩

/-- After a round comes another one that does not end the loop. -/
theorem run_rest {went next : Machine σ}
    (run : (loop.rest limits host apply bound outer).run went = (.ok none, next)) :
    ∃ inner m flow ended closed updated,
      (Eval.openRound outer (some loop.name)).run went = (.ok inner, m) ∧
      (Eval.exec limits host apply bound inner loop.body).run m = (.ok flow, ended) ∧
      (Eval.closeRound outer inner (some loop.name)).run ended = (.ok ⟨⟩, closed) ∧
      (loop.goOn limits host apply outer).run closed = (.ok ⟨⟩, updated) ∧
      next.scopes = updated.scopes := by
  obtain ⟨inner, m, opens, run⟩ := Eval.of_run_bind run
  obtain ⟨flow, ended, executes, run⟩ := Eval.of_run_bind run
  obtain ⟨_, closed, closes, run⟩ := Eval.of_run_bind run
  have goes : ∃ updated, (loop.goOn limits host apply outer).run closed = (.ok ⟨⟩, updated) ∧
      next.scopes = updated.scopes := by
    cases flow with
    | broke | returned => cases run
    | normal | continued =>
      obtain ⟨_, updated, updates, run⟩ := Eval.of_run_bind run
      obtain ⟨_, ticked, ticks, run⟩ := Eval.of_run_bind run
      cases run
      have aside := Aside.tick limits updated
      rw [ticks] at aside
      exact ⟨updated, updates, aside⟩
  obtain ⟨updated, updates, same⟩ := goes
  exact ⟨inner, m, flow, ended, closed, updated, opens, executes, closes, updates, same⟩

/-- If the variable is bound in the scope of the loop, copying back gives it the value that it has
in the round. -/
theorem read_of_closes {id : ScopeId} {inner : Env} {ended closed : Machine σ} {binding : Binding}
    {value : Value} (found : ended.scopes.find? id loop.name = some binding)
    (read : ended.scopes.read inner loop.name = some value)
    (closes : (Eval.closeRound (id :: env) inner (some loop.name)).run ended = (.ok ⟨⟩, closed)) :
    closed.scopes.read (id :: env) loop.name = some value := by
  cases closes
  rw [Scopes.read_cons (Scopes.find?_overwrite found _), read]
  rfl

include applies in
/-- The rounds follow one another: the variable begins with what becomes of it after the round
before. -/
theorem Begins.makes (steady : loop.Steady) {inner : Env} {value : Value}
    (begins : loop.Begins limits host apply bound env start (k + 1) inner m)
    (read : m.scopes.read inner loop.name = some value) :
    ∃ inner' m', loop.Begins limits host apply bound env start k inner' m' ∧
      ∀ old, ((Eval.exec limits host apply bound inner' loop.body).run m').2.scopes.read inner'
          loop.name = some old →
        loop.Makes limits host apply bound (start.scopes.size :: env) inner' m' old value := by
  obtain ⟨lt, come, went, comes, goes, opens⟩ := begins
  cases comes with
  | @next k earlier _ comes run =>
  obtain ⟨went', goes', run⟩ := run_round run
  obtain ⟨inner', m', flow, ended, closed, updated, opens', executes, closes, updates, same⟩ :=
    run_rest run
  refine ⟨inner', m', ⟨Nat.lt_of_succ_lt lt, earlier, went', comes, goes', opens'⟩, ?_⟩
  intro old ends
  rw [executes] at ends
  -- The scope of the loop binds the variable all the way.
  obtain ⟨_, found⟩ := comes.binds applies
  rw [← scopes_of_goes steady goes'] at found
  obtain ⟨_, found⟩ := (Watch.openRound _ (some loop.name) loop.body).bound opens' found
  obtain ⟨_, found⟩ := (Watch.exec limits host applies bound inner' loop.body).bound executes found
  have copied := read_of_closes found ends closes
  obtain ⟨_, found⟩ := (Watch.closeRound _ inner' (some loop.name)).bound closes found
  obtain ⟨_, found⟩ := (loop.watchGoOn limits host _ applies).bound updates found
  have made := Scopes.read_cons found env
  have again := read_of_opens steady goes opens (same ▸ made)
  cases read.symm.trans again
  exact ⟨flow, ended, closed, updated, executes, closes, copied, updates, made⟩

end CountedLoop

namespace Lives

open CountedLoop

variable {host : Host σ} {runs : List (Run (Custody σ))} {now : Machine (Custody σ)}
  (life : Lives host runs now) {loop : CountedLoop} (steady : loop.Steady) {limits : Limits}
  {apply : Eval.Apply (Custody σ)}
  {applies : ∀ env closure args line, Watch env (apply closure args line)} {bound : Nat}
  {env : Env} {start : Machine (Custody σ)} {caller : Option Closure}
  {before after : List (Entry (Custody σ))}
  (split : history runs = before ++
    ((Watch.exec limits host.keeping applies bound env loop.statement).log start).map
      (Entry.inside caller) ++ after)
  {k : Nat} {inner : Env} {m : Machine (Custody σ)}
  (begins : loop.Begins limits host.keeping apply bound env start k inner m)

include life steady split begins

/-- A round has its own variable. It is the same when the body ends, and it is read by all that is
done in the round or inside it, whenever that is. -/
theorem round_kept : ∃ round value, inner = round :: start.scopes.size :: env ∧
    m.scopes.read inner loop.name = some value ∧
    ((Eval.exec limits host.keeping apply bound inner loop.body).run m).2.scopes.read inner
      loop.name = some value ∧
    ∀ entry ∈ history runs, ∀ env line, entry.deed = .read env loop.name line → round ∈ env →
      entry.machine.scopes.read env loop.name = some value := by
  obtain ⟨charted, lawful⟩ := life.lawful
  obtain ⟨went, front, back, rfl, scopes, whole⟩ := begins.split applies split
  let outer := start.scopes.size :: env
  let body := Watch.exec limits host.keeping applies bound (went.scopes.size :: outer) loop.body
  let opens : Entry (Custody σ) := ⟨went, .openScope outer (.round loop.body), caller⟩
  let copies : Entry (Custody σ) :=
    ⟨{ went with scopes := went.scopes.push [] },
      .declare .round (went.scopes.size :: outer) loop.name (loop.copy outer went), caller⟩
  let later := (body.log m).map (Entry.inside caller) ++ back
  have whole : history runs = front ++ opens :: copies :: later := whole
  obtain ⟨earlier, -, follows⟩ := (whole ▸ life.follows).split
  have follows : Follows m.scopes later now.scopes := scopes ▸ follows
  have there := whole ▸ lawful
  obtain ⟨byOpens, there⟩ := List.forall_mem_cons.mp (List.forall_mem_append.mp there).2
  obtain ⟨byCopies, there⟩ := List.forall_mem_cons.mp there
  have kept : RoundKept (origins runs) went.scopes.size loop.name (loop.copy outer went).value
      m.scopes := scopes ▸ .opened charted.nested loop.name _
  have during := ((body.follows m).roundKept (fun entry member => (there _
    (List.mem_append_left _ (List.mem_map_of_mem member))).deed) byOpens.deed.2 steady.body kept).2
  have always := (follows.roundKept (fun entry member => (there entry member).deed) byOpens.deed.2
    steady.body kept).1
  refine ⟨went.scopes.size, _, rfl, kept.read byCopies.deed.1 List.mem_cons_self,
    during.read byCopies.deed.1 List.mem_cons_self, ?_⟩
  intro entry member env' line deed inside
  have law := lawful entry member
  rw [whole] at member
  rcases List.mem_append.mp member with member | member
  -- The scope of the round was not there before.
  · have le := earlier.size_le_of_mem member
    have lt := law.there went.scopes.size (deed ▸ inside)
    exact absurd lt (Nat.not_lt_of_le le)
  · rcases List.mem_cons.mp member with rfl | member
    · cases deed
    rcases List.mem_cons.mp member with rfl | member
    · cases deed
    have law := law.deed
    rw [deed] at law
    exact (always entry member).read law inside

/-- Each round of a loop has its own variable, for the closures that come from it. Take any loop
that is run somewhere in the life of an interpreter, outside of all calls or in a call, and any
round of it. The closures that its body makes itself, and those that calls of such closures make at
any time, read what the variable was when the round began, whenever they are called: in this round,
in a later one, after the loop, or in a callback. In the first round this is the value in the
header, and in each other round it is what the update makes of what it was in the round before. -/
theorem closures_read_round : ∃ value, m.scopes.read inner loop.name = some value ∧
    (∀ closure, Offspring ((Watch.exec limits host.keeping applies bound inner loop.body).log m)
        (history runs) closure →
      ∀ entry ∈ history runs, entry.closure = some closure →
        ∀ env line, entry.deed = .read env loop.name line →
          entry.machine.scopes.read env loop.name = some value) ∧
    (k = 0 →
      ((Eval.eval limits host.keeping apply (start.scopes.size :: env) loop.first).run
        { start with steps := start.steps + 2, scopes := start.scopes.push [] }).1 = .ok value) ∧
    ∀ j, k = j + 1 → ∃ inner' m' old,
      loop.Begins limits host.keeping apply bound env start j inner' m' ∧
      m'.scopes.read inner' loop.name = some old ∧
      loop.Makes limits host.keeping apply bound (start.scopes.size :: env) inner' m' old
        value := by
  obtain ⟨round, value, rfl, read, -, reads⟩ := round_kept life steady split begins
  have lawful := life.lawful.2
  -- Whatever closures of the round do is done in the scope of the round or inside it.
  have inside (closure : Closure) (offspring : Offspring
      ((Watch.exec limits host.keeping applies bound (round :: start.scopes.size :: env)
        loop.body).log m) (history runs) closure) : round ∈ closure.env := by
    induction offspring with
    | own member outside deed =>
      have suffix := (Watch.exec limits host.keeping applies bound _ loop.body).within m _ member
        outside
      rw [deed] at suffix
      exact suffix.subset List.mem_cons_self
    | called _ member called deed ih =>
      obtain ⟨-, suffix⟩ := (lawful _ member).closure _ called
      rw [deed] at suffix
      exact suffix.subset ih
  refine ⟨value, read, ?_, ?_, ?_⟩
  · intro closure offspring entry member called env' line deed
    obtain ⟨-, suffix⟩ := (lawful entry member).closure closure called
    rw [deed] at suffix
    exact reads entry member env' line deed (suffix.subset (inside closure offspring))
  · rintro rfl
    exact begins.first applies steady read
  · rintro j rfl
    obtain ⟨inner', m', begins', makes⟩ := begins.makes applies steady read
    obtain ⟨round', old, rfl, read', ends, -⟩ := round_kept life steady split begins'
    exact ⟨_, m', old, begins', read', makes old ends⟩

end Lives

/-! ## A closure of an earlier round -/

/-- A function that reads the variable. -/
def reader : Definition :=
  .mk none [] (.value (.name 2 "i")) 2

/-- A function that makes functions that read the variable. -/
def readerMaker : Definition :=
  .mk none [] (.value (.function 2 reader)) 2

/-- A loop of two rounds. The variable is `null` in the first and `undefined` in the second. The
first round gives a maker of readers to a global, and the second has it make a reader, and calls
that. -/
def layered : CountedLoop where
  line := 1
  name := "i"
  first := .null 1
  condition := some (.binary 1 .strictNotEqual (.name 1 "i") (.bool 1 true))
  update := some (.assign 1 .set "i" (.conditional 1
    (.binary 1 .strictEqual (.name 1 "i") (.null 1)) (.undefined 1) (.bool 1 true)))
  body := .choose (.binary 2 .strictEqual (.name 2 "g") (.undefined 2))
    (.evaluate (.assign 2 .set "g" (.function 2 readerMaker)))
    (some (.evaluate (.call 3 (.member 3 (.name 3 "console") "log")
      [.call 3 (.call 3 (.name 3 "g") []) []])))

namespace Layered

def run : Run (Custody Unit) :=
  .script ⟨99, 9⟩ Host.silent [.declare 1 .letWord "g" none, layered.statement] (.initial ⟨(), []⟩)

/-- The maker that the first round makes. -/
def maker : Closure :=
  ⟨0, readerMaker, [2, 1, 0]⟩

/-- The reader that the maker makes in the second round. -/
def made : Closure :=
  ⟨1, reader, [4, 2, 1, 0]⟩

/-- The machine on which the loop is run. -/
def start : Machine (Custody Unit) :=
  { Machine.initial ⟨(), []⟩ with
    scopes := #[globalScope ++ [("g", ⟨.undefined, false⟩)]]
    steps := 1 }

/-- The machine on which the body begins for the first time. -/
def first : Machine (Custody Unit) :=
  { start with
    scopes := #[globalScope ++ [("g", ⟨.undefined, false⟩)], [("i", ⟨.null, false⟩)],
      [("i", ⟨.null, false⟩)]]
    steps := 3 }

/-- The machine on which the body begins for the second time. -/
def second : Machine (Custody Unit) :=
  { start with
    scopes := #[globalScope ++ [("g", ⟨.function maker, false⟩)], [("i", ⟨.undefined, false⟩)],
      [("i", ⟨.null, false⟩)], [("i", ⟨.undefined, false⟩)]]
    closures := 1
    steps := 6 }

abbrev Begins := CountedLoop.Begins layered ⟨99, 9⟩ Host.silent.keeping
  (Eval.invoke ⟨99, 9⟩ Host.silent.keeping 99) 100 globalEnv start

abbrev watch := Watch.exec ⟨99, 9⟩ Host.silent.keeping
  (Watch.invoke ⟨99, 9⟩ Host.silent.keeping 99) 100

theorem lives : ∃ now, Lives Host.silent [run] now :=
  ⟨_, .script ⟨99, 9⟩ _ (.start ())⟩

theorem steady : layered.Steady :=
  ⟨by simp [layered, Expr.quiet], by decide⟩

theorem split : ∃ before after, history [run] = before ++
    ((watch globalEnv layered.statement).log start).map (Entry.inside none) ++ after := by
  obtain ⟨rest, last, log⟩ : ∃ rest last, run.log =
      ((watch globalEnv (.declare 1 .letWord "g" none)).log (.initial ⟨(), []⟩) ++
        ((watch globalEnv layered.statement).log start ++ rest)) ++ last := ⟨_, _, rfl⟩
  refine ⟨(watch globalEnv (.declare 1 .letWord "g" none)).log (.initial ⟨(), []⟩),
    rest ++ last, ?_⟩
  rw [history, List.flatMap_singleton, log, Entry.inside_none, List.map_id]
  simp only [List.append_assoc]

theorem begins_first : Begins 0 [2, 1, 0] first :=
  ⟨by decide, _, _, .first (by decide) rfl, rfl, rfl⟩

theorem begins_second : Begins 1 [3, 1, 0] second :=
  ⟨by decide, _, _, .next (.first (by decide) rfl) rfl, rfl, rfl⟩

theorem mem_history {k : Nat} {inner : Env} {m : Machine (Custody Unit)}
    (begins : Begins k inner m) {entry : Entry (Custody Unit)}
    (member : entry ∈ (watch inner layered.body).log m) : entry ∈ history [run] := by
  obtain ⟨before, after, log⟩ := split
  rw [log, Entry.inside_none, List.map_id]
  exact List.mem_append_left _ (List.mem_append_right _ (begins.mem _ member))

theorem maker_captured : ∃ entry ∈ (watch [2, 1, 0] layered.body).log first,
    entry.closure = none ∧ entry.deed = .capture maker :=
  ⟨_, List.mem_of_getElem? (i := 1) rfl, rfl, rfl⟩

theorem made_captured : ∃ entry ∈ (watch [3, 1, 0] layered.body).log second,
    entry.closure = some maker ∧ entry.deed = .capture made :=
  ⟨_, List.mem_of_getElem? (i := 4) rfl, rfl, rfl⟩

theorem made_reads : ∃ entry ∈ (watch [3, 1, 0] layered.body).log second,
    entry.closure = some made ∧ entry.deed = .read [5, 4, 2, 1, 0] "i" 2 ∧
      entry.machine.scopes.read [5, 4, 2, 1, 0] "i" = some .null :=
  ⟨_, List.mem_of_getElem? (i := 6) rfl, rfl, rfl, rfl⟩

/-- The reader comes from the first round, and reads what the variable was then. -/
theorem closures_read_round_maker :
    Offspring ((watch [2, 1, 0] layered.body).log first) (history [run]) made ∧
      ∀ entry ∈ history [run], entry.closure = some made →
        ∀ env line, entry.deed = .read env "i" line →
          entry.machine.scopes.read env "i" = some .null := by
  obtain ⟨now, life⟩ := lives
  obtain ⟨before, after, split⟩ := split
  obtain ⟨entry, member, outside, deed⟩ := maker_captured
  obtain ⟨entry', member', called, deed'⟩ := made_captured
  have offspring : Offspring ((watch [2, 1, 0] layered.body).log first) (history [run]) made :=
    .called (.own member outside deed) (mem_history begins_second member') called deed'
  obtain ⟨value, read, reads, -⟩ := life.closures_read_round steady split begins_first
  cases Option.some.inj (read : some .null = some value)
  exact ⟨offspring, reads made offspring⟩

/-- But it is made in the second round, when the variable is something else. -/
theorem not_made_in_round_reads_round : (∃ now, Lives Host.silent [run] now) ∧ layered.Steady ∧
    (∃ before after, history [run] = before ++
      ((watch globalEnv layered.statement).log start).map (Entry.inside none) ++ after) ∧
    Begins 1 [3, 1, 0] second ∧
    ¬ ∀ closure, closure.definition = reader →
      (∃ entry ∈ (watch [3, 1, 0] layered.body).log second, entry.deed = .capture closure) →
      ∀ entry ∈ history [run], entry.closure = some closure →
        ∀ env line, entry.deed = .read env "i" line →
          entry.machine.scopes.read env "i" = second.scopes.read [3, 1, 0] "i" := by
  refine ⟨lives, steady, split, begins_second, fun reads => ?_⟩
  obtain ⟨entry, member, -, captures⟩ := made_captured
  obtain ⟨entry', member', called, deed, read⟩ := made_reads
  have same := reads made rfl ⟨entry, member, captures⟩ entry' (mem_history begins_second member')
    called _ _ deed
  have now : second.scopes.read [3, 1, 0] "i" = some .undefined := rfl
  rw [read, now] at same
  cases same

end Layered

end EventLoop
