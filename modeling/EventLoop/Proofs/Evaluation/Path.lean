import EventLoop.Proofs.Evaluation.Running

/-!
# What a run does to its machine

A path lists all that an evaluation can do to a machine: count a step, open a scope, bind a name,
make a closure or a promise, park a handler, tell the host of a primitive, and do all of this again
inside a call. What every step of a path preserves, every evaluation preserves; so a property of
runs is proved by induction on paths, and the evaluator is read only once, where it is shown to
take a path.

Values name promises by number. On a machine in order no value names a promise that does not exist,
and paths keep it so.
-/

namespace EventLoop

variable {σ α β : Type}

/-- The value names no promise from the number `n` on. -/
def Value.Within (n : Nat) : Value → Prop
  | .promise p | .native (.thenOf p) => p < n
  | _ => True

theorem Value.Within.mono {n k : Nat} {value : Value} (h : value.Within n) (le : n ≤ k) :
    value.Within k := by
  unfold Value.Within at h ⊢
  split at h <;> first | exact Nat.lt_of_lt_of_le h le | trivial

/-- What holds of all arguments, and of the value of one that is missing, holds of the first. -/
theorem Value.holds_first {holds : Value → Prop} (absent : holds .undefined) {args : List Value}
    (each : ∀ value ∈ args, holds value) : holds (args.head?.getD .undefined) := by
  cases args with
  | nil => exact absent
  | cons value _ => exact each value List.mem_cons_self

theorem Scope.mem_of_find? {scope : Scope} {name : String} {binding : Binding}
    (found : scope.find? name = some binding) : (name, binding) ∈ scope := by
  induction scope with
  | nil => cases found
  | cons entry rest ih =>
    obtain ⟨other, old⟩ := entry
    rw [find?] at found
    by_cases same : other = name
    · rw [if_pos same] at found
      cases found
      rw [same]
      exact List.mem_cons_self
    · rw [if_neg same] at found
      exact List.mem_cons_of_mem _ (ih found)

/-- The globals are built-ins, and none names a promise. -/
theorem exists_native_of_mem_globalScope {entry : String × Binding}
    (member : entry ∈ globalScope) :
    ∃ native ∈ [Native.console, .setTimeout, .queueMicrotask, .promise],
      entry.2.value = .native native := by
  simp only [globalScope, List.mem_cons, List.not_mem_nil, or_false] at member
  rcases member with rfl | rfl | rfl | rfl <;> exact ⟨_, by decide, rfl⟩

namespace Scopes

theorem find?_push (scopes : Scopes) (id : ScopeId) (name : String) :
    Scopes.find? (scopes.push []) id name = Scopes.find? scopes id name := by
  simp only [Scopes.find?, Array.getElem?_push]
  split
  · subst id
    simp [Scope.find?]
  · rfl

theorem read_push (scopes : Scopes) (env : Env) (name : String) :
    Scopes.read (scopes.push []) env name = scopes.read env name := by
  simp [Scopes.read, Scopes.resolve, find?_push]

theorem find?_declare (scopes : Scopes) (id other : ScopeId) (name key : String)
    (binding : Binding) :
    Scopes.find? (scopes.declare id name binding) other key =
      if id = other ∧ name = key ∧ id < scopes.size then some binding
      else Scopes.find? scopes other key := by
  simp only [Scopes.find?, Scopes.declare, Array.getElem?_modify]
  by_cases hid : id = other
  · subst other
    by_cases hlt : id < scopes.size
    · by_cases hname : name = key <;> simp [hlt, hname]
    · simp [hlt]
  · simp [hid]

theorem find?_resolve {scopes : Scopes} {env : Env} {name : String} {id : ScopeId}
    {binding : Binding} (h : scopes.resolve env name = some (id, binding)) :
    scopes.find? id name = some binding := by
  obtain ⟨key, _, found⟩ := List.exists_of_findSome?_eq_some h
  obtain ⟨_, found, same⟩ := Option.map_eq_some_iff.mp found
  cases same
  exact found

end Scopes

/-- The value of each binding has the property. -/
def Scopes.Hold (holds : Value → Prop) (scopes : Scopes) : Prop :=
  ∀ id name binding, scopes.find? id name = some binding → holds binding.value

namespace Scopes.Hold

variable {holds : Value → Prop} {scopes : Scopes}

theorem globals
    (builtins : ∀ native ∈ [Native.console, .setTimeout, .queueMicrotask, .promise],
      holds (.native native)) : Scopes.Hold holds #[globalScope] := by
  intro id name binding found
  obtain ⟨scope, present, found⟩ := Option.bind_eq_some_iff.mp found
  have bound : id < 1 := (Array.getElem?_eq_some_iff.mp present).1
  obtain rfl : id = 0 := Nat.lt_one_iff.mp bound
  cases present
  obtain ⟨native, among, same⟩ := exists_native_of_mem_globalScope (Scope.mem_of_find? found)
  exact same ▸ builtins native among

theorem read (hold : Scopes.Hold holds scopes) {env : Env} {name : String} {value : Value}
    (found : scopes.read env name = some value) : holds value := by
  obtain ⟨⟨id, binding⟩, resolved, rfl⟩ := Option.map_eq_some_iff.mp found
  exact hold id name binding (find?_resolve resolved)

theorem read_getD (hold : Scopes.Hold holds scopes) (absent : holds .undefined) (env : Env)
    (name : String) : holds ((scopes.read env name).getD .undefined) := by
  cases found : scopes.read env name with
  | none => exact absent
  | some value => exact hold.read found

theorem declare (hold : Scopes.Hold holds scopes) (id : ScopeId) (name : String)
    {binding : Binding} (new : holds binding.value) :
    Scopes.Hold holds (scopes.declare id name binding) := by
  intro other key old found
  rw [find?_declare] at found
  split at found
  · cases found
    exact new
  · exact hold other key old found

theorem overwrite (hold : Scopes.Hold holds scopes) (id : ScopeId) (name : String) {value : Value}
    (new : holds value) : Scopes.Hold holds (scopes.overwrite id name value) := by
  unfold Scopes.overwrite
  split
  · exact hold.declare id name new
  · exact hold

theorem push (hold : Scopes.Hold holds scopes) : Scopes.Hold holds (scopes.push []) :=
  fun id name binding found => hold id name binding ((find?_push _ _ _).symm.trans found)

end Scopes.Hold

/-- A new promise does not change those that were there. -/
theorem Promises.getElem?_push_of_some {promises : Promises} {p : PromiseId} {state : PromiseState}
    (found : promises[p]? = some state) (new : PromiseState) :
    (promises.push new)[p]? = some state := by
  have bound := (Array.getElem?_eq_some_iff.mp found).1
  rw [Array.getElem?_push, if_neg (Nat.ne_of_lt bound), found]

/-- The scopes and the promises that have a value name only promises that exist. -/
structure Machine.InOrder (m : Machine σ) : Prop where
  scopes : ∀ id name binding, m.scopes.find? id name = some binding →
    binding.value.Within m.promises.size
  promises : ∀ (p : PromiseId) (value : Value), m.promises[p]? = some (.resolved value) →
    value.Within m.promises.size

/-- The failures that a run can end in. A script that runs was read before, and the promises that
its values name exist. -/
def ScriptError.OfRun : ScriptError → Prop
  | .malformed _ _ | .misuse _ .droppedPromise => False
  | _ => True

/-- One machine can become the other by evaluation. -/
inductive Path (limits : Limits) (host : Host σ) : Machine σ → Machine σ → Prop
  | refl (m : Machine σ) : Path limits host m m
  | trans {m₁ m₂ m₃ : Machine σ} :
    Path limits host m₁ m₂ → Path limits host m₂ m₃ → Path limits host m₁ m₃
  | tick (m : Machine σ) : Path limits host m m.tick
  | openScope (m : Machine σ) : Path limits host m { m with scopes := m.scopes.push [] }
  | declare (m : Machine σ) (id : ScopeId) (name : String) (binding : Binding) :
    binding.value.Within m.promises.size →
    Path limits host m { m with scopes := m.scopes.declare id name binding }
  | assign (m : Machine σ) (env : Env) (id : ScopeId) (name : String) (old : Binding)
    (value : Value) :
    m.scopes.resolve env name = some (id, old) → old.fixed = false →
    value.Within m.promises.size →
    Path limits host m { m with scopes := m.scopes.declare id name { old with value } }
  | overwrite (m : Machine σ) (id : ScopeId) (name : String) (value : Value) :
    value.Within m.promises.size →
    Path limits host m { m with scopes := m.scopes.overwrite id name value }
  | newClosure (m : Machine σ) : Path limits host m { m with closures := m.closures + 1 }
  | print (m : Machine σ) (text : String) (line : Nat) :
    m.steps < limits.maxSteps →
    Path limits host m (m.tick.onHost (host.print text line))
  | registerTimer (m : Machine σ) (function : Closure) (delay line : Nat) :
    m.steps < limits.maxSteps →
    Path limits host m
      (m.tick.onHost fun s => (host.registerTimer (.plain function) delay line s).2)
  | defer (m : Machine σ) (function : Closure) (line : Nat) :
    m.steps < limits.maxSteps →
    Path limits host m (m.tick.onHost (host.defer (.plain function) line))
  | resolve (m : Machine σ) (value : Value) :
    m.steps < limits.maxSteps → (∀ p, value ≠ .promise p) → value.Within m.promises.size →
    Path limits host m { m.tick with promises := m.promises.push (.resolved value) }
  /-- A handler of a promise that has a value goes to the host. -/
  | chain (m : Machine σ) (receiver : PromiseId) (value : Value) (function : Closure)
    (line : Nat) :
    m.steps < limits.maxSteps → m.promises[receiver]? = some (.resolved value) →
    Path limits host m
      ({ m.tick with promises := m.promises.push (.pending []) }.onHost
        (host.chain (some ⟨function, some value, some m.promises.size⟩) line))
  /-- A handler of a promise that is pending waits there. -/
  | park (m : Machine σ) (receiver : PromiseId) (waiting : List Reaction) (function : Closure)
    (line : Nat) :
    m.steps < limits.maxSteps → m.promises[receiver]? = some (.pending waiting) →
    Path limits host m
      ({ m.tick with
          promises := (m.promises.push (.pending [])).setIfInBounds receiver
            (.pending (waiting ++ [Reaction.handler function m.promises.size])) }.onHost
        (host.chain none line))
  | call (m m' : Machine σ) (name : String) (line : Nat) :
    m.steps < limits.maxSteps → m.depth < limits.maxCallDepth →
    Path limits host (m.tick.onHost (host.enter name line)).deeper m' →
    Path limits host m (m'.shallower.onHost host.leave)
  /-- A call that is refused, since calls are nested as deeply as they may be. -/
  | refuse (m : Machine σ) (name : String) (line : Nat) :
    m.steps < limits.maxSteps →
    Path limits host m ((m.tick.onHost (host.enter name line)).onHost host.leave)

namespace Path

variable {limits : Limits} {host : Host σ} {m m' : Machine σ}

/-- No promise is ever removed. -/
theorem promises_le (h : Path limits host m m') : m.promises.size ≤ m'.promises.size := by
  induction h with
  | trans _ _ ih₁ ih₂ => exact Nat.le_trans ih₁ ih₂
  | call m m' name line _ _ _ ih => exact ih
  | resolve | chain => simp [Machine.onHost]
  | park => simp [Machine.onHost]
  | _ => exact Nat.le_refl _

/-- After a call the depth is what it was before. -/
theorem depth_eq (h : Path limits host m m') : m'.depth = m.depth := by
  induction h with
  | trans _ _ ih₁ ih₂ => exact ih₂.trans ih₁
  | call m m' name line _ _ _ ih =>
    show m'.depth - 1 = m.depth
    rw [ih]
    exact Nat.add_sub_cancel ..
  | _ => rfl

end Path

namespace Machine.InOrder

variable {m : Machine σ}

theorem initial (host : σ) : (Machine.initial host).InOrder where
  scopes := Scopes.Hold.globals (by simp [Value.Within])
  promises p value found := by simp [Machine.initial] at found

/-- The values of names name only promises that exist. -/
theorem values (inOrder : m.InOrder) : Scopes.Hold (Value.Within m.promises.size) m.scopes :=
  inOrder.scopes

theorem read (inOrder : m.InOrder) {env : Env} {name : String} {value : Value}
    (h : m.scopes.read env name = some value) : value.Within m.promises.size :=
  inOrder.values.read h

theorem declare (inOrder : m.InOrder) (id : ScopeId) (name : String) {binding : Binding}
    (within : binding.value.Within m.promises.size) :
    { m with scopes := m.scopes.declare id name binding }.InOrder :=
  ⟨inOrder.values.declare id name within, inOrder.promises⟩

theorem overwrite (inOrder : m.InOrder) (id : ScopeId) (name : String) {value : Value}
    (within : value.Within m.promises.size) :
    { m with scopes := m.scopes.overwrite id name value }.InOrder :=
  ⟨inOrder.values.overwrite id name within, inOrder.promises⟩

/-- New promises keep a machine in order if each of them that has a value has one in order, and the
old ones keep theirs. -/
theorem newPromises (inOrder : m.InOrder) (promises : Promises)
    (le : m.promises.size ≤ promises.size)
    (within : ∀ (p : PromiseId) (value : Value), promises[p]? = some (.resolved value) →
      m.promises[p]? = some (.resolved value) ∨ value.Within promises.size) :
    { m with promises }.InOrder where
  scopes id name binding h := (inOrder.scopes id name binding h).mono le
  promises p value h := by
    rcases within p value h with old | new
    · exact (inOrder.promises p value old).mono le
    · exact new

end Machine.InOrder

/-- Evaluation keeps a machine in order. -/
theorem Path.inOrder {limits : Limits} {host : Host σ} {m m' : Machine σ}
    (h : Path limits host m m') (inOrder : m.InOrder) : m'.InOrder := by
  induction h with
  | refl => exact inOrder
  | trans _ _ ih₁ ih₂ => exact ih₂ (ih₁ inOrder)
  | tick | newClosure | print | registerTimer | defer | refuse =>
    exact ⟨inOrder.scopes, inOrder.promises⟩
  | openScope m => exact ⟨inOrder.values.push, inOrder.promises⟩
  | declare m id name binding within => exact inOrder.declare id name within
  | assign m env id name old value _ _ within => exact inOrder.declare id name within
  | overwrite m id name value within => exact inOrder.overwrite id name within
  | resolve m value _ _ within =>
    have le : m.promises.size ≤ (m.promises.push (.resolved value)).size := by simp
    have after := inOrder.newPromises (m.promises.push (.resolved value)) le (by
      intro p other found
      rw [Array.getElem?_push] at found
      split at found
      · cases found
        exact .inr (within.mono le)
      · exact .inl found)
    exact ⟨after.scopes, after.promises⟩
  | chain m receiver value function line _ _ =>
    have after := inOrder.newPromises (m.promises.push (.pending [])) (by simp) (by
      intro p other found
      rw [Array.getElem?_push] at found
      split at found
      · cases found
      · exact .inl found)
    exact ⟨after.scopes, after.promises⟩
  | park m receiver waiting function line _ _ =>
    have after := inOrder.newPromises
      ((m.promises.push (.pending [])).setIfInBounds receiver
        (.pending (waiting ++ [Reaction.handler function m.promises.size]))) (by simp) (by
      intro p other found
      rw [Array.getElem?_setIfInBounds, Array.getElem?_push] at found
      repeat' split at found
      all_goals first | cases found | exact .inl found)
    exact ⟨after.scopes, after.promises⟩
  | call m m' name line _ _ _ ih =>
    have after := ih ⟨inOrder.scopes, inOrder.promises⟩
    exact ⟨after.scopes, after.promises⟩

end EventLoop
