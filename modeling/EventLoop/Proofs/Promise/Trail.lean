import EventLoop.Proofs.Promise.Continuations

/-!
# What a run attaches

A trail is a path that lists the functions which were attached to promises on it, in order, each
with the promise that the call gave.
-/

namespace EventLoop

variable {σ : Type} {limits : Limits} {host : Host σ} {m m' : Machine σ}

/-- One machine can become the other by evaluation, which attaches these continuations. -/
inductive Trail (limits : Limits) (host : Host σ) :
    Machine σ → List Continuation → Machine σ → Prop
  /-- No promise is made, so nothing is attached. -/
  | quiet {m m' : Machine σ} :
    Path limits host m m' → m'.promises.size = m.promises.size → Trail limits host m [] m'
  | resolve (m : Machine σ) (value : Value) :
    m.steps < limits.maxSteps → (∀ p, value ≠ .promise p) → value.Within m.promises.size →
    Trail limits host m [] { m.tick with promises := m.promises.push (.resolved value) }
  /-- A function is attached to a promise that has a value. -/
  | chain (m : Machine σ) (receiver : PromiseId) (value : Value) (function : Closure)
    (line : Nat) :
    m.steps < limits.maxSteps → m.promises[receiver]? = some (.resolved value) →
    Trail limits host m [⟨receiver, function, m.promises.size⟩]
      ({ m.tick with promises := m.promises.push (.pending []) }.onHost
        (host.chain (some ⟨function, some value, some m.promises.size⟩) line))
  /-- A function is attached to a promise that is pending. -/
  | park (m : Machine σ) (receiver : PromiseId) (waiting : List Reaction) (function : Closure)
    (line : Nat) :
    m.steps < limits.maxSteps → m.promises[receiver]? = some (.pending waiting) →
    Trail limits host m [⟨receiver, function, m.promises.size⟩]
      ({ m.tick with
          promises := (m.promises.push (.pending [])).setIfInBounds receiver
            (.pending (waiting ++ [Reaction.handler function m.promises.size])) }.onHost
        (host.chain none line))
  | trans {m₁ m₂ m₃ : Machine σ} {attached more : List Continuation} :
    Trail limits host m₁ attached m₂ → Trail limits host m₂ more m₃ →
    Trail limits host m₁ (attached ++ more) m₃
  | call (m m' : Machine σ) (name : String) (line : Nat) {attached : List Continuation} :
    m.steps < limits.maxSteps → m.depth < limits.maxCallDepth →
    Trail limits host (m.tick.onHost (host.enter name line)).deeper attached m' →
    Trail limits host m attached (m'.shallower.onHost host.leave)

theorem Trail.path {attached : List Continuation} (trail : Trail limits host m attached m') :
    Path limits host m m' := by
  induction trail with
  | quiet path _ => exact path
  | resolve m value steps plain within => exact .resolve m value steps plain within
  | chain m receiver value function line steps found =>
    exact .chain m receiver value function line steps found
  | park m receiver waiting function line steps found =>
    exact .park m receiver waiting function line steps found
  | trans _ _ ih₁ ih₂ => exact ih₁.trans ih₂
  | call m m' name line steps depth _ ih => exact .call m m' name line steps depth ih

/-- On every path some continuations are attached, or none. -/
theorem Path.trail (path : Path limits host m m') :
    ∃ attached, Trail limits host m attached m' := by
  induction path with
  | trans _ _ ih₁ ih₂ =>
    obtain ⟨attached, trail₁⟩ := ih₁
    obtain ⟨more, trail₂⟩ := ih₂
    exact ⟨attached ++ more, trail₁.trans trail₂⟩
  | call m m' name line steps depth _ ih =>
    obtain ⟨attached, trail⟩ := ih
    exact ⟨attached, .call m m' name line steps depth trail⟩
  | resolve m value steps plain within => exact ⟨[], .resolve m value steps plain within⟩
  | chain m receiver value function line steps found =>
    exact ⟨_, .chain m receiver value function line steps found⟩
  | park m receiver waiting function line steps found =>
    exact ⟨_, .park m receiver waiting function line steps found⟩
  | refl m => exact ⟨[], .quiet (.refl m) rfl⟩
  | tick m => exact ⟨[], .quiet (.tick m) rfl⟩
  | openScope m => exact ⟨[], .quiet (.openScope m) rfl⟩
  | declare m id name binding within => exact ⟨[], .quiet (.declare m id name binding within) rfl⟩
  | assign m env id name old value found free within =>
    exact ⟨[], .quiet (.assign m env id name old value found free within) rfl⟩
  | overwrite m id name value within =>
    exact ⟨[], .quiet (.overwrite m id name value within) rfl⟩
  | newClosure m => exact ⟨[], .quiet (.newClosure m) rfl⟩
  | print m text line steps => exact ⟨[], .quiet (.print m text line steps) rfl⟩
  | registerTimer m function delay line steps =>
    exact ⟨[], .quiet (.registerTimer m function delay line steps) rfl⟩
  | defer m function line steps => exact ⟨[], .quiet (.defer m function line steps) rfl⟩
  | refuse m name line steps => exact ⟨[], .quiet (.refuse m name line steps) rfl⟩

/-- Evaluation lets no promise follow another. -/
theorem Path.follows (path : Path limits host m m') {p q : PromiseId}
    (follows : m'.promises.Follows p q) : m.promises.Follows p q := by
  induction path with
  | trans _ _ ih₁ ih₂ => exact ih₁ (ih₂ follows)
  | call m m' name line _ _ _ ih => exact ih follows
  | resolve | chain => exact Promises.follows_of_push rfl follows
  | park m receiver waiting function line _ found =>
    have kept := Promises.getElem?_push_of_some found (.pending [])
    have pushed : Promises.Follows (m.promises.push (.pending [])) p q :=
      (Promises.follows_of_wait kept follows).resolve_right fun ⟨_, same⟩ => by cases same
    exact Promises.follows_of_push rfl pushed
  | _ => exact follows

end EventLoop
