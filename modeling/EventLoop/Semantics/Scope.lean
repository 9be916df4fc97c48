import EventLoop.Semantics.Value

/-!
# Scopes

A scope holds the bindings made in it; the scopes of a run lie side by side in an array and are
never removed. An environment lists the scopes in which a name is looked up, so a name means the
binding in the first of them that has one.
-/

namespace EventLoop

/-- A name's value, and whether assignments may change it. -/
structure Binding where
  value : Value
  fixed : Bool

/-- The bindings of one scope, at most one for each name. -/
abbrev Scope := List (String × Binding)

namespace Scope

/-- The binding of a name. -/
def find? (name : String) : Scope → Option Binding
  | [] => none
  | (other, binding) :: rest => if other = name then some binding else find? name rest

/-- The scope with this binding of the name, in place of an old one. -/
def bind (name : String) (binding : Binding) : Scope → Scope
  | [] => [(name, binding)]
  | (other, old) :: rest =>
    if other = name then (name, binding) :: rest else (other, old) :: bind name binding rest

@[simp] theorem find?_bind (name other : String) (binding : Binding) (scope : Scope) :
    (scope.bind name binding).find? other =
      if name = other then some binding else scope.find? other := by
  induction scope with
  | nil => simp [bind, find?]
  | cons head rest ih =>
    obtain ⟨key, old⟩ := head
    by_cases hkey : key = name
    · subst hkey
      by_cases hother : key = other <;> simp [bind, find?, hother]
    · by_cases hother : key = other
      · subst hother
        simp [bind, find?, hkey, Ne.symm hkey]
      · simp [bind, find?, hkey, hother, ih]

end Scope

/-- All scopes of a run. -/
abbrev Scopes := Array Scope

namespace Scopes

/-- The binding of a name in one scope. -/
def find? (scopes : Scopes) (id : ScopeId) (name : String) : Option Binding :=
  scopes[id]?.bind (Scope.find? name)

/-- The first scope that binds a name, and the binding. -/
def resolve (scopes : Scopes) (env : Env) (name : String) : Option (ScopeId × Binding) :=
  env.findSome? fun id => (scopes.find? id name).map fun binding => (id, binding)

/-- The value of a name. -/
def read (scopes : Scopes) (env : Env) (name : String) : Option Value :=
  (scopes.resolve env name).map fun (_, binding) => binding.value

/-- Binds a name in one scope, whether or not it was bound there. -/
def declare (scopes : Scopes) (id : ScopeId) (name : String) (binding : Binding) : Scopes :=
  scopes.modify id (Scope.bind name binding)

/-- Changes the value of a name that this scope binds, even of a constant; otherwise nothing. -/
def overwrite (scopes : Scopes) (id : ScopeId) (name : String) (value : Value) : Scopes :=
  match scopes.find? id name with
  | some binding => scopes.declare id name { binding with value }
  | none => scopes

end Scopes

/-- The bindings that every script starts with. None can be assigned to. -/
def globalScope : Scope :=
  [ ("console", ⟨.native .console, true⟩),
    ("setTimeout", ⟨.native .setTimeout, true⟩),
    ("queueMicrotask", ⟨.native .queueMicrotask, true⟩),
    ("Promise", ⟨.native .promise, true⟩) ]

/-- The environment of a script's outermost statements. -/
def globalEnv : Env := [0]

end EventLoop
