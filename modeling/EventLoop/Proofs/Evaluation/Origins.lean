import EventLoop.Proofs.Evaluation.Tracking
import EventLoop.Proofs.Evaluation.Watching
import EventLoop.Proofs.Language.Naming
import EventLoop.Proofs.Promise.Closures
import EventLoop.Proofs.Promise.Interpreter

/-!
# Where scopes come from

A scope is opened inside other scopes and for a piece of code. From then on, whatever is done in it
is done in the same scopes around it, and by code that stands inside that piece: this is what it
means that scoping is lexical. It holds of all code that a run meets, since the closures that it
can reach were made where their definitions stand.
-/

namespace EventLoop

variable {σ α β : Type}

/-- What is known of a scope from when it was opened. -/
structure Origin where
  /-- The scopes around it. -/
  around : Env
  /-- The names that the code may set for which it was opened. -/
  allows : String → Prop
  /-- If it is the scope of a `for` loop, the variable that each round has a copy of. -/
  counter : Option String

/-- The globals are known to all code. -/
def Origin.global : Origin :=
  ⟨[], fun _ => True, none⟩

namespace Place

/-- The names that are set by what a scope is opened for. -/
def sets : Place → List String
  | block statements => Stmt.eachSets statements
  | loop init condition update body => (Stmt.forLoop init condition update body).sets
  | round body => body.sets
  | call closure => closure.definition.sets

def counter : Place → Option String
  | loop init _ _ _ => Eval.roundName init
  | block _ | round _ | call _ => none

def origin (env : Env) (place : Place) : Origin :=
  ⟨env, (· ∈ place.sets), place.counter⟩

end Place

/-- The scopes of the environment lie one in the other as their origins say, and the code for which
each was opened may set the names. -/
def Stands (origins : List Origin) (names : List String) : Env → Prop
  | [] => True
  | id :: env => ∃ origin, origins[id]? = some origin ∧ origin.around = env ∧
      (∀ name ∈ names, origin.allows name) ∧ Stands origins names env

namespace Stands

variable {origins origins' : List Origin} {names others : List String} {env : Env}

theorem mono (stands : Stands origins names env) (le : origins <+: origins') :
    Stands origins' names env := by
  induction env with
  | nil => trivial
  | cons id env ih =>
    obtain ⟨origin, there, around, allows, rest⟩ := stands
    obtain ⟨more, rfl⟩ := le
    refine ⟨origin, ?_, around, allows, ih rest⟩
    rw [List.getElem?_append_left (List.getElem?_eq_some_iff.mp there).1, there]

theorem fewer (stands : Stands origins names env) (subset : others ⊆ names) :
    Stands origins others env := by
  induction env with
  | nil => trivial
  | cons id env ih =>
    obtain ⟨origin, there, around, allows, rest⟩ := stands
    exact ⟨origin, there, around, fun name member => allows name (subset member), ih rest⟩

/-- In a scope that is opened there for code that sets the names, too. -/
theorem inner {place : Place} (stands : Stands origins place.sets env) {id : ScopeId}
    (there : origins[id]? = some (place.origin env)) :
    Stands origins place.sets (id :: env) :=
  ⟨place.origin env, there, rfl, fun _ member => member, stands⟩

/-- Each scope of the environment was opened for code that may set the names. -/
theorem allows (stands : Stands origins names env) {id : ScopeId} (member : id ∈ env) :
    ∃ origin, origins[id]? = some origin ∧ ∀ name ∈ names, origin.allows name := by
  induction env with
  | nil => cases member
  | cons head env ih =>
    obtain ⟨origin, there, -, allows, rest⟩ := stands
    rcases List.mem_cons.mp member with rfl | member
    · exact ⟨origin, there, allows⟩
    · exact ih rest member

theorem lt (stands : Stands origins names env) {id : ScopeId} (member : id ∈ env) :
    id < origins.length := by
  obtain ⟨origin, there, -⟩ := stands.allows member
  exact (List.getElem?_eq_some_iff.mp there).1

end Stands

/-- The definition of the closure stands where the closure was made. -/
def Closure.Stands (origins : List Origin) (closure : Closure) : Prop :=
  EventLoop.Stands origins closure.definition.sets closure.env

def Value.Stands (origins : List Origin) : Value → Prop
  | .function closure => closure.Stands origins
  | _ => True

/-- The closures of a callback stand where they were made. -/
structure Callback.Stands (origins : List Origin) (callback : Callback) : Prop where
  function : callback.function.Stands origins
  argument : ∀ value ∈ callback.argument, value.Stands origins

def Reaction.Stands (origins : List Origin) : Reaction → Prop
  | .handler function _ => function.Stands origins
  | .follow _ => True

def PromiseState.Stands (origins : List Origin) : PromiseState → Prop
  | .resolved value => value.Stands origins
  | .pending reactions => ∀ reaction ∈ reactions, reaction.Stands origins

def Promises.Stands (origins : List Origin) (promises : Promises) : Prop :=
  ∀ (p : PromiseId) (state : PromiseState), promises[p]? = some state → state.Stands origins

/-- The origins are those of the scopes of the machine, and every closure that the machine or its
host can reach stands where it was made. -/
structure Machine.Charted (origins : List Origin) (m : Machine (Custody σ)) : Prop where
  size : origins.length = m.scopes.size
  /-- A scope is newer than those around it. -/
  nested : ∀ (id : ScopeId) (origin : Origin), origins[id]? = some origin →
    ∀ outer ∈ origin.around, outer < id
  scopes : ∀ id name binding, m.scopes.find? id name = some binding → binding.value.Stands origins
  promises : m.promises.Stands origins
  held : ∀ callback ∈ m.host.held, callback.Stands origins

/-- What a statement ends with stands where it was made. -/
def Flow.Stands (origins : List Origin) : Flow → Prop
  | .returned value => value.Stands origins
  | _ => True

/-- What a scope is opened for, with the scopes around it, tells its origin. -/
def Entry.origin? (entry : Entry σ) : Option Origin :=
  match entry.deed with
  | .openScope env place => some (place.origin env)
  | _ => none

/-- The origins of the scopes that are opened. -/
def opened (log : List (Entry σ)) : List Origin :=
  log.filterMap Entry.origin?

/-- In a scope of a `for` loop whose rounds have copies of its variable, nothing but the variable is
bound, and not as a constant. -/
def Counts (origins : List Origin) (env : Env) (name : String) (fixed : Bool) : Prop :=
  ∀ id ∈ env.head?, ∃ origin, origins[id]? = some origin ∧
    ∀ counter ∈ origin.counter, name = counter ∧ fixed = false

/-- The innermost scope is not that of a `for` loop whose rounds have copies of its variable. -/
def Uncounted (origins : List Origin) (env : Env) : Prop :=
  ∀ id ∈ env.head?, ∃ origin, origins[id]? = some origin ∧ origin.counter = none

/-- The deed is done where code that does it may stand. -/
def Deed.Lawful (origins : List Origin) (scopes : Scopes) : Deed → Prop
  | .read env _ _ => Stands origins [] env
  | .assign env name _ _ => Stands origins [name] env
  -- The copy for a round is made as soon as its scope is open.
  | .declare .round env name binding =>
    Stands origins [] env ∧ Stands origins [name] env.tail ∧
      (∀ id ∈ env.head?, scopes.find? id name = none) ∧ Counts origins env name binding.fixed
  | .declare _ env name binding => Stands origins [name] env ∧ Counts origins env name binding.fixed
  | .copyBack env name _ => Stands origins [name] env ∧
      ∀ id ∈ env.head?, ∃ origin, origins[id]? = some origin ∧ origin.counter = some name
  | .openScope env place => Stands origins place.sets env ∧
      origins[scopes.size]? = some (place.origin env)
  | .capture closure => closure.Stands origins

/-- The deed is done where its code stands, in scopes that are there, and so is the body of the
closure that does it. -/
structure Entry.Lawful (origins : List Origin) (entry : Entry σ) : Prop where
  deed : entry.deed.Lawful origins entry.machine.scopes
  there : ∀ id ∈ entry.deed.env, id < entry.machine.scopes.size
  closure : ∀ closure ∈ entry.closure, closure.Stands origins ∧ closure.env <:+ entry.deed.env

theorem Uncounted.inner {origins : List Origin} {env : Env} {place : Place} {id : ScopeId}
    (there : origins[id]? = some (place.origin env)) (plain : place.counter = none) :
    Uncounted origins (id :: env) := by
  rintro _ ⟨⟩
  exact ⟨_, there, plain⟩

/-- Any name may be bound there. -/
theorem Uncounted.counts {origins : List Origin} {env : Env} (uncounted : Uncounted origins env)
    (name : String) (fixed : Bool) : Counts origins env name fixed := by
  intro id head
  obtain ⟨origin, there, none⟩ := uncounted id head
  exact ⟨origin, there, none ▸ nofun⟩

section

variable {origins origins' : List Origin} (le : origins <+: origins')

include le

theorem Origin.found {id : ScopeId} {origin : Origin} (there : origins[id]? = some origin) :
    origins'[id]? = some origin := by
  obtain ⟨more, rfl⟩ := le
  rw [List.getElem?_append_left (List.getElem?_eq_some_iff.mp there).1, there]

theorem Counts.mono {env : Env} {name : String} {fixed : Bool}
    (counts : Counts origins env name fixed) : Counts origins' env name fixed := by
  intro id head
  obtain ⟨origin, there, only⟩ := counts id head
  exact ⟨origin, Origin.found le there, only⟩

theorem Uncounted.mono {env : Env} (uncounted : Uncounted origins env) :
    Uncounted origins' env := by
  intro id head
  obtain ⟨origin, there, none⟩ := uncounted id head
  exact ⟨origin, Origin.found le there, none⟩

theorem Value.Stands.mono {value : Value} (stands : value.Stands origins) :
    value.Stands origins' := by
  cases value with
  | function closure => exact EventLoop.Stands.mono stands le
  | _ => trivial

theorem Flow.Stands.mono {flow : Flow} (stands : flow.Stands origins) : flow.Stands origins' := by
  cases flow with
  | returned value => exact Value.Stands.mono le stands
  | _ => trivial

theorem Callback.Stands.mono {callback : Callback} (stands : callback.Stands origins) :
    callback.Stands origins' :=
  ⟨EventLoop.Stands.mono stands.function le,
    fun value member => Value.Stands.mono le (stands.argument value member)⟩

theorem PromiseState.Stands.mono {state : PromiseState} (stands : state.Stands origins) :
    state.Stands origins' := by
  cases state with
  | resolved value => exact Value.Stands.mono le stands
  | pending reactions =>
    intro reaction member
    have known := stands reaction member
    cases reaction with
    | handler function settles => exact EventLoop.Stands.mono known le
    | follow => trivial

theorem Promises.Stands.mono {promises : Promises} (stands : promises.Stands origins) :
    promises.Stands origins' :=
  fun p state found => PromiseState.Stands.mono le (stands p state found)

theorem Deed.Lawful.mono {deed : Deed} {scopes : Scopes} (lawful : deed.Lawful origins scopes) :
    deed.Lawful origins' scopes := by
  cases deed with
  | read | assign | capture => exact EventLoop.Stands.mono lawful le
  | declare way env name binding =>
    cases way with
    | round => exact ⟨lawful.1.mono le, lawful.2.1.mono le, lawful.2.2.1, lawful.2.2.2.mono le⟩
    | _ => exact ⟨lawful.1.mono le, lawful.2.mono le⟩
  | copyBack env name value =>
    refine ⟨lawful.1.mono le, fun id head => ?_⟩
    obtain ⟨origin, there, counter⟩ := lawful.2 id head
    exact ⟨origin, Origin.found le there, counter⟩
  | openScope env place => exact ⟨lawful.1.mono le, Origin.found le lawful.2⟩

theorem Entry.Lawful.mono {entry : Entry σ} (lawful : entry.Lawful origins) :
    entry.Lawful origins' :=
  ⟨lawful.deed.mono le, lawful.there, fun closure member =>
    ⟨EventLoop.Stands.mono (lawful.closure closure member).1 le,
      (lawful.closure closure member).2⟩⟩

end

theorem Value.stands_iff {origins : List Origin} {value : Value} :
    value.Stands origins ↔ value.Carries (Closure.Stands origins) := by
  cases value <;> exact Iff.rfl

theorem Callback.stands_iff {origins : List Origin} {callback : Callback} :
    callback.Stands origins ↔ callback.Carries (Closure.Stands origins) := by
  constructor
  · rintro ⟨function, argument⟩
    exact ⟨function, fun value member => Value.stands_iff.mp (argument value member)⟩
  · rintro ⟨function, argument⟩
    exact ⟨function, fun value member => Value.stands_iff.mpr (argument value member)⟩

theorem PromiseState.stands_iff {origins : List Origin} {state : PromiseState} :
    state.Stands origins ↔ state.Carries (Closure.Stands origins) := by
  cases state with
  | resolved value => exact Value.stands_iff
  | pending reactions =>
    refine forall₂_congr fun reaction _ => ?_
    cases reaction <;> exact Iff.rfl

theorem Promises.stands_iff {origins : List Origin} {promises : Promises} :
    promises.Stands origins ↔ promises.Carries (Closure.Stands origins) :=
  forall₃_congr fun _ _ _ => PromiseState.stands_iff

namespace Promises.Stands

variable {origins : List Origin} {promises : Promises}

theorem push (stands : promises.Stands origins) {state : PromiseState}
    (known : state.Stands origins) : Promises.Stands origins (promises.push state) :=
  stands_iff.mpr ((stands_iff.mp stands).push (PromiseState.stands_iff.mp known))

theorem set (stands : promises.Stands origins) (p : PromiseId) {state : PromiseState}
    (known : state.Stands origins) :
    Promises.Stands origins (promises.setIfInBounds p state) :=
  stands_iff.mpr ((stands_iff.mp stands).set p (PromiseState.stands_iff.mp known))

theorem settle (stands : promises.Stands origins) (p : PromiseId) {value : Value}
    (known : value.Stands origins) :
    Promises.Stands origins (promises.settle p value).1 ∧
      ∀ callback ∈ (promises.settle p value).2, callback.Stands origins := by
  obtain ⟨after, released⟩ := (stands_iff.mp stands).settle p (Value.stands_iff.mp known)
  exact ⟨stands_iff.mpr after, fun callback member =>
    Callback.stands_iff.mpr (released callback member)⟩

end Promises.Stands

end EventLoop
