import EventLoop.Proofs.Evaluation.Lives

/-!
# Bindings stay

What is bound in a scope stays bound there. It comes to be bound only by a declaration in that very
scope, and so does a constant to have another value: assignments do not change it, and neither do
`for` loops, which copy back into scopes where nothing is constant.
-/

namespace EventLoop

variable {σ : Type}

/-- The deed binds the name in the scope. -/
def Deed.Binds (deed : Deed) (id : ScopeId) (name : String) : Prop :=
  ∃ way outer binding, deed = .declare way (id :: outer) name binding

/-- The deed copies a value back to the name in the scope. -/
def Deed.CopiesTo (deed : Deed) (id : ScopeId) (name : String) : Prop :=
  ∃ outer value, deed = .copyBack (id :: outer) name value

/-- The deed assigns to the name, which means the variable in the scope. -/
def Deed.AssignsTo (deed : Deed) (scopes : Scopes) (id : ScopeId) (name : String) : Prop :=
  ∃ env value line old, deed = .assign env name value line ∧
    scopes.resolve env name = some (id, old) ∧ old.fixed = false

/-- What a deed can do to a name in a scope: nothing, bind it, or give another value to it where it
is bound. -/
theorem Deed.effect_cases (deed : Deed) (scopes : Scopes) (id : ScopeId) (name : String) :
    Scopes.find? (deed.effect scopes) id name = scopes.find? id name ∨
    (∃ way outer binding, deed = .declare way (id :: outer) name binding ∧
      Scopes.find? (deed.effect scopes) id name = some binding) ∨
    ∃ old value, scopes.find? id name = some old ∧
      Scopes.find? (deed.effect scopes) id name = some { old with value } ∧
      (deed.AssignsTo scopes id name ∨ deed.CopiesTo id name) := by
  cases deed with
  | read | capture => exact .inl rfl
  | openScope env place => exact .inl (Scopes.find?_push ..)
  | assign env key value line =>
    simp only [effect]
    cases target : scopes.resolve env key with
    | none => exact .inl rfl
    | some found =>
      obtain ⟨other, binding⟩ := found
      cases fixed : binding.fixed with
      | true => exact .inl (by simp [fixed])
      | false =>
        simp only [fixed, Bool.false_eq_true, if_false, Scopes.find?_declare]
        split
        · rename_i same
          obtain ⟨rfl, rfl, -⟩ := same
          exact .inr (.inr ⟨binding, value, Scopes.find?_resolve target, by simp [fixed],
            .inl ⟨env, value, line, binding, rfl, target, fixed⟩⟩)
        · exact .inl rfl
  | declare way env key binding =>
    cases env with
    | nil => exact .inl rfl
    | cons other outer =>
      simp only [effect, Scopes.find?_declare]
      split
      · rename_i same
        obtain ⟨rfl, rfl, -⟩ := same
        exact .inr (.inl ⟨way, outer, binding, rfl, rfl⟩)
      · exact .inl rfl
  | copyBack env key value =>
    cases env with
    | nil => exact .inl rfl
    | cons other outer =>
      simp only [effect, Scopes.overwrite]
      cases found : scopes.find? other key with
      | none => exact .inl rfl
      | some old =>
        simp only [Scopes.find?_declare]
        split
        · rename_i same
          obtain ⟨rfl, rfl, -⟩ := same
          exact .inr (.inr ⟨old, value, found, rfl, .inr ⟨outer, value, rfl⟩⟩)
        · exact .inl rfl

/-- No scope is ever removed. -/
theorem Deed.size_effect (deed : Deed) (scopes : Scopes) :
    scopes.size ≤ (deed.effect scopes).size := by
  have declared (id : ScopeId) (name : String) (binding : Binding) :
      scopes.size ≤ (scopes.declare id name binding).size :=
    Nat.le_of_eq (Array.size_modify ..).symm
  cases deed with
  | read | capture => exact Nat.le_refl _
  | openScope env place => simp [effect]
  | assign env name value line =>
    simp only [effect]
    split
    · split
      · exact Nat.le_refl _
      · exact declared ..
    · exact Nat.le_refl _
  | declare way env name binding =>
    cases env with
    | nil => exact Nat.le_refl _
    | cons id outer => exact declared ..
  | copyBack env name value =>
    cases env with
    | nil => exact Nat.le_refl _
    | cons id outer =>
      simp only [effect, Scopes.overwrite]
      split
      · exact declared ..
      · exact Nat.le_refl _

namespace Follows

variable {s t : Scopes} {log : List (Entry σ)} {id : ScopeId} {name : String}

theorem size_le (follows : Follows s log t) : s.size ≤ t.size :=
  (follows.invariant (P := fun u => s.size ≤ u.size) (Nat.le_refl _)
    fun entry _ le => Nat.le_trans le (entry.deed.size_effect _)).2

theorem size_le_of_mem (follows : Follows s log t) {entry : Entry σ} (member : entry ∈ log) :
    entry.machine.scopes.size ≤ t.size := by
  obtain ⟨earlier, later, rfl⟩ := List.append_of_mem member
  exact Nat.le_trans (entry.deed.size_effect _) follows.split.2.size_le

/-- What is bound stays bound. -/
theorem bound (follows : Follows s log t) {old : Binding} (found : s.find? id name = some old) :
    ∃ new, t.find? id name = some new := by
  refine (follows.invariant (P := fun u => ∃ new, u.find? id name = some new) ⟨old, found⟩ ?_).2
  rintro entry - ⟨old, found⟩
  rcases entry.deed.effect_cases entry.machine.scopes id name with
    same | ⟨_, _, binding, -, bound⟩ | ⟨_, _, -, changed, -⟩
  · exact ⟨old, same.trans found⟩
  · exact ⟨binding, bound⟩
  · exact ⟨_, changed⟩

/-- A binding comes from what binds the name in the scope. -/
theorem binds (follows : Follows s log t) (missing : s.find? id name = none) {new : Binding}
    (found : t.find? id name = some new) : ∃ entry ∈ log, entry.deed.Binds id name := by
  have held := (follows.invariant
    (P := fun u => u.find? id name = none ∨ ∃ entry ∈ log, entry.deed.Binds id name)
    (.inl missing) ?_).2
  · rcases held with none | binds
    · cases none.symm.trans found
    · exact binds
  · rintro entry member (missing | binds)
    · rcases entry.deed.effect_cases entry.machine.scopes id name with
        same | ⟨way, outer, binding, deed, -⟩ | ⟨_, _, found, -, -⟩
      · exact .inl (same.trans missing)
      · exact .inr ⟨entry, member, way, outer, binding, deed⟩
      · cases missing.symm.trans found
    · exact .inr binds

/-- A constant stays as it is, unless the name is bound anew in its scope or copied back to. -/
theorem constant (follows : Follows s log t) {old : Binding} (found : s.find? id name = some old)
    (fixed : old.fixed = true)
    (spared : ∀ entry ∈ log, entry.deed.CopiesTo id name →
      entry.machine.scopes.find? id name ≠ some old) :
    t.find? id name = some old ∨ ∃ entry ∈ log, entry.deed.Binds id name := by
  refine (follows.invariant
    (P := fun u => u.find? id name = some old ∨ ∃ entry ∈ log, entry.deed.Binds id name)
    (.inl found) ?_).2
  rintro entry member (found | binds)
  · rcases entry.deed.effect_cases entry.machine.scopes id name with
      same | ⟨way, outer, binding, deed, -⟩ |
      ⟨_, _, -, -, ⟨env, value, line, other, -, target, free⟩ | copies⟩
    · exact .inl (same.trans found)
    · exact .inr ⟨entry, member, way, outer, binding, deed⟩
    · cases found.symm.trans (Scopes.find?_resolve target)
      cases fixed.symm.trans free
    · exact absurd found (spared entry member copies)
  · exact .inr binds

end Follows

/-- Nothing is constant in the scopes of `for` loops whose rounds have copies of their variables. -/
def Loose (origins : List Origin) (scopes : Scopes) : Prop :=
  ∀ (id : ScopeId) (origin : Origin), origins[id]? = some origin → origin.counter ≠ none →
    ∀ name binding, scopes.find? id name = some binding → binding.fixed = false

/-- What is lawful makes nothing constant there. -/
theorem Loose.after {origins : List Origin} {entry : Entry σ} (lawful : entry.Lawful origins)
    (loose : Loose origins entry.machine.scopes) : Loose origins entry.after := by
  intro id origin there counts name binding found
  rcases entry.deed.effect_cases entry.machine.scopes id name with
    same | ⟨way, outer, new, deed, bound⟩ | ⟨old, value, old', changed, -⟩
  · exact loose id origin there counts name binding (same.symm.trans found)
  · cases bound.symm.trans found
    have counted : Counts origins (id :: outer) name binding.fixed := by
      have law := lawful.deed
      rw [deed] at law
      cases way with
      | round => exact law.2.2.2
      | _ => exact law.2
    obtain ⟨other, there', only⟩ := counted id rfl
    cases there.symm.trans there'
    obtain ⟨counter, named⟩ := Option.ne_none_iff_exists'.mp counts
    exact (only counter named).2
  · cases changed.symm.trans found
    exact loose id origin there counts name old old'

namespace Lives

variable {host : Host σ} {runs : List (Run (Custody σ))} {m : Machine (Custody σ)}

/-- A `for` loop copies back to what is no constant. -/
theorem copies_free (life : Lives host runs m) {entry : Entry (Custody σ)}
    (member : entry ∈ history runs) {id : ScopeId} {name : String}
    (copies : entry.deed.CopiesTo id name) {binding : Binding}
    (found : entry.machine.scopes.find? id name = some binding) : binding.fixed = false := by
  have lawful := life.lawful.2
  have start : Loose (origins runs) #[globalScope] := by
    intro id origin there counts name binding found
    cases id with
    | zero =>
      cases there
      exact absurd rfl counts
    | succ id => cases found
  have loose := (life.follows.invariant start fun entry member => .after (lawful entry member)).1
  obtain ⟨outer, value, deed⟩ := copies
  have law := (lawful entry member).deed
  rw [deed] at law
  obtain ⟨origin, there, counter⟩ := law.2 id rfl
  exact loose entry member id origin there (counter ▸ Option.some_ne_none name) name binding found

end Lives

/-- What the deeds leave of the bindings in the first scopes, when they lead to the second. -/
structure BindingsKept (log : List (Entry σ)) (s t : Scopes) : Prop where
  bound : ∀ id name old, s.find? id name = some old → ∃ new, t.find? id name = some new
  /-- A scope gains a binding only from what binds the name in the scope itself. -/
  gained : ∀ id name new, s.find? id name = none → t.find? id name = some new →
    ∃ entry ∈ log, entry.deed.Binds id name
  /-- A constant has another value only if its scope binds the name anew. -/
  constant : ∀ id name old, s.find? id name = some old → old.fixed = true →
    t.find? id name ≠ some old → ∃ entry ∈ log, entry.deed.Binds id name

/-- The deed is an assignment on the line to a name that means a constant. -/
def Entry.Misassigns (entry : Entry σ) (name : String) (line : Nat) : Prop :=
  ∃ env value id binding, entry.deed = .assign env name value line ∧
    entry.machine.scopes.resolve env name = some (id, binding) ∧ binding.fixed = true

/-- An assignment to a constant changes nothing and fails. -/
theorem Entry.Misassigns.fails {entry : Entry σ} {name : String} {line : Nat}
    (misassigns : entry.Misassigns name line) :
    entry.after = entry.machine.scopes ∧
      entry.fault = some (.misuse line (.assignedConstant name)) := by
  obtain ⟨env, value, id, binding, deed, target, fixed⟩ := misassigns
  unfold Entry.after Entry.fault
  rw [deed]
  simp only [Deed.effect, Deed.fault, target, fixed, if_true, and_self]

/-- Bindings stay, in whatever an interpreter runs. Its history leads from the globals, four of
them, which are constant, to the scopes that are there now. From any moment of it to any later one
what is bound stays bound, a scope gains a binding only from a declaration, the definition of a
function, a parameter or the copy for a round in that scope, and a constant has another value only
if its scope binds the name anew. Copying back to a `for` loop never meets a constant. A run that
assigns to one changes nothing by it, and ends there with the failure. -/
theorem Lives.bindings_kept {host : Host σ} {runs : List (Run (Custody σ))}
    {m : Machine (Custody σ)} (life : Lives host runs m) :
    Follows #[globalScope] (history runs) m.scopes ∧
    (∀ name ∈ ["console", "setTimeout", "queueMicrotask", "Promise"], ∃ value,
      Scopes.find? #[globalScope] 0 name = some ⟨value, true⟩) ∧
    (∀ earlier between later s t, history runs = earlier ++ between ++ later →
      Follows #[globalScope] earlier s → Follows s between t → BindingsKept between s t) ∧
    (∀ entry ∈ history runs, ∀ id name binding, entry.deed.CopiesTo id name →
      entry.machine.scopes.find? id name = some binding → binding.fixed = false) ∧
    ∀ run ∈ runs, ∀ before entry after name line, run.log = before ++ entry :: after →
      entry.Misassigns name line → entry.after = entry.machine.scopes ∧ after = [] ∧
        run.result = .error (.misuse line (.assignedConstant name)) := by
  have free (entry : Entry (Custody σ)) (member : entry ∈ history runs) (id : ScopeId)
      (name : String) (binding : Binding) (copies : entry.deed.CopiesTo id name)
      (found : entry.machine.scopes.find? id name = some binding) : binding.fixed = false :=
    life.copies_free member copies found
  refine ⟨life.follows, ?_, ?_, free, ?_⟩
  · simp only [List.forall_mem_cons]
    exact ⟨⟨_, rfl⟩, ⟨_, rfl⟩, ⟨_, rfl⟩, ⟨_, rfl⟩, nofun⟩
  · intro earlier between later s t split _ follows
    refine ⟨fun id name old => follows.bound, fun id name new missing => follows.binds missing, ?_⟩
    intro id name old found fixed changed
    refine (follows.constant found fixed ?_).resolve_left changed
    intro entry member copies there
    have known : entry ∈ history runs := by
      rw [split]
      exact List.mem_append_left _ (List.mem_append_right _ member)
    cases fixed.symm.trans (free entry known id name old copies there)
  · intro run member before entry after name line split misassigns
    obtain ⟨same, fails⟩ := misassigns.fails
    exact ⟨same, life.stops run member before entry after _ split fails⟩

/-- Declares a constant and assigns to it. -/
def assignedConstant : Script :=
  [.declare 1 .constWord "c" (some (.null 1)), .evaluate (.assign 2 .set "c" (.undefined 2)),
    .declare 3 .letWord "c" none]

/-- The assignment is the last that the script does. -/
theorem Lives.bindings_kept_assigned :
    ∃ m, Lives Host.silent [.script ⟨9, 9⟩ Host.silent assignedConstant (.initial ⟨(), []⟩)] m ∧
      Follows #[globalScope]
        (history [.script ⟨9, 9⟩ Host.silent assignedConstant (.initial ⟨(), []⟩)]) m.scopes ∧
      (Run.script ⟨9, 9⟩ Host.silent assignedConstant (.initial ⟨(), []⟩)).result =
        .error (.misuse 2 (.assignedConstant "c")) := by
  have begun : Lives Host.silent [] (.initial ⟨(), []⟩) := .start ()
  have life := Lives.script ⟨9, 9⟩ assignedConstant begun
  obtain ⟨follows, -, -, -, fails⟩ := life.bindings_kept
  refine ⟨_, life, follows, ?_⟩
  refine (fails _ List.mem_cons_self [_] _ [] "c" 2 rfl ?_).2.2
  exact ⟨globalEnv, .undefined, 0, ⟨.null, true⟩, rfl, rfl, rfl⟩

end EventLoop
