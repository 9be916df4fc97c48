import EventLoop.Proofs.Evaluation.Scoping

/-!
# The life of an interpreter

An interpreter runs scripts, and callbacks that its host was handed, one after the other, and its
host may do something of its own in between. What they do to names makes one log, from the globals
to the scopes that are reached, and all of it is lawful.
-/

namespace EventLoop

variable {σ : Type}

/-- A script or a callback that was run: what it did to names, and how it ended. -/
structure Run (σ : Type) where
  log : List (Entry σ)
  result : Except ScriptError Unit

namespace Run

variable (limits : Limits) (host : Host σ)

def script (script : Script) (m : Machine (Custody σ)) : Run (Custody σ) where
  log := (Watch.runScript limits host.keeping script).log m
  result := ((Eval.runScript limits host.keeping script).run m).1

def callback (callback : Callback) (m : Machine (Custody σ)) : Run (Custody σ) where
  log := (Watch.runCallback limits host.keeping callback).log m
  result := ((Eval.runCallback limits host.keeping callback).run m).1

end Run

/-- What an interpreter has run so far, and its machine now. -/
inductive Lives (host : Host σ) : List (Run (Custody σ)) → Machine (Custody σ) → Prop
  | start (state : σ) : Lives host [] (.initial ⟨state, []⟩)
  /-- The host does something of its own. -/
  | act {runs : List (Run (Custody σ))} {m : Machine (Custody σ)} (state : σ) :
    Lives host runs m → Lives host runs (m.onHost fun custody => { custody with state })
  | script {runs : List (Run (Custody σ))} {m : Machine (Custody σ)} (limits : Limits)
    (script : Script) : Lives host runs m →
    Lives host (runs ++ [.script limits host script m])
      ((Eval.runScript limits host.keeping script).run m).2
  /-- A callback is run that the host holds. -/
  | callback {runs : List (Run (Custody σ))} {m : Machine (Custody σ)} (limits : Limits)
    {callback : Callback} {before after : List Callback} : Lives host runs m →
    m.host.held = before ++ callback :: after →
    Lives host (runs ++ [.callback limits host callback (m.holding (before ++ after))])
      ((Eval.runCallback limits host.keeping callback).run (m.holding (before ++ after))).2

/-- All that the runs did to names. -/
def history (runs : List (Run σ)) : List (Entry σ) :=
  runs.flatMap Run.log

theorem history_concat (runs : List (Run σ)) (run : Run σ) :
    history (runs ++ [run]) = history runs ++ run.log := by
  simp [history]

namespace Lives

variable {host : Host σ} {runs : List (Run (Custody σ))} {m : Machine (Custody σ)}

/-- The history leads from the globals to the scopes that are there now. -/
theorem follows (life : Lives host runs m) : Follows #[globalScope] (history runs) m.scopes := by
  induction life with
  | start state => rfl
  | act state _ ih => exact ih
  | script limits script _ ih =>
    rw [history_concat]
    exact ih.append ((Watch.runScript limits host.keeping script).follows _)
  | @callback runs m limits callback before after _ _ ih =>
    rw [history_concat]
    exact ih.append ((Watch.runCallback limits host.keeping callback).follows
      (m.holding (before ++ after)))

/-- A run ends where a name is misused. -/
theorem stops (life : Lives host runs m) : ∀ run ∈ runs, Stops run.log run.result := by
  induction life with
  | start state => exact nofun
  | act state _ ih => exact ih
  | script limits script _ ih =>
    exact List.forall_mem_append.mpr ⟨ih, List.forall_mem_singleton.mpr
      ((Watch.runScript limits host.keeping script).stops _)⟩
  | callback limits _ _ ih =>
    exact List.forall_mem_append.mpr ⟨ih, List.forall_mem_singleton.mpr
      ((Watch.runCallback limits host.keeping _).stops _)⟩

/-- Where the scopes of the interpreter come from. -/
def origins (runs : List (Run σ)) : List Origin :=
  .global :: opened (history runs)

theorem origins_concat (runs : List (Run σ)) (run : Run σ) :
    origins (runs ++ [run]) = origins runs ++ opened run.log := by
  rw [origins, history_concat, opened_append]
  rfl

theorem charted_initial (state : σ) :
    (Machine.initial (Custody.mk state [])).Charted [.global] := by
  refine ⟨rfl, ?_, ?_, ?_, nofun⟩
  · intro id origin there
    rw [List.getElem?_singleton] at there
    split at there <;> cases there
    exact nofun
  · exact Scopes.Hold.globals fun _ _ => trivial
  · intro p state found
    simp [Machine.initial] at found

/-- All closures that can be reached stand where they were made, and all of the history is
lawful. -/
theorem lawful (life : Lives host runs m) :
    m.Charted (origins runs) ∧ ∀ entry ∈ history runs, entry.Lawful (origins runs) := by
  have goes {runs : List (Run (Custody σ))} {m : Machine (Custody σ)} {run : Run (Custody σ)}
      {env : Env} {x : Eval (Custody σ) Unit} {watch : Watch env x}
      {holds : List Origin → Unit → Prop} (logged : run.log = watch.log m)
      (before : ∀ entry ∈ history runs, entry.Lawful (origins runs))
      (charts : Charts (origins runs) m watch holds) :
      (x.run m).2.Charted (origins (runs ++ [run])) ∧
        ∀ entry ∈ history (runs ++ [run]), entry.Lawful (origins (runs ++ [run])) := by
    rw [history_concat, origins_concat, logged]
    refine ⟨charts.charted, List.forall_mem_append.mpr ⟨?_, charts.lawful⟩⟩
    exact fun entry member => (before entry member).mono (List.prefix_append _ _)
  induction life with
  | start state => exact ⟨charted_initial state, nofun⟩
  | act state _ ih => exact ⟨ih.1.congr rfl rfl rfl, ih.2⟩
  | script limits script _ ih => exact goes rfl ih.2 (.runScript script ih.1 rfl)
  | @callback runs m limits callback before after _ held ih =>
    have stands : ∀ other ∈ before ++ callback :: after, other.Stands (origins runs) :=
      held ▸ ih.1.held
    rw [List.forall_mem_append, List.forall_mem_cons] at stands
    obtain ⟨front, first, back⟩ := stands
    have charted : (m.holding (before ++ after)).Charted (origins runs) :=
      ⟨ih.1.size, ih.1.nested, ih.1.scopes, ih.1.promises, List.forall_mem_append.mpr ⟨front, back⟩⟩
    exact goes rfl ih.2 (.runCallback charted first)

end Lives

end EventLoop
