import EventLoop.Proofs.Evaluation.Origins

/-!
# Scoping is lexical

If every closure that can be reached stands where it was made, a run keeps it so, and all that it
does to names is lawful: it is done where the code that does it stands. This is read off the
evaluator once, case by case along its watch.
-/

namespace EventLoop

variable {σ α β : Type}

/-- A scope that was not opened binds nothing. -/
theorem Scopes.find?_of_size_le {scopes : Scopes} {id : ScopeId} (le : scopes.size ≤ id)
    (name : String) : scopes.find? id name = none := by
  unfold Scopes.find?
  rw [Array.getElem?_eq_none le]
  rfl

theorem Scopes.lt_of_find? {scopes : Scopes} {id : ScopeId} {name : String} {binding : Binding}
    (found : scopes.find? id name = some binding) : id < scopes.size := by
  refine Nat.lt_of_not_le fun le => ?_
  cases (Scopes.find?_of_size_le le name).symm.trans found

namespace Value

variable {origins : List Origin}

theorem stands_add (a b : Value) : (a.add b).Stands origins := by
  unfold Value.add
  split <;> trivial

theorem stands_binary (op : BinaryOp) (a b : Value) : (Value.binary op a b).Stands origins := by
  cases op with
  | add => exact stands_add a b
  | less | lessEqual | greater | greaterEqual =>
    simp only [Value.binary, Value.compareWith]
    split <;> trivial
  | _ => trivial

end Value

namespace Machine.Charted

variable {origins : List Origin} {m m' : Machine (Custody σ)}

theorem values (charted : m.Charted origins) : Scopes.Hold (Value.Stands origins) m.scopes :=
  charted.scopes

/-- What is read of a name stands where it was made. -/
theorem read (charted : m.Charted origins) {env : Env} {name : String} {value : Value}
    (found : m.scopes.read env name = some value) : value.Stands origins :=
  charted.values.read found

theorem read_getD (charted : m.Charted origins) (env : Env) (name : String) :
    ((m.scopes.read env name).getD .undefined).Stands origins :=
  charted.values.read_getD trivial env name

theorem below (charted : m.Charted origins) {names : List String} {env : Env}
    (stands : Stands origins names env) : ∀ id ∈ env, id < m.scopes.size :=
  fun _ member => charted.size ▸ stands.lt member

theorem congr (charted : m.Charted origins) (scopes : m'.scopes = m.scopes)
    (promises : m'.promises = m.promises) (held : m'.host.held = m.host.held) :
    m'.Charted origins := by
  refine ⟨?_, charted.nested, ?_, ?_, ?_⟩
  · rw [scopes]
    exact charted.size
  · rw [scopes]
    exact charted.scopes
  · rw [promises]
    exact charted.promises
  · rw [held]
    exact charted.held

theorem declare (charted : m.Charted origins) (id : ScopeId) (name : String) {binding : Binding}
    (stands : binding.value.Stands origins) :
    { m with scopes := m.scopes.declare id name binding }.Charted origins :=
  ⟨charted.size.trans (Array.size_modify ..).symm, charted.nested,
    charted.values.declare id name stands, charted.promises, charted.held⟩

theorem overwrite (charted : m.Charted origins) (id : ScopeId) (name : String) {value : Value}
    (stands : value.Stands origins) :
    { m with scopes := m.scopes.overwrite id name value }.Charted origins := by
  unfold Scopes.overwrite
  split
  · exact charted.declare id name stands
  · exact charted

/-- A new scope has its own origin. -/
theorem push (charted : m.Charted origins) {origin : Origin}
    (around : ∀ outer ∈ origin.around, outer < m.scopes.size) :
    { m with scopes := m.scopes.push [] }.Charted (origins ++ [origin]) := by
  have le : origins <+: origins ++ [origin] := List.prefix_append _ _
  refine ⟨?_, ?_, ?_, ?_, ?_⟩
  · simp [charted.size]
  · intro id other there
    rw [List.getElem?_append] at there
    split at there
    · exact charted.nested id other there
    · rename_i new
      rw [List.getElem?_singleton] at there
      split at there <;> cases there
      intro outer member
      exact Nat.lt_of_lt_of_le (charted.size ▸ around outer member) (Nat.le_of_not_lt new)
  · intro id name binding found
    exact Value.Stands.mono le (charted.values.push id name binding found)
  · exact charted.promises.mono le
  · intro callback member
    exact Callback.Stands.mono le (charted.held callback member)

theorem setPromises (charted : m.Charted origins) {promises : Promises}
    (stands : promises.Stands origins) : { m with promises }.Charted origins :=
  ⟨charted.size, charted.nested, charted.scopes, stands, charted.held⟩

theorem hold (charted : m.Charted origins) (callbacks : List Callback)
    (stands : ∀ callback ∈ callbacks, callback.Stands origins)
    (scopes : m'.scopes = m.scopes) (promises : m'.promises = m.promises)
    (held : m'.host.held = callbacks ++ m.host.held) : m'.Charted origins := by
  refine ⟨?_, charted.nested, ?_, ?_, ?_⟩
  · rw [scopes]
    exact charted.size
  · rw [scopes]
    exact charted.scopes
  · rw [promises]
    exact charted.promises
  · rw [held]
    intro callback member
    rcases List.mem_append.mp member with new | old
    · exact stands callback new
    · exact charted.held callback old

theorem settle (charted : m.Charted origins) (host : Host σ) (p : PromiseId) {value : Value}
    (known : value.Stands origins) : (m.settle host.keeping p value).Charted origins := by
  obtain ⟨promises, released⟩ := charted.promises.settle p known
  exact (charted.setPromises promises).hold _ released rfl rfl (m.held_settle host p value)

end Machine.Charted

/-- From the machine, the computation keeps every closure where it was made and does nothing to
names that is not lawful, and what it gives has the property. -/
structure Charts {env : Env} {x : Eval (Custody σ) α} (origins : List Origin)
    (m : Machine (Custody σ)) (watch : Watch env x) (holds : List Origin → α → Prop) : Prop where
  charted : (x.run m).2.Charted (origins ++ opened (watch.log m))
  lawful : ∀ entry ∈ watch.log m, entry.Lawful (origins ++ opened (watch.log m))
  gives : ∀ a, (x.run m).1 = .ok a → holds (origins ++ opened (watch.log m)) a

theorem opened_append (log log' : List (Entry σ)) :
    opened (log ++ log') = opened log ++ opened log' :=
  List.filterMap_append

theorem opened_inside (caller : Option Closure) (log : List (Entry σ)) :
    opened (log.map (Entry.inside caller)) = opened log := by
  rw [opened, List.filterMap_map]
  rfl

namespace Charts

variable {env : Env} {origins : List Origin} {m : Machine (Custody σ)}

theorem silent {x : Eval (Custody σ) α} {aside : Aside x} {holds : List Origin → α → Prop}
    (charted : (x.run m).2.Charted origins) (gives : ∀ a, (x.run m).1 = .ok a → holds origins a) :
    Charts origins m (Watch.silent aside : Watch env x) holds := by
  have same : origins ++ opened ([] : List (Entry (Custody σ))) = origins := List.append_nil _
  exact ⟨same.symm ▸ charted, fun _ => nofun, same.symm ▸ gives⟩

theorem pure {holds : List Origin → α → Prop} {a : α} (charted : m.Charted origins)
    (known : holds origins a) : Charts origins m (Watch.pure a : Watch env _) holds :=
  silent charted fun _ same => by cases same; exact known

theorem throw {holds : List Origin → α → Prop} {e : ScriptError} (charted : m.Charted origins) :
    Charts origins m (Watch.throw e : Watch env _) holds :=
  silent charted fun _ same => by cases same

theorem tick (limits : Limits) (charted : m.Charted origins) :
    Charts origins m (Watch.silent (.tick limits) : Watch env _) fun _ _ => True := by
  refine silent ?_ fun _ _ => trivial
  rw [Eval.run_tick]
  split <;> exact charted.congr rfl rfl rfl

/-- What does one thing that opens no scope. -/
theorem perform {x : Eval (Custody σ) α} {deed : Machine (Custody σ) → Deed}
    {within : ∀ m, env <:+ (deed m).env}
    {effect : ∀ m, (x.run m).2.scopes = (deed m).effect m.scopes}
    {fault : ∀ m e, (deed m).fault m.scopes = some e → (x.run m).1 = .error e}
    {holds : List Origin → α → Prop} (plain : (Entry.mk m (deed m) none).origin? = none)
    (lawful : (deed m).Lawful origins m.scopes) (there : ∀ id ∈ (deed m).env, id < m.scopes.size)
    (charted : (x.run m).2.Charted origins) (gives : ∀ a, (x.run m).1 = .ok a → holds origins a) :
    Charts origins m (Watch.perform x deed within effect fault) holds := by
  have same : origins ++ opened [Entry.mk m (deed m) none] = origins := by
    rw [opened, List.filterMap_cons_none plain]
    exact List.append_nil _
  refine ⟨same.symm ▸ charted, fun entry member => ?_, same.symm ▸ gives⟩
  show entry.Lawful (origins ++ opened [Entry.mk m (deed m) none])
  cases List.mem_singleton.mp member
  rw [same]
  exact ⟨lawful, there, fun _ never => by cases never⟩

section

variable {x : Eval (Custody σ) α} {f : α → Eval (Custody σ) β} {first : Watch env x}
  {watch : Watch env (x >>= f)} {mid : List Origin → α → Prop} {holds : List Origin → β → Prop}
  {m' : Machine (Custody σ)}

/-- A part after which the computation stops. -/
theorem last {e : ScriptError} (run : x.run m = (.error e, m')) (log : watch.log m = first.log m)
    (charts : Charts origins m first mid) : Charts origins m watch holds := by
  obtain ⟨charted, lawful, -⟩ := charts
  rw [run] at charted
  refine ⟨?_, ?_, ?_⟩
  · rw [log, Eval.run_bind_error run]
    exact charted
  · rw [log]
    exact lawful
  · rw [Eval.run_bind_error run]
    intro _ never
    cases never

/-- A part, and what follows it. -/
theorem followed {inner : Env} {a : α} {second : Watch inner (f a)} (run : x.run m = (.ok a, m'))
    (log : watch.log m = first.log m ++ second.log m') (charts : Charts origins m first mid)
    (next : ∀ origins', origins <+: origins' → m'.Charted origins' → mid origins' a →
      Charts origins' m' second holds) : Charts origins m watch holds := by
  obtain ⟨charted, lawful, gives⟩ := charts
  rw [run] at charted gives
  have rest := next _ (List.prefix_append _ _) charted (gives a rfl)
  have all : origins ++ opened (watch.log m) =
      origins ++ opened (first.log m) ++ opened (second.log m') := by
    rw [log, opened_append, List.append_assoc]
  refine ⟨?_, ?_, ?_⟩
  · rw [all, Eval.run_bind_ok run]
    exact rest.charted
  · rw [all, log]
    intro entry member
    rcases List.mem_append.mp member with member | member
    · exact (lawful entry member).mono (List.prefix_append _ _)
    · exact rest.lawful entry member
  · rw [all, Eval.run_bind_ok run]
    exact rest.gives

end

theorem bind {x : Eval (Custody σ) α} {f : α → Eval (Custody σ) β} {first : Watch env x}
    {second : ∀ a, Watch env (f a)} {mid : List Origin → α → Prop} {holds : List Origin → β → Prop}
    (charts : Charts origins m first mid)
    (next : ∀ origins' a m', origins <+: origins' → m'.Charted origins' → mid origins' a →
      Charts origins' m' (second a) holds) :
    Charts origins m (.bind first second) holds := by
  have log : (Watch.bind first second).log m = first.log m ++ Watch.next second (x.run m) := rfl
  rcases run : x.run m with ⟨e | a, m'⟩
  · rw [run] at log
    exact last run (log.trans (List.append_nil _)) charts
  · rw [run] at log
    exact followed run log charts fun origins' le charted known =>
      next origins' a m' le charted known

theorem enter {x : Eval (Custody σ) Env} {f : Env → Eval (Custody σ) β} {first : Watch env x}
    {gives : ∀ m, ∃ id, (x.run m).1 = .ok (id :: env)} {second : ∀ id, Watch env (f (id :: env))}
    {mid : List Origin → Env → Prop} {holds : List Origin → β → Prop}
    (charts : Charts origins m first mid)
    (next : ∀ origins' id m', origins <+: origins' → m'.Charted origins' →
      mid origins' (id :: env) → Charts origins' m' (second id) holds) :
    Charts origins m (.enter first gives second) holds := by
  have log : (Watch.enter first gives second).log m =
    first.log m ++ Watch.nextIn second (x.run m) := rfl
  obtain ⟨id, given⟩ := gives m
  rcases run : x.run m with ⟨result, m'⟩
  rw [run] at given log
  cases given
  exact followed run log charts fun origins' le charted known =>
    next origins' id m' le charted known

section

variable {x : Eval (Custody σ) α} {holds : List Origin → α → Prop}

theorem ite {c : Prop} [Decidable c] {y : Eval (Custody σ) α} {yes : Watch env x} {no : Watch env y}
    (onYes : Charts origins m yes holds) (onNo : Charts origins m no holds) :
    Charts origins m (.ite (c := c) yes no) holds := by
  by_cases h : c
  · have log : (Watch.ite (c := c) yes no).log m = yes.log m := if_pos h
    refine ⟨?_, ?_, ?_⟩
    · rw [log, if_pos h]
      exact onYes.charted
    · rw [log]
      exact onYes.lawful
    · rw [log, if_pos h]
      exact onYes.gives
  · have log : (Watch.ite (c := c) yes no).log m = no.log m := if_neg h
    refine ⟨?_, ?_, ?_⟩
    · rw [log, if_neg h]
      exact onNo.charted
    · rw [log]
      exact onNo.lawful
    · rw [log, if_neg h]
      exact onNo.gives

theorem between {before after : Machine (Custody σ) → Machine (Custody σ)}
    {same : ∀ m, (before m).scopes = m.scopes} {same' : ∀ m, (after m).scopes = m.scopes}
    {watch : Watch env x}
    (kept : ∀ origins' m', m'.Charted origins' → (after m').Charted origins')
    (charts : Charts origins (before m) watch holds) :
    Charts origins m (.between before after same same' watch) holds :=
  ⟨kept _ _ charts.charted, charts.lawful, charts.gives⟩

theorem under {inner : Env} {suffix : env <:+ inner} {watch : Watch inner x}
    (charts : Charts origins m watch holds) : Charts origins m (.under suffix watch) holds :=
  ⟨charts.charted, charts.lawful, charts.gives⟩

theorem inside {closure : Closure} {watch : Watch closure.env x} (stands : closure.Stands origins)
    (charts : Charts origins m watch holds) :
    Charts origins m (Watch.inside closure watch : Watch env x) holds := by
  have same : opened ((Watch.inside closure watch : Watch env x).log m) = opened (watch.log m) :=
    opened_inside (some closure) (watch.log m)
  refine ⟨same ▸ charts.charted, ?_, same ▸ charts.gives⟩
  rw [same]
  intro entry member
  obtain ⟨original, there, rfl⟩ := List.mem_map.mp member
  have lawful := charts.lawful original there
  refine ⟨lawful.deed, lawful.there, ?_⟩
  intro called same
  cases known : original.closure with
  | some own =>
    have same : original.closure.or (some closure) = some called := same
    rw [known] at same
    cases same
    exact lawful.closure called known
  | none =>
    have same : original.closure.or (some closure) = some called := same
    rw [known] at same
    cases same
    exact ⟨EventLoop.Stands.mono stands (List.prefix_append _ _),
      watch.within m original there known⟩

end

/-! ## Names -/

section

variable (charted : m.Charted origins)

include charted

theorem read {name : String} {line : Nat} (stands : Stands origins [] env) :
    Charts origins m (Watch.read env name line) Value.Stands := by
  have begins : (Eval.read env name line).run m = _ := Eval.run_bind_ok (Eval.run_get m)
  cases found : m.scopes.read env name with
  | none =>
    simp only [found] at begins
    refine perform rfl stands (charted.below stands) ?_ ?_
    · rw [begins]
      exact charted
    · intro value same
      rw [begins] at same
      cases same
  | some value =>
    simp only [found] at begins
    refine perform rfl stands (charted.below stands) ?_ ?_
    · rw [begins]
      exact charted
    · rintro _ same
      rw [begins] at same
      cases same
      exact charted.read found

theorem assign {name : String} {value : Value} {line : Nat} (stands : Stands origins [name] env)
    (known : value.Stands origins) :
    Charts origins m (Watch.assign env name value line) fun _ _ => True := by
  refine perform rfl stands (charted.below stands) ?_ fun _ _ => trivial
  rw [Eval.assign, Eval.run_bind_ok (Eval.run_get m)]
  cases m.scopes.resolve env name with
  | none => exact charted
  | some target =>
    obtain ⟨id, old, fixed⟩ := target
    cases fixed with
    | true => exact charted
    | false => exact charted.declare id name known

/-- A declaration that is not the copy for a round. -/
theorem declare {way : Way} {name : String} {value : Value} {fixed : Bool} (plain : way ≠ .round)
    (stands : Stands origins [name] env) (counts : Counts origins env name fixed)
    (known : value.Stands origins) :
    Charts origins m (Watch.declare env way name value fixed) fun _ _ => True := by
  refine perform rfl ?_ (charted.below stands) ?_ fun _ _ => trivial
  · cases way with
    | round => exact absurd rfl plain
    | _ => exact ⟨stands, counts⟩
  · cases env with
    | nil => exact charted
    | cons id outer => exact charted.declare id name known

theorem newClosure {definition : Definition} (stands : Stands origins definition.sets env) :
    Charts origins m (Watch.newClosure env definition) fun origins' closure =>
      closure.Stands origins' := by
  refine perform rfl stands (charted.below stands) (charted.congr rfl rfl rfl) ?_
  intro closure same
  cases same
  exact stands

theorem openScope (place : Place) (stands : Stands origins place.sets env) :
    Charts origins m (Watch.openScope env place) fun origins' inner =>
      ∀ id ∈ inner.head?, origins'[id]? = some (place.origin env) := by
  have there : (origins ++ [place.origin env])[m.scopes.size]? = some (place.origin env) := by
    rw [← charted.size]
    exact List.getElem?_concat_length
  refine ⟨charted.push (charted.below stands), ?_, ?_⟩
  · intro entry member
    cases List.mem_singleton.mp member
    exact ⟨⟨stands.mono (List.prefix_append _ _), there⟩, charted.below stands, nofun⟩
  · intro inner same
    cases same
    intro id head
    cases head
    exact there

theorem inScope {place : Place} {f : Env → Eval (Custody σ) β}
    {watch : ∀ id, Watch (id :: env) (f (id :: env))} {holds : List Origin → β → Prop}
    (stands : Stands origins place.sets env)
    (next : ∀ origins' id m', origins <+: origins' → m'.Charted origins' →
      origins'[id]? = some (place.origin env) → Charts origins' m' (watch id) holds) :
    Charts origins m (Watch.inScope env place watch) holds :=
  enter (openScope charted place stands) fun origins' id m' le charted known =>
    under (next origins' id m' le charted (known id rfl))

end

theorem get {f : Machine (Custody σ) → Eval (Custody σ) β} {watch : ∀ a, Watch env (f a)}
    {aside : Aside (get : Eval (Custody σ) (Machine (Custody σ)))} {holds : List Origin → β → Prop}
    (charts : Charts origins m (watch m) holds) :
    Charts origins m (.bind (.silent aside) watch) holds :=
  ⟨charts.charted, charts.lawful, charts.gives⟩

/-- The copy of the variable of a `for` loop is made in the scope that was opened for the round. -/
theorem openRound (charted : m.Charted origins) {name : Option String} {body : Stmt}
    (stands : Stands origins body.sets env) (counter : ∀ key ∈ name, Stands origins [key] env) :
    Charts origins m (Watch.openRound env name body) fun origins' inner =>
      ∀ id ∈ inner.head?, origins'[id]? = some ((Place.round body).origin env) := by
  have opens := openScope charted (.round body) stands
  cases name with
  | none =>
    refine enter opens fun origins' id m' _ charted known => ?_
    exact pure charted known
  | some key =>
    have run : (Eval.openScope env).run m =
      (.ok (m.scopes.size :: env), { m with scopes := m.scopes.push [] }) := rfl
    refine followed run rfl opens fun origins' le charted' known => ?_
    have inner : Stands origins' [] (m.scopes.size :: env) :=
      (EventLoop.Stands.inner (stands.mono le) (known _ rfl)).fewer (List.nil_subset _)
    have copies : Charts origins' { m with scopes := m.scopes.push [] }
        (Watch.declare (m.scopes.size :: env) .round key
          ((Scopes.read (m.scopes.push []) env key).getD .undefined) false) fun _ _ => True := by
      refine perform rfl ⟨inner, (counter key rfl).mono le, ?_, ?_⟩ (charted'.below inner)
        (charted'.declare _ key (charted'.read_getD env key)) fun _ _ => trivial
      · rintro _ ⟨⟩
        exact (Scopes.find?_push ..).trans (Scopes.find?_of_size_le (Nat.le_refl _) key)
      · rintro _ ⟨⟩
        exact ⟨_, known _ rfl, nofun⟩
    exact get (bind (under copies) fun _ _ _ le' charted'' _ =>
      pure charted'' fun id head => Origin.found le' (known id head))

/-- Copying back is done in the scope of the loop. -/
theorem closeRound (charted : m.Charted origins) {inner : Env} {name : Option String}
    (stands : ∀ key ∈ name, Stands origins [key] env)
    (counter : ∀ id ∈ env.head?, ∃ origin, origins[id]? = some origin ∧ origin.counter = name) :
    Charts origins m (Watch.closeRound env inner name) fun _ _ => True := by
  cases name with
  | none => exact pure charted trivial
  | some name =>
    have stands := stands name rfl
    unfold Watch.closeRound
    refine perform rfl ⟨stands, counter⟩ (charted.below stands) ?_ fun _ _ => trivial
    cases env with
    | nil => exact charted
    | cons id outer => exact charted.overwrite id name (charted.read_getD inner name)

/-! ## Expressions -/

/-- What can be read of a value is no closure. -/
theorem property (charted : m.Charted origins) (object : Value) (name : String) (source : Expr)
    (line : Nat) :
    Charts origins m (Watch.silent (.property object name source line) : Watch env _)
      Value.Stands := by
  refine silent ?_ ?_
  · unfold Eval.property
    split <;> exact charted
  · unfold Eval.property
    split <;> rintro _ ⟨⟩ <;> first | trivial | (split <;> trivial)

variable {limits : Limits} {host : Host σ}

/-- A handler goes to the host, or it waits for a promise; it stands where it was made. -/
theorem chain (charted : m.Charted origins) (receiver : PromiseId) {args : List Value} (line : Nat)
    (known : ∀ value ∈ args, value.Stands origins) :
    ((Eval.chain host.keeping receiver args line).run m).2.Charted origins ∧
      ∀ a, ((Eval.chain host.keeping receiver args line).run m).1 = .ok a → a.Stands origins := by
  rcases Eval.wantFunction_cases (σ := Custody σ) args "Promise.then" line with
    ⟨function, rest, rfl, want⟩ | ⟨e, want, -⟩
  · have stands : function.Stands origins := known _ List.mem_cons_self
    have waits : (PromiseState.pending []).Stands origins := by
      rintro _ ⟨⟩
    have charted' := charted.setPromises (charted.promises.push waits)
    simp only [Eval.chain, want, Eval.newPromise, Eval.run_bind, Eval.run_pure, Eval.run_modifyGet,
      Eval.run_get]
    cases found : (m.promises.push (.pending []))[receiver]? with
    | none =>
      refine ⟨charted', ?_⟩
      rintro _ ⟨⟩
    | some state =>
      cases state with
      | resolved value =>
        refine ⟨charted'.hold [_] ?_ rfl rfl rfl, ?_⟩
        · intro callback member
          cases List.mem_singleton.mp member
          exact ⟨stands, fun other same => by cases same; exact charted'.promises _ _ found⟩
        · rintro _ ⟨⟩
          trivial
      | pending waiting =>
        refine ⟨(charted'.setPromises (charted'.promises.set receiver ?_)).congr rfl rfl rfl, ?_⟩
        · intro reaction member
          rcases List.mem_append.mp member with old | new
          · exact charted'.promises _ _ found reaction old
          · cases List.mem_singleton.mp new
            exact stands
        · rintro _ ⟨⟩
          trivial
  · have run : (Eval.chain host.keeping receiver args line).run m = (.error e, m) := by
      unfold Eval.chain
      rw [want]
      exact Eval.run_bind_error (Eval.run_throw e m)
    rw [run]
    refine ⟨charted, ?_⟩
    rintro _ ⟨⟩

theorem callNative (charted : m.Charted origins) (native : Native) {args : List Value}
    (callee : Expr) (line : Nat) (known : ∀ value ∈ args, value.Stands origins) :
    Charts origins m (Watch.silent (.callNative host.keeping native args callee line) : Watch env _)
      Value.Stands := by
  suffices both : ((Eval.callNative host.keeping native args callee line).run m).2.Charted origins ∧
      ∀ a, ((Eval.callNative host.keeping native args callee line).run m).1 = .ok a →
        a.Stands origins from silent both.1 both.2
  have given (function : Closure) (rest : List Value) (same : args = .function function :: rest) :
      ∀ callback ∈ [Callback.plain function], callback.Stands origins := by
    intro callback member
    cases List.mem_singleton.mp member
    exact ⟨known (.function function) (same ▸ List.mem_cons_self), nofun⟩
  cases native with
  | console | promise => exact ⟨charted, nofun⟩
  | log => exact ⟨charted.congr rfl rfl rfl, by rintro _ ⟨⟩; trivial⟩
  | setTimeout =>
    rcases Eval.wantFunction_cases (σ := Custody σ) args "setTimeout" line with
      ⟨function, rest, rfl, -⟩ | ⟨e, want, -⟩
    · exact ⟨charted.hold _ (given function rest rfl) rfl rfl rfl, by rintro _ ⟨⟩; trivial⟩
    · unfold Eval.callNative
      rw [want]
      exact ⟨charted, nofun⟩
  | queueMicrotask =>
    rcases Eval.wantFunction_cases (σ := Custody σ) args "queueMicrotask" line with
      ⟨function, rest, rfl, -⟩ | ⟨e, want, -⟩
    · exact ⟨charted.hold _ (given function rest rfl) rfl rfl rfl, by rintro _ ⟨⟩; trivial⟩
    · unfold Eval.callNative
      rw [want]
      exact ⟨charted, nofun⟩
  | resolve =>
    have stands : (args.head?.getD .undefined).Stands origins := Value.holds_first trivial known
    unfold Eval.callNative
    generalize args.head?.getD .undefined = value at stands
    cases value with
    | promise p => exact ⟨charted, by rintro _ ⟨⟩; trivial⟩
    | _ => exact ⟨charted.setPromises (charted.promises.push stands), by rintro _ ⟨⟩; trivial⟩
  | thenOf receiver => exact chain charted receiver line known

/-- The bodies of closures that stand where they were made keep it so. -/
def Applies {apply : Eval.Apply (Custody σ)}
    (applies : ∀ env closure args line, Watch env (apply closure args line)) : Prop :=
  ∀ (env : Env) (closure : Closure) (args : List Value) (line : Nat) (origins : List Origin)
    (m : Machine (Custody σ)), m.Charted origins → closure.Stands origins →
    (∀ value ∈ args, value.Stands origins) →
    Charts origins m (applies env closure args line) Value.Stands

variable {apply : Eval.Apply (Custody σ)}
  {applies : ∀ env closure args line, Watch env (apply closure args line)}

theorem call (lawful : Applies applies) (charted : m.Charted origins) {function : Value}
    {args : List Value} (callee : Expr) (line : Nat) (known : function.Stands origins)
    (knownArgs : ∀ value ∈ args, value.Stands origins) :
    Charts origins m
      (Watch.call limits host.keeping applies function args callee line : Watch env _)
      Value.Stands := by
  refine bind (tick limits charted) fun origins' _ m' le charted' _ => ?_
  have knownArgs : ∀ value ∈ args, value.Stands origins' :=
    fun value member => Value.Stands.mono le (knownArgs value member)
  cases function with
  | function closure =>
    refine between (fun _ _ charted => charted.congr rfl rfl rfl) ?_
    exact lawful env closure args line origins' _ (charted'.congr rfl rfl rfl)
      (EventLoop.Stands.mono known le) knownArgs
  | native native => exact callNative charted' native callee line knownArgs
  | _ => exact throw charted'

mutual

theorem eval (lawful : Applies applies) : ∀ (e : Expr) {origins : List Origin}
    {m : Machine (Custody σ)} {env : Env}, m.Charted origins → Stands origins e.sets env →
      Charts origins m (Watch.eval limits host.keeping applies env e) Value.Stands
  | .number _ _, _, _, _, charted, _ | .text _ _, _, _, _, charted, _
  | .bool _ _, _, _, _, charted, _ | .null _, _, _, _, charted, _
  | .undefined _, _, _, _, charted, _ => pure charted trivial
  | .template _ parts, _, _, _, charted, stands =>
    bind (evalParts lawful parts charted stands) fun _ _ _ _ charted _ => pure charted trivial
  | .name _ _, _, _, _, charted, stands => read charted stands
  | .assign line op target e, _, _, env, charted, stands => by
    refine bind (eval lawful e charted (stands.fewer (List.subset_cons_self ..))) ?_
    intro origins₁ right m₁ le₁ charted₁ known
    have stands₁ : Stands origins₁ [target] env := (stands.mono le₁).fewer (by simp [Expr.sets])
    have finish (origins' : List Origin) (value : Value) (m' : Machine (Custody σ))
        (le : origins₁ <+: origins') (charted : m'.Charted origins')
        (known : value.Stands origins') :
        Charts origins' m' (.bind (.assign env target value line) fun _ => .pure value)
          Value.Stands :=
      bind (assign charted (stands₁.mono le) known) fun _ _ _ le charted _ =>
        pure charted (Value.Stands.mono le known)
    cases op with
    | set => exact bind (pure charted₁ known) finish
    | add =>
      refine bind (read charted₁ (stands₁.fewer (List.nil_subset _))) ?_
      intro origins₂ old m₂ le₂ charted₂ _
      exact bind (pure charted₂ (Value.stands_add old right)) fun origins' value m' le =>
        finish origins' value m' (le₂.trans le)
    | sub =>
      refine bind (read charted₁ (stands₁.fewer (List.nil_subset _))) ?_
      intro origins₂ old m₂ le₂ charted₂ _
      have known (x : Float) : (Value.number x).Stands origins₂ := trivial
      exact bind (pure charted₂ (known _)) fun origins' value m' le =>
        finish origins' value m' (le₂.trans le)
  | .update line count _ target, _, _, env, charted, stands => by
    refine bind (read charted (stands.fewer (List.nil_subset _))) ?_
    intro origins₁ _ m₁ le charted₁ _
    refine bind (assign charted₁ (stands.mono le) ?_) fun _ _ _ _ charted _ => pure charted trivial
    cases count <;> trivial
  | .binary _ op left right, _, _, _, charted, stands =>
    bind (eval lawful left charted (stands.fewer (List.subset_append_left ..)))
      fun _ a _ le charted _ =>
        bind (eval lawful right charted ((stands.mono le).fewer (List.subset_append_right ..)))
          fun _ b _ _ charted _ => pure charted (Value.stands_binary op a b)
  | .logical _ op left right, _, _, _, charted, stands => by
    refine bind (eval lawful left charted (stands.fewer (List.subset_append_left ..))) ?_
    intro origins₁ a m₁ le charted₁ known
    have next := eval lawful right charted₁ ((stands.mono le).fewer (List.subset_append_right ..))
    cases op <;> cases a.truthy
    · exact pure charted₁ known
    · exact next
    · exact next
    · exact pure charted₁ known
  | .unary _ op operand, _, _, _, charted, stands =>
    bind (eval lawful operand charted stands) fun _ _ _ _ charted _ =>
      pure charted (by cases op <;> trivial)
  | .conditional _ condition yes no, _, _, _, charted, stands => by
    have all : condition.sets ++ yes.sets ⊆ condition.sets ++ yes.sets ++ no.sets :=
      List.subset_append_left ..
    refine bind (eval lawful condition charted
      (stands.fewer (List.Subset.trans (List.subset_append_left ..) all))) ?_
    intro origins₁ a m₁ le charted₁ known
    have stands₁ := stands.mono le
    exact ite
      (eval lawful yes charted₁
        (stands₁.fewer (List.Subset.trans (List.subset_append_right ..) all)))
      (eval lawful no charted₁ (stands₁.fewer (List.subset_append_right ..)))
  | .member line object name, _, _, _, charted, stands =>
    bind (eval lawful object charted stands) fun _ value _ _ charted _ =>
      property charted value name object line
  | .call line callee args, _, _, _, charted, stands => by
    refine bind (eval lawful callee charted (stands.fewer (List.subset_append_left ..))) ?_
    intro origins₁ function m₁ le₁ charted₁ known
    refine bind (evalAll lawful args charted₁
      ((stands.mono le₁).fewer (List.subset_append_right ..))) ?_
    intro origins₂ values m₂ le₂ charted₂ knownArgs
    exact call lawful charted₂ callee line (Value.Stands.mono le₂ known) knownArgs
  | .function _ definition, _, _, _, charted, stands =>
    bind (newClosure charted stands) fun _ _ _ _ charted known => pure charted known

theorem evalAll (lawful : Applies applies) : ∀ (es : List Expr) {origins : List Origin}
    {m : Machine (Custody σ)} {env : Env}, m.Charted origins →
      Stands origins (Expr.eachSets es) env →
      Charts origins m (Watch.evalAll limits host.keeping applies env es)
        fun origins' values => ∀ value ∈ values, value.Stands origins'
  | [], _, _, _, charted, _ => pure charted nofun
  | e :: rest, _, _, _, charted, stands => by
    refine bind (eval lawful e charted (stands.fewer (List.subset_append_left ..))) ?_
    intro origins₁ value m₁ le₁ charted₁ known
    refine bind (evalAll lawful rest charted₁
      ((stands.mono le₁).fewer (List.subset_append_right ..))) ?_
    intro origins₂ values m₂ le₂ charted₂ knowns
    refine pure charted₂ ?_
    intro other member
    rcases List.mem_cons.mp member with rfl | member
    · exact Value.Stands.mono le₂ known
    · exact knowns other member

theorem evalParts (lawful : Applies applies) : ∀ (parts : List Part) {origins : List Origin}
    {m : Machine (Custody σ)} {env : Env}, m.Charted origins →
      Stands origins (Part.eachSets parts) env →
      Charts origins m (Watch.evalParts limits host.keeping applies env parts) fun _ _ => True
  | [], _, _, _, charted, _ => pure charted trivial
  | .text _ :: rest, _, _, _, charted, stands =>
    bind (evalParts lawful rest charted stands) fun _ _ _ _ charted _ => pure charted trivial
  | .value e :: rest, _, _, _, charted, stands =>
    bind (eval lawful e charted (stands.fewer (List.subset_append_left ..)))
      fun _ _ _ le charted _ =>
        bind (evalParts lawful rest charted ((stands.mono le).fewer (List.subset_append_right ..)))
          fun _ _ _ _ charted _ => pure charted trivial

end

/-! ## Statements -/

theorem hoist : ∀ (statements : List Stmt) {origins : List Origin} {m : Machine (Custody σ)},
    m.Charted origins → Stands origins (Stmt.eachSets statements) env → Uncounted origins env →
      Charts origins m (Watch.hoist env statements) fun _ _ => True
  | [], _, _, charted, _, _ => pure charted trivial
  | .define (.mk none _ _ _) :: rest, _, _, charted, stands, uncounted =>
    hoist rest charted (stands.fewer (List.subset_append_right ..)) uncounted
  | .define (.mk (some name) params body line) :: rest, _, _, charted, stands, uncounted => by
    have own : [name] ++ (Definition.mk (some name) params body line).sets ⊆
        Stmt.eachSets (.define (.mk (some name) params body line) :: rest) :=
      List.subset_append_left ..
    refine bind (newClosure charted
      (stands.fewer (List.Subset.trans (List.subset_append_right ..) own))) ?_
    intro origins₁ closure m₁ le₁ charted₁ known
    have stands₁ := stands.mono le₁
    refine bind (declare charted₁ nofun
      (stands₁.fewer (List.Subset.trans (List.subset_append_left ..) own))
      ((uncounted.mono le₁).counts _ _) known) ?_
    intro origins₂ _ m₂ le₂ charted₂ _
    exact hoist rest charted₂ ((stands₁.mono le₂).fewer (List.subset_append_right ..))
      ((uncounted.mono le₁).mono le₂)
  | .declare .. :: rest, _, _, charted, stands, uncounted
  | .choose .. :: rest, _, _, charted, stands, uncounted
  | .whileLoop .. :: rest, _, _, charted, stands, uncounted
  | .forLoop .. :: rest, _, _, charted, stands, uncounted
  | .giveBack _ :: rest, _, _, charted, stands, uncounted
  | .breakLoop :: rest, _, _, charted, stands, uncounted
  | .continueLoop :: rest, _, _, charted, stands, uncounted
  | .block _ :: rest, _, _, charted, stands, uncounted
  | .evaluate _ :: rest, _, _, charted, stands, uncounted
  | .empty :: rest, _, _, charted, stands, uncounted =>
    hoist rest charted (stands.fewer (List.subset_append_right ..)) uncounted

theorem rounds {round : Eval (Custody σ) (Option Flow)} {watch : Watch env round}
    (each : ∀ origins' m', origins <+: origins' → m'.Charted origins' →
      Charts origins' m' watch fun origins'' result => ∀ flow ∈ result, flow.Stands origins'')
    (bound : Nat) (charted : m.Charted origins) :
    Charts origins m (Watch.rounds limits watch bound) Flow.Stands := by
  induction bound generalizing origins m with
  | zero => exact throw charted
  | succ bound ih =>
    refine bind (each origins m (List.prefix_refl _) charted) ?_
    intro origins₁ result m₁ le charted₁ known
    cases result with
    | some flow => exact pure charted₁ (known flow rfl)
    | none => exact ih (fun origins' m' le' => each origins' m' (le.trans le')) charted₁

theorem afterBody {flow : Flow} {go : Eval (Custody σ) Unit} {watch : Watch env go}
    (charted : m.Charted origins) (known : flow.Stands origins)
    (charts : Charts origins m watch fun _ _ => True) :
    Charts origins m (Watch.afterBody limits flow watch)
      fun origins' result => ∀ flow ∈ result, flow.Stands origins' := by
  cases flow with
  | broke => exact pure charted (by rintro _ ⟨⟩; trivial)
  | returned value => exact pure charted (by rintro _ ⟨⟩; exact known)
  | normal | continued =>
    exact bind charts fun _ _ _ _ charted _ =>
      bind (tick limits charted) fun _ _ _ _ charted _ => pure charted nofun

theorem update (lawful : Applies applies) (charted : m.Charted origins) {update : Option Expr}
    (stands : Stands origins (Expr.sets? update) env) :
    Charts origins m (Watch.update limits host.keeping applies env update) fun _ _ => True := by
  cases update with
  | some update =>
    exact bind (eval lawful update charted stands) fun _ _ _ _ charted _ => pure charted trivial
  | none => exact pure charted trivial

section

variable {condition goOn : Option Expr} {name : Option String} {body : Stmt}
  {run : Env → Eval (Custody σ) Flow} {watch : ∀ id, Watch (id :: env) (run (id :: env))}
  (lawful : Applies applies) (charted : m.Charted origins)
  (ofBody : Stands origins body.sets env)
  (ofName : ∀ key ∈ name, Stands origins [key] env)
  (counter : ∀ id ∈ env.head?, ∃ origin, origins[id]? = some origin ∧ origin.counter = name)
  (each : ∀ origins' id m', origins <+: origins' → m'.Charted origins' →
    origins'[id]? = some ((Place.round body).origin env) →
    Charts origins' m' (watch id) Flow.Stands)

include lawful charted ofBody ofName counter each

theorem forBody (ofUpdate : Stands origins (Expr.sets? goOn) env) :
    Charts origins m (Watch.forBody limits host.keeping applies env goOn name body watch)
      fun origins' result => ∀ flow ∈ result, flow.Stands origins' := by
  refine enter (openRound charted ofBody ofName) ?_
  intro origins₁ id m₁ le₁ charted₁ there
  refine bind (under (each origins₁ id m₁ le₁ charted₁ (there id rfl))) ?_
  intro origins₂ flow m₂ le₂ charted₂ known
  have le := le₁.trans le₂
  refine bind (closeRound charted₂ (fun key same => (ofName key same).mono le) ?_) ?_
  · intro id head
    obtain ⟨origin, there, same⟩ := counter id head
    exact ⟨origin, Origin.found le there, same⟩
  intro origins₃ _ m₃ le₃ charted₃ _
  exact afterBody charted₃ (Flow.Stands.mono le₃ known)
    (update lawful charted₃ (ofUpdate.mono (le.trans le₃)))

theorem forRound (ofCondition : Stands origins (Expr.sets? condition) env)
    (ofUpdate : Stands origins (Expr.sets? goOn) env) :
    Charts origins m (Watch.forRound limits host.keeping applies env condition goOn name body watch)
      fun origins' result => ∀ flow ∈ result, flow.Stands origins' := by
  have go (origins' : List Origin) (c : Bool) (m' : Machine (Custody σ)) (le : origins <+: origins')
      (charted' : m'.Charted origins') :
      Charts origins' m' (Watch.ite (c := c = true)
        (Watch.forBody limits host.keeping applies env goOn name body watch)
        (Watch.pure (some Flow.normal)))
        fun origins'' result => ∀ flow ∈ result, flow.Stands origins'' := by
    refine ite (forBody lawful charted' (ofBody.mono le) (fun key same => (ofName key same).mono le)
      ?_ (fun origins'' id m'' le' => each origins'' id m'' (le.trans le')) (ofUpdate.mono le))
      (pure charted' (by rintro _ ⟨⟩; trivial))
    intro id head
    obtain ⟨origin, there, same⟩ := counter id head
    exact ⟨origin, Origin.found le there, same⟩
  have choose (origins' : List Origin) (c : Bool) (m' : Machine (Custody σ))
      (charted' : m'.Charted origins') :
      Charts origins' m' (Watch.pure c : Watch env _) fun _ _ => True :=
    pure charted' trivial
  cases condition with
  | some condition =>
    refine bind (eval lawful condition charted ofCondition) ?_
    intro origins₁ value m₁ le₁ charted₁ _
    exact bind (choose origins₁ _ m₁ charted₁) fun origins' c m' le charted _ =>
      go origins' c m' (le₁.trans le) charted
  | none =>
    exact bind (choose origins _ m charted) fun origins' c m' le charted _ =>
      go origins' c m' le charted

end

/-- A declaration is made in the innermost scope. -/
theorem execDeclare (lawful : Applies applies) (charted : m.Charted origins) (bound line : Nat)
    (word : Declarator) (name : String) (init : Option Expr)
    (stands : Stands origins (Stmt.declare line word name init).sets env)
    (counts : Counts origins env name (word = .constWord)) :
    Charts origins m
      (Watch.exec limits host.keeping applies bound env (.declare line word name init))
      Flow.Stands := by
  have finish (origins' : List Origin) (value : Value) (m' : Machine (Custody σ))
      (le : origins <+: origins') (charted' : m'.Charted origins')
      (known : value.Stands origins') :
      Charts origins' m' (.bind (.declare env .statement name value (word = .constWord)) fun _ =>
        .pure Flow.normal) Flow.Stands := by
    refine bind (declare charted' nofun ((stands.mono le).fewer ?_) (counts.mono le) known)
      fun _ _ _ _ charted _ => pure charted trivial
    exact List.cons_subset_cons name (List.nil_subset _)
  cases init with
  | none =>
    refine bind (tick limits charted) fun origins₁ _ m₁ le₁ charted₁ _ => ?_
    have known : Value.undefined.Stands origins₁ := trivial
    exact bind (pure charted₁ known) fun origins' value m' le =>
      finish origins' value m' (le₁.trans le)
  | some e =>
    refine bind (tick limits charted) fun origins₁ _ m₁ le₁ charted₁ _ => ?_
    exact bind (eval lawful e charted₁ ((stands.mono le₁).fewer (List.subset_cons_self ..)))
      fun origins' value m' le => finish origins' value m' (le₁.trans le)

theorem sets_init (init : Stmt) (condition goOn : Option Expr) (body : Stmt) :
    init.sets ⊆ (Stmt.forLoop (some init) condition goOn body).sets :=
  List.Subset.trans (List.Subset.trans (List.subset_append_left ..) (List.subset_append_left ..))
    (List.subset_append_left ..)

/-- What stands in the header of a loop is done in the scope of the loop. If it declares the
variable that each round has a copy of, it does nothing else there. -/
theorem execInit (lawful : Applies applies) (charted : m.Charted origins) (bound : Nat)
    {init : Stmt} {condition goOn : Option Expr} {body : Stmt} {id : ScopeId}
    (stands : Stands origins init.sets (id :: env))
    (there : origins[id]? = some ((Place.loop (some init) condition goOn body).origin env))
    (other : Uncounted origins (id :: env) →
      Charts origins m (Watch.exec limits host.keeping applies bound (id :: env) init)
        Flow.Stands) :
    Charts origins m (Watch.exec limits host.keeping applies bound (id :: env) init)
      Flow.Stands := by
  cases init with
  | declare line word name value =>
    refine execDeclare lawful charted bound line word name value stands ?_
    rintro _ ⟨⟩
    refine ⟨_, there, ?_⟩
    cases word <;> rintro _ ⟨⟩
    exact ⟨rfl, rfl⟩
  | _ => exact other (Uncounted.inner there rfl)

/-- The header of a loop declares the variable that each round has a copy of. -/
theorem mem_sets_of_roundName {init : Option Stmt} {key : String}
    (counter : key ∈ Eval.roundName init) : key ∈ Stmt.sets? init := by
  unfold Eval.roundName at counter
  split at counter <;> cases counter
  exact List.mem_cons_self

section

variable (lawful : Applies applies) (charted : m.Charted origins) (bound : Nat)
  (init : Option Stmt) {condition goOn : Option Expr} {body : Stmt} {id : ScopeId}
  (stands : Stands origins (Stmt.forLoop init condition goOn body).sets env)
  (there : origins[id]? = some ((Place.loop init condition goOn body).origin env))

include lawful charted stands there

/-- The rounds of a `for` loop, in the scope of the loop. -/
theorem forRounds
    (each : ∀ {origins : List Origin} {m : Machine (Custody σ)} {env : Env}, m.Charted origins →
      Stands origins body.sets env → Uncounted origins env →
      Charts origins m (Watch.exec limits host.keeping applies bound env body) Flow.Stands) :
    Charts origins m
      (Watch.rounds limits
        (Watch.forRound limits host.keeping applies (id :: env) condition goOn
          (Eval.roundName init) body
          fun round => Watch.exec limits host.keeping applies bound (round :: id :: env) body :
          Watch (id :: env) (Eval.forRound limits host.keeping apply (id :: env) condition goOn
            (Eval.roundName init)
            fun inner => Eval.exec limits host.keeping apply bound inner body))
        bound)
      Flow.Stands := by
  have inner : Stands origins (Stmt.forLoop init condition goOn body).sets (id :: env) :=
    EventLoop.Stands.inner stands there
  have header : Stmt.sets? init ++ Expr.sets? condition ⊆
      (Stmt.forLoop init condition goOn body).sets :=
    List.Subset.trans (List.subset_append_left ..) (List.subset_append_left ..)
  refine rounds (fun origins₁ m₁ le₁ charted₁ => ?_) bound charted
  have inner₁ := inner.mono le₁
  have ofBody : Stands origins₁ body.sets (id :: env) :=
    inner₁.fewer (List.subset_append_right ..)
  refine forRound lawful charted₁ ofBody ?_ ?_ ?_
    (inner₁.fewer (List.Subset.trans (List.subset_append_right ..) header))
    (inner₁.fewer (List.Subset.trans (List.subset_append_right ..) (List.subset_append_left ..)))
  · intro key counter
    have set := header (List.mem_append_left _ (mem_sets_of_roundName counter))
    exact inner₁.fewer (List.cons_subset.mpr ⟨set, List.nil_subset _⟩)
  · rintro _ ⟨⟩
    exact ⟨_, Origin.found le₁ there, rfl⟩
  · intro origins₂ round m₂ le₂ charted₂ opened
    exact each charted₂ (EventLoop.Stands.inner (ofBody.mono le₂) opened)
      (Uncounted.inner opened rfl)

end

mutual

theorem exec (lawful : Applies applies) (bound : Nat) : ∀ (statement : Stmt)
    {origins : List Origin} {m : Machine (Custody σ)} {env : Env}, m.Charted origins →
      Stands origins statement.sets env → Uncounted origins env →
      Charts origins m (Watch.exec limits host.keeping applies bound env statement) Flow.Stands
  | .declare line word name init, _, _, _, charted, stands, uncounted =>
    execDeclare lawful charted bound line word name init stands (uncounted.counts _ _)
  | .define _, _, _, _, charted, _, _ | .empty, _, _, _, charted, _, _
  | .breakLoop, _, _, _, charted, _, _ | .continueLoop, _, _, _, charted, _, _ =>
    bind (tick limits charted) fun _ _ _ _ charted _ => pure charted trivial
  | .choose condition yes none, _, _, _, charted, stands, uncounted => by
    have all : condition.sets ++ yes.sets ⊆ (Stmt.choose condition yes none).sets :=
      List.subset_append_left ..
    refine bind (tick limits charted) fun origins₁ _ m₁ le₁ charted₁ _ => ?_
    have stands₁ := (stands.mono le₁).fewer all
    refine bind (eval lawful condition charted₁ (stands₁.fewer (List.subset_append_left ..))) ?_
    intro origins₂ _ m₂ le₂ charted₂ _
    exact ite (exec lawful bound yes charted₂
      ((stands₁.mono le₂).fewer (List.subset_append_right ..)) (uncounted.mono (le₁.trans le₂)))
      (pure charted₂ trivial)
  | .choose condition yes (some no), _, _, _, charted, stands, uncounted => by
    have all : condition.sets ++ yes.sets ⊆ (Stmt.choose condition yes (some no)).sets :=
      List.subset_append_left ..
    refine bind (tick limits charted) fun origins₁ _ m₁ le₁ charted₁ _ => ?_
    have stands₁ := stands.mono le₁
    refine bind (eval lawful condition charted₁
      (stands₁.fewer (List.Subset.trans (List.subset_append_left ..) all))) ?_
    intro origins₂ _ m₂ le₂ charted₂ _
    have stands₂ := stands₁.mono le₂
    have uncounted₂ := uncounted.mono (le₁.trans le₂)
    exact ite (exec lawful bound yes charted₂
      (stands₂.fewer (List.Subset.trans (List.subset_append_right ..) all)) uncounted₂)
      (exec lawful bound no charted₂ (stands₂.fewer (List.subset_append_right ..)) uncounted₂)
  | .whileLoop condition body, _, _, _, charted, stands, uncounted => by
    refine bind (tick limits charted) fun origins₁ _ m₁ le₁ charted₁ _ => ?_
    refine rounds (fun origins₂ m₂ le₂ charted₂ => ?_) bound charted₁
    have stands₂ := stands.mono (le₁.trans le₂)
    refine bind (eval lawful condition charted₂ (stands₂.fewer (List.subset_append_left ..))) ?_
    intro origins₃ _ m₃ le₃ charted₃ _
    refine ite ?_ (pure charted₃ (by rintro _ ⟨⟩; trivial))
    refine bind (exec lawful bound body charted₃
      ((stands₂.mono le₃).fewer (List.subset_append_right ..))
      (uncounted.mono ((le₁.trans le₂).trans le₃))) ?_
    intro origins₄ flow m₄ le₄ charted₄ known
    exact afterBody charted₄ known (pure charted₄ trivial)
  | .forLoop none condition update body, _, _, _, charted, stands, _ => by
    refine bind (tick limits charted) fun origins₁ _ m₁ le₁ charted₁ _ => ?_
    have stands₁ := stands.mono le₁
    refine inScope charted₁ stands₁ fun origins₂ id m₂ le₂ charted₂ there => ?_
    exact forRounds lawful charted₂ bound none (stands₁.mono le₂) there
      (fun charted stands uncounted => exec lawful bound body charted stands uncounted)
  | .forLoop (some init) condition update body, _, _, _, charted, stands, _ => by
    refine bind (tick limits charted) fun origins₁ _ m₁ le₁ charted₁ _ => ?_
    have stands₁ := stands.mono le₁
    refine inScope charted₁ stands₁ fun origins₂ id m₂ le₂ charted₂ there => ?_
    have stands₂ := stands₁.mono le₂
    have inner := (EventLoop.Stands.inner stands₂ there).fewer (sets_init ..)
    refine bind (execInit lawful charted₂ bound inner there
      (exec lawful bound init charted₂ inner)) ?_
    intro origins₃ _ m₃ le₃ charted₃ _
    exact forRounds lawful charted₃ bound (some init) (stands₂.mono le₃) (Origin.found le₃ there)
      (fun charted stands uncounted => exec lawful bound body charted stands uncounted)
  | .giveBack none, _, _, _, charted, _, _ =>
    bind (tick limits charted) fun _ _ _ _ charted _ => pure charted trivial
  | .giveBack (some e), _, _, _, charted, stands, _ =>
    bind (tick limits charted) fun _ _ _ le charted _ =>
      bind (eval lawful e charted (stands.mono le)) fun _ _ _ _ charted known =>
        pure charted known
  | .block statements, _, _, _, charted, stands, _ => by
    refine bind (tick limits charted) fun origins₁ _ m₁ le₁ charted₁ _ => ?_
    have stands₁ := stands.mono le₁
    refine inScope charted₁ stands₁ fun origins₂ id m₂ le₂ charted₂ there => ?_
    have inner := EventLoop.Stands.inner (stands₁.mono le₂) there
    have uncounted := Uncounted.inner there rfl
    refine bind (hoist statements charted₂ inner uncounted) ?_
    intro origins₃ _ m₃ le₃ charted₃ _
    exact execAll lawful bound statements charted₃ (inner.mono le₃) (uncounted.mono le₃)
  | .evaluate e, _, _, _, charted, stands, _ =>
    bind (tick limits charted) fun _ _ _ le charted _ =>
      bind (eval lawful e charted (stands.mono le)) fun _ _ _ _ charted _ =>
        pure charted trivial

theorem execAll (lawful : Applies applies) (bound : Nat) : ∀ (statements : List Stmt)
    {origins : List Origin} {m : Machine (Custody σ)} {env : Env}, m.Charted origins →
      Stands origins (Stmt.eachSets statements) env → Uncounted origins env →
      Charts origins m (Watch.execAll limits host.keeping applies bound env statements) Flow.Stands
  | [], _, _, _, charted, _, _ => pure charted trivial
  | statement :: rest, _, _, _, charted, stands, uncounted => by
    refine bind (exec lawful bound statement charted
      (stands.fewer (List.subset_append_left ..)) uncounted) ?_
    intro origins₁ flow m₁ le charted₁ known
    cases flow with
    | normal =>
      exact execAll lawful bound rest charted₁
        ((stands.mono le).fewer (List.subset_append_right ..)) (uncounted.mono le)
    | _ => exact pure charted₁ known

end

theorem execBlock (lawful : Applies applies) (bound : Nat) (charted : m.Charted origins)
    {statements : List Stmt} (stands : Stands origins (Stmt.eachSets statements) env)
    (uncounted : Uncounted origins env) :
    Charts origins m (Watch.execBlock limits host.keeping applies bound env statements)
      Flow.Stands :=
  bind (hoist statements charted stands uncounted) fun _ _ _ le charted _ =>
    execAll lawful bound statements charted (stands.mono le) (uncounted.mono le)

/-! ## Calls and runs -/

theorem bindParams (params : List String) {args : List Value} (charted : m.Charted origins)
    (stands : Stands origins params env) (uncounted : Uncounted origins env)
    (known : ∀ value ∈ args, value.Stands origins) :
    Charts origins m (Watch.bindParams env params args) fun _ _ => True := by
  induction params generalizing origins m args with
  | nil => exact pure charted trivial
  | cons param params ih =>
    have head : (args.head?.getD .undefined).Stands origins := Value.holds_first trivial known
    refine bind (declare charted nofun (stands.fewer (List.cons_subset_cons _ (List.nil_subset _)))
      (uncounted.counts _ _) head) ?_
    intro origins₁ _ m₁ le charted₁ _
    exact ih charted₁ ((stands.mono le).fewer (List.subset_cons_self ..)) (uncounted.mono le)
      fun value member => Value.Stands.mono le (known value (List.mem_of_mem_tail member))

theorem enterBody (lawful : Applies applies) (bound : Nat) (charted : m.Charted origins)
    {closure : Closure} (stands : closure.Stands origins) {args : List Value}
    (known : ∀ value ∈ args, value.Stands origins) :
    Charts origins m (Watch.enterBody limits host.keeping applies bound closure args)
      Value.Stands := by
  obtain ⟨identity, ⟨name, params, body, line⟩, env⟩ := closure
  refine inScope charted stands fun origins₁ id m₁ le₁ charted₁ there => ?_
  have inner := EventLoop.Stands.inner (stands.mono le₁) there
  have uncounted := Uncounted.inner there rfl
  have known₁ : ∀ value ∈ args, value.Stands origins₁ :=
    fun value member => Value.Stands.mono le₁ (known value member)
  cases body with
  | block statements =>
    refine bind (bindParams params charted₁ (inner.fewer (List.subset_append_left ..)) uncounted
      known₁) ?_
    intro origins₂ _ m₂ le₂ charted₂ _
    refine bind (execBlock lawful bound charted₂
      ((inner.mono le₂).fewer (List.subset_append_right ..)) (uncounted.mono le₂)) ?_
    intro origins₃ flow m₃ _ charted₃ given
    cases flow with
    | returned value => exact pure charted₃ given
    | _ => exact pure charted₃ trivial
  | value e =>
    refine bind (bindParams params charted₁ (inner.fewer (List.subset_append_left ..)) uncounted
      known₁) ?_
    intro origins₂ _ m₂ le₂ charted₂ _
    exact eval lawful e charted₂ ((inner.mono le₂).fewer (List.subset_append_right ..))

/-- The induction is on the number of calls that may lie inside one another. -/
theorem invoke (bound : Nat) : Applies (Watch.invoke limits host.keeping bound) := by
  induction bound with
  | zero => exact fun _ _ _ _ _ _ charted _ _ => throw charted
  | succ bound ih =>
    intro env closure args line origins m charted stands known
    have deeper : m.deeper.Charted origins := charted.congr rfl rfl rfl
    refine get (ite (throw charted) (between (fun _ _ charted => charted.congr rfl rfl rfl) ?_))
    exact inside stands (enterBody ih (bound + 1) deeper stands known)

theorem runScript (script : Script) (charted : m.Charted origins)
    (global : origins[0]? = some .global) :
    Charts origins m (Watch.runScript limits host.keeping script) fun _ _ => True := by
  have stands : Stands origins (Stmt.eachSets script) globalEnv :=
    ⟨.global, global, rfl, fun _ _ => trivial, trivial⟩
  have uncounted : Uncounted origins globalEnv := by
    rintro _ ⟨⟩
    exact ⟨.global, global, rfl⟩
  exact bind (execBlock (invoke limits.maxSteps) _ charted stands uncounted)
    fun _ _ _ _ charted _ => pure charted trivial

theorem runCallback {callback : Callback} (charted : m.Charted origins)
    (stands : callback.Stands origins) :
    Charts origins m (Watch.runCallback limits host.keeping callback) fun _ _ => True := by
  refine bind (invoke (limits.maxSteps + 1) _ callback.function callback.argument.toList _ origins m
    charted stands.function fun value member => stands.argument value (Option.mem_toList.mp member))
    ?_
  intro origins₁ value m₁ _ charted₁ known
  cases callback.settles with
  | none => exact pure charted₁ trivial
  | some p =>
    refine silent ?_ fun _ _ => trivial
    rw [Eval.run_settle]
    exact charted₁.settle host p known

end Charts

end EventLoop
