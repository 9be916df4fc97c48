import EventLoop.Proofs.Evaluation.Congruence

/-!
# The same script on two hosts

If two hosts agree on what they tell the script, by a relation between their states that all they
are told keeps up, a script does the same on both. The limits of the second run may be looser; then
the runs agree up to the failures of the first that are excused.
-/

namespace EventLoop

variable {σ τ α β : Type}

/-- The hosts keep up the relation between their states, and give timers the same numbers. -/
structure Host.Agree (R : σ → τ → Prop) (host₁ : Host σ) (host₂ : Host τ) : Prop where
  print : ∀ text line s t, R s t → R (host₁.print text line s) (host₂.print text line t)
  registerTimer : ∀ callback delay line s t, R s t →
    (host₂.registerTimer callback delay line t).1 = (host₁.registerTimer callback delay line s).1 ∧
      R (host₁.registerTimer callback delay line s).2 (host₂.registerTimer callback delay line t).2
  defer : ∀ callback line s t, R s t → R (host₁.defer callback line s) (host₂.defer callback line t)
  chain : ∀ callback line s t, R s t → R (host₁.chain callback line s) (host₂.chain callback line t)
  release : ∀ callbacks s t, R s t → R (host₁.release callbacks s) (host₂.release callbacks t)
  enter : ∀ name line s t, R s t → R (host₁.enter name line s) (host₂.enter name line t)
  leave : ∀ s t, R s t → R (host₁.leave s) (host₂.leave t)

/-- The machines are equal but for their hosts, whose states are related. -/
structure Machine.Alike (R : σ → τ → Prop) (m : Machine σ) (n : Machine τ) : Prop where
  scopes : n.scopes = m.scopes
  promises : n.promises = m.promises
  closures : n.closures = m.closures
  steps : n.steps = m.steps
  depth : n.depth = m.depth
  host : R m.host n.host

theorem Machine.Alike.initial {R : σ → τ → Prop} {s : σ} {t : τ} (related : R s t) :
    (Machine.initial s).Alike R (Machine.initial t) :=
  ⟨rfl, rfl, rfl, rfl, rfl, related⟩

/-- What is related to what the hosts hold may take its place. -/
theorem Machine.Alike.withHost {R S : σ → τ → Prop} {m : Machine σ} {n : Machine τ} {s : σ} {t : τ}
    (alike : m.Alike R n) (related : S s t) :
    { m with host := s }.Alike S { n with host := t } :=
  ⟨alike.scopes, alike.promises, alike.closures, alike.steps, alike.depth, related⟩

/-- The second limits are those of the first, or looser where failing by the first is excused. -/
structure Limits.Looser (excused : ScriptError → Prop) (limits₁ limits₂ : Limits) : Prop where
  steps : limits₂.maxSteps = limits₁.maxSteps ∨
    limits₁.maxSteps ≤ limits₂.maxSteps ∧ excused (.budget limits₁.maxSteps)
  depth : limits₂.maxCallDepth = limits₁.maxCallDepth ∨
    limits₁.maxCallDepth ≤ limits₂.maxCallDepth ∧
      ∀ line, excused (.callDepth line limits₁.maxCallDepth)

theorem Limits.Looser.refl {excused : ScriptError → Prop} (limits : Limits) :
    limits.Looser excused limits :=
  ⟨.inl rfl, .inl rfl⟩

namespace Eval

variable {R : σ → τ → Prop} {excused : ScriptError → Prop}

/-- On these two machines the computations give the same and leave machines that are alike, unless
the first fails in a way that is excused. -/
def MatchAt (R : σ → τ → Prop) (excused : ScriptError → Prop) (m : Machine σ) (n : Machine τ)
    (x : Eval σ α) (y : Eval τ α) : Prop :=
  (∃ e, (x.run m).1 = .error e ∧ excused e) ∨
    (y.run n).1 = (x.run m).1 ∧ (x.run m).2.Alike R (y.run n).2

/-- If no failure is excused, both give the same. -/
theorem MatchAt.same {m : Machine σ} {n : Machine τ} {x : Eval σ α} {y : Eval τ α}
    (matched : MatchAt R (fun _ => False) m n x y) :
    ∃ result m' n', x.run m = (result, m') ∧ y.run n = (result, n') ∧ m'.Alike R n' := by
  rcases matched with ⟨e, -, excuse⟩ | ⟨same, alike⟩
  · exact excuse.elim
  · have ran : y.run n = ((x.run m).1, (y.run n).2) := Prod.ext same rfl
    exact ⟨(x.run m).1, (x.run m).2, (y.run n).2, rfl, ran, alike⟩

/-- The computations do the same on any two machines that are alike. -/
def Match (R : σ → τ → Prop) (excused : ScriptError → Prop) (x : Eval σ α) (y : Eval τ α) :
    Prop :=
  ∀ m n, m.Alike R n → MatchAt R excused m n x y

namespace Match

theorem pure (a : α) : Match R excused (Pure.pure a) (Pure.pure a) :=
  fun _ _ alike => .inr ⟨rfl, alike⟩

theorem throw (e : ScriptError) :
    Match R excused (throw e : Eval σ α) (MonadExcept.throw e : Eval τ α) :=
  fun _ _ alike => .inr ⟨rfl, alike⟩

theorem bind {x : Eval σ α} {y : Eval τ α} {f : α → Eval σ β} {g : α → Eval τ β}
    (first : Match R excused x y) (second : ∀ a, Match R excused (f a) (g a)) :
    Match R excused (x >>= f) (y >>= g) := by
  intro m n alike
  have related := first m n alike
  unfold MatchAt at related ⊢
  rw [run_bind, run_bind]
  generalize x.run m = ran₁ at related ⊢
  generalize y.run n = ran₂ at related ⊢
  obtain ⟨result₁, m'⟩ := ran₁
  obtain ⟨result₂, n'⟩ := ran₂
  rcases related with ⟨e, fails, excuse⟩ | ⟨same, alike'⟩
  · cases fails
    exact .inl ⟨e, rfl, excuse⟩
  · cases same
    cases result₁ with
    | error e => exact .inr ⟨rfl, alike'⟩
    | ok a => exact second a m' n' alike'

/-- A computation that asks for the state is looked at on each two machines. -/
theorem get_bind {f : Machine σ → Eval σ β} {g : Machine τ → Eval τ β}
    (h : ∀ m n, m.Alike R n → MatchAt R excused m n (f m) (g n)) :
    Match R excused (get >>= f) (get >>= g) := by
  intro m n alike
  unfold MatchAt
  rw [run_bind_ok (run_get m), run_bind_ok (run_get n)]
  exact h m n alike

theorem modify {f : Machine σ → Machine σ} {g : Machine τ → Machine τ}
    (h : ∀ m n, m.Alike R n → (f m).Alike R (g n)) :
    Match R excused (modify f) (modify g) :=
  fun m n alike => .inr ⟨rfl, h m n alike⟩

theorem modifyGet {f : Machine σ → α × Machine σ} {g : Machine τ → α × Machine τ}
    (h : ∀ m n, m.Alike R n → (g n).1 = (f m).1 ∧ (f m).2.Alike R (g n).2) :
    Match R excused (modifyGet f) (modifyGet g) :=
  fun m n alike => .inr ⟨congrArg Except.ok (h m n alike).1, (h m n alike).2⟩

theorem between {before₁ after₁ : Machine σ → Machine σ} {before₂ after₂ : Machine τ → Machine τ}
    {x : Eval σ α} {y : Eval τ α}
    (before : ∀ m n, m.Alike R n → (before₁ m).Alike R (before₂ n))
    (inside : Match R excused x y)
    (after : ∀ m n, m.Alike R n → (after₁ m).Alike R (after₂ n)) :
    Match R excused (between before₁ after₁ x) (Eval.between before₂ after₂ y) := by
  intro m n alike
  rcases inside _ _ (before m n alike) with excuse | ⟨same, alike'⟩
  · exact .inl excuse
  · exact .inr ⟨same, after _ _ alike'⟩

end Match

section

variable {limits₁ limits₂ : Limits} {host₁ : Host σ} {host₂ : Host τ}

theorem tick_match (looser : limits₁.Looser excused limits₂) :
    Match R excused (tick (σ := σ) limits₁) (tick (σ := τ) limits₂) := by
  intro m n alike
  unfold MatchAt
  rw [run_tick, run_tick, alike.steps]
  have ticked : m.tick.Alike R n.tick :=
    ⟨alike.scopes, alike.promises, alike.closures, congrArg (· + 1) alike.steps, alike.depth,
      alike.host⟩
  by_cases spent : limits₁.maxSteps ≤ m.steps
  · rw [if_pos spent]
    rcases looser.steps with same | ⟨-, excuse⟩
    · rw [same, if_pos spent]
      exact .inr ⟨rfl, ticked⟩
    · exact .inl ⟨_, rfl, excuse⟩
  · have left : ¬ limits₂.maxSteps ≤ m.steps := by
      rcases looser.steps with same | ⟨le, -⟩ <;> omega
    rw [if_neg spent, if_neg left]
    exact .inr ⟨rfl, ticked⟩

theorem read_match (env : Env) (name : String) (line : Nat) :
    Match R excused (read (σ := σ) env name line) (read (σ := τ) env name line) := by
  refine .get_bind ?_
  intro m n alike
  rw [alike.scopes]
  cases m.scopes.read env name with
  | some value => exact Match.pure value m n alike
  | none => exact Match.throw _ m n alike

theorem onScopes_match (f : Scopes → Scopes) :
    Match R excused (onScopes (σ := σ) f) (onScopes (σ := τ) f) :=
  .modify fun _ _ alike =>
    ⟨congrArg f alike.scopes, alike.promises, alike.closures, alike.steps, alike.depth, alike.host⟩

theorem assign_match (env : Env) (name : String) (value : Value) (line : Nat) :
    Match R excused (assign (σ := σ) env name value line)
      (assign (σ := τ) env name value line) := by
  refine .get_bind ?_
  intro m n alike
  rw [alike.scopes]
  cases m.scopes.resolve env name with
  | none => exact Match.throw _ m n alike
  | some target =>
    obtain ⟨id, binding⟩ := target
    cases fixed : binding.fixed with
    | true =>
      simp only [fixed, if_true]
      exact (Match.throw (.misuse line (.assignedConstant name))).bind
        (fun _ => onScopes_match _) m n alike
    | false =>
      simp only [fixed, Bool.false_eq_true, if_false]
      exact onScopes_match _ m n alike

theorem declare_match (env : Env) (name : String) (value : Value) (fixed : Bool) :
    Match R excused (declare (σ := σ) env name value fixed)
      (declare (σ := τ) env name value fixed) := by
  cases env with
  | nil => exact .pure ()
  | cons id _ => exact onScopes_match _

theorem openScope_match (env : Env) :
    Match R excused (openScope (σ := σ) env) (openScope (σ := τ) env) := by
  refine .modifyGet ?_
  intro m n alike
  rw [alike.scopes]
  exact ⟨rfl, rfl, alike.promises, alike.closures, alike.steps, alike.depth, alike.host⟩

theorem newClosure_match (definition : Definition) (env : Env) :
    Match R excused (newClosure (σ := σ) definition env) (newClosure (σ := τ) definition env) := by
  refine .modifyGet ?_
  intro m n alike
  rw [alike.closures]
  exact ⟨rfl, alike.scopes, alike.promises, rfl, alike.steps, alike.depth, alike.host⟩

theorem newPromise_match (state : PromiseState) :
    Match R excused (newPromise (σ := σ) state) (newPromise (σ := τ) state) := by
  refine .modifyGet ?_
  intro m n alike
  rw [alike.promises]
  exact ⟨rfl, alike.scopes, rfl, alike.closures, alike.steps, alike.depth, alike.host⟩

theorem onHost_match {f : σ → σ} {g : τ → τ} (h : ∀ s t, R s t → R (f s) (g t)) :
    Match R excused (onHost f) (onHost g) :=
  .modify fun _ _ alike => alike.withHost (h _ _ alike.host)

theorem wantFunction_match (args : List Value) (primitive : String) (line : Nat) :
    Match R excused (wantFunction (σ := σ) args primitive line)
      (wantFunction (σ := τ) args primitive line) := by
  unfold wantFunction
  split <;> first | exact .throw _ | exact .pure _

theorem chain_match (agree : host₁.Agree R host₂) (receiver : PromiseId) (args : List Value)
    (line : Nat) :
    Match R excused (chain host₁ receiver args line) (chain host₂ receiver args line) := by
  refine (wantFunction_match args _ line).bind ?_
  intro function
  refine (newPromise_match _).bind ?_
  intro next
  refine .get_bind ?_
  intro m n alike
  rw [alike.promises]
  cases m.promises[receiver]? with
  | none => exact (Match.throw _).bind (fun _ => .pure _) m n alike
  | some state =>
    cases state with
    | resolved value =>
      exact (onHost_match (agree.chain _ line)).bind (fun _ => .pure _) m n alike
    | pending waiting =>
      refine (Match.modify ?_).bind
        (fun _ => (onHost_match (agree.chain none line)).bind fun _ => .pure _) m n alike
      intro m n alike
      exact ⟨alike.scopes, congrArg (fun promises : Promises => promises.setIfInBounds receiver _)
        alike.promises, alike.closures, alike.steps, alike.depth, alike.host⟩

theorem callNative_match (agree : host₁.Agree R host₂) (native : Native) (args : List Value)
    (callee : Expr) (line : Nat) :
    Match R excused (callNative host₁ native args callee line)
      (callNative host₂ native args callee line) := by
  cases native with
  | console | promise => exact .throw _
  | log => exact (onHost_match (agree.print _ line)).bind fun _ => .pure _
  | setTimeout =>
    unfold callNative
    refine (wantFunction_match args _ line).bind ?_
    intro function
    refine Match.bind (.modifyGet ?_) fun id => .pure _
    intro m n alike
    have told (delay : Nat) :=
      agree.registerTimer (.plain function) delay line m.host n.host alike.host
    exact ⟨(told _).1, alike.withHost (told _).2⟩
  | queueMicrotask =>
    unfold callNative
    refine (wantFunction_match args _ line).bind ?_
    intro function
    exact (onHost_match (agree.defer _ line)).bind fun _ => .pure _
  | resolve =>
    unfold callNative
    cases args.head?.getD .undefined with
    | promise p => exact .pure _
    | _ => exact (newPromise_match _).bind fun _ => .pure _
  | thenOf receiver => exact chain_match agree receiver args line

/-- What bounds the second run bounds it no more than the first, unless running into the bound is
excused. -/
def Enough (excused : ScriptError → Prop) (limits₁ limits₂ : Limits) (bound₁ bound₂ : Nat) :
    Prop :=
  (bound₂ = bound₁ ∧ limits₂.maxSteps = limits₁.maxSteps) ∨
    bound₁ ≤ bound₂ ∧ excused (.budget limits₁.maxSteps)

theorem Enough.zero {bound : Nat} (enough : Enough excused limits₁ limits₂ 0 bound) :
    (bound = 0 ∧ limits₂.maxSteps = limits₁.maxSteps) ∨ excused (.budget limits₁.maxSteps) := by
  rcases enough with same | ⟨-, excuse⟩
  · exact .inl same
  · exact .inr excuse

theorem Enough.succ {bound₁ bound₂ : Nat}
    (enough : Enough excused limits₁ limits₂ (bound₁ + 1) bound₂) :
    ∃ bound, bound₂ = bound + 1 ∧ Enough excused limits₁ limits₂ bound₁ bound := by
  rcases enough with ⟨rfl, same⟩ | ⟨le, excuse⟩
  · exact ⟨bound₁, rfl, .inl ⟨rfl, same⟩⟩
  · exact ⟨bound₂ - 1, by omega, .inr ⟨by omega, excuse⟩⟩

theorem Enough.of_looser (looser : limits₁.Looser excused limits₂) (k : Nat) :
    Enough excused limits₁ limits₂ (limits₁.maxSteps + k) (limits₂.maxSteps + k) := by
  rcases looser.steps with same | ⟨le, excuse⟩
  · exact .inl ⟨by rw [same], same⟩
  · exact .inr ⟨by omega, excuse⟩

theorem openRound_match (env : Env) (name : Option String) :
    Match R excused (openRound (σ := σ) env name) (openRound (σ := τ) env name) := by
  refine (openScope_match env).bind ?_
  intro inner
  cases name with
  | none => exact .pure _
  | some name =>
    refine .get_bind ?_
    intro m n alike
    rw [alike.scopes]
    exact (declare_match inner name _ false).bind (fun _ => .pure _) m n alike

theorem closeRound_match (env inner : Env) (name : Option String) :
    Match R excused (closeRound (σ := σ) env inner name) (closeRound (σ := τ) env inner name) := by
  cases name with
  | none => exact .pure _
  | some name =>
    refine .get_bind ?_
    intro m n alike
    rw [alike.scopes]
    cases env with
    | nil => exact Match.pure () m n alike
    | cons id _ => exact onScopes_match _ m n alike

theorem called_match (agree : host₁.Agree R host₂) (name : String) (line : Nat) {x : Eval σ α}
    {y : Eval τ α} (inside : Match R excused x y) :
    Match R excused
      (between (Machine.onHost (host₁.enter name line)) (Machine.onHost host₁.leave) x)
      (between (Machine.onHost (host₂.enter name line)) (Machine.onHost host₂.leave) y) := by
  refine .between ?_ inside ?_
  · intro m n alike
    exact alike.withHost (agree.enter _ line _ _ alike.host)
  · intro m n alike
    exact alike.withHost (agree.leave _ _ alike.host)

theorem nest_match (looser : limits₁.Looser excused limits₂) (line : Nat) {x : Eval σ α}
    {y : Eval τ α} (inside : Match R excused x y) :
    Match R excused (nest limits₁ line x) (nest limits₂ line y) := by
  refine .get_bind ?_
  intro m n alike
  rw [alike.depth]
  by_cases deep : limits₁.maxCallDepth ≤ m.depth
  · rw [if_pos deep]
    rcases looser.depth with same | ⟨-, excuse⟩
    · rw [same, if_pos deep]
      exact .inr ⟨rfl, alike⟩
    · exact .inl ⟨_, rfl, excuse line⟩
  · have shallow : ¬ limits₂.maxCallDepth ≤ m.depth := by
      rcases looser.depth with same | ⟨le, -⟩ <;> omega
    rw [if_neg deep, if_neg shallow]
    refine Match.between ?_ inside ?_ m n alike
    · intro m n alike
      exact ⟨alike.scopes, alike.promises, alike.closures, alike.steps,
        congrArg (· + 1) alike.depth, alike.host⟩
    · intro m n alike
      exact ⟨alike.scopes, alike.promises, alike.closures, alike.steps,
        congrArg (· - 1) alike.depth, alike.host⟩

/-- Evaluation does the same on hosts that agree. -/
theorem match_congruence (looser : limits₁.Looser excused limits₂) (agree : host₁.Agree R host₂) :
    Congruence limits₁ limits₂ host₁ host₂ (fun _ x y => Match R excused x y)
      (fun _ => Enough excused limits₁ limits₂) where
  pure := .pure
  misuse _ _ := .throw _
  bind := .bind
  later := id
  tick := (tick_match looser).bind
  read := read_match
  assign := assign_match
  declare := declare_match
  openScope := openScope_match
  newClosure := newClosure_match
  openRound := openRound_match
  closeRound := closeRound_match
  native := callNative_match agree
  called name line := called_match agree name line
  nested line := nest_match looser line
  spent enough := by
    rcases enough.zero with ⟨zero, same⟩ | excuse
    · rw [same]
      exact .inl ⟨zero, .throw _⟩
    · exact .inr fun _ _ _ _ => .inl ⟨_, rfl, excuse⟩
  enough enough := .inl enough.succ

/-- A script does the same on hosts that agree. -/
theorem runScript_match (looser : limits₁.Looser excused limits₂) (agree : host₁.Agree R host₂)
    (script : Script) :
    Match R excused (runScript limits₁ host₁ script) (runScript limits₂ host₂ script) :=
  (match_congruence looser agree).runScript (n := 0) (Enough.of_looser looser 0)
    (Enough.of_looser looser 1) script

theorem settle_match (agree : host₁.Agree R host₂) (p : PromiseId) (value : Value) :
    Match R excused (settle host₁ p value) (settle host₂ p value) := by
  refine Match.bind (.modifyGet ?_) ?_
  · intro m n alike
    rw [alike.promises]
    exact ⟨rfl, alike.scopes, rfl, alike.closures, alike.steps, alike.depth, alike.host⟩
  · intro released
    cases released.isEmpty with
    | true => exact .pure ()
    | false => exact onHost_match (agree.release released)

/-- A callback does the same on hosts that agree. -/
theorem runCallback_match (looser : limits₁.Looser excused limits₂) (agree : host₁.Agree R host₂)
    (callback : Callback) :
    Match R excused (runCallback limits₁ host₁ callback) (runCallback limits₂ host₂ callback) :=
  (match_congruence looser agree).runCallback (n := 0) (Enough.of_looser looser 1)
    (settle_match agree) callback

end

end Eval

end EventLoop
