import EventLoop.Proofs.Loop.Books
import EventLoop.Proofs.Loop.Invariant

/-!
# No continuation is lost or run twice

An account of a generation lists the functions that were attached to promises, and the callbacks
that were run. When a generation has ended idle nothing is held, so every continuation whose
receiver has a value was run on it, once, and each promise that is still pending waits for another
one that is. Unless a continuation gave back a promise that was pending, none is pending in the end,
and all have run.
-/

namespace EventLoop

/-- A callback that was run: what it attached, the value that it gave, and the promises there were
then. -/
structure Episode where
  callback : Callback
  attached : List Continuation
  value : Value
  promises : Promises

/-- A continuation gave back a promise that was pending. -/
def Episode.Defers (episode : Episode) : Prop :=
  episode.callback.settles ≠ none ∧
    ∃ p, episode.value = .promise p ∧ episode.promises.Pending p

/-- What a script attached to promises, and the callbacks that were run after it, in order. -/
structure Account where
  attached : List Continuation
  episodes : List Episode

namespace Account

/-- All functions that were attached to promises. -/
def continuations (account : Account) : List Continuation :=
  account.attached ++ account.episodes.flatMap (·.attached)

/-- All callbacks that were run. -/
def ran (account : Account) : List Callback :=
  account.episodes.map (·.callback)

/-- The runs of a continuation: of the callbacks that settle its promise. -/
def runs (account : Account) (c : Continuation) : List Callback :=
  account.ran.filter (·.settles = some c.promise)

end Account

namespace Generation

variable {settings : Settings} {source : String} {m m' : Machine Session} {account : Account}

/-- The value that a callback gives, before anything is settled. -/
def valueOf (settings : Settings) (callback : Callback) : Eval Session Value :=
  Eval.invoke settings.limits (Session.host settings.lineMode) (settings.limits.maxSteps + 1)
    callback.function callback.argument.toList callback.function.definition.line

/-- The machine when the callback of a task was taken. -/
def taken (task : QueuedTask) (m : Machine Session) : Machine Session :=
  m.onHost fun s => (s.takeCallback task).2

/-- The account tells what a generation has attached and run when it has come to the machine. -/
inductive Recounts (settings : Settings) (source : String) : Account → Machine Session → Prop
  /-- The script has run. -/
  | script {m : Machine Session} {script : Script} {attached : List Continuation} :
    parse settings.maxNesting source = .ok script →
    (Eval.runScript settings.limits (Session.host settings.lineMode) script).run
      (.initial (start source)) = (.ok (), m) →
    Trail settings.limits (Session.host settings.lineMode) (.initial (start source)) attached m →
    Recounts settings source ⟨attached, []⟩ m
  /-- Between two tasks the loop moves them and records snapshots. -/
  | move {account : Account} {m : Machine Session} (s : Session) :
    Recounts settings source account m → s.callbacks = m.host.callbacks →
    Recounts settings source account { m with host := s }
  /-- The callback of a task was taken and has run, and its value settles its promise. -/
  | run {account : Account} {m m' : Machine Session} {task : QueuedTask} {callback : Callback}
    {attached : List Continuation} {value : Value} :
    Recounts settings source account m →
    m.host.callbacks.get? task.callback = some callback →
    (valueOf settings callback).run (taken task m) = (.ok value, m'.shallower) →
    Trail settings.limits (Session.host settings.lineMode) (taken task m).deeper attached m' →
    Recounts settings source
      { account with
        episodes := account.episodes ++ [⟨callback, attached, value, m'.promises⟩] }
      (m'.shallower.finish (Session.host settings.lineMode) callback.settles value)

/-- What an account tells is right: the books are, and a promise follows another one only since a
continuation gave that back when it was pending. -/
structure Recounted (account : Account) (m : Machine Session) : Prop where
  inOrder : m.InOrder
  stored : m.host.Stored m.promises.size
  books : m.Books account.continuations account.ran []
  follows : ∀ p q, m.promises.Follows p q → ∃ episode ∈ account.episodes, episode.Defers

/-- The value that a callback gives names only promises that exist. -/
theorem valueOf_known {callback : Callback} {value : Value} (inOrder : m.InOrder)
    (known : ∀ given, callback.argument = some given → given.Within m.promises.size)
    (run : (valueOf settings callback).run m = (.ok value, m'.shallower)) :
    value.Within m'.promises.size := by
  have args : ∀ given ∈ callback.argument.toList, Eval.Known given m := fun given member =>
    known given (Option.mem_toList.mp member)
  have applies : Eval.Applies settings.limits (Session.host settings.lineMode) _ :=
    Eval.invoke_applies (settings.limits.maxSteps + 1)
  rcases applies callback.function callback.argument.toList callback.function.definition.line m
      inOrder args with
    ⟨e, failed, -⟩ | ⟨-, result, m₁, ran, -, yields⟩
  · cases run.symm.trans failed
  · obtain ⟨rfl, same⟩ := Prod.mk.inj (run.symm.trans ran)
    have promises : m'.shallower.promises = m₁.shallower.promises := by rw [same]
    show value.Within m'.shallower.promises.size
    rw [promises]
    exact yields

/-- An account that begins with a script is right. -/
theorem Recounted.script {attached : List Continuation}
    (trail : Trail settings.limits (Session.host settings.lineMode) (.initial (start source))
      attached m) : Recounted ⟨attached, []⟩ m where
  inOrder := trail.path.inOrder (start_reached source).inOrder
  stored := trail.path.stored (start_reached source).inOrder (start_reached source).stored
  books := by
    have begun : (Machine.initial (start source)).Books [] [] [] :=
      ⟨(start_reached source).stored.sound, .empty, .empty⟩
    have books := trail.books begun
    rwa [List.nil_append, ← List.append_nil attached] at books
  follows p q follows := by
    obtain ⟨waiting, found, -⟩ := trail.path.follows follows
    simp [Machine.initial] at found

/-- One more callback was run. -/
theorem Recounted.run {task : QueuedTask} {callback : Callback} {attached : List Continuation}
    {value : Value} (recounted : Recounted account m)
    (found : m.host.callbacks.get? task.callback = some callback)
    (run : (valueOf settings callback).run (taken task m) = (.ok value, m'.shallower))
    (trail : Trail settings.limits (Session.host settings.lineMode) (taken task m).deeper attached
      m') :
    Recounted
      { account with
        episodes := account.episodes ++ [⟨callback, attached, value, m'.promises⟩] }
      (m'.shallower.finish (Session.host settings.lineMode) callback.settles value) := by
  have inOrder : (taken task m).InOrder :=
    ⟨recounted.inOrder.scopes, recounted.inOrder.promises⟩
  have stored : (taken task m).host.Stored (taken task m).promises.size :=
    recounted.stored.take task
  have known : value.Within m'.promises.size := by
    refine valueOf_known inOrder (fun given argument => ?_) run
    exact recounted.stored.within task.callback callback given found argument
  have inOrder' : m'.shallower.InOrder :=
    have after := trail.path.inOrder (m := (taken task m).deeper) ⟨inOrder.scopes, inOrder.promises⟩
    ⟨after.scopes, after.promises⟩
  have stored' : m'.shallower.host.Stored m'.shallower.promises.size :=
    trail.path.stored (m := (taken task m).deeper) ⟨inOrder.scopes, inOrder.promises⟩ stored
  have begun : (taken task m).deeper.Books account.continuations (account.ran ++ [callback])
      callback.settles.toList := recounted.books.begin found rfl rfl
  have ended : m'.shallower.Books (account.continuations ++ attached) (account.ran ++ [callback])
      callback.settles.toList := (trail.books begun).of_same rfl rfl
  have continuations : Account.continuations { account with
      episodes := account.episodes ++ [⟨callback, attached, value, m'.promises⟩] } =
      account.continuations ++ attached := by
    simp [Account.continuations]
  have ran : Account.ran { account with
      episodes := account.episodes ++ [⟨callback, attached, value, m'.promises⟩] } =
      account.ran ++ [callback] := by
    simp [Account.ran]
  refine ⟨inOrder'.finish _ _ known, stored'.finish inOrder' settings.lineMode _ known, ?_, ?_⟩
  · rw [continuations, ran]
    exact ended.finish settings.lineMode known
  · intro p q follows
    have earlier (follows : m'.promises.Follows p q) :
        ∃ episode ∈ account.episodes, episode.Defers :=
      recounted.follows p q (trail.path.follows follows)
    have before : m'.promises.Follows p q ∨
        callback.settles ≠ none ∧ value = .promise q ∧ m'.promises.Pending q := by
      cases settles : callback.settles with
      | none =>
        rw [settles] at follows
        exact .inl follows
      | some own =>
        rw [settles] at follows
        exact (Promises.follows_of_settle follows).imp_right fun given => ⟨by simp, given⟩
    rcases before with old | ⟨settles, gave, pending⟩
    · obtain ⟨episode, member, defers⟩ := earlier old
      exact ⟨episode, List.mem_append_left _ member, defers⟩
    · exact ⟨_, List.mem_append_right _ List.mem_cons_self, settles, q, gave, pending⟩

/-- Every account of a generation is right. -/
theorem Recounts.recounted (recounts : Recounts settings source account m) :
    Recounted account m := by
  induction recounts with
  | script _ _ trail => exact .script trail
  | move s _ callbacks ih =>
    refine ⟨⟨ih.inOrder.scopes, ih.inOrder.promises⟩, ih.stored.of_callbacks callbacks, ?_,
      ih.follows⟩
    exact ih.books.of_same rfl callbacks
  | run _ found run trail ih => exact ih.run found run trail

/-- When no callback is held each promise that is pending waits for another one. -/
theorem Recounts.owned (recounts : Recounts settings source account m) (none : m.host.held = []) :
    m.promises.Owned [] := by
  have owned := recounts.recounted.books.owned
  rwa [none] at owned

/-- When no callback is held each continuation waits or was run. -/
theorem Recounts.ledger (recounts : Recounts settings source account m) (none : m.host.held = []) :
    Ledger account.continuations account.ran [] m.promises := by
  have ledger := recounts.recounted.books.ledger
  rwa [none] at ledger

/-- What a callback does after it was taken can be recounted. -/
theorem Recounts.runCallback {task : QueuedTask} {callback : Callback}
    (recounts : Recounts settings source account m)
    (found : m.host.callbacks.get? task.callback = some callback)
    (ran : (Eval.runCallback settings.limits (Session.host settings.lineMode) callback).run
      (taken task m) = (.ok (), m')) :
    ∃ account, Recounts settings source account m' := by
  have recounted := recounts.recounted
  have inOrder : (taken task m).InOrder :=
    ⟨recounted.inOrder.scopes, recounted.inOrder.promises⟩
  have args : ∀ given ∈ callback.argument.toList, Eval.Known given (taken task m) :=
    fun given member => recounted.stored.within task.callback callback given found
      (Option.mem_toList.mp member)
  rw [Eval.run_runCallback] at ran
  have applies : Eval.Applies settings.limits (Session.host settings.lineMode) _ :=
    Eval.invoke_applies (settings.limits.maxSteps + 1)
  rcases applies callback.function callback.argument.toList callback.function.definition.line
      (taken task m) inOrder args with
    ⟨e, failed, -⟩ | ⟨-, result, m₁, run, path, -⟩
  · rw [failed] at ran
    cases ran
  · rw [run] at ran
    cases result with
    | error e => cases ran
    | ok value =>
      obtain ⟨attached, trail⟩ := path.trail
      cases ran
      exact ⟨_, recounts.run found run trail⟩

/-- A generation can be recounted, from the end of the script to the end of its passes. -/
theorem recounted_invariant (settings : Settings) (source : String) :
    Invariant settings source
      (fun _ m => ∃ account, Recounts settings source account m)
      (fun _ callback m => match callback with
        | none => m = .initial (start source)
        | some callback => ∃ account m₀ task, Recounts settings source account m₀ ∧
          m₀.host.callbacks.get? task.callback = some callback ∧ m = taken task m₀)
      (fun _ _ result m => result = .ok () → ∃ account, Recounts settings source account m) where
  script m frame script parsed reached _ begun := by
    subst begun
    have tracked : Eval.Tracked settings.limits (Session.host settings.lineMode)
        (.initial (start source)) _ _ := Eval.runScript_tracked script reached.inOrder
    intro ran succeeded
    obtain ⟨attached, trail⟩ := tracked.1.trail
    exact ⟨_, .script parsed (Prod.ext succeeded rfl) trail⟩
  callback passes callback m frame _ _ _ begun := by
    obtain ⟨account, m₀, task, recounts, found, rfl⟩ := begun
    exact fun succeeded => recounts.runCallback found (Prod.ext succeeded rfl)
  finish passes callback m frame word _ _ _ ended := by
    obtain ⟨account, recounts⟩ := ended rfl
    exact ⟨account, recounts.move _ rfl⟩
  check passes m _ _ recounted := by
    obtain ⟨account, recounts⟩ := recounted
    exact ⟨account, recounts.move _ rfl⟩
  note passes m word _ _ _ recounted := by
    obtain ⟨account, recounts⟩ := recounted
    exact ⟨account, recounts.move _ rfl⟩
  deferred passes k m task others callback _ _ _ found recounted := by
    obtain ⟨account, recounts⟩ := recounted
    exact ⟨account, opened (deferredWords task) (fetched m), task, recounts.move _ rfl, found, rfl⟩
  timer passes k m timer others callback _ _ _ taken found recounted := by
    obtain ⟨account, recounts⟩ := recounted
    have same : (opened timerWords (promoted m)).host.callbacks = m.host.callbacks :=
      callbacks_readied taken
    refine ⟨account, opened timerWords (promoted m), .ready timer, recounts.move _ same, ?_, rfl⟩
    rw [same]
    exact found

/-- The machine that a generation ends with. -/
def final (settings : Settings) (source : String) : Machine Session :=
  match parse settings.maxNesting source with
  | .ok script => ((untilEnding settings script).run (.initial (start source))).2
  | .error _ => .initial (start source)

/-- A generation that has ended idle can be recounted, and no callback is held any more. -/
theorem final_recounts (idle : ending settings source = .ok .idle) :
    (∃ account, Recounts settings source account (final settings source)) ∧
      (final settings source).host.held = [] := by
  cases parsed : parse settings.maxNesting source with
  | error e =>
    rw [ending_of_malformed parsed] at idle
    cases idle
  | ok script =>
    rcases run : (untilEnding settings script).run (.initial (start source)) with ⟨result, m⟩
    obtain rfl : result = .ok .idle := (ending_eq parsed run).symm.trans idle
    have same : final settings source = m := by
      unfold final
      rw [parsed]
      exact congrArg Prod.snd run
    obtain ⟨reached, passes, -, -, recounted, idle⟩ :=
      (recounted_invariant settings source).outcome parsed rfl run
    rw [same]
    refine ⟨recounted, Arena.values_eq_nil fun key => ?_⟩
    obtain ⟨⟨deferred, timers⟩, ready⟩ := hasWork_eq_false.mp (idle.mp rfl)
    have stores := reached.later.accounted
    have keys : (Instant.mk .empty m.host).keys = [] := by
      simp [Instant.keys, Collections.keys, deferred, timers, ready, Hand.task?]
    rw [Instant.Accounted, keys] at stores
    cases stored : m.host.callbacks.get? key with
    | none => rfl
    | some callback =>
      have live := (stores.live key).mp (by rw [stored]; rfl)
      cases live

open Promises in
/-- Whatever is recounted of a generation that has ended idle, a promise that is still pending waits
for exactly one other promise, which is pending, too. Every continuation has a promise of its own,
and it has run once, on the value of its receiver, if that has one, and not at all if it is pending;
those that have not run wait. If no continuation gave back a promise that was pending, no promise is
pending in the end, and all continuations have run. -/
theorem continuations_conserved (idle : ending settings source = .ok .idle) :
    (∀ p, (final settings source).promises.Pending p →
      ∃ q, q ≠ p ∧ (final settings source).promises.Pending q ∧
        ∀ q', (final settings source).promises.WaitsFor p q' ↔ q' = q) ∧
    (∃ account, Recounts settings source account (final settings source)) ∧
    ∀ account, Recounts settings source account (final settings source) →
      (account.continuations.map (·.promise)).Nodup ∧
      (settledBy account.ran ++ (final settings source).promises.handled).Perm
        (account.continuations.map (·.promise)) ∧
      (∀ c ∈ account.continuations,
        ((final settings source).promises.Pending c.receiver ∧ account.runs c = []) ∨
        ∃ value, (final settings source).promises[c.receiver]? = some (.resolved value) ∧
          account.runs c = [c.callback value]) ∧
      ((∀ episode ∈ account.episodes, ¬ episode.Defers) →
        (∀ p, ¬ (final settings source).promises.Pending p) ∧
        ∀ c ∈ account.continuations,
          ∃ value, (final settings source).promises[c.receiver]? = some (.resolved value) ∧
            account.runs c = [c.callback value]) := by
  obtain ⟨⟨account, recounts⟩, none⟩ := final_recounts idle
  refine ⟨fun p pending => (recounts.owned none).waits_for_one pending, ⟨account, recounts⟩, ?_⟩
  intro account recounts
  have owned := recounts.owned none
  have ledger := recounts.ledger none
  refine ⟨ledger.distinct, ?_, fun c member => ledger.runs_of_mem member, fun settled => ?_⟩
  · rw [← List.append_nil (settledBy account.ran)]
    exact ledger.balance
  · have unfollowed (p q : PromiseId) : ¬ (final settings source).promises.Follows p q := by
      intro follows
      obtain ⟨episode, member, defers⟩ := recounts.recounted.follows p q follows
      exact settled episode member defers
    have all := ledger.none_pending owned unfollowed
    refine ⟨all, fun c member => (ledger.runs_of_mem member).resolve_left ?_⟩
    exact fun waits => all c.receiver waits.1

/-- A script with two promises that wait for each other: a continuation attaches another one to its
own promise, and gives back the promise of that. -/
def circle : String :=
  "let q = Promise.resolve().then(() => q.then(() => q))"

/-- The promises of a circle stay pending. -/
theorem continuations_conserved_circle :
    ending .usual circle = .ok .idle ∧ (final .usual circle).promises.Pending 1 ∧
      ∃ q, q ≠ 1 ∧ (final .usual circle).promises.Pending q ∧
        ∀ q', (final .usual circle).promises.WaitsFor 1 q' ↔ q' = q := by
  obtain ⟨idle, loaded⟩ : ending .usual circle = .ok .idle ∧
      (final .usual circle).promises[1]?.map PromiseState.load = some 2 := by
    decide +kernel
  have pending : (final .usual circle).promises.Pending 1 := by
    obtain ⟨state, found, load⟩ := Option.map_eq_some_iff.mp loaded
    cases state with
    | pending waiting => exact ⟨waiting, found⟩
    | resolved value => cases load
  exact ⟨idle, pending, (continuations_conserved idle).1 1 pending⟩

end Generation

end EventLoop
