import Mathlib.Logic.Relation
import EventLoop.Language.Parsing
import EventLoop.Semantics.Evaluation
import EventLoop.Settings

/-!
# The plain event loop

What an event loop is meant to do, without frames, snapshots or an arena: deferred callbacks wait in
a list, those of timers in another, and one count numbers them all. As long as anything is deferred
the first of it runs; after that a callback with the least delay, and among those the one registered
first. Nothing bounds the loop, so its runs are a relation; each ends in one way at most.
-/

namespace EventLoop

/-- What a plain event loop holds. -/
structure Plain where
  /-- Deferred callbacks, the one deferred first in front. -/
  deferred : List Callback
  /-- The callbacks of timers with their delays, in the order of their registration. -/
  waiting : List (Nat × Callback)
  /-- How many callbacks there have been. -/
  ids : Nat
  output : List String

namespace Plain

/-- A plain event loop that holds nothing. -/
def empty : Plain :=
  ⟨[], [], 0, []⟩

/-- Defers a callback. -/
def defer (p : Plain) (callback : Callback) : Plain :=
  { p with deferred := p.deferred ++ [callback], ids := p.ids + 1 }

/-- Adds a line of output. -/
def printLine (p : Plain) (text : String) : Plain :=
  { p with output := p.output ++ [text] }

/-- The plain event loop as a host. -/
def host : Host Plain where
  print text _ p := p.printLine text
  registerTimer callback delay _ p :=
    (p.ids + 1, { p with waiting := p.waiting ++ [(delay, callback)], ids := p.ids + 1 })
  defer callback _ p := p.defer callback
  chain callback? _ p :=
    match callback? with
    | some callback => p.defer callback
    | none => p
  release callbacks p := callbacks.foldl defer p

/-- The callback that is to run next, and the loop without it. -/
inductive Next : Plain → Callback → Plain → Prop
  | deferred (p : Plain) (callback : Callback) (rest : List Callback) :
    p.deferred = callback :: rest → Next p callback { p with deferred := rest }
  | timer (p : Plain) (delay : Nat) (callback : Callback) (before after : List (Nat × Callback)) :
    p.deferred = [] → p.waiting = before ++ (delay, callback) :: after →
    (∀ entry ∈ before, delay < entry.1) → (∀ entry ∈ after, delay ≤ entry.1) →
    Next p callback { p with waiting := before ++ after }

/-- An entry stands at one place only if those in front of it are greater and those behind it are
not less. -/
theorem split_unique {before₁ before₂ after₁ after₂ : List (Nat × Callback)}
    {entry₁ entry₂ : Nat × Callback}
    (same : before₁ ++ entry₁ :: after₁ = before₂ ++ entry₂ :: after₂)
    (greater₁ : ∀ entry ∈ before₁, entry₁.1 < entry.1)
    (greater₂ : ∀ entry ∈ before₂, entry₂.1 < entry.1)
    (least₁ : ∀ entry ∈ after₁, entry₁.1 ≤ entry.1)
    (least₂ : ∀ entry ∈ after₂, entry₂.1 ≤ entry.1) :
    before₁ = before₂ ∧ entry₁ = entry₂ ∧ after₁ = after₂ := by
  induction before₁ generalizing before₂ with
  | nil =>
    cases before₂ with
    | nil =>
      cases same
      exact ⟨rfl, rfl, rfl⟩
    | cons head before₂ =>
      obtain ⟨rfl, rest⟩ := List.cons.inj same
      have less := greater₂ entry₁ List.mem_cons_self
      have least := least₁ entry₂ (by rw [rest]; simp)
      omega
  | cons head before₁ ih =>
    cases before₂ with
    | nil =>
      obtain ⟨rfl, rest⟩ := List.cons.inj same
      have less := greater₁ head List.mem_cons_self
      have least := least₂ entry₁ (by rw [← rest]; simp)
      omega
    | cons other before₂ =>
      obtain ⟨rfl, rest⟩ := List.cons.inj same
      obtain ⟨rfl, rfl, rfl⟩ := ih rest
        (fun entry member => greater₁ entry (List.mem_cons_of_mem _ member))
        (fun entry member => greater₂ entry (List.mem_cons_of_mem _ member))
      exact ⟨rfl, rfl, rfl⟩

/-- At most one callback is to run next. -/
theorem Next.unique {p q₁ q₂ : Plain} {callback₁ callback₂ : Callback}
    (next₁ : Next p callback₁ q₁) (next₂ : Next p callback₂ q₂) :
    callback₁ = callback₂ ∧ q₁ = q₂ := by
  cases next₁ with
  | deferred callback rest queue =>
    cases next₂ with
    | deferred callback' rest' queue' =>
      rw [queue] at queue'
      cases queue'
      exact ⟨rfl, rfl⟩
    | timer delay callback' before after nil =>
      rw [queue] at nil
      cases nil
  | timer delay callback before after nil timers greater least =>
    cases next₂ with
    | deferred callback' rest' queue' =>
      rw [nil] at queue'
      cases queue'
    | timer delay' callback' before' after' nil' timers' greater' least' =>
      obtain ⟨rfl, entry, rfl⟩ :=
        split_unique (timers.symm.trans timers') greater greater' least least'
      cases entry
      exact ⟨rfl, rfl⟩

/-- Nothing is left to run. -/
def Idle (p : Plain) : Prop :=
  p.deferred = [] ∧ p.waiting = []

theorem Next.not_idle {p q : Plain} {callback : Callback} (next : Next p callback q) :
    ¬ p.Idle := by
  rintro ⟨nil, none⟩
  cases next with
  | deferred _ rest queue =>
    rw [nil] at queue
    cases queue
  | timer delay _ before after _ timers =>
    rw [none] at timers
    simp at timers

variable {limits : Limits} {m n n₁ n₂ : Machine Plain}

/-- The callback that is to run next runs. -/
def Round (limits : Limits) (m : Machine Plain) (result : Except ScriptError Unit)
    (n : Machine Plain) : Prop :=
  ∃ callback p, Next m.host callback p ∧
    (Eval.runCallback limits host callback).run { m with host := p } = (result, n)

theorem Round.unique {result₁ result₂ : Except ScriptError Unit}
    (round₁ : Round limits m result₁ n₁) (round₂ : Round limits m result₂ n₂) :
    result₁ = result₂ ∧ n₁ = n₂ := by
  obtain ⟨callback₁, p₁, next₁, run₁⟩ := round₁
  obtain ⟨callback₂, p₂, next₂, run₂⟩ := round₂
  obtain ⟨rfl, rfl⟩ := next₁.unique next₂
  exact Prod.mk.inj (run₁.symm.trans run₂)

theorem Round.not_idle {result : Except ScriptError Unit} (round : Round limits m result n) :
    ¬ m.host.Idle := by
  obtain ⟨callback, p, next, -⟩ := round
  exact next.not_idle

/-- The loop makes rounds until nothing is left to run, or until a callback fails. -/
inductive Runs (limits : Limits) : Machine Plain → Option ScriptError → Machine Plain → Prop
  | idle (m : Machine Plain) : m.host.Idle → Runs limits m none m
  | round {m n n' : Machine Plain} {failure : Option ScriptError} :
    Round limits m (.ok ()) n → Runs limits n failure n' → Runs limits m failure n'
  | fails {m n : Machine Plain} {e : ScriptError} :
    Round limits m (.error e) n → Runs limits m (some e) n

/-- Rounds in which no callback fails. -/
abbrev Rounds (limits : Limits) : Machine Plain → Machine Plain → Prop :=
  Relation.ReflTransGen fun m n => Round limits m (.ok ()) n

theorem Runs.after {failure : Option ScriptError} (rounds : Rounds limits m n₁)
    (runs : Runs limits n₁ failure n₂) : Runs limits m failure n₂ := by
  induction rounds using Relation.ReflTransGen.head_induction_on with
  | refl => exact runs
  | head round _ ih => exact .round round ih

/-- The loop ends in one way at most. -/
theorem Runs.unique {failure₁ failure₂ : Option ScriptError} (runs₁ : Runs limits m failure₁ n₁)
    (runs₂ : Runs limits m failure₂ n₂) : failure₁ = failure₂ ∧ n₁ = n₂ := by
  induction runs₁ with
  | idle m idle =>
    cases runs₂ with
    | idle => exact ⟨rfl, rfl⟩
    | round round | fails round => exact absurd idle round.not_idle
  | round round _ ih =>
    cases runs₂ with
    | idle _ idle => exact absurd idle round.not_idle
    | round round' runs' =>
      obtain ⟨-, rfl⟩ := round.unique round'
      exact ih runs'
    | fails round' => cases (round.unique round').1
  | fails round =>
    cases runs₂ with
    | idle _ idle => exact absurd idle round.not_idle
    | round round' => cases (round.unique round').1
    | fails round' =>
      obtain ⟨same, rfl⟩ := round.unique round'
      cases same
      exact ⟨rfl, rfl⟩

/-- How a failure is reported. -/
def report (e : ScriptError) : String :=
  "Uncaught " ++ e.message

/-- The plain event loop prints these lines for a script: those that the script prints, and the
report of a failure if there is one. -/
def Prints (settings : Settings) (source : String) (lines : List String) : Prop :=
  match parse settings.maxNesting source with
  | .error e => lines = [report e]
  | .ok script =>
    match (Eval.runScript settings.limits host script).run (.initial empty) with
    | (.error e, m) => lines = m.host.output ++ [report e]
    | (.ok _, m) => ∃ failure n, Runs settings.limits m failure n ∧
        lines = n.host.output ++ failure.toList.map report

/-- At most one list of lines is printed for a script. -/
theorem Prints.unique {settings : Settings} {source : String} {lines₁ lines₂ : List String}
    (prints₁ : Prints settings source lines₁) (prints₂ : Prints settings source lines₂) :
    lines₁ = lines₂ := by
  unfold Prints at prints₁ prints₂
  cases read : parse settings.maxNesting source with
  | error e =>
    rw [read] at prints₁ prints₂
    exact Eq.trans prints₁ (Eq.symm prints₂)
  | ok script =>
    rw [read] at prints₁ prints₂
    dsimp only at prints₁ prints₂
    rcases run : (Eval.runScript settings.limits host script).run (.initial empty) with
      ⟨_ | _, m⟩
    · rw [run] at prints₁ prints₂
      exact Eq.trans prints₁ (Eq.symm prints₂)
    · rw [run] at prints₁ prints₂
      obtain ⟨failure₁, n₁, runs₁, rfl⟩ := prints₁
      obtain ⟨failure₂, n₂, runs₂, rfl⟩ := prints₂
      obtain ⟨rfl, rfl⟩ := runs₁.unique runs₂
      rfl

end Plain

end EventLoop
