import Mathlib.Data.List.Sort
import EventLoop.Proofs.Flat.Agenda
import EventLoop.Proofs.Loop.Completion

/-!
# What a flat script prints

A flat script prints at once what is to be printed at once. Its deferred callbacks follow in one
checkpoint, and after them those that they have deferred. Each pass ends with a timer, one with the
least delay of those that are left, so the timers print in the order in which they stand when they
are stably sorted by their delays.
-/

namespace EventLoop

open Eval FlatOp Lexing

/-! ## The order of timers -/

section

variable {first : Nat × String} {before after timers : List (Nat × String)}

/-- Timers in the order of their delays; those with the same delay stay in their order. -/
def byDelay (timers : List (Nat × String)) : List (Nat × String) :=
  timers.mergeSort fun a b => a.1 ≤ b.1

theorem insert_between {timer : Nat × String} {less rest : List (Nat × String)}
    (less_lt : ∀ other ∈ less, other.1 < timer.1)
    (ordered : (less ++ timer :: rest).Pairwise fun a b => a.1 ≤ b.1) :
    (less ++ rest).orderedInsert (fun a b => a.1 ≤ b.1) timer = less ++ timer :: rest := by
  induction less with
  | nil =>
    cases rest with
    | nil => rfl
    | cons next rest =>
      have least : timer.1 ≤ next.1 := List.rel_of_pairwise_cons ordered List.mem_cons_self
      simp [least]
  | cons next less ih =>
    obtain ⟨sooner, others⟩ := List.forall_mem_cons.mp less_lt
    simp [Nat.not_le.mpr sooner, ih others ordered.of_cons]

theorem byDelay_cons (timer : Nat × String) (timers : List (Nat × String)) :
    byDelay (timer :: timers) = (byDelay timers).orderedInsert (fun a b => a.1 ≤ b.1) timer := by
  have trans : ∀ a b c : Nat × String, decide (a.1 ≤ b.1) → decide (b.1 ≤ c.1) →
      decide (a.1 ≤ c.1) := by
    simp only [decide_eq_true_eq]
    intro a b c
    exact Nat.le_trans
  have total : ∀ a b : Nat × String, decide (a.1 ≤ b.1) || decide (b.1 ≤ a.1) := by
    simp only [Bool.or_eq_true, decide_eq_true_eq]
    intro a b
    exact Nat.le_total a.1 b.1
  obtain ⟨less, rest, sorted, others, apart⟩ := List.mergeSort_cons trans total timer timers
  have ordered := List.pairwise_mergeSort trans total (timer :: timers)
  rw [sorted] at ordered
  simp only [decide_eq_true_eq] at ordered
  rw [byDelay, byDelay, sorted, others]
  exact (insert_between (by simpa using apart) ordered).symm

/-- The first of those with the least delay comes first. -/
theorem byDelay_select (greater : ∀ timer ∈ before, first.1 < timer.1)
    (least : ∀ timer ∈ after, first.1 ≤ timer.1) :
    byDelay (before ++ first :: after) = first :: byDelay (before ++ after) := by
  induction before with
  | nil =>
    rw [List.nil_append, List.nil_append, byDelay_cons]
    cases sorted : byDelay after with
    | nil => rfl
    | cons next rest =>
      have member : next ∈ byDelay after := by
        rw [sorted]
        exact List.mem_cons_self
      have later := least next (List.mem_mergeSort.mp member)
      simp [later]
  | cons timer before ih =>
    obtain ⟨later, greater⟩ := List.forall_mem_cons.mp greater
    simp [byDelay_cons, ih greater, Nat.not_le.mpr later]

/-- Some timer has the least delay, and is the first that has it. -/
theorem exists_first (some : timers ≠ []) :
    ∃ before first after, timers = before ++ first :: after ∧
      (∀ timer ∈ before, first.1 < timer.1) ∧ ∀ timer ∈ after, first.1 ≤ timer.1 := by
  induction timers with
  | nil => exact absurd rfl some
  | cons timer timers ih =>
    by_cases none : timers = []
    · exact ⟨[], timer, [], by rw [none, List.nil_append], by simp, by simp⟩
    obtain ⟨before, first, after, rfl, greater, least⟩ := ih none
    by_cases sooner : first.1 < timer.1
    · exact ⟨timer :: before, first, after, rfl, List.forall_mem_cons.mpr ⟨sooner, greater⟩, least⟩
    · refine ⟨[], timer, before ++ first :: after, rfl, by simp, ?_⟩
      intro other member
      rw [List.mem_append, List.mem_cons] at member
      rcases member with member | rfl | member
      · have := greater other member
        omega
      · omega
      · have := least other member
        omega

end

/-! ## Rounds -/

theorem Job.nested_prints (label : String) : (Job.prints label).nested = [] := rfl

theorem Agenda.run_eq (job : Job) (jobs : List Job) (timers : List (Nat × String))
    (output : List String) :
    Agenda.run job ⟨jobs, timers, output⟩ =
      ⟨jobs ++ job.nested.map .prints, timers, output ++ [job.label]⟩ := by
  cases job with
  | prints label => simp [Agenda.run, Agenda.print, Job.nested, Job.label]
  | nests label => rfl

theorem Timed.forall_mem {scopes : Scopes} {entries : List (Nat × Callback)}
    {timers : List (Nat × String)} {p : Nat → Prop}
    (timed : List.Forall₂ (Timed scopes) entries timers) (all : ∀ timer ∈ timers, p timer.1) :
    ∀ entry ∈ entries, p entry.1 := by
  induction timed with
  | nil => simp
  | cons first _ ih =>
    obtain ⟨holds, others⟩ := List.forall_mem_cons.mp all
    rw [List.forall_mem_cons, first.1]
    exact ⟨holds, ih others⟩

namespace Fits

variable {limits : Limits} {m : Machine Plain} {output : List String} {job : Job} {jobs : List Job}
  {timers : List (Nat × String)}

/-- The job that was deferred first is done in a round. -/
theorem runDeferred (calls : 1 ≤ limits.maxCallDepth)
    (fits : Fits limits 0 ⟨job :: jobs, timers, output⟩ 0 m) :
    m.host.deferred ≠ [] ∧ ∃ n, Plain.Round limits m (.ok ()) n ∧
      Fits limits 0 (Agenda.run job ⟨jobs, timers, output⟩) 0 n := by
  obtain ⟨callback, rest, does, others, queue⟩ := List.forall₂_cons_right_iff.mp fits.deferred
  refine ⟨by simp [queue], ?_⟩
  have taken : Fits limits 0 ⟨jobs, timers, output⟩ (0 + job.steps)
      { m with host := { m.host with deferred := rest } } :=
    { fits with
      deferred := others
      affords := by
        have affords := fits.affords
        simp [Agenda.steps] at affords ⊢
        omega }
  have does : callback.Does ({ m with host := { m.host with deferred := rest } } :
      Machine Plain).scopes job := does
  obtain ⟨n, run, after⟩ := runCallback_job job does calls taken
  exact ⟨n, ⟨callback, _, .deferred m.host callback rest queue, run⟩, after⟩

/-- When nothing is deferred, a timer with the least delay prints in a round. -/
theorem runTimer (calls : 1 ≤ limits.maxCallDepth) (some : timers ≠ [])
    (fits : Fits limits 0 ⟨[], timers, output⟩ 0 m) :
    m.host.waiting ≠ [] ∧ ∃ first others n, byDelay timers = first :: byDelay others ∧
      timers.length = others.length + 1 ∧ Plain.Round limits m (.ok ()) n ∧
      Fits limits 0 ⟨[], others, output ++ [first.2]⟩ 0 n := by
  obtain ⟨before, ⟨delay, label⟩, after, rfl, greater, least⟩ := exists_first some
  have front := List.forall₂_take_append _ _ _ fits.waiting
  have back := List.forall₂_drop_append _ _ _ fits.waiting
  obtain ⟨⟨delay', callback⟩, others, ⟨same, does⟩, behind, rest⟩ :=
    List.forall₂_cons_right_iff.mp back
  cases same
  have waiting : m.host.waiting =
      m.host.waiting.take before.length ++ (delay, callback) :: others := by
    rw [← rest, List.take_append_drop]
  generalize m.host.waiting.take before.length = ahead at front waiting
  refine ⟨by simp [waiting], (delay, label), before ++ after, ?_⟩
  have taken : Fits limits 0 ⟨[], before ++ after, output⟩ (0 + (Job.prints label).steps)
      { m with host := { m.host with waiting := ahead ++ others } } :=
    { fits with
      waiting := List.rel_append front behind
      affords := by
        have affords := fits.affords
        simp [Agenda.steps, Job.steps] at affords ⊢
        omega }
  have does : callback.Does ({ m with host := { m.host with waiting := ahead ++ others } } :
      Machine Plain).scopes (.prints label) := does
  obtain ⟨n, run, printed⟩ := runCallback_job (.prints label) does calls taken
  have none : m.host.deferred = [] := List.forall₂_nil_right_iff.mp fits.deferred
  have next : Plain.Next m.host callback { m.host with waiting := ahead ++ others } :=
    .timer m.host delay callback ahead others none waiting (Timed.forall_mem front greater)
      (Timed.forall_mem behind least)
  exact ⟨n, byDelay_select greater least, by simp [Nat.add_assoc], ⟨callback, _, next, run⟩,
    printed⟩

/-- A checkpoint does all that is deferred, and then what was deferred meanwhile. -/
theorem drains (calls : 1 ≤ limits.maxCallDepth)
    (fits : Fits limits 0 ⟨jobs, timers, output⟩ 0 m) :
    ∃ n, Plain.Drains limits (jobs.length + (jobs.flatMap Job.nested).length) m n ∧
      Fits limits 0
        ⟨[], timers, output ++ jobs.map Job.label ++ jobs.flatMap Job.nested⟩ 0 n := by
  generalize counted : jobs.length + (jobs.flatMap Job.nested).length = count
  induction count generalizing jobs output m with
  | zero =>
    cases List.length_eq_zero_iff.mp (Nat.eq_zero_of_add_eq_zero_right counted)
    refine ⟨m, .nil m (List.forall₂_nil_right_iff.mp fits.deferred), ?_⟩
    simpa using fits
  | succ count ih =>
    cases jobs with
    | nil => simp at counted
    | cons job jobs =>
      obtain ⟨some, n₁, round, fits⟩ := fits.runDeferred calls
      rw [Agenda.run_eq] at fits
      have rest : (jobs ++ job.nested.map Job.prints).flatMap Job.nested =
          jobs.flatMap Job.nested := by
        simp [List.flatMap_append, List.flatMap_map, Job.nested_prints]
      have left : (jobs ++ job.nested.map Job.prints).length +
          ((jobs ++ job.nested.map Job.prints).flatMap Job.nested).length = count := by
        rw [rest, List.length_append, List.length_map]
        rw [List.length_cons, List.flatMap_cons, List.length_append] at counted
        omega
      obtain ⟨n, drains, fits⟩ := ih fits left
      refine ⟨n, .round some round drains, ?_⟩
      rw [rest] at fits
      simpa [Job.label, Function.comp_def] using fits

/-- When nothing is deferred, each timer takes a pass. -/
theorem completes_timers (calls : 1 ≤ limits.maxCallDepth) (bound : Nat)
    (fits : Fits limits 0 ⟨[], timers, output⟩ 0 m) :
    ∃ n, Plain.Completes limits bound timers.length m n ∧
      n.host.output = output ++ (byDelay timers).map Prod.snd := by
  generalize counted : timers.length = count
  induction count generalizing timers output m with
  | zero =>
    cases List.length_eq_zero_iff.mp counted
    refine ⟨m, .idle m ⟨?_, ?_⟩, ?_⟩
    · exact List.forall₂_nil_right_iff.mp fits.deferred
    · exact List.forall₂_nil_right_iff.mp fits.waiting
    · rw [fits.output]
      simp [byDelay]
  | succ count ih =>
    have some : timers ≠ [] := List.ne_nil_of_length_eq_add_one counted
    have none := List.forall₂_nil_right_iff.mp fits.deferred
    obtain ⟨waiting, first, others, n, order, length, round, fits⟩ := fits.runTimer calls some
    obtain ⟨n', completes, output⟩ := ih fits (by omega)
    refine ⟨n', .pass (.nil m none) (Nat.zero_le bound) waiting round completes, ?_⟩
    rw [output, order, List.append_assoc]
    rfl

/-- All that is deferred is done in the first pass, and then each timer ends a pass. -/
theorem completes {bound : Nat} (calls : 1 ≤ limits.maxCallDepth)
    (enough : jobs.length + (jobs.flatMap Job.nested).length ≤ bound)
    (fits : Fits limits 0 ⟨jobs, timers, output⟩ 0 m) :
    ∃ n, Plain.Completes limits bound (max 1 timers.length) m n ∧
      n.host.output = output ++ jobs.map Job.label ++ jobs.flatMap Job.nested ++
        (byDelay timers).map Prod.snd := by
  obtain ⟨n₁, drains, fits⟩ := fits.drains calls
  by_cases none : timers = []
  · cases none
    refine ⟨n₁, .last drains enough (List.forall₂_nil_right_iff.mp fits.waiting), ?_⟩
    rw [fits.output]
    simp [byDelay]
  · obtain ⟨waiting, first, others, n₂, order, length, round, fits⟩ := fits.runTimer calls none
    obtain ⟨n, completes, output⟩ := fits.completes_timers calls bound
    refine ⟨n, ?_, ?_⟩
    · rw [length, Nat.max_eq_right (Nat.le_add_left 1 _)]
      exact .pass drains enough waiting round completes
    · rw [output, order, List.append_assoc]
      rfl

end Fits

/-! ## Scripts -/

/-- What the callback does that an operation defers. -/
def FlatOp.job? (label : String) : FlatOp → Option Job
  | deferred | continuation => some (.prints label)
  | nested => some (.nests label)
  | _ => none

namespace FlatScript

/-- What a script prints at once. -/
def printed (script : FlatScript) : List String :=
  script.filterMap fun line => line.2.printed? line.1

/-- What the callbacks print that a script defers. -/
def deferred (script : FlatScript) : List String :=
  script.filterMap fun line => line.2.deferred? line.1

/-- What the callbacks print that are deferred in other callbacks. -/
def nested (script : FlatScript) : List String :=
  script.filterMap fun line => line.2.nested? line.1

/-- The timers of a script, with their delays. -/
def timers (script : FlatScript) : List (Nat × String) :=
  script.filterMap fun line => line.2.timer? line.1

/-- What a script prints: at once, then from deferred callbacks, from those that they defer, and
last from timers by their delays. -/
def output (script : FlatScript) : List String :=
  script.printed ++ script.deferred ++ script.nested ++ (byDelay script.timers).map Prod.snd

/-- The operations of a script. -/
def ops (script : FlatScript) : List FlatOp :=
  script.map Prod.snd

/-- What the deferred callbacks of a script do. -/
def jobs (script : FlatScript) : List Job :=
  script.filterMap fun line => line.2.job? line.1

theorem performed_eq (script : FlatScript) (agenda : Agenda) :
    script.performed agenda =
      ⟨agenda.deferred ++ script.jobs, agenda.waiting ++ script.timers,
        agenda.output ++ script.printed⟩ := by
  induction script generalizing agenda with
  | nil => simp [performed, jobs, timers, printed]
  | cons line rest ih =>
    obtain ⟨label, op⟩ := line
    rw [performed, ih]
    cases op <;>
      simp [jobs, timers, printed, job?, timer?, printed?, Agenda.perform, Agenda.print,
        Agenda.defer, Agenda.addTimer]

theorem map_label_jobs (script : FlatScript) : script.jobs.map Job.label = script.deferred := by
  induction script with
  | nil => rfl
  | cons line rest ih =>
    obtain ⟨label, op⟩ := line
    cases op <;> simpa [jobs, deferred, job?, deferred?, Job.label] using ih

theorem flatMap_nested_jobs (script : FlatScript) :
    script.jobs.flatMap Job.nested = script.nested := by
  induction script with
  | nil => rfl
  | cons line rest ih =>
    obtain ⟨label, op⟩ := line
    cases op <;> simpa [jobs, nested, job?, nested?, Job.nested] using ih

/-- How many deferred callbacks run. -/
theorem rounds_eq (script : FlatScript) :
    script.jobs.length + script.nested.length =
      script.ops.count .deferred + script.ops.count .continuation +
        2 * script.ops.count .nested := by
  induction script with
  | nil => rfl
  | cons line rest ih =>
    obtain ⟨label, op⟩ := line
    cases op <;> simp [jobs, nested, ops, job?, nested?] at ih ⊢ <;> omega

theorem length_timers (script : FlatScript) :
    script.timers.length = script.ops.countP isTimer := by
  induction script with
  | nil => rfl
  | cons line rest ih =>
    obtain ⟨label, op⟩ := line
    cases op <;> simp [timers, ops, timer?, isTimer, List.countP_cons] at ih ⊢ <;> exact ih

theorem steps_le (script : FlatScript) : script.steps ≤ 7 * script.length := by
  induction script with
  | nil => simp [steps]
  | cons line rest ih =>
    obtain ⟨label, op⟩ := line
    have most : op.steps ≤ 7 := by cases op <;> simp [FlatOp.steps]
    rw [steps, List.length_cons]
    omega

/-- The operations, each with a label that counts the ones before it. -/
def ofOps (ops : List FlatOp) : FlatScript :=
  ops.mapIdx fun index op => ("op" ++ toString index, op)

theorem ops_ofOps (ops : List FlatOp) : (ofOps ops).ops = ops := by
  apply List.ext_getElem
  · simp [ofOps, FlatScript.ops]
  · simp [ofOps, FlatScript.ops]

theorem readable_ofOps {ops : List FlatOp} (small : ∀ delay, .timer delay ∈ ops → delay < 2 ^ 53) :
    (ofOps ops).Readable := by
  intro line member
  obtain ⟨index, bound, rfl⟩ := List.mem_mapIdx.mp member
  constructor
  · have digits : ∀ c ∈ Nat.toDigits 10 index, isUnescaped c = true := by
      intro c member
      exact isUnescaped_digit (Nat.isDigit_of_mem_toDigits (by decide) (by decide) member)
    rw [IsLabel, String.toList_append, List.all_append, toList_toString,
      List.all_eq_true.mpr digits]
    decide +kernel
  · intro delay same
    exact small delay (same ▸ List.getElem_mem bound)

end FlatScript

/-- If the bounds of the event loop suffice, a flat script prints what it should. -/
theorem Timeline.finalOutput_flat {settings : Settings} {script : FlatScript}
    (readable : script.Readable) (nesting : settings.maxNesting = 64)
    (calls : 1 ≤ settings.maxCallDepth) (steps : script.steps ≤ settings.maxSteps)
    (deferred : script.jobs.length + script.nested.length ≤ settings.maxDeferredPerCheckpoint)
    (iterations : max 1 script.timers.length ≤ settings.maxIterations) :
    (Timeline.ofSource settings script.source).finalOutput = script.output := by
  have read : parse settings.maxNesting script.source = .ok (script.statements 1) := by
    rw [nesting]
    exact FlatScript.parse_source readable
  have steps : script.steps ≤ settings.limits.maxSteps := steps
  obtain ⟨n, main, fits⟩ := runScript_statements script readable 1 steps
  rw [FlatScript.performed_eq, List.nil_append, List.nil_append, List.nil_append] at fits
  rw [← script.flatMap_nested_jobs] at deferred
  obtain ⟨n', completes, output⟩ := fits.completes calls deferred
  rw [completes.finalOutput read main iterations, output, script.map_label_jobs,
    script.flatMap_nested_jobs]
  rfl

/-- A flat script prints what it should if the event loop may make a pass for each timer, and run
each deferred callback in one checkpoint, and if there are seven steps for each operation. -/
theorem Timeline.finalOutput_ofOps {settings : Settings} {ops : List FlatOp}
    (small : ∀ delay, .timer delay ∈ ops → delay < 2 ^ 53)
    (iterations : max 1 (ops.countP isTimer) ≤ settings.maxIterations)
    (deferred : ops.count .deferred + ops.count .continuation + 2 * ops.count .nested ≤
      settings.maxDeferredPerCheckpoint)
    (steps : 7 * ops.length ≤ settings.maxSteps) (calls : 1 ≤ settings.maxCallDepth)
    (nesting : settings.maxNesting = 64) :
    (Timeline.ofSource settings (FlatScript.ofOps ops).source).finalOutput =
      (FlatScript.ofOps ops).output := by
  have same := FlatScript.ops_ofOps ops
  have length : (FlatScript.ofOps ops).length = ops.length := by simp [FlatScript.ofOps]
  refine finalOutput_flat (FlatScript.readable_ofOps small) nesting calls ?_ ?_ ?_
  · have most := FlatScript.steps_le (FlatScript.ofOps ops)
    omega
  · rw [FlatScript.rounds_eq, same]
    exact deferred
  · rw [FlatScript.length_timers, same]
    exact iterations

theorem Timeline.finalOutput_ofOps_each :
    (FlatScript.ofOps [.timer 3, .nested, .continuation, .timer 2, .deferred, .print]).source =
      "setTimeout(() => console.log('op0'), 3);\n" ++
      "queueMicrotask(() => \x7b console.log('op1'); " ++
        "queueMicrotask(() => console.log('op1-nested')); \x7d);\n" ++
      "Promise.resolve().then(() => console.log('op2'));\n" ++
      "setTimeout(() => console.log('op3'), 2);\n" ++
      "queueMicrotask(() => console.log('op4'));\n" ++
      "console.log('op5');\n" ∧
    (Timeline.ofSource
      { Settings.usual with
        maxIterations := 2, maxDeferredPerCheckpoint := 4, maxSteps := 42, maxCallDepth := 1 }
      (FlatScript.ofOps [.timer 3, .nested, .continuation, .timer 2, .deferred,
        .print]).source).finalOutput =
      ["op5", "op1", "op2", "op4", "op1-nested", "op3", "op0"] := by
  constructor
  · decide +kernel
  · exact (Timeline.finalOutput_ofOps (by simp) (by decide) (by decide) (by decide) (by decide)
      rfl).trans (by cbv)

end EventLoop
