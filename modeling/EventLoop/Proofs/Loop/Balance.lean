import EventLoop.Proofs.Evaluation.Congruence
import EventLoop.Proofs.Evaluation.Steady
import EventLoop.Proofs.Loop.Steps

/-!
# Every call leaves the stack as it found it

Whatever a script or a callback does, and whether it succeeds or fails, afterwards the stack is what
it was, frame for frame, and calls are nested as deeply as before. This needs nothing of the machine
on which it runs.
-/

namespace EventLoop

variable {mode : LineMode} {α : Type}

/-- Whatever built-ins tell a session, its stack is what it was. -/
theorem Session.serves_of_told {s t : Session} (told : (host mode).Told s t) : Serves s t := by
  induction told with
  | refl s => exact .refl s
  | trans _ _ ih₁ ih₂ => exact ih₁.trans ih₂
  | print text line s => exact print_serves mode text line s
  | registerTimer callback delay line s => exact registerTimer_serves mode callback delay line s
  | defer callback line s => exact defer_serves mode callback line s
  | chain callback line s => exact chain_serves mode callback line s

/-- The machine is as deep in calls as the other, and the session has the same stack. -/
structure Machine.Balanced (m m' : Machine Session) : Prop where
  depth : m'.depth = m.depth
  serves : m.host.Serves m'.host

namespace Machine.Balanced

variable {m m₁ m₂ : Machine Session}

theorem refl (m : Machine Session) : Balanced m m :=
  ⟨rfl, .refl m.host⟩

theorem trans (h₁ : Balanced m m₁) (h₂ : Balanced m₁ m₂) : Balanced m m₂ :=
  ⟨h₂.depth.trans h₁.depth, h₁.serves.trans h₂.serves⟩

end Machine.Balanced

namespace Eval

/-- On every machine, whether it succeeds or fails, the computation leaves the stack and the depth
of calls as they were. -/
def Balances (x : Eval Session α) : Prop :=
  ∀ m : Machine Session, m.Balanced (x.run m).2

namespace Balances

variable {β : Type}

theorem of_steady (mode : LineMode) {x : Eval Session α} (steady : Steady (Session.host mode) x) :
    Balances x :=
  fun m => ⟨(steady m).depth, Session.serves_of_told (steady m).told⟩

theorem throw (e : ScriptError) : Balances (throw e : Eval Session α) :=
  fun m => .refl m

theorem bind {x : Eval Session α} {f : α → Eval Session β} (first : Balances x)
    (second : ∀ a, Balances (f a)) : Balances (x >>= f) := by
  intro m
  have before := first m
  rw [run_bind]
  generalize x.run m = ran at before ⊢
  obtain ⟨_ | a, m'⟩ := ran
  · exact before
  · exact before.trans (second a m')

theorem tick (limits : Limits) : Balances (tick limits) := by
  intro m
  rw [run_tick]
  split <;> exact ⟨rfl, .refl m.host⟩

theorem called (name : String) (line : Nat) {x : Eval Session Value} (inside : Balances x) :
    Balances (between (Machine.onHost ((Session.host mode).enter name line))
      (Machine.onHost (Session.host mode).leave) x) := by
  intro m
  have within := inside (m.onHost ((Session.host mode).enter name line))
  exact ⟨within.depth, Session.call_serves name line within.serves⟩

theorem nest (limits : Limits) (line : Nat) {x : Eval Session Value} (inside : Balances x) :
    Balances (nest limits line x) := by
  intro m
  rw [run_nest]
  split
  · exact .refl m
  · refine ⟨?_, (inside m.deeper).serves⟩
    show (x.run m.deeper).2.depth - 1 = m.depth
    rw [(inside m.deeper).depth]
    exact Nat.add_sub_cancel ..

end Balances

/-- Evaluation leaves the stack as it was. -/
theorem balances_congruence (limits : Limits) (mode : LineMode) :
    Congruence limits limits (Session.host mode) (Session.host mode)
      (fun _ x _ => Balances x) (fun _ bound₁ bound₂ => bound₁ = bound₂) where
  pure a := .of_steady mode (.pure a)
  misuse line fault := .of_steady mode (.misuse line fault)
  bind := .bind
  later := id
  tick := (Balances.tick limits).bind
  read env name line := .of_steady mode (.read env name line)
  assign env name value line := .of_steady mode (.assign env name value line)
  declare env name value fixed := .of_steady mode (.declare env name value fixed)
  openScope env := .of_steady mode (.openScope env)
  newClosure definition env := .of_steady mode (.newClosure definition env)
  openRound env name := .of_steady mode (.openRound env name)
  closeRound env inner name := .of_steady mode (.closeRound env inner name)
  native native args callee line := .of_steady mode (.callNative native args callee line)
  called name line := .called name line
  nested line := .nest limits line
  spent same := .inl ⟨same.symm, .throw _⟩
  enough same := .inl ⟨_, same.symm, rfl⟩

theorem settle_balances (mode : LineMode) (p : PromiseId) (value : Value) :
    Balances (settle (Session.host mode) p value) := by
  intro m
  rw [run_settle]
  refine ⟨rfl, ?_⟩
  show m.host.Serves (if _ then m.host else Session.release _ m.host)
  split
  · exact .refl m.host
  · exact Session.release_serves _ m.host

/-- A script leaves the stack as it was. -/
theorem runScript_balances (limits : Limits) (mode : LineMode) (script : Script) :
    Balances (runScript limits (Session.host mode) script) :=
  (balances_congruence limits mode).runScript (n := 0) rfl rfl script

/-- A callback leaves the stack as it was. -/
theorem runCallback_balances (limits : Limits) (mode : LineMode) (callback : Callback) :
    Balances (runCallback limits (Session.host mode) callback) :=
  (balances_congruence limits mode).runCallback (n := 0) rfl (settle_balances mode) callback

end Eval

end EventLoop
