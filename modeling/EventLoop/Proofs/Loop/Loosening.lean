import EventLoop.Proofs.Loop.Paired

/-!
# Limits of evaluation only reject

Steps and nested calls are counted to raise a failure and for nothing else. So a generation in which
neither limit is exceeded is the same under looser limits.
-/

namespace EventLoop

/-- Is the failure that a limit of evaluation was exceeded? -/
def ScriptError.exceedsLimit : ScriptError → Bool
  | .budget _ | .callDepth .. => true
  | _ => false

/-- A host agrees with itself. -/
theorem Host.Agree.refl {σ : Type} (host : Host σ) : host.Agree Eq host where
  print _ _ _ _ same := same ▸ rfl
  registerTimer _ _ _ _ _ same := same ▸ ⟨rfl, rfl⟩
  defer _ _ _ _ same := same ▸ rfl
  chain _ _ _ _ same := same ▸ rfl
  release _ _ _ same := same ▸ rfl
  enter _ _ _ _ same := same ▸ rfl
  leave _ _ same := same ▸ rfl

theorem Session.keeps_eq : Session.Keeps Eq where
  snap _ _ _ _ same := same ▸ rfl
  pushFrame _ _ _ _ same := same ▸ rfl
  popFrame _ _ same := same ▸ rfl
  promoteTimer _ _ same := same ▸ rfl
  popDeferred _ _ same := same ▸ ⟨rfl, rfl⟩
  popReady _ _ same := same ▸ ⟨rfl, rfl⟩
  takeCallback _ _ _ same := same ▸ ⟨rfl, rfl⟩
  hasDeferred _ _ same := same ▸ rfl
  hasTimers _ _ same := same ▸ rfl
  hasWork _ _ same := same ▸ rfl
  stackIsEmpty _ _ same := same ▸ rfl

namespace Timeline

open Generation

/-- A generation that exceeds neither the limit of steps nor that of nested calls is the same under
any limits that are not lower. -/
theorem ofSource_looserLimits (settings : Settings) (source : String) {steps depth : Nat}
    (moreSteps : settings.maxSteps ≤ steps) (moreDepth : settings.maxCallDepth ≤ depth)
    (within : ∀ e, ending settings source = .error e → e.exceedsLimit = false) :
    ofSource { settings with maxSteps := steps, maxCallDepth := depth } source =
      ofSource settings source := by
  let looser : Settings := { settings with maxSteps := steps, maxCallDepth := depth }
  show ofSource looser source = ofSource settings source
  have limits : settings.limits.Looser (·.exceedsLimit = true) looser.limits :=
    ⟨.inr ⟨moreSteps, rfl⟩, .inr ⟨moreDepth, fun _ => rfl⟩⟩
  cases parsed : parse settings.maxNesting source with
  | error e =>
    have parsed' : parse looser.maxNesting source = .error e := parsed
    rw [ofSource_eq_failReading parsed, ofSource_eq_failReading parsed']
  | ok script =>
    have parsed' : parse looser.maxNesting source = .ok script := parsed
    rcases run : (untilEnding settings script).run (.initial (start source)) with ⟨result, m⟩
    rcases run' : (untilEnding looser script).run (.initial (start source)) with ⟨result', m'⟩
    have agree : (Session.host settings.lineMode).Agree Eq (Session.host looser.lineMode) := .refl _
    have matched := untilEnding_match Session.keeps_eq limits agree rfl rfl script _ _
      (.initial (refl (start source)))
    rw [Eval.MatchAt, run, run'] at matched
    rcases matched with ⟨e, failed, exceeds⟩ | ⟨rfl, alike⟩
    · have inside := within e ((ending_eq parsed run).trans failed)
      rw [exceeds] at inside
      cases inside
    · rw [ofSource_eq_closing parsed run, ofSource_eq_closing parsed' run', ← alike.host]
      rfl

/-- A script that takes all the steps that it may, in calls nested as deeply as they may be. -/
theorem ofSource_looserLimits_tight :
    ending { Settings.usual with maxSteps := 4, maxCallDepth := 1 }
        "setTimeout(() => Promise.resolve(0)); 1" = .ok .idle ∧
      ofSource { Settings.usual with maxSteps := 9, maxCallDepth := 2 }
          "setTimeout(() => Promise.resolve(0)); 1" =
        ofSource { Settings.usual with maxSteps := 4, maxCallDepth := 1 }
          "setTimeout(() => Promise.resolve(0)); 1" := by
  have idle : ending { Settings.usual with maxSteps := 4, maxCallDepth := 1 }
      "setTimeout(() => Promise.resolve(0)); 1" = .ok .idle := by decide +kernel
  refine ⟨idle, ofSource_looserLimits { Settings.usual with maxSteps := 4, maxCallDepth := 1 } _
    (by decide) (by decide) fun e failed => ?_⟩
  rw [idle] at failed
  cases failed

end Timeline

end EventLoop
