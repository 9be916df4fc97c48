import EventLoop.Proofs.Loop.Reached
import EventLoop.Proofs.Promise.Trail

/-!
# The books of an event loop

An event loop holds the callbacks that its arena stores. Whatever a script attaches to promises, and
whatever callbacks are taken and run, the ledger of continuations is right: each waits for a
promise, is stored, or was run.
-/

namespace EventLoop

namespace Arena

variable {α : Type} {arena : Arena α}

/-- All values that are stored. -/
def values (arena : Arena α) : List α :=
  arena.slots.toList.flatMap fun slot => slot.value.toList

theorem values_setSlot {index : Nat} {old : Slot α} (found : arena.slot? index = some old)
    (slot : Slot α) :
    ((arena.setSlot index slot).values ++ old.value.toList).Perm
      (arena.values ++ slot.value.toList) := by
  have there : arena.slots.toList[index - 1]? = some old := by
    unfold slot? at found
    split at found
    · cases found
    · simpa using found
  simpa [values, setSlot] using flatMap_set_perm (fun slot => slot.value.toList) slot there

theorem values_insert (sound : arena.Sound) (value : α) :
    (arena.insert value).2.values.Perm (value :: arena.values) := by
  rcases insert_cases sound value with ⟨index, rest, version, -, vacant, eq⟩ | ⟨-, eq⟩
  · rw [eq]
    have vacated : ({ arena with free := rest } : Arena α).slot? index = some ⟨version, none⟩ :=
      vacant
    have stored := values_setSlot vacated ⟨version + 1, some value⟩
    rw [Option.toList_none, List.append_nil] at stored
    exact stored.trans (List.perm_append_singleton value _)
  · rw [eq]
    have pushed : ({ arena with slots := arena.slots.push ⟨1, some value⟩ } : Arena α).values =
        arena.values ++ [value] := by
      simp [values]
    rw [pushed]
    exact List.perm_append_singleton value _

theorem values_take {key : SlotKey} {value : α} (found : arena.get? key = some value) :
    arena.values.Perm (value :: (arena.take key).2.values) := by
  have present : ({ arena with free := key.index :: arena.free } : Arena α).slot? key.index =
      some ⟨key.version, some value⟩ := slot?_of_get? found
  unfold take
  rw [found]
  have taken := values_setSlot present ⟨key.version + 1, none⟩
  rw [Option.toList_none, List.append_nil] at taken
  exact taken.symm.trans (List.perm_append_singleton value _)

/-- Where no key finds a value none is stored. -/
theorem values_eq_nil (none : ∀ key, arena.get? key = none) : arena.values = [] := by
  refine List.flatMap_eq_nil_iff.mpr fun slot member => ?_
  obtain ⟨index, found⟩ := List.mem_iff_getElem?.mp member
  have empty := none ⟨slot.version, index + 1⟩
  have there : arena.slot? (index + 1) = some slot := by simpa [slot?] using found
  simp only [get?, there, if_true] at empty
  rw [empty]
  rfl

end Arena

/-- The callbacks that are still to be run. -/
def Session.held (s : Session) : List Callback :=
  s.callbacks.values

theorem Session.sound_release {s : Session} (sound : s.callbacks.Sound)
    (callbacks : List Callback) : (s.release callbacks).callbacks.Sound := by
  induction callbacks generalizing s with
  | nil => exact sound
  | cons callback rest ih => exact ih (sound.insert callback)

theorem Session.held_release {s : Session} (sound : s.callbacks.Sound) (callbacks : List Callback) :
    (s.release callbacks).held.Perm (callbacks ++ s.held) := by
  induction callbacks generalizing s with
  | nil => exact .refl _
  | cons callback rest ih =>
    refine (ih (sound.insert callback)).trans ?_
    refine ((Arena.values_insert sound callback).append_left rest).trans ?_
    exact List.perm_middle

open Promises in
/-- Each promise is settled in one way, and the ledger of continuations is right. -/
structure Machine.Books (attached : List Continuation) (ran : List Callback)
    (running : List PromiseId) (m : Machine Session) : Prop where
  sound : m.host.callbacks.Sound
  owned : m.promises.Owned (settledBy m.host.held ++ running)
  ledger : Ledger attached ran m.host.held m.promises

namespace Machine.Books

open Promises

variable {attached : List Continuation} {ran : List Callback} {running : List PromiseId}
  {m m' : Machine Session}

/-- The books depend on the promises and the callbacks only. -/
theorem of_same (books : m.Books attached ran running) (promises : m'.promises = m.promises)
    (callbacks : m'.host.callbacks = m.host.callbacks) : m'.Books attached ran running := by
  obtain ⟨sound, owned, ledger⟩ := books
  unfold Session.held at owned ledger
  rw [← callbacks] at sound owned ledger
  rw [← promises] at owned ledger
  exact ⟨sound, owned, ledger⟩

theorem of_perm {held : List Callback} {promises : Promises} (sound : m.host.callbacks.Sound)
    (perm : m.host.held.Perm held) (same : m.promises = promises)
    (owned : promises.Owned (settledBy held ++ running))
    (ledger : Ledger attached ran held promises) : m.Books attached ran running where
  sound := sound
  owned := by
    rw [same]
    exact owned.perm ((settledBy_perm perm.symm).append_right running)
  ledger := by
    rw [same]
    exact ledger.perm perm.symm

/-- A callback that is no continuation is stored. -/
theorem hold (books : m.Books attached ran running) {callback : Callback}
    (plain : callback.settles = none) (promises : m'.promises = m.promises)
    (callbacks : m'.host.callbacks = (m.host.callbacks.insert callback).2) :
    m'.Books attached ran running := by
  have sound : m'.host.callbacks.Sound := by
    rw [callbacks]
    exact books.sound.insert callback
  have stored : m'.host.held.Perm (callback :: m.host.held) := by
    rw [Session.held, callbacks]
    exact Arena.values_insert books.sound callback
  refine of_perm sound stored promises ?_ (books.ledger.hold plain)
  have same : settledBy (callback :: m.host.held) = settledBy m.host.held := by
    simp [settledBy, plain]
  rw [same]
  exact books.owned

theorem push_resolved (books : m.Books attached ran running) (value : Value)
    (promises : m'.promises = m.promises.push (.resolved value))
    (callbacks : m'.host.callbacks = m.host.callbacks) : m'.Books attached ran running := by
  have before : ({ m' with promises := m.promises } : Machine Session).Books attached ran running :=
    books.of_same rfl callbacks
  refine of_perm before.sound (.refl _) promises ?_ (before.ledger.push_resolved value)
  exact before.owned.push_resolved value

/-- A continuation of a promise that has its value is stored. -/
theorem chain (books : m.Books attached ran running) {receiver : PromiseId} {value : Value}
    (found : m.promises[receiver]? = some (.resolved value)) (function : Closure)
    (promises : m'.promises = m.promises.push (.pending []))
    (callbacks : m'.host.callbacks =
      (m.host.callbacks.insert ⟨function, some value, some m.promises.size⟩).2) :
    m'.Books (attached ++ [⟨receiver, function, m.promises.size⟩]) ran running := by
  have sound : m'.host.callbacks.Sound := by
    rw [callbacks]
    exact books.sound.insert _
  have stored : m'.host.held.Perm
      (⟨function, some value, some m.promises.size⟩ :: m.host.held) := by
    rw [Session.held, callbacks]
    exact Arena.values_insert books.sound _
  exact of_perm sound stored promises books.owned.push_pending (books.ledger.chain function found)

/-- A continuation of a promise that is pending waits for it. -/
theorem park (books : m.Books attached ran running) {receiver : PromiseId}
    {waiting : List Reaction} (found : m.promises[receiver]? = some (.pending waiting))
    (function : Closure)
    (promises : m'.promises = (m.promises.push (.pending [])).setIfInBounds receiver
      (.pending (waiting ++ [Reaction.handler function m.promises.size])))
    (callbacks : m'.host.callbacks = m.host.callbacks) :
    m'.Books (attached ++ [⟨receiver, function, m.promises.size⟩]) ran running := by
  have before : ({ m' with promises := m.promises } : Machine Session).Books attached ran running :=
    books.of_same rfl callbacks
  refine of_perm before.sound (.refl _) promises ?_ (before.ledger.park function found)
  have front : Promises.Owned (m.promises.push (.pending []))
      ((Reaction.handler function m.promises.size).settles ::
        (settledBy m'.host.held ++ running)) := before.owned.push_pending
  refine front.wait (getElem?_push_of_some found _) ?_
  exact (Nat.ne_of_lt (Array.getElem?_eq_some_iff.mp found).1).symm

/-- A callback is taken to be run. -/
theorem begin (books : m.Books attached ran []) {key : SlotKey} {callback : Callback}
    (found : m.host.callbacks.get? key = some callback) (promises : m'.promises = m.promises)
    (callbacks : m'.host.callbacks = (m.host.callbacks.take key).2) :
    m'.Books attached (ran ++ [callback]) callback.settles.toList := by
  have sound : m'.host.callbacks.Sound := by
    rw [callbacks]
    exact books.sound.take key
  have taken : m.host.held.Perm (callback :: m'.host.held) := by
    rw [Session.held, Session.held, callbacks]
    exact Arena.values_take found
  refine of_perm sound (.refl _) promises ?_ (books.ledger.perm taken).begin
  refine books.owned.perm ?_
  rw [List.append_nil]
  refine (settledBy_perm taken).trans ?_
  show (settledBy (callback :: m'.host.held)).Perm _
  rw [settledBy_cons]
  exact List.perm_append_comm

/-- A callback gave a value, and what waited for its promise is stored. -/
theorem finish {settles : Option PromiseId} (books : m.Books attached ran settles.toList)
    (mode : LineMode) {value : Value} (known : value.Within m.promises.size) :
    (m.finish (Session.host mode) settles value).Books attached ran [] := by
  cases settles with
  | none => exact books
  | some p =>
    have host := Session.host_settle mode m p value
    have sound : (m.settle (Session.host mode) p value).host.callbacks.Sound := by
      rw [host]
      exact Session.sound_release books.sound _
    have stored : (m.settle (Session.host mode) p value).host.held.Perm
        ((m.promises.settle p value).2 ++ m.host.held) := by
      rw [host]
      exact Session.held_release books.sound _
    show (m.settle (Session.host mode) p value).Books attached ran []
    refine of_perm sound stored rfl ?_ (books.ledger.settle p value)
    have owned : m.promises.Owned (p :: settledBy m.host.held) :=
      books.owned.perm (List.perm_append_singleton p _)
    rw [List.append_nil, settledBy_append]
    exact owned.settle known

end Machine.Books

section

variable {limits : Limits} {mode : LineMode} {m m' : Machine Session}
  {attached : List Continuation} {ran : List Callback} {running : List PromiseId}

/-- Where no promise is made the ledger stays as it is. -/
theorem Path.books (path : Path limits (Session.host mode) m m')
    (same : m'.promises.size = m.promises.size) (books : m.Books attached ran running) :
    m'.Books attached ran running := by
  induction path with
  | trans path₁ path₂ ih₁ ih₂ =>
    have le₁ := path₁.promises_le
    have le₂ := path₂.promises_le
    exact ih₂ (by omega) (ih₁ (by omega) books)
  | print m text line _ => exact books.of_same rfl (Session.callbacks_print ..)
  | registerTimer m function delay line _ =>
    exact books.hold rfl rfl (Session.callbacks_registerTimer ..)
  | defer m function line _ => exact books.hold rfl rfl (Session.callbacks_defer ..)
  | resolve | chain | park => simp [Machine.onHost] at same
  | call m m' name line _ _ _ ih =>
    have inside : m'.Books attached ran running := ih same (books.of_same rfl rfl)
    exact inside.of_same rfl (Session.callbacks_leave _)
  | refuse m name line _ => exact books.of_same rfl (Session.callbacks_leave _)
  | _ => exact books.of_same rfl rfl

/-- What a trail attaches is entered in the ledger. -/
theorem Trail.books {more : List Continuation} (trail : Trail limits (Session.host mode) m more m')
    (books : m.Books attached ran running) : m'.Books (attached ++ more) ran running := by
  induction trail generalizing attached with
  | quiet path same =>
    rw [List.append_nil]
    exact path.books same books
  | resolve m value _ _ _ =>
    rw [List.append_nil]
    exact books.push_resolved value rfl rfl
  | chain m receiver value function line _ found =>
    exact books.chain found function rfl (Session.callbacks_chain_some ..)
  | park m receiver waiting function line _ found =>
    exact books.park found function rfl (Session.callbacks_chain_none ..)
  | trans _ _ ih₁ ih₂ =>
    rw [← List.append_assoc]
    exact ih₂ (ih₁ books)
  | call m m' name line _ _ _ ih =>
    exact (ih (books.of_same rfl rfl)).of_same rfl (Session.callbacks_leave _)

end

end EventLoop
