import EventLoop.Queue.Arena

/-!
# Keys of an arena

In a sound arena the slots that are listed as free are empty. Then a key under which a value is
stored is new, and as a map from keys to values the arena changes at that key only; taking a value
changes it at its key only, too.
-/

namespace EventLoop.Arena

variable {α : Type} {arena : Arena α}

/-- The free slots are empty, and none is listed twice. -/
structure Sound (arena : Arena α) : Prop where
  nodup : arena.free.Nodup
  vacant : ∀ index ∈ arena.free, ∃ version, arena.slot? index = some ⟨version, none⟩

theorem sound_empty : (empty : Arena α).Sound where
  nodup := List.nodup_nil
  vacant _ member := by cases member

@[simp] theorem get?_empty (key : SlotKey) : (empty : Arena α).get? key = none := by
  simp [get?, slot?, empty]

/-- A slot that exists has a number from one to the number of slots. -/
theorem slot?_bounds {index : Nat} {slot : Slot α} (found : arena.slot? index = some slot) :
    0 < index ∧ index - 1 < arena.slots.size := by
  unfold slot? at found
  split at found
  · cases found
  · have bound := (Array.getElem?_eq_some_iff.mp found).1
    exact ⟨by omega, bound⟩

theorem slot?_setSlot {index : Nat} {old : Slot α} (found : arena.slot? index = some old)
    (slot : Slot α) (other : Nat) :
    (arena.setSlot index slot).slot? other = if other = index then some slot
      else arena.slot? other := by
  obtain ⟨positive, bound⟩ := slot?_bounds found
  by_cases zero : other = 0
  · have different : ¬ 0 = index := by omega
    simp [slot?, zero, different]
  · by_cases same : other = index
    · subst same
      simp [slot?, setSlot, zero, bound]
    · have different : ¬ index - 1 = other - 1 := by omega
      simp [slot?, setSlot, zero, same, different]

theorem slot?_push (arena : Arena α) (slot : Slot α) (other : Nat) :
    { arena with slots := arena.slots.push slot }.slot? other =
      if other = arena.slots.size + 1 then some slot else arena.slot? other := by
  by_cases zero : other = 0
  · simp [slot?, zero]
  · by_cases new : other = arena.slots.size + 1
    · simp [slot?, new]
    · have different : ¬ other - 1 = arena.slots.size := by omega
      simp [slot?, zero, new, different, Array.getElem?_push]

/-- Which slots there are, and so which values, does not depend on those that are free. -/
@[simp] theorem slot?_free (arena : Arena α) (free : List Nat) (index : Nat) :
    { arena with free }.slot? index = arena.slot? index := rfl

@[simp] theorem get?_free (arena : Arena α) (free : List Nat) (key : SlotKey) :
    { arena with free }.get? key = arena.get? key := rfl

/-- What storing a value does: it fills an empty slot, which was the free one or is a new one. -/
theorem insert_cases (sound : arena.Sound) (value : α) :
    (∃ index rest version, arena.free = index :: rest ∧
      arena.slot? index = some ⟨version, none⟩ ∧
      arena.insert value =
        (⟨version + 1, index⟩,
          { arena with free := rest }.setSlot index ⟨version + 1, some value⟩)) ∨
    arena.free = [] ∧ arena.insert value =
      (⟨1, arena.slots.size + 1⟩, { arena with slots := arena.slots.push ⟨1, some value⟩ }) := by
  cases free : arena.free with
  | nil => exact .inr ⟨rfl, by unfold insert; rw [free]⟩
  | cons index rest =>
    obtain ⟨version, vacant⟩ := sound.vacant index (by rw [free]; exact List.mem_cons_self)
    refine .inl ⟨index, rest, version, rfl, vacant, ?_⟩
    unfold insert
    rw [free]
    show (SlotKey.mk (((arena.slot? index).elim 0 Slot.version) + 1) index, _) = _
    rw [vacant]
    rfl

theorem Sound.insert (sound : arena.Sound) (value : α) : (arena.insert value).2.Sound := by
  rcases insert_cases sound value with ⟨index, rest, version, free, vacant, eq⟩ | ⟨free, eq⟩
  · have nodup := List.nodup_cons.mp (free ▸ sound.nodup)
    rw [eq]
    refine ⟨nodup.2, ?_⟩
    intro other member
    obtain ⟨version', vacant'⟩ :=
      sound.vacant other (by rw [free]; exact List.mem_cons_of_mem _ member)
    refine ⟨version', ?_⟩
    rw [slot?_setSlot (by exact vacant), if_neg, slot?_free, vacant']
    rintro rfl
    exact nodup.1 member
  · rw [eq]
    constructor
    · rw [free]
      exact List.nodup_nil
    · intro other member
      rw [free] at member
      cases member

theorem get?_setSlot {index : Nat} {old : Slot α} (found : arena.slot? index = some old)
    (slot : Slot α) (key : SlotKey) :
    (arena.setSlot index slot).get? key =
      if key.index = index then if slot.version = key.version then slot.value else none
      else arena.get? key := by
  by_cases same : key.index = index <;> simp [get?, slot?_setSlot found, same]

theorem get?_push (arena : Arena α) (slot : Slot α) (key : SlotKey) :
    { arena with slots := arena.slots.push slot }.get? key =
      if key.index = arena.slots.size + 1 then
        if slot.version = key.version then slot.value else none
      else arena.get? key := by
  by_cases new : key.index = arena.slots.size + 1 <;> simp [get?, slot?_push, new]

/-- Under a key of an empty slot nothing is stored. -/
theorem get?_vacant {key : SlotKey} {version : Nat}
    (vacant : arena.slot? key.index = some ⟨version, none⟩) : arena.get? key = none := by
  simp [get?, vacant]

/-- Under a key of a slot that does not exist nothing is stored. -/
theorem get?_beyond {key : SlotKey} (h : arena.slots.size < key.index) :
    arena.get? key = none := by
  have positive : ¬ key.index = 0 := by omega
  have beyond : arena.slots[key.index - 1]? = none := Array.getElem?_eq_none (by omega)
  simp [get?, slot?, positive, beyond]

/-- The key of a stored value was not in use. -/
theorem get?_insert_fresh (sound : arena.Sound) (value : α) :
    arena.get? (arena.insert value).1 = none := by
  rcases insert_cases sound value with ⟨index, rest, version, -, vacant, eq⟩ | ⟨-, eq⟩
  · rw [eq]
    exact get?_vacant vacant
  · rw [eq]
    exact get?_beyond (Nat.lt_succ_self _)

/-- Storing a value changes the arena at the new key only. -/
theorem get?_insert (sound : arena.Sound) (value : α) (key : SlotKey) :
    (arena.insert value).2.get? key =
      if key = (arena.insert value).1 then some value else arena.get? key := by
  obtain ⟨version', index'⟩ := key
  rcases insert_cases sound value with ⟨index, rest, version, -, vacant, eq⟩ | ⟨-, eq⟩
  · rw [eq, get?_setSlot (by exact vacant)]
    by_cases same : index' = index
    · subst same
      have empty : arena.get? ⟨version', index'⟩ = none := get?_vacant vacant
      by_cases current : version + 1 = version'
      · simp [current]
      · simp [current, Ne.symm current, empty]
    · simp [same]
  · rw [eq, get?_push]
    by_cases same : index' = arena.slots.size + 1
    · subst same
      have beyond : arena.get? ⟨version', arena.slots.size + 1⟩ = none :=
        get?_beyond (Nat.lt_succ_self _)
      by_cases current : 1 = version'
      · simp [current]
      · simp [current, Ne.symm current, beyond]
    · simp [same]

theorem get?_insert_self (sound : arena.Sound) (value : α) :
    (arena.insert value).2.get? (arena.insert value).1 = some value := by
  rw [get?_insert sound, if_pos rfl]

theorem get?_insert_of_some (sound : arena.Sound) (value : α) {key : SlotKey} {old : α}
    (found : arena.get? key = some old) : (arena.insert value).2.get? key = some old := by
  rw [get?_insert sound, if_neg, found]
  rintro rfl
  rw [get?_insert_fresh sound] at found
  cases found

/-- What holds of all stored values and of a new one holds of all when it is stored. -/
theorem forall_insert (sound : arena.Sound) {P : α → Prop}
    (all : ∀ key old, arena.get? key = some old → P old) {value : α} (new : P value) :
    ∀ key old, (arena.insert value).2.get? key = some old → P old := by
  intro key old found
  rw [get?_insert sound] at found
  split at found
  · cases found
    exact new
  · exact all key old found

@[simp] theorem take_fst (arena : Arena α) (key : SlotKey) :
    (arena.take key).1 = arena.get? key := by
  unfold take
  split <;> simp [*]

/-- A key that finds a value names a slot of its version. -/
theorem slot?_of_get? {key : SlotKey} {value : α} (found : arena.get? key = some value) :
    arena.slot? key.index = some ⟨key.version, some value⟩ := by
  unfold get? at found
  split at found
  · rename_i slot present
    split at found
    · rename_i current
      rw [present, ← current, ← found]
    · cases found
  · cases found

theorem Sound.take (sound : arena.Sound) (key : SlotKey) : (arena.take key).2.Sound := by
  unfold Arena.take
  split
  · rename_i value found
    have present := slot?_of_get? found
    refine ⟨List.nodup_cons.mpr ⟨?_, sound.nodup⟩, ?_⟩
    · intro member
      obtain ⟨version, vacant⟩ := sound.vacant _ member
      rw [present] at vacant
      cases vacant
    · intro other member
      rw [slot?_setSlot (by exact present)]
      by_cases same : other = key.index
      · exact ⟨key.version + 1, if_pos same⟩
      · rw [if_neg same]
        rcases List.mem_cons.mp member with taken | old
        · exact absurd taken same
        · exact sound.vacant other old
  · exact sound

/-- Taking a value changes the arena at its key only. -/
theorem get?_take (arena : Arena α) (key other : SlotKey) :
    (arena.take key).2.get? other = if other = key then none else arena.get? other := by
  unfold Arena.take
  split
  · rename_i value found
    have present := slot?_of_get? found
    rw [get?_setSlot (by exact present)]
    by_cases same : other = key
    · subst same
      simp
    · by_cases index : other.index = key.index
      · have old : key.version ≠ other.version := by
          intro version
          apply same
          cases other
          cases key
          simp_all
        simp [same, index, get?, present, old]
      · simp [same, index]
  · rename_i missing
    by_cases same : other = key
    · simp [same, missing]
    · simp [same]

theorem forall_take {P : α → Prop} (all : ∀ key value, arena.get? key = some value → P value)
    (key : SlotKey) : ∀ other value, (arena.take key).2.get? other = some value → P value := by
  intro other value found
  rw [get?_take] at found
  split at found
  · cases found
  · exact all other value found

/-- The arena stores values under these keys and no others, under each key once. -/
structure Stores (arena : Arena α) (keys : List SlotKey) : Prop where
  sound : arena.Sound
  once : keys.Nodup
  live : ∀ key, (arena.get? key).isSome = true ↔ key ∈ keys

namespace Stores

variable {keys : List SlotKey}

theorem empty : (Arena.empty : Arena α).Stores [] where
  sound := sound_empty
  once := List.nodup_nil
  live key := by simp

/-- The order of the keys does not count. -/
theorem perm {keys' : List SlotKey} (stores : arena.Stores keys) (perm : keys.Perm keys') :
    arena.Stores keys' where
  sound := stores.sound
  once := perm.nodup_iff.mp stores.once
  live key := by rw [stores.live, perm.mem_iff]

theorem insert (stores : arena.Stores keys) (value : α) :
    (arena.insert value).2.Stores ((arena.insert value).1 :: keys) where
  sound := stores.sound.insert value
  once := by
    refine List.nodup_cons.mpr ⟨?_, stores.once⟩
    intro member
    have used := (stores.live _).mpr member
    rw [get?_insert_fresh stores.sound] at used
    cases used
  live key := by
    rw [get?_insert stores.sound, List.mem_cons, ← stores.live]
    split <;> simp [*]

/-- The value under a key is there to be taken, and is gone after that. -/
theorem take {key : SlotKey} (stores : arena.Stores (key :: keys)) :
    (arena.take key).1.isSome = true ∧ (arena.take key).2.Stores keys := by
  have once := List.nodup_cons.mp stores.once
  refine ⟨?_, stores.sound.take key, once.2, ?_⟩
  · rw [take_fst]
    exact (stores.live key).mpr List.mem_cons_self
  · intro other
    rw [get?_take]
    by_cases same : other = key
    · subst same
      simp [once.1]
    · rw [if_neg same, stores.live, List.mem_cons]
      simp [same]

end Stores

end EventLoop.Arena
