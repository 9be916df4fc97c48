/-!
# Arenas

An arena stores values in numbered slots and gives a key for each. A slot whose value was taken is
used again, the one freed last first, under a new version, so that an old key never finds the new
value. The version of a slot goes up by one whenever it is filled or emptied: it is odd while the
slot holds a value.
-/

namespace EventLoop

/-- Where a value is stored: the number of the slot, from one, and its version. -/
structure SlotKey where
  version : Nat
  index : Nat
deriving DecidableEq, Repr

namespace SlotKey

/-- How many slots a key can tell apart when it is written as one number. -/
def indexCount : Nat := Nat.pow 2 32

/-- The key as one number. -/
def code (key : SlotKey) : Nat :=
  key.version * indexCount + key.index

/-- The key that a number stands for. -/
def ofCode (n : Nat) : SlotKey :=
  ⟨n / indexCount, n % indexCount⟩

@[simp] theorem code_ofCode (n : Nat) : (ofCode n).code = n := by
  simp only [code, ofCode]
  exact Nat.div_add_mod' n indexCount

theorem ofCode_code {key : SlotKey} (h : key.index < indexCount) : ofCode key.code = key := by
  have : 0 < indexCount := by decide
  simp only [code, ofCode, Nat.mul_comm key.version, Nat.mul_add_div this, Nat.mul_add_mod,
    Nat.div_eq_of_lt h, Nat.mod_eq_of_lt h, Nat.add_zero]

end SlotKey

/-- A place for a value. -/
structure Slot (α : Type) where
  version : Nat
  value : Option α

/-- Slots, and the numbers of those that are free, the one freed last first. -/
structure Arena (α : Type) where
  slots : Array (Slot α)
  free : List Nat

namespace Arena

variable {α : Type}

/-- No slots. -/
def empty : Arena α :=
  ⟨#[], []⟩

/-- The slot with a number. -/
def slot? (arena : Arena α) (index : Nat) : Option (Slot α) :=
  if index = 0 then none else arena.slots[index - 1]?

/-- Replaces the slot with a number. -/
def setSlot (arena : Arena α) (index : Nat) (slot : Slot α) : Arena α :=
  { arena with slots := arena.slots.setIfInBounds (index - 1) slot }

/-- Stores a value in the slot freed last, or in a new one. -/
def insert (arena : Arena α) (value : α) : SlotKey × Arena α :=
  match arena.free with
  | index :: free =>
    let version := ((arena.slot? index).elim 0 Slot.version) + 1
    (⟨version, index⟩, { arena with free }.setSlot index ⟨version, some value⟩)
  | [] =>
    (⟨1, arena.slots.size + 1⟩, { arena with slots := arena.slots.push ⟨1, some value⟩ })

/-- The value stored under a key. -/
def get? (arena : Arena α) (key : SlotKey) : Option α :=
  match arena.slot? key.index with
  | some slot => if slot.version = key.version then slot.value else none
  | none => none

/-- Takes the value stored under a key out of the arena. -/
def take (arena : Arena α) (key : SlotKey) : Option α × Arena α :=
  match arena.get? key with
  | some value =>
    (some value,
      { arena with free := key.index :: arena.free }.setSlot key.index ⟨key.version + 1, none⟩)
  | none => (none, arena)

end Arena

end EventLoop
