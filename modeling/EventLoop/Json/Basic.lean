import EventLoop.Number.Word

/-!
# JSON values

A value as a document holds it: the members of an object keep their order, and a name may occur
twice. Records are read from an object or from the array of their fields. A reading fails as a whole
and says no more than that.
-/

namespace EventLoop

/-- A JSON value. -/
inductive Json where
  | null
  | bool (b : Bool)
  /-- A number written with digits alone. -/
  | natural (n : Nat)
  /-- A number written with a sign, a fraction or an exponent. -/
  | otherNumber (written : String)
  | text (content : String)
  | array (items : List Json)
  | object (members : List (String × Json))
  /-- A string that is no text, since it holds half of a surrogate pair, or an object with such a
  string as a name. -/
  | unreadable
deriving Inhabited

namespace Json

/-- A natural number that fits a machine word. -/
def word? : Json → Option Nat
  | natural n => if n < Number.wordCount then some n else none
  | _ => none

def bool? : Json → Option Bool
  | bool b => some b
  | _ => none

def text? : Json → Option String
  | text content => some content
  | _ => none

/-- A value that may be null instead. -/
def nullable? {α : Type} (read : Json → Option α) : Json → Option (Option α)
  | null => some none
  | json => (read json).map some

/-- A list of values of one kind. -/
def list? {α : Type} (read : Json → Option α) : Json → Option (List α)
  | array items => items.mapM read
  | _ => none

/-- One of several words: as a text, or as the name of the only member of an object, with the value
null. -/
def oneOf? {α : Type} (read : String → Option α) : Json → Option α
  | text word => read word
  | object [(word, null)] => read word
  | _ => none

/-- The value of a member, if it is there. A name that occurs twice is a failure. -/
def member? (name : String) (members : List (String × Json)) : Option (Option Json) :=
  match members.filter fun member => member.1 = name with
  | [] => some none
  | [(_, value)] => some (some value)
  | _ => none

/-- The fields of a record, in the order of their names: from an object, which may lack some and
have others, or from an array of the first fields, at least `least` of them. -/
def fields? (names : List String) (least : Nat) : Json → Option (List (Option Json))
  | object members => names.mapM fun name => member? name members
  | array items =>
    if least ≤ items.length ∧ items.length ≤ names.length then
      some (items.map some ++ List.replicate (names.length - items.length) none)
    else none
  | _ => none

/-- The value written for something that may be absent. -/
def ofOption {α : Type} (write : α → Json) : Option α → Json
  | some a => write a
  | none => null

/-- The array of some values. -/
def ofList {α : Type} (write : α → Json) (items : List α) : Json :=
  array (items.map write)

theorem word?_natural {n : Nat} (h : n < Number.wordCount) : (natural n).word? = some n := by
  simp [word?, h]

theorem list?_ofList {α : Type} {read : Json → Option α} {write : α → Json} {items : List α}
    (h : ∀ a ∈ items, read (write a) = some a) : list? read (ofList write items) = some items := by
  simp only [list?, ofList]
  induction items with
  | nil => rfl
  | cons a items ih =>
    have ih := ih fun b hb => h b (List.mem_cons_of_mem a hb)
    simp [h a List.mem_cons_self, ih]

end Json

end EventLoop
