import Mathlib.Data.List.Forall2
import Mathlib.Data.List.TakeDrop
import EventLoop.Json.Reading
import EventLoop.Json.Writing

/-!
# Written JSON is read back

What is written for a value, on one line or over several, is read as that value, whatever follows
it. This is so for all values whose numbers are written with digits alone and whose strings are
texts, so for all that this library writes.
-/

namespace EventLoop.Json

mutual

/-- Numbers are written with digits alone, and strings are texts. -/
def IsPlain : Json → Prop
  | .null | .bool _ | .natural _ | .text _ => True
  | .otherNumber _ | .unreadable => False
  | .array items => EachPlain items
  | .object members => MembersPlain members

def EachPlain : List Json → Prop
  | [] => True
  | item :: items => item.IsPlain ∧ EachPlain items

def MembersPlain : List (String × Json) → Prop
  | [] => True
  | (_, value) :: members => value.IsPlain ∧ MembersPlain members

end

theorem eachPlain_iff {items : List Json} : EachPlain items ↔ ∀ item ∈ items, item.IsPlain := by
  induction items with
  | nil => simp [EachPlain]
  | cons item items ih => simp [EachPlain, ih]

/-! ## Blanks -/

/-- Only blanks. -/
def Blank (cs : List Char) : Prop :=
  ∀ c ∈ cs, isSpace c = true

variable {gap cs rest : List Char} {c : Char} {bound : Nat}

theorem skipSpace_append (blank : Blank gap) (cs : List Char) :
    skipSpace (gap ++ cs) = skipSpace cs :=
  List.dropWhile_append_of_pos blank

theorem skipSpace_cons (visible : isSpace c = false) (cs : List Char) :
    skipSpace (c :: cs) = c :: cs :=
  List.dropWhile_cons_of_neg (by simp [visible])

theorem value_append (blank : Blank gap) (bound : Nat) (cs : List Char) :
    value bound (gap ++ cs) = value bound cs := by
  cases bound with
  | zero => rfl
  | succ bound => rw [value, value, skipSpace_append blank]

theorem items_append (blank : Blank gap) (bound : Nat) (cs : List Char) :
    items bound (gap ++ cs) = items bound cs := by
  cases bound with
  | zero => rfl
  | succ bound => rw [items, items, value_append blank]

theorem members_append (blank : Blank gap) (bound : Nat) (cs : List Char) :
    members bound (gap ++ cs) = members bound cs := by
  cases bound with
  | zero => rfl
  | succ bound => rw [members, members, skipSpace_append blank]

/-- Parts stand apart by blanks at most, and so do a name and its value, but for a colon. -/
structure Layout.Loose (layout : Layout) : Prop where
  gap : ∀ depth, Blank (layout.gap depth).toList
  colon : ∃ blanks, layout.colon.toList = ':' :: blanks ∧ Blank blanks

theorem Layout.compact_loose : Layout.compact.Loose where
  gap _ := by simp [Layout.compact, Blank]
  colon := ⟨[], rfl, by simp [Blank]⟩

theorem blank_lineBreak (depth : Nat) : Blank (lineBreak depth).toList := by
  have pushed (n : Nat) : Blank ("\n".pushn ' ' n).toList := by
    induction n with
    | zero => simp [Blank, String.pushn, Nat.repeat, isSpace]
    | succ n ih =>
      intro c member
      have member : c ∈ ("\n".pushn ' ' n).toList ++ [' '] := by
        simpa [String.pushn, Nat.repeat] using member
      rcases List.mem_append.mp member with before | last
      · exact ih c before
      · rw [List.mem_singleton.mp last]
        rfl
  exact pushed (2 * depth)

theorem Layout.indented_loose : Layout.indented.Loose where
  gap := blank_lineBreak
  colon := ⟨[' '], rfl, by simp [Blank, isSpace]⟩

/-! ## Strings -/

/-- The piece stands for the character. -/
inductive Piece.StandsFor : Piece → Char → Prop
  | char (c : Char) : StandsFor (.char c) c
  | unit (c : Char) : c.toNat < 0x20 → StandsFor (.unit c.toNat) c

theorem hexDigit?_digitChar : ∀ d < 16, hexDigit? (Nat.digitChar d) = some d := by
  decide

/-- What is written for a character is read as one piece. -/
theorem piecesFrom_escaped (before : List Piece) (c : Char) (rest : List Char) :
    ∃ piece : Piece, piece.StandsFor c ∧
      piecesFrom before (escaped c ++ rest) = piecesFrom (piece :: before) rest := by
  unfold escaped
  split
  · exact ⟨.char '\x22', .char _, by simp [piecesFrom, escapedChar?]⟩
  · exact ⟨.char '\\', .char _, by simp [piecesFrom, escapedChar?]⟩
  · exact ⟨.char '\x08', .char _, by simp [piecesFrom, escapedChar?]⟩
  · exact ⟨.char '\x0c', .char _, by simp [piecesFrom, escapedChar?]⟩
  · exact ⟨.char '\n', .char _, by simp [piecesFrom, escapedChar?]⟩
  · exact ⟨.char '\r', .char _, by simp [piecesFrom, escapedChar?]⟩
  · exact ⟨.char '\t', .char _, by simp [piecesFrom, escapedChar?]⟩
  · rename_i quote escape _ _ _ _ _
    by_cases low : c.toNat < 0x20
    · refine ⟨.unit c.toNat, .unit c low, ?_⟩
      have first := hexDigit?_digitChar (c.toNat / 16) (by omega)
      have second := hexDigit?_digitChar (c.toNat % 16) (by omega)
      have zero : hexDigit? '0' = some 0 := rfl
      have value : c.toNat / 16 * 16 + c.toNat % 16 = c.toNat := by omega
      simp [low, piecesFrom, codeUnit?, first, second, zero, value]
    · refine ⟨.char c, .char c, ?_⟩
      rw [if_neg low, List.singleton_append, piecesFrom.eq_def]
      split <;> rename_i same <;> cases same
      · exact absurd rfl quote
      · exact absurd rfl escape
      · exact absurd rfl escape
      · rw [if_neg low]

theorem piecesFrom_flatMap (cs : List Char) (before : List Piece) (rest : List Char) :
    ∃ pieces, List.Forall₂ Piece.StandsFor pieces cs ∧
      piecesFrom before (cs.flatMap escaped ++ '\x22' :: rest) =
        some (before.reverse ++ pieces, rest) := by
  induction cs generalizing before with
  | nil => exact ⟨[], .nil, by simp [piecesFrom]⟩
  | cons c cs ih =>
    obtain ⟨piece, stands, first⟩ :=
      piecesFrom_escaped before c (cs.flatMap escaped ++ '\x22' :: rest)
    obtain ⟨pieces, others, last⟩ := ih (piece :: before)
    refine ⟨piece :: pieces, .cons stands others, ?_⟩
    rw [List.flatMap_cons, List.append_assoc, first, last]
    simp

/-- Characters below the blank are no halves of surrogate pairs, so all pieces are characters of
their own. -/
theorem joinFrom_standsFor {pieces : List Piece}
    (stand : List.Forall₂ Piece.StandsFor pieces cs) (before : List Char) :
    joinFrom before pieces = some (String.ofList (before.reverse ++ cs)) := by
  induction stand generalizing before with
  | nil => simp [joinFrom]
  | @cons piece c pieces cs first _ ih =>
    have next := ih (c :: before)
    cases first with
    | char c => simpa [joinFrom] using next
    | unit c low =>
      have high : isHighHalf c.toNat = false := by simp [isHighHalf]; omega
      have second : isLowHalf c.toNat = false := by simp [isLowHalf]; omega
      rcases pieces with _ | ⟨_ | _, pieces⟩ <;>
        simpa [joinFrom, high, second, Char.ofNat_toNat] using next

theorem string_flatMap (content : String) (rest : List Char) :
    string (content.toList.flatMap escaped ++ '\x22' :: rest) = some (some content, rest) := by
  obtain ⟨pieces, stand, read⟩ := piecesFrom_flatMap content.toList [] rest
  simp [string, read, joinFrom_standsFor stand]

theorem toList_writeText (content : String) :
    (writeText content).toList = '\x22' :: (content.toList.flatMap escaped ++ ['\x22']) := by
  simp [writeText]

/-! ## Numbers -/

/-- A number ends before these characters. -/
def EndsNumber (rest : List Char) : Prop :=
  ∀ c ∈ rest.head?, c.isDigit = false ∧ c ≠ '.' ∧ c ≠ 'e' ∧ c ≠ 'E'

theorem endsNumber_nil : EndsNumber [] := by
  simp [EndsNumber]

theorem EndsNumber.append (ends : EndsNumber rest) (blank : Blank gap) :
    EndsNumber (gap ++ rest) := by
  cases gap with
  | nil => exact ends
  | cons c gap =>
    have space := blank c List.mem_cons_self
    simp only [isSpace, Bool.or_eq_true, beq_iff_eq] at space
    rcases space with ((rfl | rfl) | rfl) | rfl <;> simp [EndsNumber]

/-- Only the digits of zero begin with a zero. -/
theorem head?_toDigits {n : Nat} (positive : 0 < n) : (Nat.toDigits 10 n).head? ≠ some '0' := by
  have digit : ∀ d < 10, 0 < d → Nat.digitChar d ≠ '0' := by decide
  induction n using Nat.strongRecOn with
  | _ n ih =>
    by_cases small : n < 10
    · simpa [Nat.toDigits_of_lt_base small] using digit n small positive
    · have more : 0 < n / 10 := by omega
      rw [Nat.toDigits_of_base_le (by decide) (by omega), List.head?_append_of_ne_nil]
      · exact ih (n / 10) (by omega) more
      · exact Nat.toDigits_ne_nil

theorem number_toDigits (n : Nat) (ends : EndsNumber rest) :
    number (Nat.toDigits 10 n ++ rest) = some (.natural n, rest) := by
  have digits : ∀ c ∈ Nat.toDigits 10 n, c.isDigit = true := fun c member =>
    Nat.isDigit_of_mem_toDigits (by decide) (by decide) member
  have taken : someDigits (Nat.toDigits 10 n ++ rest) = some (Nat.toDigits 10 n, rest) := by
    have stops : rest.takeWhile Char.isDigit = [] ∧ rest.dropWhile Char.isDigit = rest := by
      cases rest with
      | nil => simp
      | cons c rest => simp [(ends c rfl).1]
    simp [someDigits, List.span_eq_takeWhile_dropWhile, List.takeWhile_append_of_pos digits,
      List.dropWhile_append_of_pos digits, stops, Nat.toDigits_ne_nil]
  have whole : wholePart (Nat.toDigits 10 n ++ rest) = some (Nat.toDigits 10 n, rest) := by
    have noZero : ¬ ((Nat.toDigits 10 n).head? = some '0' ∧ (Nat.toDigits 10 n).length ≠ 1) := by
      rintro ⟨zero, long⟩
      rcases Nat.eq_zero_or_pos n with rfl | positive
      · exact long rfl
      · exact head?_toDigits positive zero
    simp [wholePart, taken, noZero]
  have fraction : fractionPart rest = some ([], rest) := by
    unfold fractionPart
    split
    · exact absurd rfl (ends '.' rfl).2.1
    · rfl
  have exponent : exponentPart rest = some ([], rest) := by
    cases rest with
    | nil => rfl
    | cons c rest =>
      have plain := ends c rfl
      simp [exponentPart, plain.2.2.1, plain.2.2.2]
  have value : Number.ofDigits (Nat.toDigits 10 n) = n := Nat.ofDigitChars_ten_toDigits
  have unsigned : ∀ cs, Nat.toDigits 10 n ++ rest ≠ '-' :: cs := by
    intro cs same
    cases front : Nat.toDigits 10 n with
    | nil => exact Nat.toDigits_ne_nil front
    | cons d ds =>
      rw [front] at same digits
      cases same
      exact absurd (digits '-' List.mem_cons_self) (by decide)
  unfold number
  split
  rename_i sign cs split
  split at split
  · rename_i same
    exact absurd same (unsigned _)
  · cases split
    simp [whole, fraction, exponent, value]

/-! ## Values -/

theorem isSpace_digit (digit : c.isDigit = true) : isSpace c = false := by
  by_contra space
  simp only [isSpace, Bool.not_eq_false, Bool.or_eq_true, beq_iff_eq] at space
  rcases space with ((rfl | rfl) | rfl) | rfl <;> exact absurd digit (by decide)

theorem value_digit (digit : c.isDigit = true) (bound : Nat) (cs : List Char) :
    value (bound + 1) (c :: cs) = number (c :: cs) := by
  rw [value, skipSpace_cons (isSpace_digit digit)]
  split <;> rename_i same <;> first | rfl | (cases same; exact absurd digit (by decide))

theorem value_text (bound : Nat) (content : String) (rest : List Char) :
    value (bound + 1) ((writeText content).toList ++ rest) = some (.text content, rest) := by
  have read := string_flatMap content rest
  rw [toList_writeText, List.cons_append, List.append_assoc, List.singleton_append, value,
    skipSpace_cons rfl]
  simp [read]

/-- An array that is not empty has its items between two gaps. -/
theorem value_array (blank : Blank gap) (visible : isSpace c = false) (other : c ≠ ']')
    (bound : Nat) (cs : List Char) :
    value (bound + 1) ('[' :: (gap ++ c :: cs)) =
      (items bound (c :: cs)).map fun found => (.array found.1, found.2) := by
  rw [value, skipSpace_cons rfl]
  simp only [skipSpace_append blank, skipSpace_cons visible]
  split
  · rename_i same
    cases same
    exact absurd rfl other
  · cases items bound (c :: cs) <;> rfl

/-- An object that is not empty has its members between two gaps. -/
theorem value_object (blank : Blank gap) (bound : Nat) (cs : List Char) :
    value (bound + 1) ('\x7b' :: (gap ++ '\x22' :: cs)) =
      (members bound ('\x22' :: cs)).map fun found => (ofMembers found.1, found.2) := by
  rw [value, skipSpace_cons rfl]
  simp only [skipSpace_append blank, skipSpace_cons (show isSpace '\x22' = false from rfl)]
  split
  · rename_i same
    cases same
  · cases members bound ('\x22' :: cs) <;> rfl

/-- Members as they are read, when all their names are texts. -/
def named (all : List (String × Json)) : List (Option String × Json) :=
  all.map fun member => (some member.1, member.2)

theorem mapM_named {read : Option String × Json → Option (String × Json)}
    (known : ∀ name value, read (some name, value) = some (name, value))
    (all : List (String × Json)) : (named all).mapM read = some all := by
  induction all with
  | nil => rfl
  | cons member all ih =>
    have others : (all.map fun member => (some member.1, member.2)).mapM read = some all := ih
    simp [named, known, others]

theorem ofMembers_named (all : List (String × Json)) : ofMembers (named all) = .object all := by
  unfold ofMembers
  rw [mapM_named fun _ _ => rfl]

variable {layout : Layout} {depth : Nat}

/-- The items of an array as they are written, but for the gaps at both ends. -/
def itemsText (layout : Layout) (depth : Nat) (items : List Json) : List Char :=
  (',' :: (layout.gap depth).toList).intercalate ((writeItems layout depth items).map String.toList)

/-- The members of an object as they are written, but for the gaps at both ends. -/
def membersText (layout : Layout) (depth : Nat) (members : List (String × Json)) : List Char :=
  (',' :: (layout.gap depth).toList).intercalate
    ((writeMembers layout depth members).map String.toList)

theorem itemsText_cons (item next : Json) (items : List Json) :
    itemsText layout depth (item :: next :: items) =
      (writeAt layout depth item).toList ++
        ',' :: ((layout.gap depth).toList ++ itemsText layout depth (next :: items)) := by
  simp [itemsText, writeItems, List.intercalate_cons_cons]

theorem toList_natural (n : Nat) :
    (writeAt layout depth (.natural n)).toList = Nat.toDigits 10 n := by
  simp [writeAt, toString, Nat.repr]

theorem toList_array (item : Json) (items : List Json) :
    (writeAt layout depth (.array (item :: items))).toList =
      '[' :: ((layout.gap (depth + 1)).toList ++ (itemsText layout (depth + 1) (item :: items) ++
        ((layout.gap depth).toList ++ [']']))) := by
  simp [writeAt, spread, itemsText, String.toList_intercalate]

theorem toList_object (member : String × Json) (members : List (String × Json)) :
    (writeAt layout depth (.object (member :: members))).toList =
      '\x7b' :: ((layout.gap (depth + 1)).toList ++
        (membersText layout (depth + 1) (member :: members) ++
          ((layout.gap depth).toList ++ ['\x7d']))) := by
  simp [writeAt, spread, membersText, String.toList_intercalate]

theorem membersText_singleton (name : String) (value : Json) :
    membersText layout depth [(name, value)] =
      (writeText name).toList ++ (layout.colon.toList ++ (writeAt layout depth value).toList) := by
  simp [membersText, writeMembers]

theorem membersText_cons (name : String) (value : Json) (next : String × Json)
    (members : List (String × Json)) :
    membersText layout depth ((name, value) :: next :: members) =
      (writeText name).toList ++ (layout.colon.toList ++ ((writeAt layout depth value).toList ++
        ',' :: ((layout.gap depth).toList ++ membersText layout depth (next :: members)))) := by
  simp [membersText, writeMembers, List.intercalate_cons_cons]

/-- A value begins with a character that neither is a blank nor closes an array. -/
theorem front_writeAt (layout : Layout) (depth : Nat) {json : Json} (plain : json.IsPlain) :
    ∃ c cs, (writeAt layout depth json).toList = c :: cs ∧ isSpace c = false ∧ c ≠ ']' := by
  cases json with
  | null => exact ⟨'n', ['u', 'l', 'l'], by simp [writeAt], rfl, by decide⟩
  | bool b =>
    cases b with
    | false => exact ⟨'f', ['a', 'l', 's', 'e'], by simp [writeAt], rfl, by decide⟩
    | true => exact ⟨'t', ['r', 'u', 'e'], by simp [writeAt], rfl, by decide⟩
  | natural n =>
    rw [toList_natural]
    cases same : Nat.toDigits 10 n with
    | nil => exact absurd same Nat.toDigits_ne_nil
    | cons c cs =>
      have digit : c.isDigit = true :=
        Nat.isDigit_of_mem_toDigits (by decide) (by decide) (same ▸ List.mem_cons_self)
      exact ⟨c, cs, rfl, isSpace_digit digit, by rintro rfl; exact absurd digit (by decide)⟩
  | otherNumber written => exact plain.elim
  | text content => exact ⟨'\x22', _, by rw [writeAt, toList_writeText], rfl, by decide⟩
  | array items =>
    cases items with
    | nil => exact ⟨'[', [']'], by simp [writeAt], rfl, by decide⟩
    | cons item items => exact ⟨'[', _, toList_array item items, rfl, by decide⟩
  | object members =>
    cases members with
    | nil => exact ⟨'\x7b', ['\x7d'], by simp [writeAt], rfl, by decide⟩
    | cons member members => exact ⟨'\x7b', _, toList_object member members, rfl, by decide⟩
  | unreadable => exact plain.elim

theorem front_itemsText (layout : Layout) (depth : Nat) {item : Json} (plain : item.IsPlain)
    (items : List Json) :
    ∃ c cs, itemsText layout depth (item :: items) = c :: cs ∧ isSpace c = false ∧ c ≠ ']' := by
  obtain ⟨c, cs, front, visible, other⟩ := front_writeAt layout depth plain
  cases items with
  | nil => exact ⟨c, cs, by simpa [itemsText, writeItems] using front, visible, other⟩
  | cons next items => exact ⟨c, _, by rw [itemsText_cons, front]; rfl, visible, other⟩

theorem front_membersText (layout : Layout) (depth : Nat) (member : String × Json)
    (members : List (String × Json)) :
    ∃ cs, membersText layout depth (member :: members) = '\x22' :: cs := by
  obtain ⟨name, value⟩ := member
  cases members with
  | nil => exact ⟨_, by rw [membersText_singleton, toList_writeText]; rfl⟩
  | cons next members => exact ⟨_, by rw [membersText_cons, toList_writeText]; rfl⟩

theorem length_itemsText (layout : Layout) (depth : Nat) {item : Json} (plain : item.IsPlain)
    (items : List Json) :
    0 < (itemsText layout depth (item :: items)).length := by
  obtain ⟨c, cs, front, -⟩ := front_itemsText layout depth plain items
  simp [front]

theorem length_membersText (layout : Layout) (depth : Nat) (member : String × Json)
    (members : List (String × Json)) :
    1 < (membersText layout depth (member :: members)).length := by
  obtain ⟨name, value⟩ := member
  cases members with
  | nil =>
    simp only [membersText_singleton, toList_writeText, List.length_append, List.length_cons]
    omega
  | cons next members =>
    simp only [membersText_cons, toList_writeText, List.length_append, List.length_cons]
    omega

/-- The last member of an object. -/
theorem members_last (loose : layout.Loose) {bound : Nat} (name : String) {cs after : List Char}
    {json : Json} (read : value bound cs = some (json, after))
    (last : skipSpace after = '\x7d' :: rest) :
    members (bound + 1) ((writeText name).toList ++ (layout.colon.toList ++ cs)) =
      some ([(some name, json)], rest) := by
  obtain ⟨blanks, colon, blank⟩ := loose.colon
  have content := string_flatMap name (':' :: (blanks ++ cs))
  rw [toList_writeText, colon, List.cons_append, List.append_assoc, List.singleton_append, members,
    skipSpace_cons rfl]
  simp only [List.cons_append, content, Option.bind_eq_bind, Option.bind_some,
    skipSpace_cons (show isSpace ':' = false from rfl), value_append blank, read, last]

/-- A member of an object, and further ones. -/
theorem members_more (loose : layout.Loose) {bound : Nat} (name : String)
    {cs after more : List Char} {json : Json} {others : List (Option String × Json)}
    (read : value bound cs = some (json, after)) (comma : skipSpace after = ',' :: more)
    (next : members bound more = some (others, rest)) :
    members (bound + 1) ((writeText name).toList ++ (layout.colon.toList ++ cs)) =
      some ((some name, json) :: others, rest) := by
  obtain ⟨blanks, colon, blank⟩ := loose.colon
  have content := string_flatMap name (':' :: (blanks ++ cs))
  rw [toList_writeText, colon, List.cons_append, List.append_assoc, List.singleton_append, members,
    skipSpace_cons rfl]
  simp only [List.cons_append, content, Option.bind_eq_bind, Option.bind_some,
    skipSpace_cons (show isSpace ':' = false from rfl), value_append blank, read, comma, next]

section

variable (loose : layout.Loose)

include loose

mutual

/-- What is written for a value is read as that value. -/
theorem value_writeAt : (json : Json) → json.IsPlain → ∀ {depth bound : Nat} {rest : List Char},
    EndsNumber rest → 2 * (writeAt layout depth json).toList.length ≤ bound + 2 →
      value (bound + 1) ((writeAt layout depth json).toList ++ rest) = some (json, rest)
  | .null => by
    intro _ depth bound rest _ _
    rw [writeAt]
    rfl
  | .bool b => by
    intro _ depth bound rest _ _
    cases b <;> (rw [writeAt]; rfl)
  | .natural n => by
    intro _ depth bound rest ends _
    have read := number_toDigits n ends
    rw [toList_natural]
    cases same : Nat.toDigits 10 n with
    | nil => exact absurd same Nat.toDigits_ne_nil
    | cons c cs =>
      have digit : c.isDigit = true :=
        Nat.isDigit_of_mem_toDigits (by decide) (by decide) (same ▸ List.mem_cons_self)
      rw [same] at read
      rw [List.cons_append, value_digit digit]
      exact read
  | .otherNumber _ => fun plain => plain.elim
  | .text content => by
    intro _ depth bound rest _ _
    rw [writeAt]
    exact value_text bound content rest
  | .array items => by
    intro plain depth bound rest _ enough
    cases items with
    | nil =>
      rw [writeAt]
      rfl
    | cons item items =>
      obtain ⟨c, cs, front, visible, other⟩ := front_itemsText layout (depth + 1) plain.1 items
      rw [toList_array] at enough ⊢
      have filled := length_itemsText layout (depth + 1) plain.1 items
      simp only [List.length_cons, List.length_append] at enough
      obtain ⟨bound, rfl⟩ : ∃ b, bound = b + 1 := Nat.exists_eq_succ_of_ne_zero (by omega)
      have read : EventLoop.Json.items (bound + 1) (itemsText layout (depth + 1) (item :: items) ++
          ((layout.gap depth).toList ++ ']' :: rest)) = some (item :: items, rest) :=
        items_itemsText (item :: items) (List.cons_ne_nil _ _) plain (loose.gap depth) (by omega)
      rw [front] at read ⊢
      simp only [List.cons_append, List.append_assoc, List.nil_append] at read ⊢
      rw [value_array (loose.gap (depth + 1)) visible other, read]
      rfl
  | .object members => by
    intro plain depth bound rest _ enough
    cases members with
    | nil =>
      rw [writeAt]
      rfl
    | cons member members =>
      obtain ⟨cs, front⟩ := front_membersText layout (depth + 1) member members
      rw [toList_object] at enough ⊢
      have filled := length_membersText layout (depth + 1) member members
      simp only [List.length_cons, List.length_append] at enough
      obtain ⟨bound, rfl⟩ : ∃ b, bound = b + 1 := Nat.exists_eq_succ_of_ne_zero (by omega)
      have read : EventLoop.Json.members (bound + 1)
          (membersText layout (depth + 1) (member :: members) ++
            ((layout.gap depth).toList ++ '\x7d' :: rest)) =
          some (named (member :: members), rest) :=
        members_membersText (member :: members) (List.cons_ne_nil _ _) plain (loose.gap depth)
          (by omega)
      rw [front] at read ⊢
      simp only [List.cons_append, List.append_assoc, List.nil_append] at read ⊢
      rw [value_object (loose.gap (depth + 1)), read]
      simp only [Option.map_some, ofMembers_named]
  | .unreadable => fun plain => plain.elim

theorem items_itemsText : (all : List Json) → all ≠ [] → EachPlain all →
    ∀ {depth bound : Nat} {gap rest : List Char}, Blank gap →
      2 * (itemsText layout depth all).length ≤ bound + 1 →
      items (bound + 1) (itemsText layout depth all ++ (gap ++ ']' :: rest)) = some (all, rest)
  | [] => fun filled => absurd rfl filled
  | item :: others => by
    intro _ plain depth bound gap rest blank enough
    have filled := length_itemsText layout depth plain.1 others
    obtain ⟨bound, rfl⟩ : ∃ b, bound = b + 1 := Nat.exists_eq_succ_of_ne_zero (by omega)
    cases others with
    | nil =>
      have text : itemsText layout depth [item] = (writeAt layout depth item).toList := by
        simp [itemsText, writeItems]
      rw [text] at enough ⊢
      have ends : EndsNumber (gap ++ ']' :: rest) := .append (by simp [EndsNumber]) blank
      rw [items, value_writeAt item plain.1 ends (by omega)]
      simp only [Option.bind_eq_bind, Option.bind_some, skipSpace_append blank,
        skipSpace_cons (show isSpace ']' = false from rfl)]
    | cons next others =>
      rw [itemsText_cons] at enough ⊢
      simp only [List.length_cons, List.length_append] at enough
      have read : items (bound + 1) (itemsText layout depth (next :: others) ++
          (gap ++ ']' :: rest)) = some (next :: others, rest) :=
        items_itemsText (next :: others) (List.cons_ne_nil _ _) plain.2 blank (by omega)
      rw [List.append_assoc, List.cons_append, List.append_assoc, items,
        value_writeAt item plain.1 (by simp [EndsNumber]) (by omega)]
      simp only [Option.bind_eq_bind, Option.bind_some,
        skipSpace_cons (show isSpace ',' = false from rfl), items_append (loose.gap depth), read]

theorem members_membersText : (all : List (String × Json)) → all ≠ [] → MembersPlain all →
    ∀ {depth bound : Nat} {gap rest : List Char}, Blank gap →
      2 * (membersText layout depth all).length ≤ bound + 1 →
      members (bound + 1) (membersText layout depth all ++ (gap ++ '\x7d' :: rest)) =
        some (named all, rest)
  | [] => fun filled => absurd rfl filled
  | (name, json) :: others => by
    intro _ plain depth bound gap rest blank enough
    have filled := length_membersText layout depth (name, json) others
    obtain ⟨bound, rfl⟩ : ∃ b, bound = b + 1 := Nat.exists_eq_succ_of_ne_zero (by omega)
    cases others with
    | nil =>
      rw [membersText_singleton] at enough ⊢
      simp only [List.length_append] at enough
      have ends : EndsNumber (gap ++ '\x7d' :: rest) := .append (by simp [EndsNumber]) blank
      have read : value (bound + 1) ((writeAt layout depth json).toList ++ (gap ++ '\x7d' :: rest)) =
          some (json, gap ++ '\x7d' :: rest) :=
        value_writeAt json plain.1 ends (by omega)
      have last : skipSpace (gap ++ '\x7d' :: rest) = '\x7d' :: rest := by
        rw [skipSpace_append blank, skipSpace_cons rfl]
      rw [List.append_assoc, List.append_assoc]
      exact members_last loose name read last
    | cons next others =>
      rw [membersText_cons] at enough ⊢
      simp only [List.length_cons, List.length_append] at enough
      have following : members (bound + 1) ((layout.gap depth).toList ++
          (membersText layout depth (next :: others) ++ (gap ++ '\x7d' :: rest))) =
          some (named (next :: others), rest) := by
        rw [members_append (loose.gap depth)]
        exact members_membersText (next :: others) (List.cons_ne_nil _ _) plain.2 blank (by omega)
      simp only [List.append_assoc, List.cons_append]
      exact members_more loose name (value_writeAt json plain.1 (by simp [EndsNumber]) (by omega))
        (skipSpace_cons rfl _) following

end

/-- A document is read back from what is written for it. -/
theorem ofText?_writeAt {json : Json} (plain : json.IsPlain) :
    ofText? (writeAt layout 0 json) = some json := by
  have read : value (2 * (writeAt layout 0 json).toList.length + 1)
      ((writeAt layout 0 json).toList ++ []) = some (json, []) :=
    value_writeAt loose json plain endsNumber_nil (by omega)
  rw [List.append_nil] at read
  simp only [ofText?, read, Option.bind_eq_bind, Option.bind_some]
  rfl

end

theorem ofText?_compact {json : Json} (plain : json.IsPlain) :
    ofText? json.compact = some json :=
  ofText?_writeAt Layout.compact_loose plain

theorem ofText?_pretty {json : Json} (plain : json.IsPlain) :
    ofText? json.pretty = some json :=
  ofText?_writeAt Layout.indented_loose plain

end EventLoop.Json
