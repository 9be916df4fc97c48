import EventLoop.Proofs.Language.LineBreaks
import EventLoop.Proofs.Language.Relexing

/-!
# Cutting a line piece by piece

The lexemes that characters on one line begin with, and the characters that are left. A word or a
number ends before a character that cannot go on with it; other lexemes end by themselves.
-/

namespace EventLoop

namespace Lexing

variable {hole : Option HoleReader} {line : Nat} {cs middle rest : List Char}
  {lexemes others : List Lexeme}

/-- These lexemes are cut off the characters on this line, and those of the rest come after them. -/
def Cuts (hole : Option HoleReader) (line : Nat) (cs : List Char) (lexemes : List Lexeme)
    (rest : List Char) : Prop :=
  tokensFrom hole cs line =
    (tokensFrom hole rest line).map (Tokens.append ⟨lexemes.map (.at line), line⟩)

/-- Does the character stand for itself between single quotes? -/
def isUnescaped (c : Char) : Bool :=
  c != '\x27' && c != '\\' && c != '\n'

theorem literal_unescaped {content : List Char} (plain : content.all isUnescaped = true)
    (rest : List Char) (line : Nat) :
    literal '\x27' (content ++ '\x27' :: rest) line = some ⟨content, rest, line⟩ := by
  induction content with
  | nil =>
    rw [List.nil_append, literal.eq_def]
    simp
  | cons c content ih =>
    simp only [List.all_cons, isUnescaped, Bool.and_eq_true, bne_iff_ne] at plain
    obtain ⟨⟨⟨quote, escape⟩, feed⟩, others⟩ := plain
    rw [List.cons_append, literal.eq_def]
    simp [quote, escape, feed, ih others, Scan.map]

theorem isUnescaped_digit {c : Char} (digit : c.isDigit = true) : isUnescaped c = true := by
  have other {x : Char} (none : x.isDigit = false) : c ≠ x := by
    rintro rfl
    exact Bool.false_ne_true (none.symm.trans digit)
  have quote : c ≠ '\x27' := other (by decide)
  have escape : c ≠ '\\' := other (by decide)
  have feed : c ≠ '\n' := other (by decide)
  simp [isUnescaped, quote, escape, feed]

theorem toList_toString (n : Nat) : (toString n).toList = Nat.toDigits 10 n := by
  simp [toString, Nat.repr]

namespace Cuts

theorem refl (cs : List Char) : Cuts hole line cs [] cs := by
  unfold Cuts
  cases tokensFrom hole cs line <;> rfl

theorem trans (first : Cuts hole line cs lexemes middle)
    (second : Cuts hole line middle others rest) :
    Cuts hole line cs (lexemes ++ others) rest := by
  unfold Cuts at *
  rw [first, second]
  cases tokensFrom hole rest line with
  | error e => rfl
  | ok after => simp [Except.map, Tokens.append]

/-- What is read next is cut off. -/
theorem next {c : Char} (first : Option Lexeme)
    (read : Lexing.next hole c cs line = .ok ⟨first.map (.at line), middle, line⟩)
    (second : Cuts hole line middle lexemes rest) :
    Cuts hole line (c :: cs) (first.toList ++ lexemes) rest := by
  refine trans ?_ second
  unfold Cuts
  rw [tokensFrom_cons read]
  cases tokensFrom hole middle line with
  | error e => rfl
  | ok after => cases first <;> rfl

/-- A word ends before a character that is no part of words. -/
theorem word {word : String} {stop : Char} (form : isWord word = true)
    (ends : isNamePart stop = false) (second : Cuts hole line (stop :: middle) lexemes rest) :
    Cuts hole line (word.toList ++ stop :: middle) (.name word :: lexemes) rest := by
  unfold isWord at form
  split at form
  · cases form
  · rename_i c cs same
    rw [Bool.and_eq_true, List.all_eq_true] at form
    have read : Lexing.next hole c (cs ++ stop :: middle) line = _ :=
      next_name form.1 form.2 ends line
    rw [← same, String.ofList_toList] at read
    rw [same]
    exact next (some (.name word)) read second

/-- A mark of one character with which no comment begins. -/
theorem mark {c : Char} (m : Mark) (single : (startsMark c && c != '/') = true)
    (read : markAt c cs = some (m, cs)) (second : Cuts hole line cs lexemes rest) :
    Cuts hole line (c :: cs) (.mark m :: lexemes) rest := by
  rw [Bool.and_eq_true, bne_iff_ne] at single
  refine next (some (.mark m)) ?_ second
  exact next_mark single.1 (fun slash => absurd slash single.2) read line

theorem arrow (second : Cuts hole line cs lexemes rest) :
    Cuts hole line ('=' :: '>' :: cs) (.mark .arrow :: lexemes) rest := by
  refine next (some (.mark .arrow)) ?_ second
  exact next_mark (by decide +kernel) (fun same => absurd same (by decide)) rfl line

theorem blank (second : Cuts hole line cs lexemes rest) :
    Cuts hole line (' ' :: cs) lexemes rest :=
  next none (next_blank cs line) second

theorem text {content : String} (plain : content.toList.all isUnescaped = true)
    (second : Cuts hole line cs lexemes rest) :
    Cuts hole line ('\x27' :: (content.toList ++ '\x27' :: cs)) (.text content :: lexemes)
      rest := by
  refine next (some (.text content)) ?_ second
  unfold Lexing.next
  rw [if_neg (by decide), if_neg (by simp), if_neg (by simp), if_pos (by decide),
    literal_unescaped plain]
  simp

/-- A whole number ends before a character that goes on with no number. -/
theorem number {n : Nat} {stop : Char} (small : n < 2 ^ 53) (ends : isDigitOrGap stop = false)
    (point : stop ≠ '.') (second : Cuts hole line (stop :: cs) lexemes rest) :
    Cuts hole line ((toString n).toList ++ stop :: cs) (.number (Float.ofNat n) :: lexemes)
      rest := by
  have all : ∀ c ∈ Nat.toDigits 10 n, c.isDigit = true := fun c member =>
    Nat.isDigit_of_mem_toDigits (by decide) (by decide) member
  have value := Number.ofDecimal_toDigits (small.trans (by decide +kernel))
  rw [toList_toString]
  cases same : Nat.toDigits 10 n with
  | nil => exact absurd same Nat.toDigits_ne_nil
  | cons c digits =>
    rw [same] at all value
    refine next (some (.number (Float.ofNat n))) ?_ second
    exact (next_number all ends point line).trans (by rw [value]; rfl)

end Cuts

end Lexing

end EventLoop
