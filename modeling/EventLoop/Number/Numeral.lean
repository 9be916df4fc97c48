import EventLoop.Number.Parts
import EventLoop.Number.Shortest
import EventLoop.Number.Word
import EventLoop.Text.Blank

/-!
# Numerals

Reading numbers from text and writing them. Writing is always positional, never with an exponent.
A number is written in one of two ways: `plain`, the shortest decimal that reads back, and
`display`, the form that a script prints, which writes integral numbers below `10 ^ 21` as 64-bit
integers.
-/

namespace EventLoop.Number

/-- The number that a list of decimal digits stands for. -/
def ofDigits (digits : List Char) : Nat :=
  digits.foldl (fun n c => 10 * n + (c.toNat - '0'.toNat)) 0

/-- The number halfway between two neighbouring doubles has fewer significant digits than this. So
of the digits after that many it only matters whether they are all zeros. -/
def significantDigits : Nat :=
  800

/-- The double nearest to `n · 10 ^ scale`. -/
def nearest (n : Nat) (scale : Int) : Float :=
  Float.ofScientific n (decide (scale < 0)) scale.natAbs

/-- The double nearest to `whole.fraction · 10 ^ exponent`, where the first two are digits. One
digit stands in for a tail that is not zero. -/
def ofDecimal (whole fraction : List Char) (exponent : Int) : Float :=
  let digits := (whole ++ fraction).dropWhile (· == '0')
  let kept := ofDigits (digits.take significantDigits)
  let tail := digits.drop significantDigits
  let scale := exponent - fraction.length + tail.length
  if tail.all (· == '0') then nearest kept scale else nearest (10 * kept + 1) (scale - 1)

/-- Zeros in front do not change what digits stand for. -/
theorem ofDigits_dropWhile_zero (digits : List Char) :
    ofDigits (digits.dropWhile (· == '0')) = ofDigits digits := by
  induction digits with
  | nil => rfl
  | cons c rest ih =>
    by_cases h : c = '0'
    · subst h
      simpa [ofDigits] using ih
    · simp [h]

/-- With few digits, none is cut off. -/
theorem ofDecimal_of_length_le {whole fraction : List Char} {exponent : Int}
    (h : whole.length + fraction.length ≤ significantDigits) :
    ofDecimal whole fraction exponent =
      nearest (ofDigits (whole ++ fraction)) (exponent - fraction.length) := by
  have fits : ((whole ++ fraction).dropWhile (· == '0')).length ≤ significantDigits :=
    Nat.le_trans (List.dropWhile_sublist _).length_le (by simpa using h)
  simp [ofDecimal, List.take_of_length_le fits, List.drop_eq_nil_of_le fits,
    ofDigits_dropWhile_zero]

/-- The size of an exponent. Once it has reached `2 ^ 16`, the digits that follow do not count. -/
def exponentSize (digits : List Char) : Nat :=
  digits.foldl (fun n c => if n < 65536 then 10 * n + (c.toNat - '0'.toNat) else n) 0

/-- Reads the exponent of a numeral, up to the end of the text: nothing, or the letter `e`, an
optional sign and at least one digit. -/
def exponent? : List Char → Option Int
  | [] => some 0
  | e :: rest =>
    if e == 'e' || e == 'E' then
      let (negative, digits) := match rest with
        | '-' :: digits => (true, digits)
        | '+' :: digits => (false, digits)
        | digits => (false, digits)
      if !digits.isEmpty && digits.all Char.isDigit then
        some (if negative then -(exponentSize digits : Int) else exponentSize digits)
      else none
    else none

/-- Reads a numeral without a sign: digits with an optional point among them or at an end, and an
optional exponent, or one of the words for infinity and for no number, in any case. -/
def magnitude? (text : List Char) : Option Float :=
  let word := text.map Char.toLower
  if word = "inf".toList || word = "infinity".toList then some (1.0 / 0.0)
  else if word = "nan".toList then some notANumber
  else
    let whole := text.takeWhile Char.isDigit
    let (fraction, rest) := match text.dropWhile Char.isDigit with
      | '.' :: rest => (rest.takeWhile Char.isDigit, rest.dropWhile Char.isDigit)
      | rest => ([], rest)
    if whole.isEmpty && fraction.isEmpty then none
    else (exponent? rest).map (ofDecimal whole fraction)

/-- Reads a numeral with an optional sign. -/
def ofNumeral? : List Char → Option Float
  | '-' :: rest => (magnitude? rest).map (-·)
  | '+' :: rest => magnitude? rest
  | text => magnitude? text

/-- The number that a text stands for: blanks at its ends do not count, the empty text is zero, and
what is no numeral is no number. -/
def ofText (text : String) : Float :=
  match trimBlanks text.toList with
  | [] => 0.0
  | trimmed => (ofNumeral? trimmed).getD notANumber

/-- A decimal in positional notation, without needless zeros. -/
def Decimal.positional (d : Decimal) : List Char :=
  let digits := Nat.toDigits 10 d.digits
  if 0 ≤ d.exponent then digits ++ List.replicate d.exponent.toNat '0'
  else
    let places := (-d.exponent).toNat
    if places < digits.length then
      digits.take (digits.length - places) ++ '.' :: digits.drop (digits.length - places)
    else '0' :: '.' :: List.replicate (places - digits.length) '0' ++ digits

/-- The shortest decimal that reads back, in positional notation. -/
def plain (x : Float) : String :=
  match x.toModel.unpack with
  | .notANumber => "NaN"
  | .infinity .positive => "inf"
  | .infinity .negative => "-inf"
  | .zero .positive => "0"
  | .zero .negative => "-0"
  | .finite .positive m q _ => String.ofList (Dyadic.shortest ⟨m, q⟩).positional
  | .finite .negative m q _ => String.ofList ('-' :: (Dyadic.shortest ⟨m, q⟩).positional)

/-- How a script prints a number. An integral number below `10 ^ 21` is converted to the nearest
signed 64-bit integer first, so that both zeros are written alike. -/
def display (x : Float) : String :=
  if x.isNaN then "NaN"
  else if x.isInf then if 0.0 < x then "Infinity" else "-Infinity"
  else if isIntegral x && x.abs < 1e21 then
    toString (wholeWithin leastSignedWord greatestSignedWord x)
  else plain x

end EventLoop.Number
