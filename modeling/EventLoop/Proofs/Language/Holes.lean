import Mathlib.Data.List.TakeWhile
import EventLoop.Language.Lexing

/-!
# Where the code of a hole ends

Two scanners look at the code in a hole of a template literal: one looks for the closing brace, and
the other cuts what comes before it into tokens. The first one knows braces and text literals, but
neither comments nor template literals. So they agree on code in which comments and template literals
hold no quotes and each of these closes the braces that it opens; a quote in a comment can make the
first one miss the brace.
-/

namespace EventLoop

theorem map_eq_ok {ε α β : Type} {x : Except ε α} {f : α → β} {b : β} :
    x.map f = .ok b ↔ ∃ a, x = .ok a ∧ f a = b := by
  cases x with
  | error e => exact ⟨fun failed => (by cases failed), fun ⟨_, read, _⟩ => (by cases read)⟩
  | ok a => exact ⟨fun read => ⟨a, rfl, Except.ok.inj read⟩, fun ⟨_, same, read⟩ => by
      cases same
      exact congrArg Except.ok read⟩

/-- A computation of two steps succeeds if both do. -/
theorem bind_eq_ok {ε α β : Type} {x : Except ε α} {f : α → Except ε β} {b : β} :
    x >>= f = .ok b ↔ ∃ a, x = .ok a ∧ f a = .ok b := by
  cases x with
  | error e => exact ⟨fun failed => (by cases failed), fun ⟨_, read, _⟩ => (by cases read)⟩
  | ok a => exact ⟨fun read => ⟨a, rfl, read⟩, fun ⟨_, same, read⟩ => by cases same; exact read⟩

namespace Lexing

/-- The line after these characters, if they begin on the given line. -/
def linesAfter (cs : List Char) (line : Nat) : Nat :=
  cs.foldl (fun line c => lineAfter c line) line

@[simp] theorem linesAfter_nil (line : Nat) : linesAfter [] line = line := rfl

@[simp] theorem linesAfter_cons (c : Char) (cs : List Char) (line : Nat) :
    linesAfter (c :: cs) line = linesAfter cs (lineAfter c line) := rfl

theorem linesAfter_append (before after : List Char) (line : Nat) :
    linesAfter (before ++ after) line = linesAfter after (linesAfter before line) :=
  List.foldl_append

theorem lineAfter_of_ne {c : Char} (other : c ≠ '\n') (line : Nat) : lineAfter c line = line :=
  if_neg other

theorem linesAfter_of_notMem {cs : List Char} (none : '\n' ∉ cs) (line : Nat) :
    linesAfter cs line = line := by
  induction cs with
  | nil => rfl
  | cons c cs ih =>
    rw [List.mem_cons, not_or] at none
    rw [linesAfter_cons, lineAfter_of_ne (Ne.symm none.1), ih none.2]

/-- Is the character no quote and no brace? -/
def isPlain (c : Char) : Bool :=
  !isQuote c && c != '{' && c != '}'

/-- Passing over the part, the scanner of holes comes from one number of open braces to the
other. -/
def Crosses (part : List Char) (depth depth' : Nat) : Prop :=
  ∀ rest line, holeCode (part ++ rest) none depth line =
    (holeCode rest none depth' (linesAfter part line)).map (·.map (part ++ ·))

namespace Crosses

variable {part more : List Char} {depth depth' depth'' : Nat} {c : Char}

theorem nil (depth : Nat) : Crosses [] depth depth := by
  intro rest line
  rw [List.nil_append, linesAfter_nil]
  cases holeCode rest none depth line <;> rfl

theorem append (first : Crosses part depth depth') (second : Crosses more depth' depth'') :
    Crosses (part ++ more) depth depth'' := by
  intro rest line
  rw [List.append_assoc, first, second, linesAfter_append, Option.map_map]
  cases holeCode rest none depth'' (linesAfter more (linesAfter part line)) with
  | none => rfl
  | some s => simp [Scan.map]

/-- A character that neither opens nor closes anything. -/
theorem plain (plain : isPlain c = true) (depth : Nat) : Crosses [c] depth depth := by
  simp only [isPlain, Bool.and_eq_true, bne_iff_ne, Bool.not_eq_true'] at plain
  obtain ⟨⟨quote, opening⟩, closing⟩ := plain
  intro rest line
  rw [List.singleton_append, holeCode.eq_def]
  simp only [closing, opening, quote, if_false, Bool.false_eq_true]
  rfl

theorem opening (depth : Nat) : Crosses ['{'] depth (depth + 1) := fun _ _ => rfl

theorem closing (depth : Nat) : Crosses ['}'] (depth + 1) depth := fun _ _ => rfl

theorem all_plain (all : ∀ c ∈ part, isPlain c = true) (depth : Nat) :
    Crosses part depth depth := by
  induction part with
  | nil => exact .nil depth
  | cons c part ih =>
    rw [List.forall_mem_cons] at all
    exact (plain all.1 depth).append (ih all.2)

/-- After the part the brace is found that closes the hole. -/
theorem cut (crosses : Crosses part 0 0) (rest : List Char) (line : Nat) :
    holeCode (part ++ '}' :: rest) none 0 line = some ⟨part, rest, linesAfter part line⟩ := by
  rw [crosses]
  simp [holeCode, Scan.map]

end Crosses

/-- How many braces are open after these characters, if none of them is a quote and none closes a
brace that was not open. -/
def braceLevel : List Char → Nat → Option Nat
  | [], depth => some depth
  | c :: cs, depth =>
    if c = '}' then
      match depth with
      | 0 => none
      | depth + 1 => braceLevel cs depth
    else if c = '{' then braceLevel cs (depth + 1)
    else if isQuote c then none
    else braceLevel cs depth

/-- Characters without quotes whose braces match. -/
def Inert (part : List Char) : Prop :=
  braceLevel part 0 = some 0

theorem crosses_of_braceLevel {part : List Char} {depth depth' : Nat}
    (level : braceLevel part depth = some depth') (more : Nat) :
    Crosses part (depth + more) (depth' + more) := by
  fun_induction braceLevel part depth with
  | case1 depth =>
    cases level
    exact .nil _
  | case2 => cases level
  | case3 cs depth ih =>
    rw [Nat.succ_add]
    exact (Crosses.closing (depth + more)).append (ih level)
  | case4 cs depth _ ih =>
    have rest := ih level
    rw [Nat.add_right_comm] at rest
    exact (Crosses.opening (depth + more)).append rest
  | case5 => cases level
  | case6 c cs depth closing opening quote ih =>
    have plain : isPlain c = true := by simp [isPlain, closing, opening, quote]
    exact (Crosses.plain plain (depth + more)).append (ih level)

theorem Inert.crosses {part : List Char} (inert : Inert part) (depth : Nat) :
    Crosses part depth depth := by
  have crosses := crosses_of_braceLevel inert depth
  rwa [Nat.zero_add] at crosses

/-- How many braces are open after a token, if it does not close one that was not open. -/
def lexemeLevel : Lexeme → Nat → Option Nat
  | .mark .leftBrace, depth => some (depth + 1)
  | .mark .rightBrace, 0 => none
  | .mark .rightBrace, depth + 1 => some depth
  | _, depth => some depth

/-- How many braces are open after some tokens, if none of them closes one that was not open. -/
def levelAfter (tokens : List Token) (depth : Nat) : Option Nat :=
  tokens.foldlM (fun depth token => lexemeLevel token.lexeme depth) depth

/-- Passing over the part, which lies between quotes and ends with the closing one, the scanner of
holes comes out of the quotes. -/
def Closes (quote : Char) (part : List Char) : Prop :=
  ∀ rest depth line, holeCode (part ++ rest) (some quote) depth line =
    (holeCode rest none depth (linesAfter part line)).map (·.map (part ++ ·))

/-- A text literal opens and closes no braces. -/
theorem Crosses.quoted {quote : Char} {part : List Char} (quotes : isQuote quote = true)
    (closes : Closes quote part) (depth : Nat) : Crosses (quote :: part) depth depth := by
  have closing : quote ≠ '}' := by rintro rfl; exact absurd quotes (by decide)
  have opening : quote ≠ '{' := by rintro rfl; exact absurd quotes (by decide)
  intro rest line
  rw [List.cons_append, holeCode.eq_def]
  simp only [closing, opening, quotes, if_false, if_true]
  rw [closes, Option.map_map]
  rfl

/-- Text literals end at the same quote for both scanners. -/
theorem literal_part {quote : Char} (quotes : isQuote quote = true) {cs : List Char} {line : Nat}
    {s : Scan (List Char)} (read : literal quote cs line = some s) :
    ∃ part, cs = part ++ s.rest ∧ s.line = linesAfter part line ∧ Closes quote part := by
  have escape : quote ≠ '\\' := by rintro rfl; exact absurd quotes (by decide)
  have feed : quote ≠ '\n' := by rintro rfl; exact absurd quotes (by decide)
  fun_induction literal quote cs line generalizing s with
  | case1 => cases read
  | case2 cs line =>
    cases read
    refine ⟨[quote], rfl, (lineAfter_of_ne feed line).symm, fun rest depth line => ?_⟩
    rw [List.singleton_append, holeCode.eq_def]
    simp only [if_neg escape, if_true, linesAfter_cons, linesAfter_nil]
    rfl
  | case3 => cases read
  | case4 line d cs _ ih =>
    obtain ⟨t, inside, rfl⟩ := Option.map_eq_some_iff.mp read
    obtain ⟨part, split, lines, closes⟩ := ih inside
    refine ⟨'\\' :: d :: part, congrArg ('\\' :: d :: ·) split, lines, fun rest depth line => ?_⟩
    show (holeCode (part ++ rest) (some quote) depth (lineAfter d line)).map _ = _
    rw [closes, Option.map_map]
    rfl
  | case5 => cases read
  | case6 c cs line other escape' feed' ih =>
    obtain ⟨t, inside, rfl⟩ := Option.map_eq_some_iff.mp read
    obtain ⟨part, split, lines, closes⟩ := ih inside
    refine ⟨c :: part, congrArg (c :: ·) split, ?_, fun rest depth line => ?_⟩
    · rw [linesAfter_cons, lineAfter_of_ne feed']
      exact lines
    · rw [List.cons_append, holeCode.eq_def]
      simp only [if_neg escape', if_neg other]
      rw [closes, Option.map_map]
      rfl

/-- The code of a hole, the brace that closes it, and what follows. -/
theorem holeCode_part {cs : List Char} {quote : Option Char} {depth line : Nat}
    {s : Scan (List Char)} (read : holeCode cs quote depth line = some s) :
    ∃ part, cs = part ++ s.rest ∧ s.line = linesAfter part line := by
  fun_induction holeCode cs quote depth line generalizing s with
  | case1 => cases read
  | case2 => cases read
  | case3 _ _ _ d cs ih =>
    obtain ⟨t, inside, rfl⟩ := Option.map_eq_some_iff.mp read
    obtain ⟨part, split, lines⟩ := ih inside
    exact ⟨'\\' :: d :: part, congrArg ('\\' :: d :: ·) split, lines⟩
  | case4 c cs _ _ _ _ ih =>
    obtain ⟨t, inside, rfl⟩ := Option.map_eq_some_iff.mp read
    obtain ⟨part, split, lines⟩ := ih inside
    exact ⟨c :: part, congrArg (c :: ·) split, lines⟩
  | case5 =>
    cases read
    exact ⟨['}'], rfl, rfl⟩
  | case6 _ cs _ ih =>
    obtain ⟨t, inside, rfl⟩ := Option.map_eq_some_iff.mp read
    obtain ⟨part, split, lines⟩ := ih inside
    exact ⟨'}' :: part, congrArg ('}' :: ·) split, lines⟩
  | case7 c cs =>
    rename_i ih
    obtain ⟨t, inside, rfl⟩ := Option.map_eq_some_iff.mp read
    obtain ⟨part, split, lines⟩ := ih inside
    exact ⟨c :: part, congrArg (c :: ·) split, lines⟩

theorem afterBlockComment_part {cs : List Char} {line : Nat} {s : Scan Unit}
    (read : afterBlockComment cs line = some s) :
    ∃ part, cs = part ++ s.rest ∧ s.line = linesAfter part line := by
  fun_induction afterBlockComment cs line with
  | case1 cs line =>
    cases read
    exact ⟨['*', '/'], rfl, rfl⟩
  | case2 c cs line _ ih =>
    obtain ⟨part, split, lines⟩ := ih read
    exact ⟨c :: part, congrArg (c :: ·) split, lines⟩
  | case3 => cases read

theorem templateChunks_part {hole : Option HoleReader} {start line : Nat}
    {backwards cs : List Char} {s : Scan (List Chunk)}
    (read : templateChunks hole start backwards cs line = .ok s) :
    ∃ part, cs = part ++ s.rest ∧ s.line = linesAfter part line := by
  fun_induction templateChunks hole start backwards cs line generalizing s with
  | case1 => cases read
  | case2 =>
    cases read
    exact ⟨['\x60'], rfl, rfl⟩
  | case3 => cases read
  | case4 backwards line d cs _ ih =>
    obtain ⟨part, split, lines⟩ := ih read
    exact ⟨'\\' :: d :: part, congrArg ('\\' :: d :: ·) split, lines⟩
  | case5 => cases read
  | case6 => cases read
  | case7 backwards c cs line _ _ opens reader same code found ih =>
    subst same
    obtain ⟨rfl, brace⟩ := opens
    obtain ⟨tail, rfl⟩ : ∃ tail, cs = '{' :: tail := List.head?_eq_some_iff.mp brace
    obtain ⟨inside, split, lines⟩ := holeCode_part found
    obtain ⟨tokens, -, read⟩ := bind_eq_ok.mp read
    obtain ⟨after, scanned, read⟩ := bind_eq_ok.mp read
    obtain ⟨part, split', lines'⟩ := ih scanned
    cases read
    refine ⟨'$' :: '{' :: (inside ++ part), ?_, ?_⟩
    · rw [List.tail_cons, split'] at split
      rw [split, Scan.rest_map, List.cons_append, List.cons_append, List.append_assoc]
    · show after.line = linesAfter (inside ++ part) line
      rw [lines', lines, linesAfter_append]
  | case8 backwards c cs line _ _ _ ih =>
    obtain ⟨part, split, lines⟩ := ih read
    exact ⟨c :: part, congrArg (c :: ·) split, lines⟩

/-- Characters that have a property which quotes and braces do not have. -/
theorem isPlain_of {p : Char → Bool} (none : ['\x22', '\x27', '{', '}'].any p = false)
    {c : Char} (holds : p c = true) : isPlain c = true := by
  have other {x : Char} (member : x ∈ ['\x22', '\x27', '{', '}']) : c ≠ x := by
    rintro rfl
    exact List.any_eq_false.mp none c member holds
  have quote : isQuote c = false := by
    simp [isQuote, other (x := '\x22') (by decide), other (x := '\x27') (by decide)]
  simp [isPlain, quote, other (x := '{') (by decide), other (x := '}') (by decide)]

/-- The digits and underscores of a numeral, and its point. -/
theorem numeral_part (cs : List Char) :
    ∃ part, cs = part ++ (numeral cs).2 ∧ ∀ c ∈ part, isDigitOrGap c = true ∨ c = '.' := by
  have whole := (List.takeWhile_append_dropWhile (p := isDigitOrGap) (l := cs)).symm
  have digits : ∀ c ∈ cs.takeWhile isDigitOrGap, isDigitOrGap c = true ∨ c = '.' :=
    fun c member => .inl (List.mem_takeWhile_imp member)
  unfold numeral
  split
  · rename_i d rest left
    split
    · have fraction := (List.takeWhile_append_dropWhile (p := Char.isDigit) (l := d :: rest)).symm
      refine ⟨cs.takeWhile isDigitOrGap ++ '.' :: (d :: rest).takeWhile Char.isDigit, ?_, ?_⟩
      · rw [List.append_assoc, List.cons_append, ← fraction, ← left, ← whole]
      · intro c member
        rcases List.mem_append.mp member with before | after
        · exact digits c before
        · rcases List.mem_cons.mp after with point | after
          · exact .inr point
          · have digit := List.mem_takeWhile_imp after
            exact .inl (by simp [isDigitOrGap, digit])
    · exact ⟨cs.takeWhile isDigitOrGap, by rw [← left, ← whole], digits⟩
  · exact ⟨cs.takeWhile isDigitOrGap, whole, digits⟩

/-- A mark is read as it is spelled. -/
theorem markAt_part {c : Char} {cs rest : List Char} {m : Mark}
    (read : markAt c cs = some (m, rest)) : c :: cs = m.spelling.toList ++ rest := by
  unfold markAt at read
  split at read <;> cases read <;> rfl

theorem mark_crosses (m : Mark) {depth depth' : Nat}
    (level : lexemeLevel (.mark m) depth = some depth') :
    Crosses m.spelling.toList depth depth' := by
  cases m with
  | leftBrace =>
    cases level
    exact .opening depth
  | rightBrace =>
    cases depth with
    | zero => cases level
    | succ depth =>
      cases level
      exact .closing _
  | _ =>
    cases level
    exact .all_plain (List.all_eq_true.mp (by decide)) _

theorem linesAfter_spelling (m : Mark) (line : Nat) :
    linesAfter m.spelling.toList line = line :=
  linesAfter_of_notMem (by cases m <;> decide) line

/-- Characters of one line that open and close nothing. -/
theorem word_part {p : Char → Bool} (none : ['\n', '\x22', '\x27', '{', '}'].any p = false)
    {part : List Char} (all : ∀ c ∈ part, p c = true) :
    (∀ line, linesAfter part line = line) ∧ ∀ depth, Crosses part depth depth := by
  rw [List.any_cons, Bool.or_eq_false_iff] at none
  refine ⟨linesAfter_of_notMem fun feed => ?_, Crosses.all_plain fun c member => ?_⟩
  · exact Bool.false_ne_true (none.1.symm.trans (all '\n' feed))
  · exact isPlain_of none.2 (all c member)

/-- A comment or a template literal was read, which begins with this character. -/
def Opaque (c : Char) (read : Scan (Option Token)) : Prop :=
  c = '\x60' ∨ c = '/' ∧ read.value = none

theorem levelAfter_singleton (token : Token) (depth : Nat) :
    levelAfter [token] depth = lexemeLevel token.lexeme depth := by
  simp [levelAfter]

theorem levelAfter_append (before after : List Token) (depth : Nat) :
    levelAfter (before ++ after) depth = (levelAfter before depth).bind (levelAfter after) := by
  unfold levelAfter
  rw [List.foldlM_append]
  rfl

/-- What is read next is a part of the text, and the scanner of holes passes over it unless it is a
comment or a template literal. -/
theorem next_part {hole : Option HoleReader} {c : Char} {cs : List Char} {line : Nat}
    {s : Scan (Option Token)} (read : next hole c cs line = .ok s) :
    ∃ part, c :: cs = part ++ s.rest ∧ s.line = linesAfter part line ∧
      (¬ Opaque c s → ∀ depth depth', levelAfter s.value.toList depth = some depth' →
        Crosses part depth depth') := by
  have same {part : List Char} (crosses : ∀ depth, Crosses part depth depth) (depth depth' : Nat)
      (level : some depth = some depth') : Crosses part depth depth' := by
    cases level
    exact crosses depth
  unfold next at read
  split at read
  -- a blank
  · rename_i blank
    cases read
    refine ⟨[c], rfl, rfl, fun _ => same (.plain (isPlain_of (by decide) blank))⟩
  split at read
  -- a comment up to the end of the line
  · rename_i comment
    cases read
    obtain ⟨rfl, -⟩ := comment
    refine ⟨'/' :: cs.takeWhile (· != '\n'), ?_, ?_, fun clear => absurd (.inr ⟨rfl, rfl⟩) clear⟩
    · exact congrArg ('/' :: ·) List.takeWhile_append_dropWhile.symm
    · refine (linesAfter_of_notMem (fun feed => ?_) line).symm
      rcases List.mem_cons.mp feed with slash | feed
      · cases slash
      · exact absurd (List.mem_takeWhile_imp feed) (by decide)
  split at read
  -- a comment that is closed
  · rename_i comment
    obtain ⟨rfl, star⟩ := comment
    obtain ⟨tail, rfl⟩ : ∃ tail, cs = '*' :: tail := List.head?_eq_some_iff.mp star
    split at read
    · rename_i t found
      obtain ⟨part, split, lines⟩ := afterBlockComment_part found
      cases read
      exact ⟨'/' :: '*' :: part, congrArg ('/' :: '*' :: ·) split, lines,
        fun clear => absurd (.inr ⟨rfl, rfl⟩) clear⟩
    · cases read
  split at read
  -- a text literal
  · rename_i quotes
    split at read
    · rename_i t found
      obtain ⟨part, split, lines, closes⟩ := literal_part quotes found
      cases read
      refine ⟨c :: part, congrArg (c :: ·) split, ?_, fun _ => same (.quoted quotes closes)⟩
      rw [linesAfter_cons, lineAfter_of_ne (by rintro rfl; exact absurd quotes (by decide))]
      exact lines
    · cases read
  split at read
  -- a template literal
  · rename_i template
    subst template
    obtain ⟨t, found, rfl⟩ := map_eq_ok.mp read
    obtain ⟨part, split, lines⟩ := templateChunks_part found
    exact ⟨'\x60' :: part, congrArg ('\x60' :: ·) split, lines,
      fun clear => absurd (.inl rfl) clear⟩
  split at read
  -- a number
  · cases read
    obtain ⟨part, split, digits⟩ := numeral_part (c :: cs)
    obtain ⟨lines, crosses⟩ := word_part (p := fun c => isDigitOrGap c || c == '.') (by decide)
      fun c member => by simpa using digits c member
    exact ⟨part, split, (lines line).symm, fun _ => same crosses⟩
  split at read
  -- a word
  · rename_i start
    cases read
    have all : ∀ x ∈ c :: cs.takeWhile isNamePart, isNamePart x = true :=
      List.forall_mem_cons.mpr
        ⟨isNamePart_of_isNameStart start, fun x member => List.mem_takeWhile_imp member⟩
    obtain ⟨lines, crosses⟩ := word_part (by decide +kernel) all
    refine ⟨c :: cs.takeWhile isNamePart, ?_, (lines line).symm, fun _ => same crosses⟩
    exact congrArg (c :: ·) List.takeWhile_append_dropWhile.symm
  split at read
  -- a mark, which is the only thing that opens or closes anything
  · rename_i m rest found
    cases read
    refine ⟨m.spelling.toList, markAt_part found, (linesAfter_spelling m line).symm,
      fun _ depth depth' level => mark_crosses m ?_⟩
    exact (levelAfter_singleton _ depth).symm.trans level
  · cases read

theorem next_template (hole : Option HoleReader) (cs : List Char) (line : Nat) :
    next hole '\x60' cs line = (templateChunks hole line [] cs line).map
      (·.map (some <| .at line <| templateLexeme ·)) := by
  unfold next
  rw [if_neg (by decide), if_neg (by simp), if_neg (by simp), if_neg (by decide), if_pos rfl]

/-- Comments and template literals are no braces. -/
theorem Opaque.level {hole : Option HoleReader} {c : Char} {cs : List Char} {line : Nat}
    {s : Scan (Option Token)} (closed : Opaque c s) (read : next hole c cs line = .ok s)
    (depth : Nat) : levelAfter s.value.toList depth = some depth := by
  rcases closed with rfl | ⟨-, none⟩
  · rw [next_template] at read
    obtain ⟨t, -, rfl⟩ := map_eq_ok.mp read
    exact levelAfter_singleton _ depth
  · rw [none]
    rfl

theorem tokensFrom_nil (hole : Option HoleReader) (line : Nat) :
    tokensFrom hole [] line = .ok ⟨[], line⟩ := by
  rw [tokensFrom]

/-- The tokens of a text are what is read first and the tokens of the rest. -/
theorem tokensFrom_cons {hole : Option HoleReader} {c : Char} {cs : List Char} {line : Nat}
    {s : Scan (Option Token)} (read : next hole c cs line = .ok s) :
    tokensFrom hole (c :: cs) line =
      (tokensFrom hole s.rest s.line).map fun after =>
        { after with items := s.value.toList ++ after.items } := by
  rw [tokensFrom]
  split
  · rename_i e failed
    rw [read] at failed
    cases failed
  · rename_i t found
    cases read.symm.trans found
    cases s.value <;> cases tokensFrom hole s.rest s.line <;> rfl

theorem tokensFrom_error {hole : Option HoleReader} {c : Char} {cs : List Char} {line : Nat}
    {e : ScriptError} (failed : next hole c cs line = .error e) :
    tokensFrom hole (c :: cs) line = .error e := by
  rw [tokensFrom]
  split
  · rename_i failed'
    cases failed.symm.trans failed'
    rfl
  · rename_i found
    cases failed.symm.trans found

/-- A hole is a chunk: the tokens of its code. -/
theorem templateChunks_code {read : HoleReader} {start line : Nat} {backwards cs : List Char}
    {code : Scan (List Char)} (found : holeCode cs none 0 line = some code) :
    templateChunks (some read) start backwards ('$' :: '{' :: cs) line = (do
      let tokens ← read code.value line
      let after ← templateChunks (some read) start [] code.rest code.line
      return after.map fun chunks => textChunk backwards ++ .code tokens.items :: chunks) := by
  rw [templateChunks]
  simp only [List.head?_cons, List.tail_cons, and_self, if_true, if_false, Char.reduceEq]
  split
  · rename_i missed
    rw [found] at missed
    cases missed
  · rename_i found'
    cases found.symm.trans found'
    rfl

/-- A hole that is not closed is an open end of the template literal. -/
theorem templateChunks_open {read : HoleReader} {start line : Nat} {backwards cs : List Char}
    (missed : holeCode cs none 0 line = none) :
    templateChunks (some read) start backwards ('$' :: '{' :: cs) line =
      .error (.malformed start .unterminatedTemplate) := by
  rw [templateChunks]
  simp only [List.head?_cons, List.tail_cons, and_self, if_true, if_false, Char.reduceEq]
  split
  · rfl
  · rename_i found
    cases missed.symm.trans found

/-- A hole whose code the scanner of holes passes over is cut where the code ends. -/
theorem templateChunks_hole {read : HoleReader} {start line : Nat} {backwards code rest : List Char}
    (crosses : Crosses code 0 0) :
    templateChunks (some read) start backwards ('$' :: '{' :: (code ++ '}' :: rest)) line = (do
      let tokens ← read code line
      let after ← templateChunks (some read) start [] rest (linesAfter code line)
      return after.map fun chunks => textChunk backwards ++ .code tokens.items :: chunks) :=
  templateChunks_code (crosses.cut rest line)

/-- How the code of holes is read, where template literals may stand in so many more holes. -/
def reader : Nat → Option HoleReader
  | 0 => none
  | holes + 1 => some (tokensWithin holes)

theorem tokensWithin_eq (holes : Nat) : tokensWithin holes = tokensFrom (reader holes) := by
  cases holes <;> rfl

/-- The text can be cut into tokens so that every comment and template literal on the way is
inert. -/
inductive Clear (hole : Option HoleReader) : List Char → Nat → Prop
  | nil (line : Nat) : Clear hole [] line
  | cons {c : Char} {cs part : List Char} {line : Nat} {s : Scan (Option Token)} :
    next hole c cs line = .ok s → c :: cs = part ++ s.rest → (Opaque c s → Inert part) →
    Clear hole s.rest s.line → Clear hole (c :: cs) line

/-- The scanner of holes passes over a text as its braces tell that are tokens. -/
theorem Clear.crosses {hole : Option HoleReader} {cs : List Char} {line : Nat}
    (clear : Clear hole cs line) {tokens : Tokens} (read : tokensFrom hole cs line = .ok tokens)
    {depth depth' : Nat} (level : levelAfter tokens.items depth = some depth') :
    Crosses cs depth depth' ∧ tokens.endLine = linesAfter cs line := by
  induction clear generalizing tokens depth with
  | nil line =>
    rw [tokensFrom_nil] at read
    cases read
    cases level
    exact ⟨.nil _, rfl⟩
  | @cons c cs part line s found split inert _ ih =>
    rw [tokensFrom_cons found] at read
    obtain ⟨after, rest, rfl⟩ := map_eq_ok.mp read
    rw [levelAfter_append] at level
    obtain ⟨between, first, last⟩ := Option.bind_eq_some_iff.mp level
    obtain ⟨crosses, lines⟩ := ih rest last
    obtain ⟨part', split', lines', plain⟩ := next_part found
    obtain rfl : part = part' := List.append_cancel_right (split.symm.trans split')
    -- what is opaque is no brace, so the scanner must come out of it where it went in
    have passed : Crosses part depth between := by
      by_cases closed : Opaque c s
      · obtain rfl : depth = between := Option.some.inj ((closed.level found depth).symm.trans first)
        exact (inert closed).crosses depth
      · exact plain closed depth between first
    rw [split]
    exact ⟨passed.append crosses, by rw [linesAfter_append, ← lines', ← lines]⟩

/-- A template literal with one hole, which holds code in which each comment and each template
literal is inert and all braces match. It is one token, and its one chunk is the tokens of the
code. -/
theorem tokensWithin_hole {holes : Nat} {code : List Char} {tokens : Tokens}
    (read : tokensWithin holes code 1 = .ok tokens) (balanced : levelAfter tokens.items 0 = some 0)
    (clear : Clear (reader holes) code 1) :
    tokensWithin (holes + 1) ('\x60' :: '$' :: '{' :: (code ++ ['}', '\x60'])) 1 =
      .ok ⟨[.at 1 (.template [.code tokens.items])], tokens.endLine⟩ := by
  rw [tokensWithin_eq] at read
  obtain ⟨crosses, lines⟩ := clear.crosses read balanced
  rw [← tokensWithin_eq] at read
  have chunks : templateChunks (some (tokensWithin holes)) 1 []
      ('$' :: '{' :: (code ++ ['}', '\x60'])) 1 =
        .ok ⟨[.code tokens.items], [], tokens.endLine⟩ := by
    rw [templateChunks_hole crosses, read, ← lines]
    show (templateChunks (some (tokensWithin holes)) 1 [] ['\x60'] tokens.endLine >>= _) = _
    rw [templateChunks, if_pos rfl]
    rfl
  have found : next (reader (holes + 1)) '\x60' ('$' :: '{' :: (code ++ ['}', '\x60'])) 1 = _ :=
    next_template ..
  rw [show reader (holes + 1) = some (tokensWithin holes) from rfl, chunks] at found
  refine (tokensFrom_cons found).trans ?_
  show (tokensFrom _ [] tokens.endLine).map _ = _
  rw [tokensFrom_nil]
  rfl

end Lexing

open Lexing

/-- Code whose braces match, and in which each comment and each template literal holds no quotes and
closes the braces that it opens, can stand in a hole: the template literal is one token, and what is
in it are the tokens of the code, on the same lines. -/
theorem tokenize_hole {limit : Nat} {code : String} {tokens : Tokens}
    (read : tokenize limit code = .ok tokens) (balanced : levelAfter tokens.items 0 = some 0)
    (clear : Clear (reader limit) code.toList 1) :
    tokenize (limit + 1) ("\x60$\x7b" ++ code ++ "\x7d\x60") =
      .ok ⟨[.at 1 (.template [.code tokens.items])], tokens.endLine⟩ := by
  unfold tokenize at read ⊢
  rw [String.toList_append, String.toList_append]
  exact tokensWithin_hole read balanced clear

/-- A template literal inside a hole. -/
theorem tokenize_hole_template :
    tokenize 0 "\x60y\x60" = .ok ⟨[.at 1 (.template [.text "y"])], 1⟩ ∧
      tokenize 1 "\x60$\x7b\x60y\x60\x7d\x60" =
        .ok ⟨[.at 1 (.template [.code [.at 1 (.template [.text "y"])]])], 1⟩ := by
  have found : next none '\x60' ['y', '\x60'] 1 =
      .ok ⟨some (.at 1 (.template [.text "y"])), [], 1⟩ := by
    rw [next_template]
    simp [templateChunks]
    rfl
  have read : tokenize 0 "\x60y\x60" = .ok ⟨[.at 1 (.template [.text "y"])], 1⟩ := by
    refine (tokensFrom_cons found).trans ?_
    rw [tokensFrom_nil]
    rfl
  have whole : '\x60' :: ['y', '\x60'] = ['\x60', 'y', '\x60'] ++ [] := rfl
  have clear : Clear (reader 0) "\x60y\x60".toList 1 := .cons found whole (fun _ => rfl) (.nil 1)
  exact ⟨read, tokenize_hole read rfl clear⟩

/-- A quote in a comment makes the scanner of holes miss the end of the hole. -/
theorem hole_missed :
    (∃ tokens, tokenize 0 "/* \x27 */ 1" = .ok tokens ∧ levelAfter tokens.items 0 = some 0) ∧
      ∃ e, tokenize 1 "\x60$\x7b/* \x27 */ 1\x7d\x60" = .error e := by
  have read : (tokenize 0 "/* \x27 */ 1").toOption.map (fun tokens => levelAfter tokens.items 0) =
      some (some 0) := by decide +kernel
  have missed : (tokenize 1 "\x60$\x7b/* \x27 */ 1\x7d\x60").toOption.isNone = true := by
    decide +kernel
  constructor
  · cases found : tokenize 0 "/* \x27 */ 1" with
    | error e =>
      rw [found] at read
      cases read
    | ok tokens =>
      rw [found] at read
      exact ⟨tokens, rfl, Option.some.inj read⟩
  · cases found : tokenize 1 "\x60$\x7b/* \x27 */ 1\x7d\x60" with
    | error e => exact ⟨e, rfl⟩
    | ok tokens =>
      rw [found] at missed
      cases missed

end EventLoop
