import EventLoop.Proofs.Language.Cursor

/-!
# A cursor follows a list

Wherever a cursor is on a token, the tokens from there on are a list. A parser with a cursor follows
one that takes tokens off this list if both reject the script for the same reason, or both read the
same and the cursor comes to where the rest of the list begins. Parsers follow one another if their
parts do, and here this is shown of all that single tokens are read with.
-/

namespace EventLoop

/-- The tokens from a place on. -/
def Tokens.suffix (tokens : Tokens) (pos : Nat) : Tokens :=
  { tokens with items := tokens.items.drop pos }

theorem Tokens.lexemeAt_lt {tokens : Tokens} {pos : Nat} {lexeme : Lexeme}
    (here : tokens.lexemeAt pos = some lexeme) : pos < tokens.items.length := by
  obtain ⟨token, found, -⟩ := Option.map_eq_some_iff.mp here
  exact (List.getElem?_eq_some_iff.mp found).1

namespace Cursor

/-- With the cursor here, the first parser rejects the script, for the same reason as the second
does the tokens from here on. -/
def Rejects {α β : Type} (tokens : Tokens) (pos : Nat) (p : CursorParser α) (q : Parser β) : Prop :=
  pos ≤ tokens.items.length →
    ∃ e, (p.run tokens).run pos = .error (.rejected e) ∧ q.run (tokens.suffix pos) = .error e

/-- With the cursor here, the first parser rejects the script for the same reason as the second does
the tokens from here on, or both read the same and go on at the same place, and then the property
holds. -/
def Follows {α : Type} (tokens : Tokens) (pos : Nat) (p : CursorParser α) (q : Parser α)
    (holds : α → Nat → Prop) : Prop :=
  pos ≤ tokens.items.length →
    (∃ e, (p.run tokens).run pos = .error (.rejected e) ∧
      q.run (tokens.suffix pos) = .error e) ∨
    ∃ a pos', (p.run tokens).run pos = .ok (a, pos') ∧
      q.run (tokens.suffix pos) = .ok (a, tokens.suffix pos') ∧
      pos' ≤ tokens.items.length ∧ holds a pos'

/-- The same, for something that takes at least one token. -/
abbrev Moves {α : Type} (tokens : Tokens) (pos : Nat) (p : CursorParser α) (q : Parser α) : Prop :=
  Follows tokens pos p q fun _ pos' => pos < pos'

/-- The same, for something that may be empty. -/
abbrev Stays {α : Type} (tokens : Tokens) (pos : Nat) (p : CursorParser α) (q : Parser α) : Prop :=
  Follows tokens pos p q fun _ pos' => pos ≤ pos'

variable {α β γ : Type} {tokens : Tokens} {pos : Nat}

theorem isMark_iff {m : Mark} {next : Option Lexeme} :
    Parsing.isMark m next = true ↔ next = some (.mark m) := by
  unfold Parsing.isMark
  split
  · rw [beq_iff_eq, Option.some.injEq, Lexeme.mark.injEq, eq_comm]
  · rename_i other
    exact iff_of_false Bool.false_ne_true (other m)

theorem spells_iff {word : String} {next : Option Lexeme} :
    spells word next = true ↔ next = some (.name word) := by
  unfold spells
  split
  · rw [decide_eq_true_iff, Option.some.injEq, Lexeme.name.injEq]
  · rename_i other
    exact iff_of_false Bool.false_ne_true (other word)

theorem run_bind_ok {x : CursorParser α} {f : α → CursorParser β} {a : α} {pos' : Nat}
    (run : (x.run tokens).run pos = .ok (a, pos')) :
    ((x >>= f).run tokens).run pos = ((f a).run tokens).run pos' := by
  rw [ReaderT.run_bind, StateT.run_bind, run]
  rfl

theorem parser_bind_ok {y : Parser α} {g : α → Parser β} {a : α} {before after : Tokens}
    (run : y.run before = .ok (a, after)) : (y >>= g).run before = (g a).run after := by
  rw [StateT.run_bind, run]
  rfl

theorem run_onToken {p : CursorParser α} (within : pos ≤ tokens.items.length) :
    ((onToken p).run tokens).run pos = (p.run tokens).run pos := by
  show ((if tokens.items.length < pos then slip .pastEnd else p : CursorParser α).run
    tokens).run pos = _
  rw [if_neg (Nat.not_lt.mpr within)]

namespace Rejects

variable {p : CursorParser α} {q : Parser β}

theorem follows {q : Parser α} {holds : α → Nat → Prop} (rejects : Rejects tokens pos p q) :
    Follows tokens pos p q holds :=
  fun within => .inl (rejects within)

/-- What the first parser would do next does not matter. -/
theorem bind_left (rejects : Rejects tokens pos p q) (f : α → CursorParser γ) :
    Rejects tokens pos (p >>= f) q := by
  intro within
  obtain ⟨e, run, run'⟩ := rejects within
  refine ⟨e, ?_, run'⟩
  rw [ReaderT.run_bind, StateT.run_bind, run]
  rfl

/-- What the second parser would do next does not matter. -/
theorem bind_right (rejects : Rejects tokens pos p q) (g : β → Parser γ) :
    Rejects tokens pos p (q >>= g) := by
  intro within
  obtain ⟨e, run, run'⟩ := rejects within
  refine ⟨e, run, ?_⟩
  rw [StateT.run_bind, run']
  rfl

theorem left {x : CursorParser γ} {c : γ} {f : γ → CursorParser α}
    (run : pos ≤ tokens.items.length → (x.run tokens).run pos = .ok (c, pos))
    (rest : Rejects tokens pos (f c) q) : Rejects tokens pos (x >>= f) q := by
  intro within
  rw [run_bind_ok (run within)]
  exact rest within

theorem right {y : Parser γ} {c : γ} {g : γ → Parser β}
    (run : y.run (tokens.suffix pos) = .ok (c, tokens.suffix pos))
    (rest : Rejects tokens pos p (g c)) : Rejects tokens pos p (y >>= g) := by
  intro within
  rw [parser_bind_ok run]
  exact rest within

theorem onToken (rejects : Rejects tokens pos p q) :
    Rejects tokens pos (Cursor.onToken p) q := by
  intro within
  rw [run_onToken within]
  exact rejects within

end Rejects

namespace Follows

variable {p : CursorParser α} {q : Parser α} {holds : α → Nat → Prop}

theorem pure {a : α} (h : holds a pos) : Follows tokens pos (Pure.pure a) (Pure.pure a) holds :=
  fun within => .inr ⟨a, pos, rfl, rfl, within, h⟩

theorem bind {f : α → CursorParser β} {g : α → Parser β} {holds' : β → Nat → Prop}
    (first : Follows tokens pos p q holds)
    (second : ∀ a pos', holds a pos' → Follows tokens pos' (f a) (g a) holds') :
    Follows tokens pos (p >>= f) (q >>= g) holds' := by
  intro within
  rcases first within with ⟨e, run, run'⟩ | ⟨a, pos', run, run', within', h⟩
  · refine .inl ⟨e, ?_, ?_⟩
    · rw [ReaderT.run_bind, StateT.run_bind, run]
      rfl
    · rw [StateT.run_bind, run']
      rfl
  · rw [run_bind_ok run, parser_bind_ok run']
    exact second a pos' h within'

theorem mono {holds' : α → Nat → Prop} (first : Follows tokens pos p q holds)
    (weaker : ∀ a pos', holds a pos' → holds' a pos') : Follows tokens pos p q holds' := by
  intro within
  rcases first within with failed | ⟨a, pos', run, run', within', h⟩
  · exact .inl failed
  · exact .inr ⟨a, pos', run, run', within', weaker a pos' h⟩

/-- The first parser looks at something and leaves the cursor where it is. -/
theorem left {x : CursorParser β} {b : β} {f : β → CursorParser α}
    (run : pos ≤ tokens.items.length → (x.run tokens).run pos = .ok (b, pos))
    (rest : Follows tokens pos (f b) q holds) : Follows tokens pos (x >>= f) q holds := by
  intro within
  rw [run_bind_ok (run within)]
  exact rest within

/-- The second parser looks at something and takes nothing. -/
theorem right {y : Parser β} {b : β} {g : β → Parser α}
    (run : y.run (tokens.suffix pos) = .ok (b, tokens.suffix pos))
    (rest : Follows tokens pos p (g b) holds) : Follows tokens pos p (y >>= g) holds := by
  intro within
  rw [parser_bind_ok run]
  exact rest within

/-- A parser that begins has its cursor on a token. -/
theorem beginning (first : pos ≤ tokens.items.length → Follows tokens pos p q holds) :
    Follows tokens pos p q holds :=
  fun within => first within within

theorem onToken (first : Follows tokens pos p q holds) :
    Follows tokens pos (Cursor.onToken p) q holds := by
  intro within
  rw [run_onToken within]
  exact first within

end Follows

theorem Moves.map {p : CursorParser α} {q : Parser α} (moves : Moves tokens pos p q) (f : α → β) :
    Moves tokens pos (f <$> p) (f <$> q) := by
  rw [map_eq_pure_bind, map_eq_pure_bind]
  exact moves.bind fun _ _ moved => .pure moved

/-! ## Single tokens -/

theorem run_get : ((get : CursorParser Nat).run tokens).run pos = .ok (pos, pos) := rfl

theorem run_read : ((read : CursorParser Tokens).run tokens).run pos = .ok (tokens, pos) := rfl

theorem run_peekAt (offset : Nat) (within : pos ≤ tokens.items.length) :
    ((peekAt offset).run tokens).run pos = .ok (tokens.lexemeAt (pos + offset), pos) :=
  run_onToken within

theorem run_peek (within : pos ≤ tokens.items.length) :
    (peek.run tokens).run pos = .ok (tokens.lexemeAt pos, pos) :=
  run_peekAt 0 within

theorem run_line (within : pos ≤ tokens.items.length) :
    (line.run tokens).run pos = .ok (tokens.lineAt pos, pos) :=
  run_onToken within

theorem run_atEnd (within : pos ≤ tokens.items.length) :
    (atEnd.run tokens).run pos = .ok ((tokens.lexemeAt pos).isNone, pos) :=
  (run_onToken within).trans (run_bind_ok (run_peek within))

theorem run_check (m : Mark) (within : pos ≤ tokens.items.length) :
    ((check m).run tokens).run pos = .ok (Parsing.isMark m (tokens.lexemeAt pos), pos) :=
  (run_onToken within).trans (run_bind_ok (run_peek within))

theorem run_seesWord (word : String) (within : pos ≤ tokens.items.length) :
    ((seesWord word).run tokens).run pos = .ok (spells word (tokens.lexemeAt pos), pos) :=
  (run_onToken within).trans (run_bind_ok (run_peek within))

theorem run_nextLine : Parsing.nextLine.run (tokens.suffix pos) =
    .ok (tokens.lineAt pos, tokens.suffix pos) := by
  show Except.ok (((tokens.items.drop pos).head?.map Token.line).getD tokens.endLine, _) = _
  rw [List.head?_drop]
  rfl

theorem run_peekList : Parsing.peek.run (tokens.suffix pos) =
    .ok (tokens.lexemeAt pos, tokens.suffix pos) := by
  show Except.ok ((tokens.items.drop pos).head?.map Token.lexeme, _) = _
  rw [List.head?_drop]
  rfl

theorem run_peekSecond : Parsing.peekSecond.run (tokens.suffix pos) =
    .ok (tokens.lexemeAt (pos + 1), tokens.suffix pos) := by
  show Except.ok ((tokens.items.drop pos).tail.head?.map Token.lexeme, _) = _
  rw [List.tail_drop, List.head?_drop]
  rfl

theorem run_sees (m : Mark) : (Parsing.sees m).run (tokens.suffix pos) =
    .ok (Parsing.isMark m (tokens.lexemeAt pos), tokens.suffix pos) :=
  parser_bind_ok run_peekList

theorem run_skip : Parsing.skip.run (tokens.suffix pos) = .ok ((), tokens.suffix (pos + 1)) := by
  show Except.ok ((), { tokens with items := (tokens.items.drop pos).tail }) = _
  rw [List.tail_drop]
  rfl

theorem run_advance (within : pos ≤ tokens.items.length) :
    (advance.run tokens).run pos = .ok (tokens.lexemeAt pos, pos + 1) := by
  refine (run_onToken within).trans ?_
  rw [run_bind_ok (run_peek within), run_bind_ok run_get, run_bind_ok run_read]
  dsimp only
  rw [if_pos within]
  rfl

theorem run_eatWord {word : String} (here : tokens.lexemeAt pos = some (.name word)) :
    ((eatWord word).run tokens).run pos = .ok (true, pos + 1) := by
  have within := Nat.le_of_lt (Tokens.lexemeAt_lt here)
  refine (run_onToken within).trans ?_
  rw [run_bind_ok (run_seesWord word within), if_pos (spells_iff.mpr here)]
  rfl

theorem run_eatWord_other {word : String} (other : tokens.lexemeAt pos ≠ some (.name word))
    (within : pos ≤ tokens.items.length) :
    ((eatWord word).run tokens).run pos = .ok (false, pos) := by
  refine (run_onToken within).trans ?_
  rw [run_bind_ok (run_seesWord word within), if_neg (other ∘ spells_iff.mp)]
  rfl

/-- After an advance, the cursor can be moved back. -/
theorem run_moveBack : ((moveBack pos).run tokens).run (pos + 1) = .ok ((), pos) := by
  show ((if pos + 1 = 0 then slip .backAtStart else if pos + 1 = pos then slip .backUnmoved
    else set (pos + 1 - 1) : CursorParser _).run tokens).run (pos + 1) = _
  rw [if_neg (Nat.succ_ne_zero pos), if_neg (Nat.succ_ne_self pos)]
  rfl

namespace Follows

variable {holds : α → Nat → Prop} {lexeme : Lexeme}

/-- The first parser does something that brings it past the token that is here, and the second goes
past this token. -/
theorem past {x : CursorParser β} {b : β} {f : β → CursorParser α} {g : Unit → Parser α}
    (here : tokens.lexemeAt pos = some lexeme)
    (run : (x.run tokens).run pos = .ok (b, pos + 1))
    (rest : Follows tokens (pos + 1) (f b) (g ()) holds) :
    Follows tokens pos (x >>= f) (Parsing.skip >>= g) holds := by
  intro _
  rw [run_bind_ok run, parser_bind_ok run_skip]
  exact rest (Tokens.lexemeAt_lt here)

theorem skip {f : Unit → CursorParser α} {g : Unit → Parser α}
    (here : tokens.lexemeAt pos = some lexeme)
    (rest : Follows tokens (pos + 1) (f ()) (g ()) holds) :
    Follows tokens pos (move 1 >>= f) (Parsing.skip >>= g) holds :=
  .past here rfl rest

theorem take {f : Option Lexeme → CursorParser α} {g : Unit → Parser α}
    (here : tokens.lexemeAt pos = some lexeme)
    (rest : Follows tokens (pos + 1) (f (some lexeme)) (g ()) holds) :
    Follows tokens pos (advance >>= f) (Parsing.skip >>= g) holds := by
  refine .past here ?_ rest
  rw [run_advance (Nat.le_of_lt (Tokens.lexemeAt_lt here)), here]

/-- Both parsers go past the token that is here and the next. -/
theorem skipTwo {f : Unit → CursorParser α} {g : Unit → Parser α}
    (next : tokens.lexemeAt (pos + 1) = some lexeme)
    (rest : Follows tokens (pos + 2) (f ()) (g ()) holds) :
    Follows tokens pos (move 2 >>= f) (Parsing.skip >>= fun _ => Parsing.skip >>= g) holds := by
  intro _
  rw [parser_bind_ok run_skip, parser_bind_ok run_skip]
  exact rest (Tokens.lexemeAt_lt next)

/-- The first parser takes what is here, be it the end, and gives it back. -/
theorem giveBack {f : Option Lexeme → CursorParser α} {p : CursorParser α} {q : Parser α}
    (back : f (tokens.lexemeAt pos) = do moveBack pos; p) (rest : Follows tokens pos p q holds) :
    Follows tokens pos (advance >>= f) q holds := by
  intro within
  rw [run_bind_ok (run_advance within), back, run_bind_ok run_moveBack]
  exact rest within

end Follows

theorem rejectAt_rejects (line : Nat) (fault : SyntaxFault) :
    Rejects tokens pos (rejectAt line fault : CursorParser α)
      (Parsing.rejectAt line fault : Parser β) :=
  fun _ => ⟨_, rfl, rfl⟩

theorem reject_rejects (fault : SyntaxFault) :
    Rejects tokens pos (reject fault : CursorParser α) (Parsing.reject fault : Parser β) :=
  .left run_line (.right run_nextLine (rejectAt_rejects _ fault))

theorem unexpected_rejects (wanted : String) :
    Rejects tokens pos (unexpected wanted : CursorParser α)
      (Parsing.unexpected wanted : Parser β) := by
  refine .onToken (.left run_peek (.right run_peekList ?_))
  cases tokens.lexemeAt pos <;> exact reject_rejects _

/-- If the mark is here, it is gone past. -/
theorem eat_follows (m : Mark) : Follows tokens pos (eat m) (Parsing.eat m)
    fun eaten pos' => pos' = if eaten then pos + 1 else pos := by
  refine .onToken (.left (run_check m) (.right (run_sees m) ?_))
  cases seen : Parsing.isMark m (tokens.lexemeAt pos) with
  | false => exact .pure rfl
  | true => exact .skip (isMark_iff.mp seen) (.pure rfl)

theorem eat_stays (m : Mark) : Stays tokens pos (eat m) (Parsing.eat m) := by
  refine (eat_follows m).mono ?_
  intro eaten pos' moved
  split at moved <;> omega

theorem expect_moves (m : Mark) : Moves tokens pos (expect m) (Parsing.expect m) := by
  refine .onToken ((eat_follows m).bind ?_)
  intro eaten pos' moved
  cases eaten with
  | false => exact (unexpected_rejects _).follows
  | true => exact .pure (by rw [moved]; exact Nat.lt_succ_self pos)

theorem terminator_stays : Stays tokens pos terminator Parsing.terminator :=
  .onToken ((eat_stays .semicolon).bind fun _ _ moved => .pure moved)

theorem run_checkSupported {word : String} (supported : word ∉ unsupportedWords)
    (within : pos ≤ tokens.items.length) :
    ((checkSupported word).run tokens).run pos = .ok ((), pos) := by
  rw [checkSupported, run_onToken within, if_neg supported]
  rfl

/-- A word that the language supports is gone past. -/
theorem supported_follows {holds : α → Nat → Prop} {word : String} {a : α}
    (here : tokens.lexemeAt pos = some (.name word)) (h : holds a (pos + 1)) :
    Follows tokens pos
      (do checkSupported word; move 1; return a)
      (if word ∈ unsupportedWords then Parsing.reject (.unsupported word)
        else do Parsing.skip; return a) holds := by
  by_cases unsupported : word ∈ unsupportedWords
  · rw [if_pos unsupported]
    refine ((Rejects.onToken ?_).bind_left _).follows
    rw [if_pos unsupported]
    exact reject_rejects _
  · rw [if_neg unsupported]
    exact .left (run_checkSupported unsupported) (.skip here (.pure h))

theorem bindingName_follows : Follows tokens pos bindingName Parsing.bindingName
    fun _ pos' => pos' = pos + 1 := by
  refine .onToken (.left run_peek (.right run_peekList ?_))
  -- both parsers look at the same lexeme, so its case settles what either does
  split <;> rename_i here <;> simp -failIfUnchanged only [here]
  · split
    · exact (unexpected_rejects _).follows
    · exact supported_follows here rfl
  · exact (unexpected_rejects _).follows

theorem bindingName_moves : Moves tokens pos bindingName Parsing.bindingName :=
  bindingName_follows.mono fun _ _ moved => by omega

end Cursor

end EventLoop
