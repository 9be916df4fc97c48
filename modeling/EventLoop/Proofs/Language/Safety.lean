import Mathlib.Tactic.SplitIfs
import EventLoop.Proofs.Language.Following
import EventLoop.Proofs.Language.Sources

/-!
# The cursor never slips

Each parser with a cursor follows the parser of the same name. Where something is read that cannot
be empty, the cursor has moved on, so no loop goes round more often than there are tokens. Hence
reading a script with a cursor is reading it, and there are no slips.
-/

namespace EventLoop

open Parsing (Surroundings Operator)

namespace Cursor

variable {α β : Type} {tokens : Tokens} {pos : Nat}

/-! ## Lists -/

/-- The rounds that are allowed from here on are more than the tokens that are left. -/
theorem left_lt_rounds (tokens : Tokens) (pos : Nat) :
    tokens.items.length - pos < (tokens.suffix pos).items.length + 1 := by
  rw [Tokens.suffix, List.length_drop]
  exact Nat.lt_succ_self _

section

variable {item : CursorParser α} {item' : Parser α}
  (each : ∀ pos, Moves tokens pos item item')

include each

/-- The numbers of rounds suffice, since each item takes a token. -/
theorem commaListFrom_moves {rounds bound : Nat} (enough : tokens.items.length - pos < rounds)
    (enough' : tokens.items.length - pos < bound) :
    Moves tokens pos (commaListFrom item rounds) (Parsing.commaList item' bound) := by
  induction rounds generalizing bound pos with
  | zero => exact absurd enough (Nat.not_lt_zero _)
  | succ rounds ih =>
    obtain ⟨bound, rfl⟩ := Nat.exists_eq_add_one_of_ne_zero (Nat.ne_zero_of_lt enough')
    refine (eat_follows .rightParen).bind ?_
    intro closed pos₁ moved
    cases closed with
    | true =>
      rw [if_pos rfl] at moved
      exact .pure (by omega)
    | false =>
      obtain rfl : pos₁ = pos := moved
      refine (each pos₁).bind ?_
      intro first pos₂ moved₂
      have rest (pos₃ : Nat) (later : pos₂ ≤ pos₃) :
          Follows tokens pos₃ (do return first :: (← commaListFrom item rounds))
            (do return first :: (← Parsing.commaList item' bound)) fun _ pos' => pos₁ < pos' := by
        refine .beginning fun within => ?_
        refine (ih (by omega) (by omega)).bind ?_
        intro others pos₄ moved₄
        exact .pure (by omega)
      refine .left (run_check _) (.right (run_sees _) ?_)
      split
      · exact rest pos₂ (Nat.le_refl _)
      · exact (expect_moves _).bind fun _ pos₃ moved₃ => rest pos₃ (by omega)

theorem commaList_moves : Moves tokens pos (commaList item) (Parsing.closedList item') := by
  refine .left (fun _ => run_read) (.right rfl ?_)
  exact commaListFrom_moves each (by omega) (left_lt_rounds tokens pos)

end

theorem parameters_moves : Moves tokens pos parameters Parsing.parameters := by
  refine .onToken ((expect_moves _).bind ?_)
  intro _ pos₁ moved₁
  exact (commaList_moves fun _ => bindingName_moves).mono fun _ _ moved₂ => by omega

section

variable {statement : CursorParser Stmt} {statement' : Parser Stmt}
  (each : ∀ pos, Moves tokens pos statement statement')

include each

theorem statementsToBrace_moves {rounds bound : Nat}
    (enough : tokens.items.length - pos < rounds) (enough' : tokens.items.length - pos < bound) :
    Moves tokens pos (statementsToBrace statement rounds)
      (Parsing.statementsToBrace statement' bound) := by
  induction rounds generalizing bound pos with
  | zero => exact absurd enough (Nat.not_lt_zero _)
  | succ rounds ih =>
    obtain ⟨bound, rfl⟩ := Nat.exists_eq_add_one_of_ne_zero (Nat.ne_zero_of_lt enough')
    refine .left (run_check _) (.right run_peekList ?_)
    have next : Moves tokens pos
        (do
          let first ← statement
          return first :: (← statementsToBrace statement rounds))
        (do
          let first ← statement'
          return first :: (← Parsing.statementsToBrace statement' bound)) := by
      refine (each pos).bind ?_
      intro first pos₁ moved₁
      refine .beginning fun within => ?_
      refine (ih (by omega) (by omega)).bind ?_
      intro others pos₂ moved₂
      exact .pure (by omega)
    split
    · rename_i closes
      rw [isMark_iff] at closes
      simp only [closes]
      exact .skip closes (.pure (Nat.lt_succ_self pos))
    · rename_i open'
      refine .left run_atEnd ?_
      cases here : tokens.lexemeAt pos with
      | none => exact (unexpected_rejects _).follows
      | some lexeme =>
        rw [isMark_iff, here] at open'
        rw [if_neg (Option.some_ne_none lexeme ∘ Option.isNone_iff_eq_none.mp)]
        split
        · rename_i closes
          exact absurd closes open'
        · rename_i ended
          cases ended
        · exact next

theorem statementsToEnd_stays {rounds bound : Nat}
    (enough : tokens.items.length - pos < rounds) (enough' : tokens.items.length - pos < bound) :
    Stays tokens pos (statementsToEnd statement rounds)
      (Parsing.statementsToEnd statement' bound) := by
  induction rounds generalizing bound pos with
  | zero => exact absurd enough (Nat.not_lt_zero _)
  | succ rounds ih =>
    obtain ⟨bound, rfl⟩ := Nat.exists_eq_add_one_of_ne_zero (Nat.ne_zero_of_lt enough')
    refine .left run_atEnd (.right run_peekList ?_)
    cases here : tokens.lexemeAt pos with
    | none => exact .pure (Nat.le_refl pos)
    | some lexeme =>
      refine (each pos).bind ?_
      intro first pos₁ moved₁
      refine .beginning fun within => ?_
      refine (ih (by omega) (by omega)).bind ?_
      intro others pos₂ moved₂
      exact .pure (by omega)

end

/-! ## Looking for an arrow -/

/-- The look-ahead finds what it looks for in the tokens, and counts as it does. -/
theorem run_arrowFrom (within : pos ≤ tokens.items.length) {rounds offset : Nat} (opened : Nat)
    (enough : tokens.items.length - (pos + offset) < rounds) :
    ((arrowFrom rounds offset (opened + 1)).run tokens).run pos =
      .ok (Parsing.arrowAfterParen (tokens.items.drop (pos + offset)) opened, pos) := by
  induction rounds generalizing offset opened with
  | zero => exact absurd enough (Nat.not_lt_zero _)
  | succ rounds ih =>
    rw [arrowFrom.eq_def]
    dsimp only
    rw [run_bind_ok (run_peekAt offset within), Tokens.lexemeAt]
    cases left : tokens.items.drop (pos + offset) with
    | nil =>
      rw [List.getElem?_eq_none (List.drop_eq_nil_iff.mp left)]
      rfl
    | cons token rest =>
      have found : tokens.items[pos + offset]? = some token := by
        rw [← List.head?_drop, left, List.head?_cons]
      have next : tokens.items.drop (pos + (offset + 1)) = rest := by
        rw [← Nat.add_assoc, ← List.tail_drop, left, List.tail_cons]
      have before := (List.getElem?_eq_some_iff.mp found).1
      have go (opened : Nat) : ((arrowFrom rounds (offset + 1) (opened + 1)).run tokens).run pos =
          .ok (Parsing.arrowAfterParen rest opened, pos) := by
        rw [ih opened (by omega), next]
      rw [found, Option.map_some, Parsing.arrowAfterParen.eq_def]
      dsimp only
      generalize token.lexeme = lexeme
      split <;> rename_i same <;> cases same
      · exact go (opened + 1)
      · cases opened with
        | zero =>
          rw [← next, List.head?_drop]
          exact run_bind_ok (run_peekAt (offset + 1) within)
        | succ opened => exact go opened
      · rename_i opens closes
        split
        · exact absurd rfl opens
        · exact absurd rfl closes
        · exact go opened

theorem run_arrowAhead (here : tokens.lexemeAt pos = some (.mark .leftParen)) :
    (arrowAhead.run tokens).run pos =
      .ok (Parsing.arrowAfterParen (tokens.items.drop (pos + 1)) 0, pos) := by
  have inside := Tokens.lexemeAt_lt here
  have within := Nat.le_of_lt inside
  refine (run_onToken within).trans ((run_bind_ok run_read).trans ?_)
  rw [arrowFrom.eq_def]
  dsimp only
  rw [run_bind_ok (run_peekAt 0 within), Nat.add_zero, here]
  exact run_arrowFrom within 0 (by omega)

theorem run_seesArrowParameters : Parsing.seesArrowParameters.run (tokens.suffix pos) =
    .ok (Parsing.isMark .leftParen (tokens.lexemeAt pos) &&
      Parsing.arrowAfterParen (tokens.items.drop (pos + 1)) 0, tokens.suffix pos) := by
  rw [Parsing.seesArrowParameters_run, Tokens.suffix, List.head?_drop, List.tail_drop]
  rfl

theorem seesArrowParameters_follows :
    Follows tokens pos seesArrowParameters Parsing.seesArrowParameters
      fun _ pos' => pos' = pos := by
  refine .left (run_check _) ?_
  intro within
  rw [run_seesArrowParameters]
  cases seen : Parsing.isMark .leftParen (tokens.lexemeAt pos) with
  | false => exact .inr ⟨false, pos, rfl, rfl, within, rfl⟩
  | true => exact .inr ⟨_, pos, run_arrowAhead (isMark_iff.mp seen), rfl, within, rfl⟩

/-! ## Phrases -/

theorem exists_mark_of_assignOp {next : Option Lexeme} {op : AssignOp}
    (assigns : Parsing.assignOp? next = some op) : ∃ m, next = some (.mark m) := by
  unfold Parsing.assignOp? at assigns
  split at assigns
  · exact ⟨_, rfl⟩
  · exact ⟨_, rfl⟩
  · exact ⟨_, rfl⟩
  · cases assigns

/-- What the parsers of the first level do with a cursor, those of the second do with a list. -/
structure Level.Follows (level : Level) (level' : Parsing.Level) : Prop where
  statement : ∀ tokens pos around,
    Moves tokens pos (level.statement around) (level'.statement around)
  assignment : ∀ tokens pos around,
    Moves tokens pos (level.assignment around) (level'.assignment around)
  operand : ∀ tokens pos around, Moves tokens pos (level.operand around) (level'.operand around)

theorem operatorChain_stays {operand : CursorParser Expr} {operand' : Parser Expr}
    (each : ∀ pos, Moves tokens pos operand operand') (operator : Operator) (room : Nat)
    (left : Expr) :
    Stays tokens pos (operatorChain operator operand room left)
      (Parsing.operatorChain operator operand' room left) := by
  induction room generalizing pos left with
  | zero =>
    rw [operatorChain, Parsing.operatorChain]
    refine .left run_peek (.right run_peekList ?_)
    split <;> rename_i here <;> simp -failIfUnchanged only [here]
    · rename_i m
      cases operator m with
      | none => exact .pure (Nat.le_refl pos)
      | some combine => exact .skip here (reject_rejects _).follows
    · exact .pure (Nat.le_refl pos)
  | succ room ih =>
    rw [operatorChain, Parsing.operatorChain]
    refine .left run_peek (.right run_peekList ?_)
    split <;> rename_i here <;> simp -failIfUnchanged only [here]
    · rename_i m
      cases operator m with
      | none => exact .pure (Nat.le_refl pos)
      | some combine =>
        refine .skip here ((each _).bind ?_)
        intro right pos₁ moved₁
        exact (ih _).mono fun _ _ moved₂ => by omega
    · exact .pure (Nat.le_refl pos)

theorem joined_moves {operand : CursorParser Expr} {operand' : Parser Expr}
    (each : ∀ pos, Moves tokens pos operand operand') (room : Nat) (operators : List Operator) :
    ∀ pos, Moves tokens pos (joined room operand operators)
      (Parsing.joined room operand' operators) := by
  induction operators with
  | nil => exact each
  | cons operator stronger ih =>
    intro pos
    refine .onToken ((ih pos).bind ?_)
    intro left pos₁ moved₁
    exact (operatorChain_stays ih operator room left).mono fun _ _ moved₂ => by omega

theorem countedAfter_moves {lexeme : Lexeme} (here : tokens.lexemeAt pos = some lexeme) (e : Expr)
    (count : Count) (line : Nat) :
    Moves tokens pos (countedAfter e count line) (Parsing.countedAfter e count line) := by
  cases e with
  | name start target => exact .take here (.pure (Nat.lt_succ_self pos))
  | _ => exact (rejectAt_rejects _ _).follows

section

variable {deeper : Level} {deeper' : Parsing.Level} (follows : deeper.Follows deeper')
  (around : Surroundings)

include follows

theorem block_moves : Moves tokens pos (block deeper around) (Parsing.block deeper' around) := by
  refine .onToken ((expect_moves _).bind ?_)
  intro _ pos₁ moved₁
  refine .left (fun _ => run_read) (.right rfl ?_)
  exact (statementsToBrace_moves (fun pos => follows.statement tokens pos around) (by omega)
    (left_lt_rounds tokens pos₁)).mono fun _ _ moved₂ => by omega

theorem functionBlock_moves :
    Moves tokens pos (functionBlock deeper) (Parsing.functionBlock deeper') :=
  .onToken (block_moves follows .function)

theorem functionRest_moves (mustBeNamed : Bool) (line : Nat) :
    Moves tokens pos (functionRest deeper mustBeNamed line)
      (Parsing.functionRest deeper' mustBeNamed line) := by
  have finish (name : Option String) (pos₁ : Nat) (later : pos ≤ pos₁) :
      Follows tokens pos₁
        (do
          let params ← parameters
          let body ← functionBlock deeper
          return Definition.mk name params (.block body) line)
        (do
          let params ← Parsing.parameters
          let body ← Parsing.functionBlock deeper'
          return Definition.mk name params (.block body) line) fun _ pos' => pos < pos' := by
    refine parameters_moves.bind ?_
    intro params pos₂ moved₂
    refine (functionBlock_moves follows).bind ?_
    intro body pos₃ moved₃
    exact .pure (by omega)
  have named : Moves tokens pos (some <$> bindingName) (some <$> Parsing.bindingName) :=
    bindingName_moves.map some
  refine .onToken (.left run_peek (.right run_peekList ?_))
  dsimp only
  split <;> rename_i here <;> simp -failIfUnchanged only [here]
  · exact named.bind fun name pos₁ moved => finish name pos₁ (Nat.le_of_lt moved)
  · cases mustBeNamed with
    | true => exact named.bind fun name pos₁ moved => finish name pos₁ (Nat.le_of_lt moved)
    | false => exact finish none pos (Nat.le_refl pos)

theorem arrowBody_moves (params : List String) (line : Nat) :
    Moves tokens pos (arrowBody deeper params line) (Parsing.arrowBody deeper' params line) := by
  refine .onToken (.left (run_check _) (.right (run_sees _) ?_))
  split
  · exact ((functionBlock_moves follows).map Body.block).bind fun _ _ moved => .pure moved
  · exact ((follows.assignment _ _ _).map Body.value).bind fun _ _ moved => .pure moved

omit follows in
/-- Other tokens are read with a cursor of their own. -/
theorem Follows.inner {inner : Tokens} {p : CursorParser α} {q : Parser α}
    {f : α × Nat → CursorParser β} {g : α × Tokens → Parser β} {holds : β → Nat → Prop}
    (reading : Follows inner 0 p q fun _ _ => True)
    (rest : ∀ a end' left, Follows tokens pos (f (a, end')) (g (a, left)) holds) :
    Follows tokens pos (liftM ((p.run inner).run 0) >>= f) (liftM (q.run inner) >>= g) holds := by
  intro within
  rcases reading (Nat.zero_le _) with ⟨e, run, run'⟩ | ⟨a, end', run, run', -⟩
  · rw [run, show q.run inner = .error e from run']
    exact .inl ⟨e, rfl, rfl⟩
  · rw [run, show q.run inner = .ok (a, inner.suffix end') from run']
    exact rest a end' _ within

/-- A hole is read without moving the cursor outside. -/
theorem hole_follows (line : Nat) (chunk : List Token) :
    Follows tokens pos (hole deeper around line chunk) (Parsing.hole deeper' around line chunk)
      fun _ pos' => pos' = pos := by
  refine .inner ?_ fun e _ _ => ?_
  · refine (follows.assignment _ 0 _).bind ?_
    intro e pos₁ _
    refine .left run_atEnd (.right run_peekList ?_)
    cases Tokens.lexemeAt _ pos₁ with
    | none => exact .pure trivial
    | some lexeme => exact ((unexpected_rejects _).bind_right _).follows
  · exact .pure rfl

theorem templateParts_follows (line : Nat) (chunks : List Chunk) :
    Follows tokens pos (templateParts deeper around line chunks)
      (Parsing.templateParts deeper' around line chunks) fun _ pos' => pos' = pos := by
  induction chunks with
  | nil => exact .pure rfl
  | cons chunk rest ih =>
    cases chunk with
    | text content =>
      refine ih.bind ?_
      rintro _ _ rfl
      exact .pure rfl
    | code chunk =>
      refine (hole_follows follows around line chunk).bind ?_
      rintro _ _ rfl
      refine ih.bind ?_
      rintro _ _ rfl
      exact .pure rfl

theorem primary_moves :
    Moves tokens pos (primary deeper around) (Parsing.primary deeper' around) := by
  refine .onToken (.left run_line (.right run_nextLine ?_))
  refine .left (fun _ => run_get) (.right run_peekList ?_)
  have after : pos < pos + 1 := Nat.lt_succ_self pos
  -- the cases are those of the list; the cursor is past the token before its case is looked at
  split
  · rename_i here
    exact .take here (.pure after)
  · rename_i here
    exact .take here (.pure after)
  · rename_i here
    refine .take here ((Follows.onToken (templateParts_follows follows around _ _)).bind ?_)
    rintro _ _ rfl
    exact .pure after
  · rename_i here
    refine .take here ((follows.assignment _ _ _).bind ?_)
    intro inner pos₁ moved₁
    refine (expect_moves _).bind ?_
    intro _ pos₂ moved₂
    exact .pure (by omega)
  · rename_i word here
    split
    · refine .take here ?_
      simp only [*, if_true]
      exact .pure after
    split
    · refine .take here ?_
      simp only [*, if_true]
      exact .pure after
    split
    · refine .take here ?_
      simp only [*, if_true]
      exact .pure after
    split
    · refine .take here ?_
      simp only [*, if_true]
      exact .pure after
    split
    · refine .take here ?_
      simp only [*, if_true]
      refine (functionRest_moves follows _ _).bind ?_
      intro definition pos₁ moved
      exact .pure (by omega)
    -- words that may be no names are given back before they are judged, as is the end
    split
    · refine .giveBack ?_ (unexpected_rejects _).follows
      simp only [*, if_true, if_false]
    · refine .giveBack ?_ (supported_follows here after)
      simp only [*, if_false]
  · refine .giveBack ?_ (unexpected_rejects _).follows
    simp only [*]

theorem postfixChain_stays (room : Nat) (e : Expr) :
    Stays tokens pos (postfixChain deeper around room e)
      (Parsing.postfixChain deeper' around room e) := by
  have counted {lexeme : Lexeme} {pos : Nat} (here : tokens.lexemeAt pos = some lexeme) (e : Expr)
      (count : Count) (line : Nat) :
      Stays tokens pos (countedAfter e count line) (Parsing.countedAfter e count line) :=
    (countedAfter_moves here e count line).mono fun _ _ moved => Nat.le_of_lt moved
  induction room generalizing pos e with
  | zero =>
    rw [postfixChain, Parsing.postfixChain]
    refine .left run_line (.right run_nextLine (.left run_peek (.right run_peekList ?_)))
    split <;> rename_i here <;> simp -failIfUnchanged only [here]
    · exact (rejectAt_rejects _ _).follows
    · exact (rejectAt_rejects _ _).follows
    · exact counted here _ _ _
    · exact counted here _ _ _
    · exact .pure (Nat.le_refl pos)
  | succ room ih =>
    rw [postfixChain, Parsing.postfixChain]
    refine .left run_line (.right run_nextLine (.left run_peek (.right run_peekList ?_)))
    split <;> rename_i here <;> simp -failIfUnchanged only [here]
    · refine .skip here ((commaList_moves fun pos => follows.assignment tokens pos around).bind ?_)
      intro args pos₁ moved₁
      exact (ih _).mono fun _ _ moved₂ => by omega
    · refine .skip here (.left (fun _ => run_get) (.right run_peekList ?_))
      split
      · rename_i property
        refine .take property ?_
        exact (ih _).mono fun _ _ moved₁ => by omega
      · refine .giveBack ?_ (unexpected_rejects _).follows
        simp only [*]
    · exact counted here _ _ _
    · exact counted here _ _ _
    · exact .pure (Nat.le_refl pos)

theorem prefixed_moves (room : Nat) :
    Moves tokens pos (prefixed deeper room around) (Parsing.prefixed deeper' room around) := by
  have applied {lexeme : Lexeme} (here : tokens.lexemeAt pos = some lexeme) (line : Nat)
      (op : UnaryOp) : Moves tokens pos (prefixed.applied deeper around line op)
        (Parsing.prefixed.applied deeper' around line op) := by
    refine .skip here ((follows.operand _ _ _).bind ?_)
    intro operand pos₁ moved
    exact .pure (by omega)
  have counted {lexeme : Lexeme} (here : tokens.lexemeAt pos = some lexeme) (line : Nat)
      (count : Count) : Moves tokens pos (prefixed.counted line count)
        (Parsing.prefixed.counted line count) := by
    refine .take here (bindingName_moves.bind ?_)
    intro target pos₁ moved
    exact .pure (by omega)
  have plain : Moves tokens pos (prefixed.plain deeper room around)
      (Parsing.prefixed.plain deeper' room around) := by
    refine .onToken ((primary_moves follows around).bind ?_)
    intro e pos₁ moved₁
    exact (postfixChain_stays follows around room e).mono fun _ _ moved₂ => by omega
  refine .onToken (.left run_line (.right run_nextLine (.left run_peek (.right run_peekList ?_))))
  split <;> rename_i here <;> simp -failIfUnchanged only [here]
  · exact applied here _ _
  · exact applied here _ _
  · exact applied here _ _
  · exact counted here _ _
  · exact counted here _ _
  · split
    · exact applied here _ _
    · exact plain
  · exact plain

theorem conditional_moves (room : Nat) :
    Moves tokens pos (conditional deeper room around)
      (Parsing.conditional deeper' room around) := by
  have operation : Moves tokens pos (operation deeper room around)
      (Parsing.operation deeper' room around) :=
    joined_moves (fun _ => prefixed_moves follows around room) room _ pos
  refine .onToken (operation.bind ?_)
  intro condition pos₁ moved₁
  refine (eat_stays _).bind ?_
  intro chosen pos₂ moved₂
  split
  · refine (follows.assignment _ _ _).bind ?_
    intro yes pos₃ moved₃
    refine (expect_moves _).bind ?_
    intro _ pos₄ moved₄
    refine (follows.assignment _ _ _).bind ?_
    intro no pos₅ moved₅
    exact .pure (by omega)
  · exact .pure (by omega)

theorem unassigned_moves (room line : Nat) :
    Moves tokens pos (assignment.unassigned deeper room around line)
      (Parsing.assignment.unassigned deeper' room around line) := by
  refine seesArrowParameters_follows.bind ?_
  rintro arrow _ rfl
  split
  · refine parameters_moves.bind ?_
    intro params pos₁ moved₁
    refine (expect_moves _).bind ?_
    intro _ pos₂ moved₂
    exact (arrowBody_moves follows params line).mono fun _ _ moved₃ => by omega
  · refine (conditional_moves follows around room).bind ?_
    intro e pos₁ moved₁
    refine .left run_peek (.right run_peekList ?_)
    split
    · exact ((rejectAt_rejects _ _).bind_right _).follows
    · exact .pure moved₁

theorem assignment_moves (room : Nat) :
    Moves tokens pos (assignment deeper room around) (Parsing.assignment deeper' room around) := by
  refine .onToken (.left run_line (.right run_nextLine ?_))
  refine .left run_peek (.right run_peekList (.left (run_peekAt 1) (.right run_peekSecond ?_)))
  split <;> simp -failIfUnchanged only [*]
  · rename_i next
    refine bindingName_follows.bind ?_
    rintro param _ rfl
    refine .skip next ?_
    exact (arrowBody_moves follows _ _).mono fun _ _ moved => by omega
  · cases assigns : Parsing.assignOp? (tokens.lexemeAt (pos + 1)) with
    | none => exact unassigned_moves follows around room _
    | some op =>
      obtain ⟨m, next⟩ := exists_mark_of_assignOp assigns
      dsimp only
      split
      · exact ((rejectAt_rejects _ _).bind_right _).follows
      · refine .skipTwo next ((follows.assignment _ _ _).bind ?_)
        intro value pos₁ moved
        exact .pure (by omega)
  · exact unassigned_moves follows around room _

omit follows in
theorem run_seesDeclarator (within : pos ≤ tokens.items.length) :
    (seesDeclarator.run tokens).run pos =
      .ok (spells "let" (tokens.lexemeAt pos) || spells "const" (tokens.lexemeAt pos) ||
        spells "var" (tokens.lexemeAt pos), pos) := by
  rw [seesDeclarator, run_bind_ok (run_seesWord _ within), run_bind_ok (run_seesWord _ within),
    run_bind_ok (run_seesWord _ within)]
  rfl

omit follows in
theorem declares_iff {next : Option Lexeme} :
    (spells "let" next || spells "const" next || spells "var" next) = true ↔
      ∃ name word, next = some (.name name) ∧ Parsing.declarator? name = some word := by
  simp only [Bool.or_eq_true, spells_iff]
  constructor
  · rintro ((rfl | rfl) | rfl) <;> exact ⟨_, _, rfl, rfl⟩
  · rintro ⟨name, word, rfl, known⟩
    unfold Parsing.declarator? at known
    split_ifs at known with isLet isConst isVar <;> simp only [*, true_or, or_true]

theorem declaration_moves {name : String} (here : tokens.lexemeAt pos = some (.name name))
    {word : Declarator} (known : Parsing.declarator? name = some word) :
    Moves tokens pos (declaration deeper around) (Parsing.declaration deeper' around word) := by
  refine .onToken (.left run_line (.right run_nextLine (.take here ?_)))
  rw [declaratorOf, known, Option.getD_some]
  refine bindingName_moves.bind ?_
  intro name pos₁ moved₁
  have finish (init : Option Expr) (pos₂ : Nat) (later : pos < pos₂) :
      Follows tokens pos₂
        (if word = .constWord ∧ init.isNone then
            rejectAt (tokens.lineAt pos) .missingInitializer
          else do
            if ← check .comma then rejectAt (tokens.lineAt pos) .severalVariables
            else
              terminator
              return Stmt.declare (tokens.lineAt pos) word name init)
        (do
          if word = .constWord ∧ init.isNone then
            Parsing.rejectAt (tokens.lineAt pos) .missingInitializer
          if ← Parsing.sees .comma then Parsing.rejectAt (tokens.lineAt pos) .severalVariables
          Parsing.terminator
          return Stmt.declare (tokens.lineAt pos) word name init)
        fun _ pos' => pos < pos' := by
    split
    · exact ((rejectAt_rejects _ _).bind_right _).follows
    refine .left (run_check _) (.right (run_sees _) ?_)
    split
    · exact ((rejectAt_rejects _ _).bind_right _).follows
    · exact terminator_stays.bind fun _ _ moved => .pure (by omega)
  refine (eat_stays _).bind ?_
  intro given pos₂ moved₂
  split
  · exact ((follows.assignment _ _ _).map some).bind fun init pos₃ moved₃ =>
      finish init pos₃ (by omega)
  · exact finish none pos₂ (by omega)

theorem condition_moves :
    Moves tokens pos (condition deeper around) (Parsing.condition deeper' around) := by
  refine (expect_moves _).bind ?_
  intro _ pos₁ moved₁
  refine (follows.assignment _ _ _).bind ?_
  intro e pos₂ moved₂
  refine (expect_moves _).bind ?_
  intro _ pos₃ moved₃
  exact .pure (by omega)

theorem choice_moves {lexeme : Lexeme} (here : tokens.lexemeAt pos = some lexeme) :
    Moves tokens pos (choice deeper around) (Parsing.choice deeper' around) := by
  refine .onToken (.skip here ((condition_moves follows around).bind ?_))
  intro condition pos₁ moved₁
  refine (follows.statement _ _ _).bind ?_
  intro yes pos₂ moved₂
  refine .right run_peekList ?_
  by_cases next : tokens.lexemeAt pos₂ = some (.name "else")
  · rw [next]
    refine .past next (run_eatWord next) ((follows.statement _ _ _).bind ?_)
    intro no pos₃ moved₃
    exact .pure (by omega)
  · refine .left (run_eatWord_other next) ?_
    rw [if_neg Bool.false_ne_true]
    split
    · rename_i word found
      rw [if_neg fun same : word = "else" => next (same ▸ found)]
      exact .pure (by omega)
    · exact .pure (by omega)

theorem whileLoop_moves {lexeme : Lexeme} (here : tokens.lexemeAt pos = some lexeme) :
    Moves tokens pos (whileLoop deeper around) (Parsing.whileLoop deeper' around) := by
  refine .onToken (.skip here ((condition_moves follows around).bind ?_))
  intro condition pos₁ moved₁
  refine (follows.statement _ _ _).bind ?_
  intro body pos₂ moved₂
  exact .pure (by omega)

theorem loopStart_stays :
    Stays tokens pos (loopStart deeper around) (Parsing.loopStart deeper' around) := by
  have expression (pos₁ : Nat) (later : pos ≤ pos₁) : Follows tokens pos₁
      (do
        let e ← deeper.assignment around
        expect .semicolon
        return some (Stmt.evaluate e))
      (Parsing.loopStart.expression deeper' around) fun _ pos' => pos ≤ pos' := by
    refine (follows.assignment _ _ _).bind ?_
    intro e pos₂ moved₂
    exact (expect_moves _).bind fun _ _ moved₃ => .pure (by omega)
  refine (eat_stays _).bind ?_
  intro idle pos₁ moved₁
  split
  · exact .pure moved₁
  refine .left run_seesDeclarator (.right run_peekList ?_)
  split
  · rename_i declares
    obtain ⟨name, word, here, known⟩ := declares_iff.mp declares
    simp only [here, known]
    exact ((declaration_moves follows around here known).map some).mono fun _ _ moved₂ => by omega
  · rename_i other
    rw [declares_iff] at other
    split
    · rename_i name here
      split
      · rename_i word known
        exact absurd ⟨name, word, here, known⟩ other
      · exact expression pos₁ moved₁
    · exact expression pos₁ moved₁

theorem optionalExpression_stays (ending : Mark) :
    Stays tokens pos (optionalExpression deeper around ending)
      (Parsing.optionalExpression deeper' around ending) := by
  refine .left (run_check _) (.right (run_sees _) ?_)
  split
  · exact .pure (Nat.le_refl pos)
  · exact ((follows.assignment _ _ _).map some).mono fun _ _ moved => Nat.le_of_lt moved

theorem forLoop_moves {lexeme : Lexeme} (here : tokens.lexemeAt pos = some lexeme) :
    Moves tokens pos (forLoop deeper around) (Parsing.forLoop deeper' around) := by
  refine .onToken (.skip here ((expect_moves _).bind ?_))
  intro _ pos₁ moved₁
  refine (loopStart_stays follows around).bind ?_
  intro init pos₂ moved₂
  refine (optionalExpression_stays follows around _).bind ?_
  intro condition pos₃ moved₃
  refine (expect_moves _).bind ?_
  intro _ pos₄ moved₄
  refine (optionalExpression_stays follows around _).bind ?_
  intro update pos₅ moved₅
  refine (expect_moves _).bind ?_
  intro _ pos₆ moved₆
  refine (follows.statement _ _ _).bind ?_
  intro body pos₇ moved₇
  exact .pure (by omega)

theorem giveBack_moves {lexeme : Lexeme} (here : tokens.lexemeAt pos = some lexeme) :
    Moves tokens pos (giveBack deeper around (tokens.lineAt pos))
      (Parsing.giveBack deeper' around) := by
  refine .right run_nextLine (.skip here ?_)
  split
  · exact ((rejectAt_rejects _ _).bind_right _).follows
  have finish (value : Option Expr) (pos₁ : Nat) (later : pos < pos₁) :
      Follows tokens pos₁ (do terminator; return Stmt.giveBack value)
        (do Parsing.terminator; return Stmt.giveBack value) fun _ pos' => pos < pos' :=
    terminator_stays.bind fun _ _ moved => .pure (by omega)
  refine .left run_peek (.right run_peekList ?_)
  split
  · exact finish none _ (Nat.lt_succ_self pos)
  · exact ((follows.assignment _ _ _).map some).bind fun value pos₁ moved =>
      finish value pos₁ (by omega)

omit follows in
theorem jump_moves {lexeme : Lexeme} (here : tokens.lexemeAt pos = some lexeme) (word : String)
    (s : Stmt) :
    Moves tokens pos (jump around word s (tokens.lineAt pos)) (Parsing.jump around word s) := by
  refine .right run_nextLine (.skip here ?_)
  split
  · exact ((rejectAt_rejects _ _).bind_right _).follows
  · exact terminator_stays.bind fun _ _ moved => .pure (by omega)

theorem unintroduced_moves :
    Moves tokens pos (unintroduced deeper around) (Parsing.unintroduced deeper' around) := by
  refine .left run_peek (.right run_peekList ?_)
  split <;> simp -failIfUnchanged only [*]
  · refine (block_moves follows around).bind ?_
    exact fun _ _ moved => .pure moved
  · rename_i here
    exact .skip here (.pure (Nat.lt_succ_self pos))
  · refine (follows.assignment _ _ _).bind ?_
    intro e pos₁ moved₁
    exact terminator_stays.bind fun _ _ moved₂ => .pure (by omega)

theorem statement_moves :
    Moves tokens pos (statement deeper around) (Parsing.statement deeper' around) := by
  have unintroduced : Moves tokens pos (unintroduced deeper around)
      (Parsing.unintroduced deeper' around) :=
    unintroduced_moves follows around
  refine .onToken (.left run_line (.left run_peek (.right run_peekList ?_)))
  split <;> rename_i here <;> simp -failIfUnchanged only [here]
  · rename_i word
    cases known : Parsing.declarator? word with
    | some word => exact declaration_moves follows around here known
    | none =>
      simp only [Option.isSome_none, Bool.false_eq_true, if_false]
      split_ifs
      · refine .left (run_peekAt 1) (.right run_peekSecond ?_)
        split <;> rename_i next <;> simp -failIfUnchanged only [next]
        · refine .right run_nextLine (.skip here ((functionRest_moves follows true _).bind ?_))
          intro definition pos₁ moved
          exact .pure (by omega)
        · exact unintroduced
      · exact choice_moves follows around here
      · exact whileLoop_moves follows around here
      · exact forLoop_moves follows around here
      · exact giveBack_moves follows around here
      · exact jump_moves around here _ _
      · exact jump_moves around here _ _
      · exact unintroduced
  · exact unintroduced

end

theorem levels_follow (room : Nat) : (levels room).Follows (Parsing.levels room) := by
  induction room with
  | zero =>
    exact ⟨fun _ _ _ => (reject_rejects _).follows, fun _ _ _ => (reject_rejects _).follows,
      fun _ _ _ => (reject_rejects _).follows⟩
  | succ room ih =>
    exact ⟨fun _ _ around => statement_moves ih around,
      fun _ _ around => assignment_moves ih around room,
      fun _ _ around => prefixed_moves ih around room⟩

theorem script_stays (limit : Nat) :
    Stays tokens 0 (Cursor.script limit) (Parsing.script limit) :=
  .left (fun _ => run_read) (.right rfl (statementsToEnd_stays
    (fun pos => (levels_follow limit).statement tokens pos ⟨false, false⟩)
    (Nat.lt_succ_self _) (Nat.lt_succ_self _)))

/-- Reading a source with a cursor is reading it. -/
theorem parse_eq (limit : Nat) (source : String) :
    Cursor.parse limit source = (EventLoop.parse limit source).mapError .rejected := by
  unfold Cursor.parse EventLoop.parse
  cases tokenize limit source with
  | error e => rfl
  | ok tokens =>
    show ((Cursor.script limit).run tokens).run' 0 =
      ((Parsing.script limit).run' tokens).mapError .rejected
    rw [StateT.run'_eq, StateT.run'_eq]
    rcases script_stays limit (Nat.zero_le tokens.items.length) with
      ⟨e, run, run'⟩ | ⟨script, pos', run, run', -⟩
    · rw [run, show (Parsing.script limit).run tokens = .error e from run']
      rfl
    · rw [run, show (Parsing.script limit).run tokens = .ok (script, _) from run']
      rfl

end Cursor

/-- Whatever the source, reading it with a cursor ends without a slip: it gives what reading it from
a list gives. That is a script, all of whose lines are lines of the source, or a syntax error on one
of these. -/
theorem parse_safe (limit : Nat) (source : String) :
    Cursor.parse limit source = (parse limit source).mapError .rejected ∧
      Outcome (sourceLines source) (Script.Meets (.onLines (sourceLines source)))
        (parse limit source) :=
  ⟨Cursor.parse_eq limit source,
    parse_meets limit source ((Rules.Implies.and_right _ _).trans (.and_right _ _))⟩

end EventLoop
