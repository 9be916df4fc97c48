import Mathlib.Tactic.SplitIfs
import EventLoop.Proofs.Language.Accepted
import EventLoop.Proofs.Language.Following
import EventLoop.Proofs.Language.Grammar

/-!
# Parsers take what the grammar says

If a parser accepts its tokens, those that it takes off the front spell what it makes of them. This
is shown once for each parser, given that it holds of the parsers of the next level. So each script
that is read is spelled by its tokens.
-/

namespace EventLoop

namespace Parsing

variable {α β : Type}

theorem exists_cons_of_lexeme {items : List Token} {lexeme : Lexeme}
    (next : items.head?.map Token.lexeme = some lexeme) :
    ∃ line rest, items = .at line lexeme :: rest := by
  rcases items with _ | ⟨⟨line, _⟩, rest⟩
  · cases next
  · cases next
    exact ⟨line, rest, rfl⟩

/-- If the parser accepts these tokens, it takes some of them off the front, and the property holds
of those, of what it makes of them and of the tokens that are left. -/
def Takes (tokens : Tokens) (p : Parser α) (holds : List Token → α → Tokens → Prop) : Prop :=
  ∀ a rest, p.run tokens = .ok (a, rest) →
    ∃ taken, tokens.items = taken ++ rest.items ∧ holds taken a rest

namespace Takes

variable {tokens : Tokens} {p : Parser α} {holds : List Token → α → Tokens → Prop}
  {holds' : List Token → β → Tokens → Prop}

theorem pure {a : α} (h : holds [] a tokens) : Takes tokens (Pure.pure a) holds := by
  intro _ _ run
  cases run
  exact ⟨[], rfl, h⟩

theorem rejected {e : ScriptError} (run : p.run tokens = .error e) : Takes tokens p holds := by
  intro _ _ accepted
  rw [run] at accepted
  cases accepted

theorem bind {f : α → Parser β} (first : Takes tokens p holds)
    (second : ∀ taken a rest, tokens.items = taken ++ rest.items → holds taken a rest →
      Takes rest (f a) fun more => holds' (taken ++ more)) :
    Takes tokens (p >>= f) holds' := by
  intro b rest run
  rw [StateT.run_bind] at run
  cases read : p.run tokens with
  | error e =>
    rw [read] at run
    cases run
  | ok found =>
    rw [read] at run
    obtain ⟨a, middle⟩ := found
    obtain ⟨taken, split, h⟩ := first a middle read
    obtain ⟨more, split', h'⟩ := second taken a middle split h b rest run
    exact ⟨taken ++ more, by rw [split, split', List.append_assoc], h'⟩

theorem mono {weaker : List Token → α → Tokens → Prop} (takes : Takes tokens p holds)
    (implied : ∀ taken a rest, holds taken a rest → weaker taken a rest) :
    Takes tokens p weaker := by
  intro a rest run
  obtain ⟨taken, split, h⟩ := takes a rest run
  exact ⟨taken, split, implied taken a rest h⟩

/-- The last parser of several, with what is made of what it makes. -/
theorem last {g : α → β} (takes : Takes tokens p holds)
    (made : ∀ taken a rest, holds taken a rest → holds' taken (g a) rest) :
    Takes tokens (p >>= fun a => Pure.pure (g a)) holds' := by
  refine takes.bind fun taken a rest _ h => .pure ?_
  rw [List.append_nil]
  exact made taken a rest h

/-- The first parser takes nothing. -/
theorem look {a : α} {f : α → Parser β} (run : p.run tokens = .ok (a, tokens))
    (second : Takes tokens (f a) holds') : Takes tokens (p >>= f) holds' := by
  intro b rest accepted
  rw [StateT.run_bind, run] at accepted
  exact second b rest accepted

theorem skip {token : Token} {items : List Token} {endLine : Nat} {f : Unit → Parser β}
    (second : Takes ⟨items, endLine⟩ (f ()) fun more => holds' (token :: more)) :
    Takes ⟨token :: items, endLine⟩ (Parsing.skip >>= f) holds' := by
  intro b rest run
  obtain ⟨more, split, h⟩ := second b rest run
  exact ⟨token :: more, congrArg (token :: ·) split, h⟩

/-- Either the mark comes next, and what follows the test goes on knowing it, or it does not. -/
theorem sees {m : Mark} {f : Bool → Parser β}
    (yes : ∀ line items, tokens.items = m.on line :: items → Takes tokens (f true) holds')
    (no : isMark m (tokens.items.head?.map Token.lexeme) = false →
      Takes tokens (f false) holds') :
    Takes tokens (Parsing.sees m >>= f) holds' := by
  refine .look rfl ?_
  cases seen : isMark m (tokens.items.head?.map Token.lexeme) with
  | false => exact no seen
  | true =>
    obtain ⟨line, items, same⟩ := exists_cons_of_lexeme (Cursor.isMark_iff.mp seen)
    exact yes line items same

theorem eat {m : Mark} {f : Bool → Parser β}
    (yes : ∀ line rest, tokens.items = m.on line :: rest.items →
      Takes rest (f true) fun more => holds' (m.on line :: more))
    (no : isMark m (tokens.items.head?.map Token.lexeme) = false →
      Takes tokens (f false) holds') :
    Takes tokens (Parsing.eat m >>= f) holds' := by
  rw [Parsing.eat, bind_assoc]
  refine .sees ?_ ?_
  · intro line items same
    rcases tokens with ⟨_, endLine⟩
    cases same
    show Takes _ (Parsing.skip >>= fun _ => f true) _
    exact .skip (yes line ⟨items, endLine⟩ rfl)
  · exact no

theorem expect {m : Mark} {f : Unit → Parser β}
    (second : ∀ line rest, tokens.items = m.on line :: rest.items →
      Takes rest (f ()) fun more => holds' (m.on line :: more)) :
    Takes tokens (Parsing.expect m >>= f) holds' := by
  rw [Parsing.expect, bind_assoc]
  refine .eat second ?_
  intro other
  exact .rejected rfl

/-- What is read of other tokens in between. -/
theorem aside {f : α × Tokens → Parser β} {other : Tokens} (first : Takes other p holds)
    (second : ∀ taken a rest, other.items = taken ++ rest.items → holds taken a rest →
      Takes tokens (f (a, rest)) holds') :
    Takes tokens ((liftM (p.run other) : Parser (α × Tokens)) >>= f) holds' := by
  cases read : p.run other with
  | error e => exact .rejected rfl
  | ok found =>
    obtain ⟨taken, split, h⟩ := first found.1 found.2 read
    exact .look rfl (second taken found.1 found.2 split h)

end Takes

/-! ## Names and lists -/

variable {tokens : Tokens}

theorem bindingName_takes :
    Takes tokens bindingName fun taken name _ =>
      ∃ line, taken = [wordOn name line] ∧ IsFree name := by
  rcases tokens with ⟨_ | ⟨⟨line, lexeme⟩, items⟩, endLine⟩
  · exact .rejected rfl
  · refine .look rfl ?_
    cases lexeme with
    | name word =>
      dsimp only [List.head?_cons, Option.map_some, Token.lexeme]
      split_ifs with reserved unsupported
      · exact .rejected rfl
      · exact .rejected rfl
      · exact .skip (.pure ⟨line, rfl, reserved, unsupported⟩)
    | _ => exact .rejected rfl

/-- Fewer tokens are left after an item that takes some. -/
theorem length_lt_of_taken {rest : Tokens} {taken : List Token} {bound : Nat}
    (split : tokens.items = taken ++ rest.items) (solid : taken ≠ [])
    (enough : tokens.items.length < bound + 1) : rest.items.length < bound := by
  have some := List.length_pos_iff.mpr solid
  rw [split, List.length_append] at enough
  omega

/-- How lists are made of items with commas between them and perhaps one at the end. -/
structure Separates (item : List Token → α → Prop) (list : List Token → List α → Prop) : Prop where
  solid : ∀ {taken a}, item taken a → taken ≠ []
  none : list [] []
  last : ∀ {taken a}, item taken a → list taken [a]
  more : ∀ {taken a more as} line, item taken a → list more as →
    list (taken ++ Mark.comma.on line :: more) (a :: as)

theorem commaList_takes {item : List Token → α → Prop} {list : List Token → List α → Prop}
    (separates : Separates item list) {p : Parser α}
    (each : ∀ tokens, Takes tokens p fun taken a _ => item taken a) {bound : Nat}
    (enough : tokens.items.length < bound) :
    Takes tokens (commaList p bound) fun taken as _ =>
      ∃ inner line, taken = inner ++ [Mark.rightParen.on line] ∧ list inner as := by
  induction bound generalizing tokens with
  | zero => exact absurd enough (Nat.not_lt_zero _)
  | succ bound ih =>
    rw [commaList]
    refine .eat (fun line rest _ => .pure ⟨[], line, rfl, separates.none⟩) fun _ => ?_
    refine (each tokens).bind ?_
    intro taken a rest split first
    have shorter := length_lt_of_taken split (separates.solid first) enough
    refine .sees ?_ ?_
    · intro line items closes
      obtain ⟨bound, rfl⟩ := Nat.exists_eq_add_one_of_ne_zero (Nat.ne_zero_of_lt shorter)
      rw [commaList, bind_assoc]
      refine .eat (fun line rest _ => .pure ⟨taken, line, rfl, separates.last first⟩) fun other => ?_
      rw [closes] at other
      cases other
    · intro _
      refine .expect fun line rest' next => ?_
      have shorter' : rest'.items.length < bound := by
        rw [next, List.length_cons] at shorter
        omega
      refine (ih shorter').last ?_
      rintro _ as _ ⟨inner, line', rfl, others⟩
      refine ⟨taken ++ Mark.comma.on line :: inner, line', ?_, separates.more line first others⟩
      rw [List.append_assoc, List.cons_append]

theorem closedList_takes {item : List Token → α → Prop} {list : List Token → List α → Prop}
    (separates : Separates item list) {p : Parser α}
    (each : ∀ tokens, Takes tokens p fun taken a _ => item taken a) :
    Takes tokens (closedList p) fun taken as _ =>
      ∃ inner line, taken = inner ++ [Mark.rightParen.on line] ∧ list inner as :=
  .look rfl (commaList_takes separates each (Nat.lt_succ_self _))

theorem params_separates :
    Separates (fun taken name => ∃ line, taken = [wordOn name line] ∧ IsFree name) Params where
  solid := by
    rintro _ _ ⟨line, rfl, -⟩
    exact List.cons_ne_nil _ _
  none := .none
  last := by
    rintro _ _ ⟨line, rfl, free⟩
    exact .last free
  more := by
    rintro _ _ _ _ _ ⟨line, rfl, free⟩ others
    exact .more free others

theorem parameters_takes :
    Takes tokens parameters fun taken params _ => ∃ line inner line',
      taken = Mark.leftParen.on line :: (inner ++ [Mark.rightParen.on line']) ∧
        Params inner params := by
  refine .expect fun line rest _ => ?_
  refine (closedList_takes params_separates fun _ => bindingName_takes).mono ?_
  rintro _ params _ ⟨inner, line', rfl, spells⟩
  exact ⟨line, inner, line', rfl, spells⟩

section

variable {statement : Parser Stmt}
  (each : ∀ tokens, Takes tokens statement fun taken s _ => Spells taken (.statement s))

include each

theorem statementsToBrace_takes {bound : Nat} (enough : tokens.items.length < bound) :
    Takes tokens (statementsToBrace statement bound) fun taken statements _ =>
      ∃ inner line, taken = inner ++ [Mark.rightBrace.on line] ∧
        Spells inner (.statements statements) := by
  induction bound generalizing tokens with
  | zero => exact absurd enough (Nat.not_lt_zero _)
  | succ bound ih =>
    have next : Takes tokens (do
        let first ← statement
        return first :: (← statementsToBrace statement bound)) fun taken statements _ =>
          ∃ inner line, taken = inner ++ [Mark.rightBrace.on line] ∧
            Spells inner (.statements statements) := by
      refine (each tokens).bind ?_
      intro taken s rest split first
      have shorter := length_lt_of_taken split (first.ne_nil trivial) enough
      refine (ih shorter).last ?_
      rintro _ statements _ ⟨inner, line, rfl, others⟩
      exact ⟨taken ++ inner, line, (List.append_assoc ..).symm, .moreStatements first others⟩
    rcases tokens with ⟨_ | ⟨⟨line, lexeme⟩, items⟩, endLine⟩
    · exact .rejected rfl
    · refine .look rfl ?_
      dsimp only [List.head?_cons, Option.map_some, Token.lexeme]
      split
      · rename_i closes
        cases closes
        exact .skip (.pure ⟨[], line, rfl, .noStatements⟩)
      · exact .rejected rfl
      · exact next

theorem statementsToEnd_takes {bound : Nat} (enough : tokens.items.length < bound) :
    Takes tokens (statementsToEnd statement bound) fun taken statements rest =>
      rest.items = [] ∧ Spells taken (.statements statements) := by
  induction bound generalizing tokens with
  | zero => exact absurd enough (Nat.not_lt_zero _)
  | succ bound ih =>
    rcases tokens with ⟨_ | ⟨⟨line, lexeme⟩, items⟩, endLine⟩
    · exact .look rfl (.pure ⟨rfl, .noStatements⟩)
    · refine .look rfl ((each _).bind ?_)
      intro taken s rest split first
      have shorter := length_lt_of_taken split (first.ne_nil trivial) enough
      refine (ih shorter).last ?_
      rintro more statements _ ⟨ended, others⟩
      exact ⟨ended, .moreStatements first others⟩

end

/-! ## Expressions -/

/-- What the parsers of a level take is what the grammar says. -/
structure Level.Sound (level : Level) : Prop where
  statement : ∀ around tokens,
    Takes tokens (level.statement around) fun taken s _ => Spells taken (.statement s)
  assignment : ∀ around tokens,
    Takes tokens (level.assignment around) fun taken e _ => Spells taken (.expr .full e)
  operand : ∀ around tokens,
    Takes tokens (level.operand around) fun taken e _ => Spells taken (.expr .operand e)

theorem countedAfter_takes {front : List Token} {e : Expr} (count : Count) {line : Nat}
    {items : List Token} {endLine : Nat} (spells : Spells front (.expr .chained e)) :
    Takes ⟨count.mark.on line :: items, endLine⟩ (countedAfter e count line) fun taken e' _ =>
      Spells (front ++ taken) (.expr .operand e') := by
  cases e with
  | name start target => exact .skip (.pure (.countedBefore count spells))
  | _ => exact .rejected rfl

/-- A chain of operators goes on after an expression. -/
theorem operatorChain_takes {operator : Operator} {stronger : List Operator}
    {operand : Parser Expr} (listed : operator ∈ strengths)
    (each : ∀ tokens,
      Takes tokens operand fun taken e _ => Spells taken (.expr (.joined stronger) e))
    {room : Nat} {front : List Token} {left : Expr}
    (spells : Spells front (.expr (.joined (operator :: stronger)) left)) :
    Takes tokens (operatorChain operator operand room left) fun taken e _ =>
      Spells (front ++ taken) (.expr (.joined (operator :: stronger)) e) := by
  induction room using Nat.strong_induction_on generalizing tokens front left with
  | h room ih =>
    have stop : Takes tokens (pure left) fun taken e _ =>
        Spells (front ++ taken) (.expr (.joined (operator :: stronger)) e) :=
      .pure (by rwa [List.append_nil])
    unfold operatorChain
    rcases tokens with ⟨_ | ⟨⟨line, lexeme⟩, items⟩, endLine⟩
    · exact stop
    refine .look rfl ?_
    dsimp only [List.head?_cons, Option.map_some, Token.lexeme]
    split
    · rename_i m same
      cases same
      split
      · exact stop
      · rename_i combine found
        refine .skip ?_
        cases room with
        | zero => exact .rejected rfl
        | succ room =>
          refine (each _).bind ?_
          intro taken right rest _ spells'
          refine (ih room (Nat.lt_succ_self _) (.link line listed found spells spells')).mono ?_
          intro more e _ whole
          simpa using whole
    · exact stop

section

variable {level : Level} (sound : level.Sound) (around : Surroundings)

include sound

theorem block_takes :
    Takes tokens (block level around) fun taken statements _ => ∃ line inner line',
      taken = Mark.leftBrace.on line :: (inner ++ [Mark.rightBrace.on line']) ∧
        Spells inner (.statements statements) := by
  refine .expect fun line rest _ => .look rfl ?_
  refine (statementsToBrace_takes (sound.statement around) (Nat.lt_succ_self _)).mono ?_
  rintro _ statements _ ⟨inner, line', rfl, spells⟩
  exact ⟨line, inner, line', rfl, spells⟩

theorem functionRest_takes (mustBeNamed : Bool) (line : Nat) :
    Takes tokens (functionRest level mustBeNamed line) fun taken d _ =>
      Spells taken (.definition line d) ∧ (mustBeNamed = true → d.name.isSome) := by
  have finish (tokens : Tokens) (name : Option String) : Takes tokens (do
      let params ← parameters
      let body ← functionBlock level
      return Definition.mk name params (.block body) line) fun taken d _ => ∃ params body,
        d = .mk name params body line ∧
          Spells taken (.definition line (.mk none params body line)) := by
    refine parameters_takes.bind ?_
    rintro _ params rest - ⟨line₁, names, line₂, rfl, spelled⟩
    refine (block_takes sound .function).last ?_
    rintro _ statements _ ⟨line₃, inner, line₄, rfl, spells⟩
    refine ⟨params, .block statements, rfl, ?_⟩
    simpa using Spells.unnamed spelled spells
  have named : Takes tokens (do
      let name ← some <$> bindingName
      let params ← parameters
      let body ← functionBlock level
      return Definition.mk name params (.block body) line) fun taken d _ =>
        Spells taken (.definition line d) ∧ (mustBeNamed = true → d.name.isSome) := by
    rw [map_eq_pure_bind, bind_assoc]
    refine bindingName_takes.bind ?_
    rintro _ name rest - ⟨line', rfl, free⟩
    refine (finish rest (some name)).mono ?_
    rintro taken _ _ ⟨params, body, rfl, spells⟩
    exact ⟨.named free spells, fun _ => rfl⟩
  refine .look rfl ?_
  dsimp only
  split
  · exact named
  · split
    · exact named
    · rename_i free
      refine (finish tokens none).mono ?_
      rintro taken _ _ ⟨params, body, rfl, spells⟩
      exact ⟨spells, fun must => absurd must free⟩

theorem arrowBody_takes (params : List String) (line : Nat) :
    Takes tokens (arrowBody level params line) fun taken e _ => ∃ body,
      e = .function line (.mk none params body line) ∧ Spells taken (.body body) := by
  refine .sees ?_ ?_
  · intro _ _ _
    rw [if_pos rfl, map_eq_pure_bind, bind_assoc]
    refine (block_takes sound .function).last ?_
    rintro _ statements _ ⟨line₁, inner, line₂, rfl, spells⟩
    exact ⟨_, rfl, .blockBody spells⟩
  · intro _
    rw [if_neg Bool.false_ne_true, map_eq_pure_bind, bind_assoc]
    refine (sound.assignment .function _).last ?_
    intro taken value _ spells
    exact ⟨_, rfl, .valueBody spells⟩

theorem hole_takes (line : Nat) (code : List Token) :
    Takes tokens (hole level around line code) fun taken part _ => ∃ e,
      taken = [] ∧ part = .value e ∧ Spells code (.expr .full e) := by
  have reading (other : Tokens) : Takes other (do
      let e ← level.assignment { around with inLoop := false }
      if (← peek).isSome then unexpected (Mark.rightBrace.shown ++ " in template literal")
      return e) fun taken e rest => rest.items = [] ∧ Spells taken (.expr .full e) := by
    refine (sound.assignment _ other).bind ?_
    rintro taken e ⟨_ | ⟨token, items⟩, endLine⟩ - spells
    · exact .look rfl (.pure ⟨rfl, by rwa [List.append_nil]⟩)
    · exact .rejected rfl
  refine .aside (reading _) ?_
  rintro taken e rest split ⟨ended, spells⟩
  rw [ended, List.append_nil] at split
  cases split
  exact .pure ⟨e, rfl, rfl, spells⟩

theorem templateParts_takes (line : Nat) (chunks : List Chunk) :
    Takes tokens (templateParts level around line chunks) fun taken parts _ =>
      taken = [] ∧ Spells [.at line (.template chunks)] (.template parts) := by
  induction chunks generalizing tokens with
  | nil => exact .pure ⟨rfl, .noParts line⟩
  | cons chunk rest ih =>
    cases chunk with
    | text content =>
      refine ih.last ?_
      rintro _ parts _ ⟨rfl, spells⟩
      exact ⟨rfl, .textPart content spells⟩
    | code code =>
      refine (hole_takes sound around line code).bind ?_
      rintro _ _ rest - ⟨e, rfl, rfl, spells⟩
      refine ih.last ?_
      rintro _ parts _ ⟨rfl, others⟩
      exact ⟨rfl, .codePart spells others⟩

theorem primary_takes :
    Takes tokens (primary level around) fun taken e _ => Spells taken (.expr .primary e) := by
  rcases tokens with ⟨_ | ⟨⟨line, lexeme⟩, items⟩, endLine⟩
  · exact .rejected rfl
  refine .look rfl (.look rfl ?_)
  cases lexeme with
  | number value => exact .skip (.pure (.number line value))
  | text content => exact .skip (.pure (.text line content))
  | template chunks =>
    refine .skip ((templateParts_takes sound around line chunks).last ?_)
    rintro _ parts _ ⟨rfl, spells⟩
    exact .template spells
  | mark m =>
    cases m with
    | leftParen =>
      refine .skip ((sound.assignment around _).bind ?_)
      intro taken inner rest _ spells
      exact .expect fun line' rest _ => .pure (.parenthesized spells)
    | _ => exact .rejected rfl
  | name word =>
    have literal {e : Expr} (found : literal? line word = some e) :
        Takes ⟨wordOn word line :: items, endLine⟩ (do skip; return e) fun taken e _ =>
          Spells taken (.expr .primary e) :=
      .skip (.pure (.literal found))
    dsimp only [List.head?_cons, Option.map_some, Token.lexeme, Token.line, Option.getD_some]
    split_ifs with h h h h h reserved unsupported
    · exact literal (by rw [h]; rfl)
    · exact literal (by rw [h]; rfl)
    · exact literal (by rw [h]; rfl)
    · exact literal (by rw [h]; rfl)
    · subst h
      refine .skip ((functionRest_takes sound false line).last ?_)
      intro taken d _ spells
      exact .function spells.1
    · exact .rejected rfl
    · exact .rejected rfl
    · exact .skip (.pure (.name line ⟨reserved, unsupported⟩))

omit sound in
theorem items_separates :
    Separates (fun taken e => Spells taken (.expr .full e))
      fun taken es => Spells taken (.items es) where
  solid spells := spells.ne_nil trivial
  none := .noItems
  last spells := .lastItem spells
  more _ spells others := .moreItems spells others

/-- Calls, properties and counting operators go on after an expression. -/
theorem postfixChain_takes {room : Nat} {front : List Token} {e : Expr}
    (spells : Spells front (.expr .chained e)) :
    Takes tokens (postfixChain level around room e) fun taken e' _ =>
      Spells (front ++ taken) (.expr .operand e') := by
  induction room using Nat.strong_induction_on generalizing tokens front e with
  | h room ih =>
    have stop : Takes tokens (pure e) fun taken e' _ =>
        Spells (front ++ taken) (.expr .operand e') :=
      .pure (by rw [List.append_nil]; exact .unprefixed spells)
    unfold postfixChain
    rcases tokens with ⟨_ | ⟨⟨line, lexeme⟩, items⟩, endLine⟩
    · exact stop
    refine .look rfl (.look rfl ?_)
    dsimp only [List.head?_cons, Option.map_some, Token.lexeme]
    split
    · rename_i same
      cases same
      cases room with
      | zero => exact .rejected rfl
      | succ room =>
        refine .skip ((closedList_takes items_separates (sound.assignment around)).bind ?_)
        rintro _ args rest - ⟨inner, line', rfl, spelled⟩
        refine (ih room (Nat.lt_succ_self _) (.call line line' spells spelled)).mono ?_
        intro more e' _ whole
        simpa using whole
    · rename_i same
      cases same
      cases room with
      | zero => exact .rejected rfl
      | succ room =>
        refine .skip ?_
        rcases items with _ | ⟨⟨line', next⟩, items⟩
        · exact .rejected rfl
        cases next with
        | name property =>
          refine .look rfl (.skip ?_)
          refine (ih room (Nat.lt_succ_self _) (.member line line' property spells)).mono ?_
          intro more e' _ whole
          simpa using whole
        | _ => exact .rejected rfl
    · rename_i same
      cases same
      exact countedAfter_takes .up spells
    · rename_i same
      cases same
      exact countedAfter_takes .down spells
    · exact stop

theorem prefixed_takes (room : Nat) :
    Takes tokens (prefixed level room around) fun taken e _ =>
      Spells taken (.expr .operand e) := by
  have plain : Takes tokens (prefixed.plain level room around) fun taken e _ =>
      Spells taken (.expr .operand e) := by
    refine (primary_takes sound around).bind ?_
    intro taken e rest _ spells
    exact postfixChain_takes sound around (.unchained spells)
  rcases tokens with ⟨_ | ⟨⟨line, lexeme⟩, items⟩, endLine⟩
  · exact plain
  have applied (op : UnaryOp) (same : lexeme = op.token.lexeme) :
      Takes ⟨.at line lexeme :: items, endLine⟩ (prefixed.applied level around line op)
        fun taken e _ => Spells taken (.expr .operand e) := by
    subst same
    refine .skip ((sound.operand around _).last ?_)
    intro taken e _ spells
    exact .unary line op spells
  have counted (count : Count) (same : lexeme = .mark count.mark) :
      Takes ⟨.at line lexeme :: items, endLine⟩ (prefixed.counted line count)
        fun taken e _ => Spells taken (.expr .operand e) := by
    subst same
    refine .skip (bindingName_takes.last ?_)
    rintro _ target _ ⟨line', rfl, free⟩
    exact .countedAfter line line' count free
  refine .look rfl (.look rfl ?_)
  dsimp only [List.head?_cons, Option.map_some, Token.lexeme, Token.line, Option.getD_some]
  split
  · rename_i same
    cases same
    exact applied .not rfl
  · rename_i same
    cases same
    exact applied .neg rfl
  · rename_i same
    cases same
    exact applied .plus rfl
  · rename_i same
    cases same
    exact counted .up rfl
  · rename_i same
    cases same
    exact counted .down rfl
  · rename_i word same
    cases same
    split
    · rename_i spelled
      subst spelled
      exact applied .typeOf rfl
    · exact plain
  · exact plain

omit sound in
theorem joined_takes {operand : Parser Expr}
    (each : ∀ tokens, Takes tokens operand fun taken e _ => Spells taken (.expr .operand e))
    (room : Nat) {operators : List Operator} (listed : ∀ operator ∈ operators, operator ∈ strengths)
    (tokens : Tokens) :
    Takes tokens (joined room operand operators) fun taken e _ =>
      Spells taken (.expr (.joined operators) e) := by
  induction operators generalizing tokens with
  | nil => exact (each tokens).mono fun _ _ _ spells => .unjoined spells
  | cons operator stronger ih =>
    rw [List.forall_mem_cons] at listed
    have first := ih listed.2
    refine (first tokens).bind ?_
    intro taken left rest _ spells
    exact operatorChain_takes listed.1 first (.tighter spells)

theorem conditional_takes (room : Nat) :
    Takes tokens (conditional level room around) fun taken e _ =>
      Spells taken (.expr .choice e) := by
  refine (joined_takes (fun _ => prefixed_takes sound around room) room
    (fun _ listed => listed) tokens).bind ?_
  intro front condition rest _ spells
  refine .eat ?_ ?_
  · intro line rest _
    refine (sound.assignment around rest).bind ?_
    intro middle yes rest _ spellsYes
    refine .expect fun line' rest _ => (sound.assignment around rest).last ?_
    intro back no _ spellsNo
    exact .chosen spells spellsYes spellsNo
  · intro _
    refine .pure ?_
    rw [List.append_nil]
    exact .unchosen spells

omit sound in
theorem assignOp?_eq_some {next : Option Lexeme} {op : AssignOp}
    (found : assignOp? next = some op) : next = some (.mark op.mark) := by
  unfold assignOp? at found
  split at found <;> cases found <;> rfl

theorem unassigned_takes (room : Nat) {line : Nat}
    (here : ∀ line' lexeme items, tokens.items = .at line' lexeme :: items → line' = line) :
    Takes tokens (assignment.unassigned level room around line) fun taken e _ =>
      Spells taken (.expr .full e) := by
  refine .look (seesArrowParameters_run _) ?_
  split
  · refine parameters_takes.bind ?_
    rintro _ params rest split ⟨line₁, names, line₂, rfl, spelled⟩
    obtain rfl : line₁ = line := here line₁ _ _ split
    refine .expect fun line₃ rest _ => (arrowBody_takes sound params line₁).mono ?_
    rintro taken _ _ ⟨body, rfl, spells⟩
    simpa using Spells.arrowWith spelled spells
  · refine (conditional_takes sound around room).bind ?_
    intro taken e rest _ spells
    refine .look rfl ?_
    split
    · exact .rejected rfl
    · refine .pure ?_
      rw [List.append_nil]
      exact .unassigned spells

theorem assignment_takes (room : Nat) :
    Takes tokens (assignment level room around) fun taken e _ =>
      Spells taken (.expr .full e) := by
  rcases tokens with ⟨_ | ⟨⟨line, lexeme⟩, items⟩, endLine⟩
  · exact .look rfl (.look rfl (.look rfl (unassigned_takes sound around room nofun)))
  have unassigned : Takes ⟨.at line lexeme :: items, endLine⟩
      (assignment.unassigned level room around line) fun taken e _ =>
        Spells taken (.expr .full e) := by
    refine unassigned_takes sound around room ?_
    intro _ _ _ same
    cases same
    rfl
  refine .look rfl (.look rfl (.look rfl ?_))
  dsimp only [List.head?_cons, Option.map_some, Token.lexeme, Token.line, Option.getD_some,
    List.tail_cons]
  split
  · rename_i word next arrow
    obtain ⟨line', items, rfl⟩ := exists_cons_of_lexeme arrow
    refine bindingName_takes.bind ?_
    rintro _ param ⟨rest, endLine'⟩ split ⟨_, rfl, free⟩
    cases split
    refine .skip ((arrowBody_takes sound [param] line).mono ?_)
    rintro taken _ _ ⟨body, rfl, spells⟩
    exact .arrow free spells
  · rename_i target same _
    cases same
    split
    · rename_i op found
      obtain ⟨line', items, rfl⟩ := exists_cons_of_lexeme (assignOp?_eq_some found)
      split
      · exact .rejected rfl
      · rename_i free
        refine .skip (.skip ((sound.assignment around _).last ?_))
        intro taken value _ spells
        exact .assignment line line' op free spells
    · exact unassigned
  · exact unassigned

/-! ## Statements -/

omit sound

/-- A simple statement, with the semicolon that ends it unless no semicolon comes next. -/
def Ends (taken : List Token) (s : Stmt) (rest : Tokens) : Prop :=
  ∃ inner, Spells inner (.simple s) ∧
    (taken = inner ∧ isMark .semicolon (rest.items.head?.map Token.lexeme) = false ∨
      ∃ line, taken = inner ++ [Mark.semicolon.on line])

theorem Ends.statement {taken : List Token} {s : Stmt} {rest : Tokens} (ends : Ends taken s rest) :
    Spells taken (.statement s) := by
  obtain ⟨inner, spells, ⟨rfl, -⟩ | ⟨line, rfl⟩⟩ := ends
  · exact .unended spells
  · exact .ended line spells

theorem terminator_takes {front : List Token} {s : Stmt} (spells : Spells front (.simple s)) :
    Takes tokens (do terminator; return s) fun taken made rest =>
      made = s ∧ Ends (front ++ taken) s rest := by
  rw [terminator, bind_assoc]
  refine .eat ?_ ?_
  · intro line rest _
    exact .pure ⟨rfl, front, spells, .inr ⟨line, rfl⟩⟩
  · intro other
    exact .pure ⟨rfl, front, spells, .inl ⟨List.append_nil front, other⟩⟩

theorem terminator_statement {front : List Token} {s : Stmt} (spells : Spells front (.simple s)) :
    Takes tokens (do terminator; return s) fun taken s _ =>
      Spells (front ++ taken) (.statement s) := by
  refine (terminator_takes spells).mono ?_
  rintro taken _ rest ⟨rfl, ends⟩
  exact ends.statement

include sound

theorem given_takes : Takes tokens (some <$> level.assignment around) fun taken e _ =>
    ∃ value, e = some value ∧ Spells taken (.expr .full value) := by
  rw [map_eq_pure_bind]
  exact (sound.assignment around tokens).last fun _ value _ spells => ⟨value, rfl, spells⟩

theorem declaration_takes {word : String} {declarator : Declarator}
    (found : declarator? word = some declarator) {line : Nat} {items : List Token}
    {endLine : Nat} :
    Takes ⟨wordOn word line :: items, endLine⟩ (declaration level around declarator)
      fun taken s rest => Ends taken s rest ∧
        ∃ name value, s = .declare line declarator name value := by
  refine .look rfl (.skip (bindingName_takes.bind ?_))
  rintro _ name rest - ⟨line', rfl, free⟩
  have finish (tokens : Tokens) (front : List Token) (value : Option Expr)
      (spells : ¬ (declarator = .constWord ∧ value.isNone) →
        Spells front (.simple (.declare line declarator name value))) :
      Takes tokens (do
        if declarator = .constWord ∧ value.isNone then rejectAt line .missingInitializer
        if ← sees .comma then rejectAt line .severalVariables
        terminator
        return Stmt.declare line declarator name value) fun taken s rest =>
          Ends (front ++ taken) s rest ∧
            ∃ name value, s = .declare line declarator name value := by
    split
    · exact .rejected rfl
    · rename_i allowed
      refine .look rfl ?_
      split
      · exact .rejected rfl
      · refine (terminator_takes (spells allowed)).mono ?_
        rintro taken _ rest ⟨rfl, ends⟩
        exact ⟨ends, name, value, rfl⟩
  refine .eat ?_ ?_
  · intro line'' rest _
    rw [if_pos rfl]
    refine (given_takes sound around).bind ?_
    rintro taken value rest - ⟨e, rfl, spells⟩
    exact finish rest _ (some e) fun _ => .declarationWith line line' line'' found free spells
  · intro _
    rw [if_neg Bool.false_ne_true]
    refine .look rfl (finish rest [wordOn word line, wordOn name line'] none fun allowed => ?_)
    exact .declaration line line' found free fun constant => allowed ⟨constant, rfl⟩

theorem condition_takes :
    Takes tokens (condition level around) fun taken e _ => ∃ line inner line',
      taken = Mark.leftParen.on line :: (inner ++ [Mark.rightParen.on line']) ∧
        Spells inner (.expr .full e) := by
  refine .expect fun line rest _ => (sound.assignment around rest).bind ?_
  intro inner e rest _ spells
  exact .expect fun line' rest _ => .pure ⟨line, inner, line', rfl, spells⟩

theorem choice_takes {line : Nat} {items : List Token} {endLine : Nat} :
    Takes ⟨wordOn "if" line :: items, endLine⟩ (choice level around) fun taken s _ =>
      Spells taken (.statement s) := by
  refine .skip ((condition_takes sound around).bind ?_)
  rintro _ condition rest - ⟨line₁, front, line₂, rfl, spells⟩
  refine (sound.statement around rest).bind ?_
  intro taken yes rest _ spellsYes
  have alone : Takes rest (pure (Stmt.choose condition yes none)) fun more s _ =>
      Spells (wordOn "if" line :: (Mark.leftParen.on line₁ ::
        (front ++ [Mark.rightParen.on line₂]) ++ (taken ++ more))) (.statement s) := by
    refine .pure ?_
    simpa using Spells.choose spells spellsYes
  rcases rest with ⟨_ | ⟨⟨line₃, lexeme⟩, items⟩, endLine'⟩
  · exact alone
  refine .look rfl ?_
  dsimp only [List.head?_cons, Option.map_some, Token.lexeme]
  split
  · rename_i word same
    cases same
    split
    · rename_i other
      subst other
      refine .skip ((sound.statement around _).last ?_)
      intro back no _ spellsNo
      simpa using Spells.chooseElse spells spellsYes spellsNo
    · exact alone
  · exact alone

theorem whileLoop_takes {line : Nat} {items : List Token} {endLine : Nat} :
    Takes ⟨wordOn "while" line :: items, endLine⟩ (whileLoop level around) fun taken s _ =>
      Spells taken (.statement s) := by
  refine .skip ((condition_takes sound around).bind ?_)
  rintro _ condition rest - ⟨line₁, front, line₂, rfl, spells⟩
  refine (sound.statement around.loop rest).last ?_
  intro taken body _ spellsBody
  simpa using Spells.whileLoop spells spellsBody

omit sound in
/-- What a loop with a header does first is followed by a semicolon; or it is a declaration, and no
semicolon comes next. -/
def Starts (taken : List Token) (init : Option Stmt) (rest : Tokens) : Prop :=
  (∃ inner line, taken = inner ++ [Mark.semicolon.on line] ∧ Spells inner (.start init)) ∨
    isMark .semicolon (rest.items.head?.map Token.lexeme) = false ∧
      ∃ line declarator name value, init = some (.declare line declarator name value) ∧
        Spells taken (.simple (.declare line declarator name value))

theorem loopStart_takes : Takes tokens (loopStart level around) Starts := by
  have expression : Takes tokens (loopStart.expression level around) Starts := by
    refine (sound.assignment around tokens).bind ?_
    intro taken e rest _ spells
    refine .expect fun line rest _ => .pure (.inl ⟨taken, line, rfl, ?_⟩)
    exact .starting (.evaluation spells) trivial
  refine .eat ?_ ?_
  · intro line rest _
    exact .pure (.inl ⟨[], line, rfl, .notStarting⟩)
  · intro _
    rcases tokens with ⟨_ | ⟨⟨line, lexeme⟩, items⟩, endLine⟩
    · exact expression
    refine .look rfl ?_
    dsimp only [List.head?_cons, Option.map_some, Token.lexeme]
    split
    · rename_i word same
      cases same
      split
      · rename_i declarator found
        rw [map_eq_pure_bind]
        refine (declaration_takes sound around found).last ?_
        rintro taken _ rest ⟨⟨inner, spells, ⟨rfl, next⟩ | ⟨line', rfl⟩⟩, name, value, rfl⟩
        · exact .inr ⟨next, line, declarator, name, value, rfl, spells⟩
        · exact .inl ⟨inner, line', rfl, .starting spells trivial⟩
      · exact expression
    · exact expression

theorem optionalExpression_takes (ending : Mark) :
    Takes tokens (optionalExpression level around ending) fun taken e _ =>
      Spells taken (.given e) ∧
        (isMark ending (tokens.items.head?.map Token.lexeme) = false →
          ∃ value, e = some value ∧ Spells taken (.expr .full value)) := by
  refine .sees ?_ ?_
  · intro line items same
    refine .pure ⟨.notGiven, ?_⟩
    intro other
    rw [same] at other
    cases other.symm.trans (Cursor.isMark_iff.mpr rfl)
  · intro _
    refine (given_takes sound around).mono ?_
    rintro taken _ _ ⟨value, rfl, spells⟩
    exact ⟨.given spells, fun _ => ⟨value, rfl, spells⟩⟩

theorem forLoop_takes {line : Nat} {items : List Token} {endLine : Nat} :
    Takes ⟨wordOn "for" line :: items, endLine⟩ (forLoop level around) fun taken s _ =>
      Spells taken (.statement s) := by
  refine .skip (.expect fun line₁ rest _ => (loopStart_takes sound around).bind ?_)
  intro front init rest _ starts
  refine (optionalExpression_takes sound around .semicolon).bind ?_
  rintro middle condition rest - ⟨spells, present⟩
  refine .expect fun line₂ rest _ => (optionalExpression_takes sound around .rightParen).bind ?_
  rintro back update rest - ⟨spells', -⟩
  refine .expect fun line₃ rest _ => (sound.statement around.loop rest).last ?_
  intro taken body _ spellsBody
  rcases starts with ⟨inner, line₄, rfl, started⟩ | ⟨next, _, _, _, _, rfl, started⟩
  · simpa using Spells.forLoop (.header started spells spells') spellsBody
  · obtain ⟨value, rfl, spelled⟩ := present next
    simpa using Spells.forLoop (.joinedHeader started spelled spells') spellsBody

theorem giveBack_takes {line : Nat} {items : List Token} {endLine : Nat} :
    Takes ⟨wordOn "return" line :: items, endLine⟩ (giveBack level around) fun taken s _ =>
      Spells taken (.statement s) := by
  refine .look rfl (.skip ?_)
  split
  · exact .rejected rfl
  refine .look rfl ?_
  split
  · exact .look rfl (terminator_statement (.giveBack line .notGiven))
  · refine (given_takes sound around).bind ?_
    rintro taken _ rest - ⟨value, rfl, spells⟩
    exact terminator_statement (.giveBack line (.given spells))

omit sound in
theorem jump_takes {word : String} {s : Stmt} {line : Nat} {items : List Token} {endLine : Nat}
    (spells : Spells [wordOn word line] (.simple s)) :
    Takes ⟨wordOn word line :: items, endLine⟩ (jump around word s) fun taken s _ =>
      Spells taken (.statement s) := by
  refine .look rfl (.skip ?_)
  split
  · exact .rejected rfl
  · exact terminator_statement spells

theorem unintroduced_takes :
    Takes tokens (unintroduced level around) fun taken s _ => Spells taken (.statement s) := by
  have evaluation : Takes tokens (do
      let e ← level.assignment around
      terminator
      return Stmt.evaluate e) fun taken s _ => Spells taken (.statement s) := by
    refine (sound.assignment around tokens).bind ?_
    intro taken e rest _ spells
    exact terminator_statement (.evaluation spells)
  rcases tokens with ⟨_ | ⟨⟨line, lexeme⟩, items⟩, endLine⟩
  · exact evaluation
  refine .look rfl ?_
  dsimp only [List.head?_cons, Option.map_some, Token.lexeme]
  split
  · refine (block_takes sound around).last ?_
    rintro _ statements _ ⟨line₁, inner, line₂, rfl, spells⟩
    exact .block spells
  · rename_i same
    cases same
    exact .skip (.pure (.empty line))
  · exact evaluation

theorem statement_takes :
    Takes tokens (statement level around) fun taken s _ => Spells taken (.statement s) := by
  have unintroduced {tokens : Tokens} : Takes tokens (unintroduced level around)
      fun taken s _ => Spells taken (.statement s) :=
    unintroduced_takes sound around
  rcases tokens with ⟨_ | ⟨⟨line, lexeme⟩, items⟩, endLine⟩
  · exact .look rfl unintroduced
  refine .look rfl ?_
  dsimp only [List.head?_cons, Option.map_some, Token.lexeme]
  split
  · rename_i word same
    cases same
    split
    · rename_i declarator found
      refine (declaration_takes sound around found).mono ?_
      rintro taken s rest ⟨ends, -⟩
      exact ends.statement
    split_ifs with h h h h h h h
    · subst h
      refine .look rfl ?_
      split
      · refine .look rfl (.skip ((functionRest_takes sound true line).last ?_))
        rintro taken d _ ⟨spells, named⟩
        exact .define spells (named rfl)
      · exact unintroduced
    · subst h
      exact choice_takes sound around
    · subst h
      exact whileLoop_takes sound around
    · subst h
      exact forLoop_takes sound around
    · subst h
      exact giveBack_takes sound around
    · subst h
      exact jump_takes around (.breakLoop line)
    · subst h
      exact jump_takes around (.continueLoop line)
    · exact unintroduced
  · exact unintroduced

end

/-- The parsers of all levels take what the grammar says. -/
theorem levels_sound (room : Nat) : (levels room).Sound := by
  induction room with
  | zero =>
    exact ⟨fun _ _ => .rejected rfl, fun _ _ => .rejected rfl, fun _ _ => .rejected rfl⟩
  | succ room ih =>
    exact ⟨fun around _ => statement_takes ih around, fun around _ => assignment_takes ih around room,
      fun around _ => prefixed_takes ih around room⟩

theorem script_takes (limit : Nat) (tokens : Tokens) :
    Takes tokens (script limit) fun taken statements rest =>
      rest.items = [] ∧ Spells taken (.statements statements) :=
  .look rfl (statementsToEnd_takes ((levels_sound limit).statement _) (Nat.lt_succ_self _))

end Parsing

/-- A script that is read from a source is spelled by the tokens of the source. -/
theorem spells_of_parse {limit : Nat} {source : String} {script : Script}
    (accepted : parse limit source = .ok script) :
    ∃ tokens, tokenize limit source = .ok tokens ∧ Spells tokens.items (.statements script) := by
  rw [parse] at accepted
  cases found : tokenize limit source with
  | error e =>
    rw [found] at accepted
    cases accepted
  | ok tokens =>
    rw [found] at accepted
    have whole : ((Parsing.script limit).run tokens).map Prod.fst = .ok script := accepted
    cases read : (Parsing.script limit).run tokens with
    | error e =>
      rw [read] at whole
      cases whole
    | ok result =>
      rw [read] at whole
      cases whole
      obtain ⟨taken, split, ended, spells⟩ := Parsing.script_takes limit tokens _ _ read
      rw [ended, List.append_nil] at split
      exact ⟨tokens, rfl, split ▸ spells⟩

end EventLoop
