import Mathlib.Data.List.Forall2
import EventLoop.Proofs.Language.Relexing

/-!
# What the parsers read

For each parser, which tokens it takes off the front and what it makes of them. The parsers of the
next level are given, with what they read.
-/

namespace EventLoop.Parsing

/-- From these tokens, on the first line, the parser reads the value and leaves the others. -/
def Reads {α : Type} (p : Parser α) (tokens : List Token) (value : α) (rest : List Token) : Prop :=
  p.run ⟨tokens, 1⟩ = .ok (value, ⟨rest, 1⟩)

namespace Reads

variable {α β : Type} {p : Parser α} {tokens middle rest : List Token} {a : α}

theorem pure (a : α) (tokens : List Token) : Reads (Pure.pure a) tokens a tokens := rfl

theorem bind {f : α → Parser β} {b : β} (first : Reads p tokens a middle)
    (second : Reads (f a) middle b rest) : Reads (p >>= f) tokens b rest := by
  unfold Reads at first second ⊢
  rw [StateT.run_bind, first]
  exact second

theorem map (f : α → β) (read : Reads p tokens a rest) : Reads (f <$> p) tokens (f a) rest := by
  rw [map_eq_pure_bind]
  exact read.bind (.pure ..)

end Reads

variable {tokens rest : List Token}

/-! ## Single tokens -/

theorem reads_nextLine (lexeme : Lexeme) (rest : List Token) :
    Reads nextLine (.at 1 lexeme :: rest) 1 (.at 1 lexeme :: rest) := rfl

theorem reads_nextLine_some (tokens : List Token) : ∃ line, Reads nextLine tokens line tokens :=
  ⟨_, rfl⟩

theorem reads_peek (tokens : List Token) :
    Reads peek tokens (tokens.head?.map Token.lexeme) tokens := rfl

theorem reads_peek_cons (lexeme : Lexeme) (rest : List Token) :
    Reads peek (.at 1 lexeme :: rest) (some lexeme) (.at 1 lexeme :: rest) := rfl

theorem reads_peekSecond (tokens : List Token) :
    Reads peekSecond tokens (tokens.tail.head?.map Token.lexeme) tokens := rfl

theorem reads_skip (token : Token) (rest : List Token) : Reads skip (token :: rest) () rest := rfl

theorem reads_sees (m : Mark) (tokens : List Token) :
    Reads (sees m) tokens (isMark m (tokens.head?.map Token.lexeme)) tokens := rfl

theorem reads_eat (m : Mark) (rest : List Token) : Reads (eat m) (m.token :: rest) true rest := by
  refine (reads_sees m _).bind ?_
  have same : isMark m ((m.token :: rest).head?.map Token.lexeme) = true := by
    simp [isMark, Token.lexeme]
  rw [same, if_pos rfl]
  exact (reads_skip ..).bind (.pure ..)

theorem reads_eat_other {m : Mark} (other : isMark m (tokens.head?.map Token.lexeme) = false) :
    Reads (eat m) tokens false tokens := by
  refine (reads_sees m _).bind ?_
  rw [other, if_neg Bool.false_ne_true]
  exact .pure ..

theorem reads_expect (m : Mark) (rest : List Token) : Reads (expect m) (m.token :: rest) () rest :=
  (reads_eat m rest).bind (.pure ..)

theorem reads_terminator (rest : List Token) :
    Reads terminator (Mark.semicolon.token :: rest) () rest :=
  (reads_eat .semicolon rest).bind (.pure ..)

theorem reads_bindingName {name : String} (isName : IsName name) (rest : List Token) :
    Reads bindingName (wordToken name :: rest) name rest := by
  refine (reads_peek _).bind ?_
  show Reads (if name ∈ reservedWords then _ else _) _ _ _
  rw [if_neg isName.2.1, if_neg isName.2.2]
  exact (reads_skip ..).bind (.pure ..)

/-! ## Lists in parentheses -/

/-- Does the lexeme follow an expression, rather than go on with it? -/
def closes : Option Lexeme → Bool
  | none | some (.mark .rightParen) | some (.mark .comma) | some (.mark .semicolon)
  | some (.mark .colon) => true
  | _ => false

/-- What comes next follows an expression. -/
def Closing (rest : List Token) : Prop :=
  closes (rest.head?.map Token.lexeme) = true

/-- From these tokens the parser reads the value, if something follows that ends an expression. -/
def ReadsPhrase {α : Type} (p : Parser α) (tokens : List Token) (value : α) : Prop :=
  ∀ rest, Closing rest → Reads p (tokens ++ rest) value rest

/-- From these tokens the parser reads an item of a list. -/
def ReadsItem {α : Type} (p : Parser α) (tokens : List Token) (value : α) : Prop :=
  (∃ lexeme more, tokens = .at 1 lexeme :: more ∧ isMark .rightParen (some lexeme) = false) ∧
    ReadsPhrase p tokens value

section

variable {α : Type} {item : Parser α} {items : List (List Token)} {values : List α}

theorem separated_cons (item : List Token) (items : List (List Token)) :
    separated (item :: items) =
      item ++ (if items = [] then [] else Mark.comma.token :: separated items) := by
  cases items with
  | nil => simp [separated]
  | cons => simp [separated]

theorem reads_commaList (each : List.Forall₂ (ReadsItem item) items values) {bound : Nat}
    (enough : items.length < bound) (rest : List Token) :
    Reads (commaList item bound) (separated items ++ Mark.rightParen.token :: rest) values
      rest := by
  induction each generalizing bound with
  | nil =>
    obtain ⟨bound, rfl⟩ := Nat.exists_eq_add_of_lt enough
    rw [commaList]
    exact (reads_eat .rightParen rest).bind (.pure ..)
  | @cons tokens value items values first others ih =>
    obtain ⟨bound, rfl⟩ := Nat.exists_eq_add_of_le' (Nat.zero_lt_of_lt enough)
    obtain ⟨⟨lexeme, more, rfl, other⟩, read⟩ := first
    rw [commaList, separated_cons, List.append_assoc]
    refine (reads_eat_other other).bind ?_
    rw [if_neg Bool.false_ne_true]
    have next := ih (Nat.lt_of_succ_lt_succ enough)
    cases items with
    | nil =>
      refine (read (Mark.rightParen.token :: rest) rfl).bind ((reads_sees ..).bind ?_)
      exact next.bind (.pure ..)
    | cons item items =>
      refine (read (Mark.comma.token ::
        (separated (item :: items) ++ Mark.rightParen.token :: rest)) rfl).bind ?_
      refine (reads_sees ..).bind ?_
      exact (reads_expect ..).bind (next.bind (.pure ..))

/-- Between the parentheses there are at least as many tokens as items. -/
theorem length_le_separated (each : List.Forall₂ (ReadsItem item) items values) :
    items.length ≤ (separated items).length := by
  induction each with
  | nil => exact Nat.zero_le _
  | @cons tokens value items values first others ih =>
    obtain ⟨⟨lexeme, more, rfl, -⟩, -⟩ := first
    rw [separated_cons]
    cases items with
    | nil => simp
    | cons => simp at ih ⊢; omega

theorem reads_closedList (each : List.Forall₂ (ReadsItem item) items values)
    (rest : List Token) :
    Reads (closedList item) (separated items ++ Mark.rightParen.token :: rest) values rest := by
  have enough : items.length <
      (separated items ++ Mark.rightParen.token :: rest).length + 1 := by
    have := length_le_separated each
    rw [List.length_append]
    omega
  exact reads_commaList each enough rest

end

theorem reads_parameters {params : List String} (names : ∀ param ∈ params, IsName param)
    (rest : List Token) : Reads parameters (paramTokens params ++ rest) params rest := by
  have each : List.Forall₂ (ReadsItem bindingName)
      (params.map fun param => [wordToken param]) params := by
    rw [List.forall₂_map_left_iff, List.forall₂_same]
    exact fun param member =>
      ⟨⟨_, _, rfl, rfl⟩, fun rest _ => reads_bindingName (names param member) rest⟩
  rw [paramTokens, parenthesized, List.cons_append, List.append_assoc, List.singleton_append]
  exact (reads_expect .leftParen _).bind (reads_closedList each rest)

/-! ## Operands and operators -/

theorem append_parenthesized (tokens rest : List Token) :
    parenthesized tokens ++ rest =
      Mark.leftParen.token :: (tokens ++ Mark.rightParen.token :: rest) := by
  rw [parenthesized, List.cons_append, List.append_assoc, List.singleton_append]

/-- Does the lexeme go on with a call, a property or a count? -/
def goesOn : Option Lexeme → Bool
  | some (.mark .leftParen) | some (.mark .dot) | some (.mark .plusPlus)
  | some (.mark .minusMinus) => true
  | _ => false

/-- Is the lexeme none of the operator's marks? -/
def Operator.Stops (operator : Operator) (tokens : List Token) : Prop :=
  ∀ m, tokens.head?.map Token.lexeme = some (.mark m) → operator m = none

/-- The binary operators, the weakest first. -/
def strengths : List Operator :=
  [disjunction, conjunction, equality, comparison, additive, multiplicative]

theorem closes_cases {lexeme : Option Lexeme} (closing : closes lexeme = true) :
    lexeme = none ∨ lexeme = some (.mark .rightParen) ∨ lexeme = some (.mark .comma) ∨
      lexeme = some (.mark .semicolon) ∨ lexeme = some (.mark .colon) := by
  unfold closes at closing
  split at closing <;> simp at closing ⊢

namespace Closing

variable (closing : Closing rest)

include closing

theorem goesOn_eq : goesOn (rest.head?.map Token.lexeme) = false := by
  rcases closes_cases closing with h | h | h | h | h <;> rw [h] <;> rfl

theorem isMark_arrow : isMark .arrow (rest.head?.map Token.lexeme) = false := by
  rcases closes_cases closing with h | h | h | h | h <;> rw [h] <;> rfl

theorem isMark_question : isMark .question (rest.head?.map Token.lexeme) = false := by
  rcases closes_cases closing with h | h | h | h | h <;> rw [h] <;> rfl

theorem assignOp?_eq : assignOp? (rest.head?.map Token.lexeme) = none := by
  rcases closes_cases closing with h | h | h | h | h <;> rw [h] <;> rfl

theorem stops : ∀ operator ∈ strengths, operator.Stops rest := by
  intro operator member m head
  have closed : closes (some (.mark m)) = true := by rw [← head]; exact closing
  simp only [strengths, List.mem_cons, List.not_mem_nil, or_false] at member
  rcases closes_cases closed with h | h | h | h | h <;> cases h <;>
    rcases member with rfl | rfl | rfl | rfl | rfl | rfl <;> rfl

end Closing

variable {level : Level} {around : Surroundings} {room : Nat} {e : Expr}

theorem reads_primary_parenthesized (inside : ReadsPhrase (level.assignment around) tokens e)
    (rest : List Token) : Reads (primary level around) (parenthesized tokens ++ rest) e rest := by
  rw [append_parenthesized]
  refine (reads_nextLine ..).bind ((reads_peek _).bind ((reads_skip ..).bind ?_))
  exact (inside (Mark.rightParen.token :: rest) rfl).bind ((reads_expect ..).bind (.pure ..))

theorem reads_postfixChain_stop (stop : goesOn (tokens.head?.map Token.lexeme) = false) :
    Reads (postfixChain level around room e) tokens e tokens := by
  obtain ⟨line, read⟩ := reads_nextLine_some tokens
  rw [postfixChain]
  refine read.bind ((reads_peek _).bind ?_)
  generalize tokens.head?.map Token.lexeme = next at stop
  split <;> first | exact .pure .. | cases stop

/-- An operand begins with no prefix operator. -/
def plainStart : Option Lexeme → Bool
  | some (.mark .bang) | some (.mark .minus) | some (.mark .plus) | some (.mark .plusPlus)
  | some (.mark .minusMinus) => false
  | some (.name word) => word != "typeof"
  | _ => true

theorem plainStart_name {name : String} (isName : IsName name) :
    plainStart (some (.name name)) = true :=
  bne_iff_ne.mpr fun same => isName.2.1 (same ▸ by decide)

theorem reads_prefixed {middle : List Token} {e' : Expr}
    (start : plainStart (tokens.head?.map Token.lexeme) = true)
    (first : Reads (primary level around) tokens e middle)
    (chain : Reads (postfixChain level around room e) middle e' rest) :
    Reads (prefixed level room around) tokens e' rest := by
  obtain ⟨line, read⟩ := reads_nextLine_some tokens
  have plain : Reads (prefixed.plain level room around) tokens e' rest := first.bind chain
  refine read.bind ((reads_peek _).bind ?_)
  generalize tokens.head?.map Token.lexeme = next at start
  split <;> first | exact plain | cases start | skip
  rename_i word
  rw [if_neg (bne_iff_ne.mp start)]
  exact plain

theorem reads_prefixed_parenthesized (inside : ReadsPhrase (level.assignment around) tokens e)
    (stop : goesOn (rest.head?.map Token.lexeme) = false) :
    Reads (prefixed level room around) (parenthesized tokens ++ rest) e rest :=
  reads_prefixed rfl (reads_primary_parenthesized inside rest) (reads_postfixChain_stop stop)

/-! ## Literals, names, calls and properties -/

theorem reads_primary_bool (value : Bool) (rest : List Token) :
    Reads (primary level around) (wordToken (if value then "true" else "false") :: rest)
      (.bool 1 value) rest := by
  refine (reads_nextLine ..).bind ((reads_peek _).bind ?_)
  cases value <;> exact (reads_skip ..).bind (.pure ..)

theorem reads_primary_name {name : String} (isName : IsName name) (rest : List Token) :
    Reads (primary level around) (wordToken name :: rest) (.name 1 name) rest := by
  have other {word : String} (reserved : word ∈ reservedWords) : name ≠ word := by
    rintro rfl
    exact isName.2.1 reserved
  refine (reads_nextLine ..).bind ((reads_peek _).bind ?_)
  show Reads (if name = "true" then _ else _) _ _ _
  rw [if_neg (other (by decide)), if_neg (other (by decide)), if_neg (other (by decide)),
    if_neg (other (by decide)), if_neg (other (by decide)), if_neg isName.2.1, if_neg isName.2.2]
  exact (reads_skip ..).bind (.pure ..)

/-- From this chunk the part is read. -/
inductive ReadsChunk (level : Level) : Chunk → Part → Prop
  | text (content : String) : ReadsChunk level (.text content) (.text content)
  | code {tokens : List Token} {e : Expr} :
    (∀ around, ReadsPhrase (level.assignment around) (parenthesized tokens) e) →
    ReadsChunk level (.code (parenthesized tokens)) (.value e)

theorem reads_lift {α : Type} {result : Except ScriptError α} {a : α} (ok : result = .ok a)
    (rest : List Token) : Reads (liftM result) rest a rest := by
  subst ok
  rfl

theorem reads_hole
    (value : ∀ around, ReadsPhrase (level.assignment around) (parenthesized tokens) e)
    (rest : List Token) :
    Reads (hole level around 1 (parenthesized tokens)) rest (.value e) rest := by
  have last : ((parenthesized tokens).getLast?.map Token.line).getD 1 = 1 := by
    simp [parenthesized, List.getLast?_cons, Token.line]
  have whole := value { around with inLoop := false } [] rfl
  rw [List.append_nil] at whole
  have reading : Reads (do
      let e ← level.assignment { around with inLoop := false }
      if (← peek).isSome then unexpected (Mark.rightBrace.shown ++ " in template literal")
      return e) (parenthesized tokens) e [] :=
    whole.bind ((reads_peek []).bind (.pure e []))
  unfold hole
  rw [last]
  exact (reads_lift reading rest).bind (.pure ..)

theorem reads_templateParts {chunks : List Chunk} {parts : List Part}
    (each : List.Forall₂ (ReadsChunk level) chunks parts) (rest : List Token) :
    Reads (templateParts level around 1 chunks) rest parts rest := by
  induction each with
  | nil => exact .pure ..
  | cons first _ ih =>
    cases first with
    | text content => exact ih.bind (.pure ..)
    | code value => exact (reads_hole value rest).bind (ih.bind (.pure ..))

theorem reads_primary_template {chunks : List Chunk} {parts : List Part}
    (each : List.Forall₂ (ReadsChunk level) chunks parts) (rest : List Token) :
    Reads (primary level around) (.at 1 (.template chunks) :: rest) (.template 1 parts) rest :=
  (reads_nextLine ..).bind ((reads_peek _).bind ((reads_skip ..).bind
    ((reads_templateParts each rest).bind (.pure ..))))

theorem reads_postfixChain_call {items : List (List Token)} {args : List Expr}
    (each : List.Forall₂ (ReadsItem (level.assignment around)) items args)
    (stop : goesOn (rest.head?.map Token.lexeme) = false) :
    Reads (postfixChain level around (room + 1) e) (parenthesized (separated items) ++ rest)
      (.call 1 e args) rest := by
  rw [append_parenthesized, postfixChain]
  refine (reads_nextLine ..).bind ((reads_peek _).bind ((reads_skip ..).bind ?_))
  exact (reads_closedList each rest).bind (reads_postfixChain_stop stop)

theorem reads_postfixChain_member (property : String)
    (stop : goesOn (rest.head?.map Token.lexeme) = false) :
    Reads (postfixChain level around (room + 1) e) (Mark.dot.token :: wordToken property :: rest)
      (.member 1 e property) rest := by
  rw [postfixChain]
  refine (reads_nextLine ..).bind ((reads_peek _).bind ((reads_skip ..).bind ?_))
  exact (reads_peek _).bind ((reads_skip ..).bind (reads_postfixChain_stop stop))

theorem reads_postfixChain_count (count : Count) (target : String) (rest : List Token) :
    Reads (postfixChain level around room (.name 1 target)) (count.mark.token :: rest)
      (.update 1 count .before target) rest := by
  rw [postfixChain]
  refine (reads_nextLine ..).bind ((reads_peek _).bind ?_)
  cases count <;> exact (reads_skip ..).bind (.pure ..)

theorem reads_prefixed_count (count : Count) {target : String} (isName : IsName target)
    (rest : List Token) :
    Reads (prefixed level room around) (count.mark.token :: wordToken target :: rest)
      (.update 1 count .after target) rest := by
  refine (reads_nextLine ..).bind ((reads_peek _).bind ?_)
  cases count <;>
    exact (reads_skip ..).bind ((reads_bindingName isName rest).bind (.pure ..))

theorem reads_prefixed_unary (op : UnaryOp) (operand : Reads (level.operand around) tokens e rest) :
    Reads (prefixed level room around) (op.token :: tokens) (.unary 1 op e) rest := by
  have here : Reads nextLine (op.token :: tokens) 1 (op.token :: tokens) := by cases op <;> rfl
  refine here.bind ((reads_peek _).bind ?_)
  cases op <;> exact (reads_skip ..).bind (operand.bind (.pure ..))

/-! ## Chains of operators -/

theorem reads_operatorChain_stop {operator : Operator} {operand : Parser Expr}
    (stop : operator.Stops tokens) :
    Reads (operatorChain operator operand room e) tokens e tokens := by
  rw [operatorChain]
  refine (reads_peek _).bind ?_
  unfold Operator.Stops at stop
  generalize tokens.head?.map Token.lexeme = next at stop
  split
  · rename_i m
    rw [stop m rfl]
    exact .pure ..
  · exact .pure ..

/-- Without operators, there is just the operand. -/
theorem reads_joined_stop {operand : Parser Expr} {operators : List Operator}
    (read : Reads operand tokens e rest) (stops : ∀ operator ∈ operators, operator.Stops rest) :
    Reads (joined room operand operators) tokens e rest := by
  induction operators with
  | nil => exact read
  | cons operator stronger ih =>
    rw [List.forall_mem_cons] at stops
    exact (ih stops.2).bind (reads_operatorChain_stop stops.1)

/-- The mark belongs to an operator of the list, which makes this of its sides, and to none that is
stronger. -/
def Joins (m : Mark) (combine : Expr → Expr → Expr) : List Operator → Prop
  | [] => False
  | operator :: stronger =>
    (operator m = some combine ∧ ∀ other ∈ stronger, other m = none) ∨
      (operator m = none ∧ Joins m combine stronger)

theorem reads_joined {operand : Parser Expr} {operators : List Operator} {m : Mark}
    {combine : Expr → Expr → Expr} {middle : List Token} {left right : Expr}
    (joins : Joins m combine operators) (first : Reads operand tokens left (m.token :: middle))
    (second : Reads operand middle right rest)
    (stops : ∀ operator ∈ operators, operator.Stops rest) :
    Reads (joined (room + 1) operand operators) tokens (combine left right) rest := by
  have marked {operator : Operator} (none : operator m = none) :
      operator.Stops (m.token :: middle) := fun n same => by cases same; exact none
  induction operators with
  | nil => exact joins.elim
  | cons operator stronger ih =>
    rw [List.forall_mem_cons] at stops
    rcases joins with ⟨makes, others⟩ | ⟨none, joins⟩
    -- the stronger operators stop before the mark, so each side is an operand of this one
    · refine (reads_joined_stop first fun other member => marked (others other member)).bind ?_
      rw [operatorChain]
      refine (reads_peek_cons ..).bind ?_
      dsimp only
      rw [makes]
      refine (reads_skip ..).bind ?_
      exact (reads_joined_stop second stops.2).bind (reads_operatorChain_stop stops.1)
    -- a stronger operator takes the mark, and this one has the whole as its only operand
    · exact (ih joins stops.2).bind (reads_operatorChain_stop stops.1)

theorem reads_conditional {condition yes no : List Token} {c y n : Expr}
    (first : ∀ rest, Reads (operation level room around)
      (condition ++ Mark.question.token :: rest) c (Mark.question.token :: rest))
    (second : ReadsPhrase (level.assignment around) yes y)
    (third : ReadsPhrase (level.assignment around) no n) :
    ReadsPhrase (conditional level room around)
      (condition ++ Mark.question.token :: yes ++ Mark.colon.token :: no)
      (.conditional c.line c y n) := by
  intro rest closing
  rw [List.append_assoc, List.append_assoc]
  refine (first _).bind ((reads_eat ..).bind ?_)
  rw [if_pos rfl]
  refine (second (Mark.colon.token :: (no ++ rest)) rfl).bind ((reads_expect ..).bind ?_)
  exact (third rest closing).bind (.pure ..)

theorem reads_conditional_stop (read : Reads (operation level room around) tokens e rest)
    (stop : isMark .question (rest.head?.map Token.lexeme) = false) :
    Reads (conditional level room around) tokens e rest := by
  refine read.bind ((reads_eat_other stop).bind ?_)
  rw [if_neg Bool.false_ne_true]
  exact .pure ..

/-! ## Assignments and arrow functions -/

/-- Do these lexemes begin an assignment, or an arrow function without parentheses? -/
def startsAssignment : Option Lexeme → Option Lexeme → Bool
  | some (.name _), second => isMark .arrow second || (assignOp? second).isSome
  | _, _ => false

/-- Do the tokens begin with the parameters of an arrow function? -/
def startsArrow : List Token → Bool
  | .at _ (.mark .leftParen) :: rest => arrowAfterParen rest 0
  | _ => false

theorem reads_seesArrowParameters (tokens : List Token) :
    Reads seesArrowParameters tokens (startsArrow tokens) tokens := by
  unfold startsArrow
  split
  · rfl
  · rename_i other
    have whole : Reads get tokens ⟨tokens, 1⟩ tokens := rfl
    refine whole.bind ?_
    split
    · rename_i same
      exact absurd same (other _ _)
    · exact .pure ..

theorem reads_assignment_conditional
    (first : startsAssignment (tokens.head?.map Token.lexeme)
      (tokens.tail.head?.map Token.lexeme) = false)
    (second : startsArrow tokens = false)
    (read : Reads (conditional level room around) tokens e rest)
    (after : assignOp? (rest.head?.map Token.lexeme) = none) :
    Reads (assignment level room around) tokens e rest := by
  obtain ⟨line, here⟩ := reads_nextLine_some tokens
  have unassigned : Reads (assignment.unassigned level room around line) tokens e rest := by
    refine (reads_seesArrowParameters tokens).bind ?_
    rw [second, if_neg Bool.false_ne_true]
    refine read.bind ((reads_peek _).bind ?_)
    rw [after]
    exact .pure ..
  refine here.bind ((reads_peek _).bind ((reads_peekSecond _).bind ?_))
  generalize tokens.head?.map Token.lexeme = head at first
  generalize tokens.tail.head?.map Token.lexeme = next at first
  split
  · cases first
  · simp only [startsAssignment, Bool.or_eq_false_iff, Option.isSome_eq_false_iff,
      Option.isNone_iff_eq_none] at first
    rw [first.2]
    exact unassigned
  · exact unassigned

/-- Before what ends an expression, the tokens begin neither an assignment nor an arrow function. -/
def Unassigned (tokens : List Token) : Prop :=
  ∀ rest, Closing rest →
    startsAssignment ((tokens ++ rest).head?.map Token.lexeme)
        ((tokens ++ rest).tail.head?.map Token.lexeme) = false ∧
      startsArrow (tokens ++ rest) = false

theorem readsPhrase_conditional (free : Unassigned tokens)
    (read : ReadsPhrase (conditional level room around) tokens e) :
    ReadsPhrase (assignment level room around) tokens e := fun rest closing =>
  reads_assignment_conditional (free rest closing).1 (free rest closing).2 (read rest closing)
    closing.assignOp?_eq

theorem readsPhrase_operation (free : Unassigned tokens)
    (read : ReadsPhrase (operation level room around) tokens e) :
    ReadsPhrase (assignment level room around) tokens e :=
  readsPhrase_conditional free fun rest closing =>
    reads_conditional_stop (read rest closing) closing.isMark_question

theorem readsPhrase_prefixed (free : Unassigned tokens)
    (read : ReadsPhrase (prefixed level room around) tokens e) :
    ReadsPhrase (assignment level room around) tokens e :=
  readsPhrase_operation free fun rest closing => reads_joined_stop (read rest closing) closing.stops

theorem readsPhrase_primary (free : Unassigned tokens)
    (start : ∀ rest, plainStart ((tokens ++ rest).head?.map Token.lexeme) = true)
    (read : ∀ rest, Reads (primary level around) (tokens ++ rest) e rest) :
    ReadsPhrase (assignment level room around) tokens e :=
  readsPhrase_prefixed free fun rest closing =>
    reads_prefixed (start rest) (read rest) (reads_postfixChain_stop closing.goesOn_eq)

section

variable {holds : Lexeme → Prop} (brackets : ∀ m, holds (.mark m) → m.isBracket = false)

include brackets

/-- The search for the end of the parameters passes over matching parentheses. -/
theorem arrowAfterParen_matched (matched : Matched holds tokens) (rest : List Token)
    (opened : Nat) :
    arrowAfterParen (tokens ++ rest) opened = arrowAfterParen rest opened := by
  induction matched generalizing rest opened with
  | nil => rfl
  | @lexeme lexeme isIt =>
    cases lexeme with
    | mark m =>
      have other := brackets m isIt
      cases m <;> first | rfl | cases other
    | _ => rfl
  | append _ _ first second => rw [List.append_assoc, first, second]
  | @parens tokens _ ih =>
    rw [append_parenthesized]
    show arrowAfterParen (tokens ++ _) (opened + 1) = _
    rw [ih]
    rfl
  | @braces tokens _ ih =>
    rw [braced, List.cons_append, List.append_assoc]
    show arrowAfterParen (tokens ++ _) opened = _
    rw [ih]
    rfl

theorem startsArrow_parenthesized (matched : Matched holds tokens) (rest : List Token) :
    startsArrow (parenthesized tokens ++ rest) = isMark .arrow (rest.head?.map Token.lexeme) := by
  rw [append_parenthesized]
  exact arrowAfterParen_matched brackets matched _ 0

/-- After an expression in parentheses anything but an arrow can follow. -/
theorem unassigned_parenthesized (matched : Matched holds tokens) (more : List Token)
    (other : ∀ rest, Closing rest → isMark .arrow ((more ++ rest).head?.map Token.lexeme) = false) :
    Unassigned (parenthesized tokens ++ more) := by
  intro rest closing
  rw [List.append_assoc]
  exact ⟨rfl, (startsArrow_parenthesized brackets matched _).trans (other rest closing)⟩

theorem readsItem_parenthesized (matched : Matched holds tokens)
    (inside : ReadsPhrase (level.assignment around) tokens e) :
    ReadsItem (assignment level room around) (parenthesized tokens) e := by
  refine ⟨⟨_, _, rfl, rfl⟩, ?_⟩
  have free := unassigned_parenthesized brackets matched [] fun rest closing =>
    closing.isMark_arrow
  rw [List.append_nil] at free
  exact readsPhrase_primary free (fun _ => rfl) fun rest => reads_primary_parenthesized inside rest

end

theorem reads_operation_parenthesized (inside : ReadsPhrase (level.assignment around) tokens e)
    (rest : List Token) :
    Reads (operation level room around) (parenthesized tokens ++ Mark.question.token :: rest) e
      (Mark.question.token :: rest) := by
  refine reads_joined_stop (reads_prefixed_parenthesized inside rfl) ?_
  rintro operator member m ⟨⟩
  simp only [List.mem_cons, List.not_mem_nil, or_false] at member
  rcases member with rfl | rfl | rfl | rfl | rfl | rfl <;> rfl

/-- Two operands and the operator between them. -/
theorem reads_operation {m : Mark} {combine : Expr → Expr → Expr} {left right : List Token}
    {l r : Expr} (joins : Joins m combine strengths) (free : goesOn (some (.mark m)) = false)
    (first : ReadsPhrase (level.assignment around) left l)
    (second : ReadsPhrase (level.assignment around) right r) :
    ReadsPhrase (operation level (room + 1) around)
      (parenthesized left ++ m.token :: parenthesized right) (combine l r) := by
  intro rest closing
  rw [List.append_assoc]
  exact reads_joined joins (reads_prefixed_parenthesized first free)
    (reads_prefixed_parenthesized second closing.goesOn_eq) closing.stops

theorem joins_binary (op : BinaryOp) :
    Joins op.mark (fun left right => .binary left.line op left right) strengths := by
  cases op <;> simp [Joins, strengths, BinaryOp.mark, disjunction, conjunction, equality,
    comparison, additive, multiplicative, binaryOperator]

theorem joins_logical (op : LogicalOp) :
    Joins op.mark (fun left right => .logical left.line op left right) strengths := by
  cases op <;> simp [Joins, strengths, LogicalOp.mark, disjunction, conjunction, equality,
    comparison, additive, multiplicative, logicalOperator]

theorem reads_assign {op : AssignOp} {target : String} (isName : IsName target)
    (value : ReadsPhrase (level.assignment around) tokens e) :
    ReadsPhrase (assignment level room around) (wordToken target :: op.mark.token :: tokens)
      (.assign 1 op target e) := by
  intro rest closing
  refine (reads_nextLine ..).bind ((reads_peek _).bind ((reads_peekSecond _).bind ?_))
  cases op
  all_goals
    show Reads (if target ∈ reservedWords then _ else _) _ _ _
    rw [if_neg isName.2.1]
    exact (reads_skip ..).bind ((reads_skip ..).bind ((value rest closing).bind (.pure ..)))

/-- An arrow function with the value of an expression. -/
theorem reads_arrow {params : List String} (names : ∀ param ∈ params, IsName param)
    (starts : ∀ rest, startsArrow (paramTokens params ++ Mark.arrow.token :: rest) = true)
    (value : ReadsPhrase (level.assignment .function) (parenthesized tokens) e) :
    ReadsPhrase (assignment level room around)
      (paramTokens params ++ Mark.arrow.token :: parenthesized tokens)
      (.function 1 (.mk none params (.value e) 1)) := by
  intro rest closing
  rw [List.append_assoc, List.cons_append]
  have arrow := starts (parenthesized tokens ++ rest)
  have taken := reads_parameters names (Mark.arrow.token :: (parenthesized tokens ++ rest))
  obtain ⟨more, opened⟩ : ∃ more, paramTokens params ++
      Mark.arrow.token :: (parenthesized tokens ++ rest) = Mark.leftParen.token :: more := ⟨_, rfl⟩
  rw [opened] at arrow taken ⊢
  refine (reads_nextLine ..).bind ((reads_peek _).bind ((reads_peekSecond _).bind ?_))
  refine (reads_seesArrowParameters _).bind ?_
  rw [arrow, if_pos rfl]
  refine taken.bind ((reads_expect ..).bind ?_)
  refine (reads_sees ..).bind ?_
  show Reads (Body.value <$> _ >>= _) _ _ _
  exact ((value rest closing).map Body.value).bind (.pure ..)

/-! ## Statements in braces, and functions -/

/-- Is the lexeme the word before the second branch of a choice? -/
def isElse : Option Lexeme → Bool
  | some (.name word) => word == "else"
  | _ => false

/-- From these tokens the parser reads the statement. After a choice there must not come another
branch. -/
def ReadsStatement (p : Parser Stmt) (tokens : List Token) (s : Stmt) : Prop :=
  (∃ lexeme more, tokens = .at 1 lexeme :: more ∧ isMark .rightBrace (some lexeme) = false ∧
    isElse (some lexeme) = false) ∧
    ∀ rest, (s.IsChoice → isElse (rest.head?.map Token.lexeme) = false) →
      Reads p (tokens ++ rest) s rest

section

variable {statement : Parser Stmt} {items : List (List Token)} {statements : List Stmt}

/-- After statements in braces there comes no second branch. -/
theorem isElse_flatten (each : List.Forall₂ (ReadsStatement statement) items statements)
    (rest : List Token) (last : isElse (rest.head?.map Token.lexeme) = false) :
    isElse ((items.flatten ++ rest).head?.map Token.lexeme) = false := by
  cases each with
  | nil => exact last
  | cons first _ =>
    obtain ⟨⟨lexeme, more, rfl, -, other⟩, -⟩ := first
    exact other

theorem length_le_flatten (each : List.Forall₂ (ReadsStatement statement) items statements) :
    items.length ≤ items.flatten.length := by
  induction each with
  | nil => exact Nat.zero_le _
  | cons first _ ih =>
    obtain ⟨⟨lexeme, more, rfl, -⟩, -⟩ := first
    simp only [List.flatten_cons, List.length_cons, List.length_append] at ih ⊢
    omega

theorem reads_statementsToBrace
    (each : List.Forall₂ (ReadsStatement statement) items statements) {bound : Nat}
    (enough : items.length < bound) (rest : List Token) :
    Reads (statementsToBrace statement bound) (items.flatten ++ Mark.rightBrace.token :: rest)
      statements rest := by
  induction each generalizing bound with
  | nil =>
    obtain ⟨bound, rfl⟩ := Nat.exists_eq_add_of_le' (Nat.zero_lt_of_lt enough)
    rw [statementsToBrace]
    exact (reads_peek _).bind ((reads_skip ..).bind (.pure ..))
  | @cons tokens s items statements first others ih =>
    obtain ⟨bound, rfl⟩ := Nat.exists_eq_add_of_le' (Nat.zero_lt_of_lt enough)
    obtain ⟨⟨lexeme, more, rfl, brace, -⟩, read⟩ := first
    have after := isElse_flatten others (Mark.rightBrace.token :: rest) rfl
    rw [statementsToBrace, List.flatten_cons, List.append_assoc]
    refine (reads_peek_cons ..).bind ?_
    split
    · rename_i same
      cases same
      cases brace
    · rename_i none
      cases none
    · exact (read _ fun _ => after).bind ((ih (Nat.lt_of_succ_lt_succ enough)).bind (.pure ..))

theorem reads_statementsToEnd
    (each : List.Forall₂ (ReadsStatement statement) items statements) {bound : Nat}
    (enough : items.length < bound) :
    Reads (statementsToEnd statement bound) items.flatten statements [] := by
  induction each generalizing bound with
  | nil =>
    obtain ⟨bound, rfl⟩ := Nat.exists_eq_add_of_le' (Nat.zero_lt_of_lt enough)
    rw [statementsToEnd]
    exact (reads_peek _).bind (.pure ..)
  | @cons tokens s items statements first others ih =>
    obtain ⟨bound, rfl⟩ := Nat.exists_eq_add_of_le' (Nat.zero_lt_of_lt enough)
    obtain ⟨⟨lexeme, more, rfl, -⟩, read⟩ := first
    have after := isElse_flatten others [] rfl
    rw [List.append_nil] at after
    rw [statementsToEnd, List.flatten_cons]
    exact (reads_peek _).bind ((read _ fun _ => after).bind
      ((ih (Nat.lt_of_succ_lt_succ enough)).bind (.pure ..)))

end

theorem append_braced (tokens rest : List Token) :
    braced tokens ++ rest = Mark.leftBrace.token :: (tokens ++ Mark.rightBrace.token :: rest) := by
  rw [braced, List.cons_append, List.append_assoc, List.singleton_append]

theorem reads_block {items : List (List Token)} {statements : List Stmt}
    (each : List.Forall₂ (ReadsStatement (level.statement around)) items statements)
    (rest : List Token) :
    Reads (block level around) (braced items.flatten ++ rest) statements rest := by
  have enough : items.length <
      (items.flatten ++ Mark.rightBrace.token :: rest).length + 1 := by
    have := length_le_flatten each
    rw [List.length_append]
    omega
  rw [append_braced]
  exact (reads_expect .leftBrace _).bind (reads_statementsToBrace each enough rest)

/-- A function after its word. -/
theorem reads_functionRest {name : Option String} {params : List String}
    {items : List (List Token)} {statements : List Stmt} (mustBeNamed : Bool)
    (isName : ∀ word ∈ name, IsName word) (named : mustBeNamed = true → name.isSome)
    (names : ∀ param ∈ params, IsName param)
    (each : List.Forall₂ (ReadsStatement (level.statement .function)) items statements)
    (line : Nat) (rest : List Token) :
    Reads (functionRest level mustBeNamed line)
      (name.toList.map wordToken ++ (paramTokens params ++ (braced items.flatten ++ rest)))
      (.mk name params (.block statements) line) rest := by
  have others (name : Option String) : Reads (do
      let params ← parameters
      let body ← functionBlock level
      return .mk name params (.block body) line)
      (paramTokens params ++ (braced items.flatten ++ rest))
      (Definition.mk name params (.block statements) line) rest :=
    (reads_parameters names _).bind ((reads_block each rest).bind (.pure ..))
  refine (reads_peek _).bind ?_
  cases name with
  | some word =>
    show Reads (some <$> bindingName >>= _) _ _ _
    exact ((reads_bindingName (isName word rfl) _).map some).bind (others (some word))
  | none =>
    have free : mustBeNamed = false := Bool.eq_false_iff.mpr fun must => by cases named must
    subst free
    show Reads (Pure.pure none >>= _) _ _ _
    exact (Reads.pure none _).bind (others none)

/-! ## Statements -/

section

variable {word : Declarator} {name : String}

theorem reads_declaration_none (isName : IsName name) (optional : word ≠ .constWord)
    (rest : List Token) :
    Reads (declaration level around word)
      (wordToken word.word :: wordToken name :: Mark.semicolon.token :: rest)
      (.declare 1 word name none) rest := by
  refine (reads_nextLine ..).bind ((reads_skip ..).bind ((reads_bindingName isName _).bind ?_))
  refine (reads_eat_other rfl).bind ?_
  rw [if_neg Bool.false_ne_true]
  refine (Reads.pure none _).bind ?_
  dsimp only
  rw [if_neg fun both => optional both.1]
  exact (reads_sees ..).bind ((reads_terminator rest).bind (.pure ..))

theorem reads_declaration_some (isName : IsName name)
    (init : ReadsPhrase (level.assignment around) tokens e) (rest : List Token) :
    Reads (declaration level around word)
      (wordToken word.word :: wordToken name :: Mark.assign.token ::
        (tokens ++ Mark.semicolon.token :: rest))
      (.declare 1 word name (some e)) rest := by
  refine (reads_nextLine ..).bind ((reads_skip ..).bind ((reads_bindingName isName _).bind ?_))
  refine (reads_eat ..).bind ?_
  rw [if_pos rfl]
  refine ((init (Mark.semicolon.token :: rest) rfl).map some).bind ?_
  dsimp only
  rw [if_neg fun both => by cases both.2]
  exact (reads_sees ..).bind ((reads_terminator rest).bind (.pure ..))

theorem reads_statement_declaration {s : Stmt}
    (read : Reads (declaration level around word) (wordToken word.word :: tokens) s rest) :
    Reads (statement level around) (wordToken word.word :: tokens) s rest := by
  refine (reads_peek _).bind ?_
  cases word <;> exact read

end

theorem reads_condition (inside : ReadsPhrase (level.assignment around) tokens e)
    (rest : List Token) : Reads (condition level around) (parenthesized tokens ++ rest) e rest := by
  rw [append_parenthesized]
  refine (reads_expect ..).bind ?_
  exact (inside (Mark.rightParen.token :: rest) rfl).bind ((reads_expect ..).bind (.pure ..))

theorem reads_choice_none {yes : List Token} {y : Stmt}
    (condition : ReadsPhrase (level.assignment around) tokens e)
    (first : ReadsStatement (level.statement around) yes y) (block : ¬ y.IsChoice)
    (after : isElse (rest.head?.map Token.lexeme) = false) :
    Reads (statement level around) (wordToken "if" :: parenthesized tokens ++ yes ++ rest)
      (.choose e y none) rest := by
  rw [List.append_assoc]
  have chosen : Reads (choice level around)
      (wordToken "if" :: (parenthesized tokens ++ (yes ++ rest))) (.choose e y none) rest := by
    refine (reads_skip ..).bind ((reads_condition condition _).bind ?_)
    refine (first.2 rest fun choice => absurd choice block).bind ((reads_peek _).bind ?_)
    generalize rest.head?.map Token.lexeme = next at after
    split
    · rename_i word
      rw [if_neg (by simpa [isElse] using after)]
      exact .pure ..
    · exact .pure ..
  exact (reads_peek _).bind chosen

theorem reads_choice_some {yes no : List Token} {y n : Stmt}
    (condition : ReadsPhrase (level.assignment around) tokens e)
    (first : ReadsStatement (level.statement around) yes y) (block : ¬ y.IsChoice)
    (second : ReadsStatement (level.statement around) no n)
    (after : isElse (rest.head?.map Token.lexeme) = false) :
    Reads (statement level around)
      (wordToken "if" :: parenthesized tokens ++ yes ++ wordToken "else" :: no ++ rest)
      (.choose e y (some n)) rest := by
  rw [List.append_assoc, List.append_assoc]
  have chosen : Reads (choice level around)
      (wordToken "if" :: (parenthesized tokens ++ (yes ++ wordToken "else" :: (no ++ rest))))
      (.choose e y (some n)) rest := by
    refine (reads_skip ..).bind ((reads_condition condition _).bind ?_)
    refine (first.2 _ fun choice => absurd choice block).bind ((reads_peek _).bind ?_)
    show Reads (if "else" = "else" then _ else _) _ _ _
    rw [if_pos rfl]
    exact (reads_skip ..).bind ((second.2 rest fun _ => after).bind (.pure ..))
  exact (reads_peek _).bind chosen

theorem reads_while {body : List Token} {s : Stmt}
    (condition : ReadsPhrase (level.assignment around) tokens e)
    (round : ReadsStatement (level.statement around.loop) body s) (block : ¬ s.IsChoice)
    (rest : List Token) :
    Reads (statement level around) (wordToken "while" :: parenthesized tokens ++ body ++ rest)
      (.whileLoop e s) rest := by
  rw [List.append_assoc]
  have looped : Reads (whileLoop level around)
      (wordToken "while" :: (parenthesized tokens ++ (body ++ rest))) (.whileLoop e s) rest := by
    refine (reads_skip ..).bind ((reads_condition condition _).bind ?_)
    exact (round.2 rest fun choice => absurd choice block).bind (.pure ..)
  exact (reads_peek _).bind looped

/-- From these tokens an expression is read that need not be there. -/
inductive ReadsOptional (p : Parser Expr) : List Token → Option Expr → Prop
  | absent : ReadsOptional p [] none
  | present {tokens : List Token} {e : Expr} :
    ReadsItem p (parenthesized tokens) e → ReadsOptional p (parenthesized tokens) (some e)

theorem ReadsOptional.reads {value : Option Expr}
    (optional : ReadsOptional (level.assignment around) tokens value) {ending : Mark}
    (closing : closes (some (.mark ending)) = true) (rest : List Token) :
    Reads (optionalExpression level around ending) (tokens ++ ending.token :: rest) value
      (ending.token :: rest) := by
  refine (reads_sees ..).bind ?_
  cases optional with
  | absent =>
    rw [if_pos (by simp [isMark, Token.lexeme])]
    exact .pure ..
  | present item =>
    have other : ending ≠ .leftParen := by
      rintro rfl
      cases closing
    rw [if_neg (by simpa [isMark, parenthesized, Token.lexeme] using other)]
    exact (item.2 (ending.token :: rest) closing).map some

theorem reads_for {start condition update body : List Token} {init : Option Stmt}
    {c u : Option Expr} {s : Stmt}
    (first : ∀ rest, Reads (loopStart level around) (start ++ rest) init rest)
    (second : ReadsOptional (level.assignment around) condition c)
    (third : ReadsOptional (level.assignment around) update u)
    (round : ReadsStatement (level.statement around.loop) body s) (block : ¬ s.IsChoice)
    (rest : List Token) :
    Reads (statement level around)
      (wordToken "for" :: parenthesized (start ++ condition ++ Mark.semicolon.token :: update) ++
        body ++ rest)
      (.forLoop init c u s) rest := by
  rw [List.append_assoc, List.cons_append, append_parenthesized, List.append_assoc,
    List.append_assoc, List.cons_append]
  have looped : Reads (forLoop level around)
      (wordToken "for" :: Mark.leftParen.token :: (start ++ (condition ++
        Mark.semicolon.token :: (update ++ Mark.rightParen.token :: (body ++ rest)))))
      (.forLoop init c u s) rest := by
    refine (reads_skip ..).bind ((reads_expect ..).bind ((first _).bind ?_))
    refine (second.reads rfl _).bind ((reads_expect ..).bind ?_)
    refine (third.reads rfl _).bind ((reads_expect ..).bind ?_)
    exact (round.2 rest fun choice => absurd choice block).bind (.pure ..)
  exact (reads_peek _).bind looped

theorem reads_return {value : Option Expr} (inFunction : around.inFunction = true)
    (optional : ReadsOptional (level.assignment around) tokens value) (rest : List Token) :
    Reads (statement level around)
      (wordToken "return" :: tokens ++ [Mark.semicolon.token] ++ rest) (.giveBack value) rest := by
  rw [List.append_assoc, List.singleton_append, List.cons_append]
  have given : Reads (giveBack level around)
      (wordToken "return" :: (tokens ++ Mark.semicolon.token :: rest)) (.giveBack value) rest := by
    refine (reads_nextLine ..).bind ((reads_skip ..).bind ?_)
    dsimp only
    rw [inFunction, if_neg (by decide)]
    refine (reads_peek _).bind ?_
    cases optional with
    | absent =>
      refine (Reads.pure none _).bind ?_
      exact (reads_terminator rest).bind (.pure ..)
    | present item =>
      refine ((item.2 (Mark.semicolon.token :: rest) rfl).map some).bind ?_
      exact (reads_terminator rest).bind (.pure ..)
  exact (reads_peek _).bind given

theorem reads_jump {word : String} {s : Stmt} (inLoop : around.inLoop = true) (rest : List Token) :
    Reads (jump around word s) (wordToken word :: Mark.semicolon.token :: rest) s rest := by
  refine (reads_nextLine ..).bind ((reads_skip ..).bind ?_)
  dsimp only
  rw [inLoop, if_neg (by decide)]
  exact (reads_terminator rest).bind (.pure ..)

theorem reads_evaluate (read : ReadsItem (level.assignment around) (parenthesized tokens) e)
    (rest : List Token) :
    Reads (statement level around) (parenthesized tokens ++ [Mark.semicolon.token] ++ rest)
      (.evaluate e) rest := by
  rw [List.append_assoc, List.singleton_append]
  refine (reads_peek _).bind ((reads_peek _).bind ?_)
  exact (read.2 (Mark.semicolon.token :: rest) rfl).bind ((reads_terminator rest).bind (.pure ..))

theorem reads_statement_block {items : List (List Token)} {statements : List Stmt}
    (each : List.Forall₂ (ReadsStatement (level.statement around)) items statements)
    (rest : List Token) :
    Reads (statement level around) (braced items.flatten ++ rest) (.block statements) rest :=
  (reads_peek _).bind ((reads_peek _).bind ((reads_block each rest).bind (.pure ..)))

theorem reads_define {name : String} {definition : Definition}
    (read : Reads (functionRest level true 1) (wordToken name :: tokens) definition rest) :
    Reads (statement level around) (wordToken "function" :: wordToken name :: tokens)
      (.define definition) rest :=
  (reads_peek _).bind ((reads_peekSecond _).bind ((reads_nextLine ..).bind ((reads_skip ..).bind
    (read.bind (.pure ..)))))

/-! ## What a loop does first -/

theorem reads_loopStart_none (rest : List Token) :
    Reads (loopStart level around) (Mark.semicolon.token :: rest) none rest :=
  (reads_eat ..).bind (.pure ..)

theorem reads_loopStart_declaration {word : Declarator} {s : Stmt}
    (read : Reads (declaration level around word) (wordToken word.word :: tokens) s rest) :
    Reads (loopStart level around) (wordToken word.word :: tokens) (some s) rest := by
  refine (reads_eat_other rfl).bind ((reads_peek _).bind ?_)
  cases word <;> exact read.map some

theorem reads_loopStart_evaluate
    (read : ReadsItem (level.assignment around) (parenthesized tokens) e) (rest : List Token) :
    Reads (loopStart level around) (parenthesized tokens ++ [Mark.semicolon.token] ++ rest)
      (some (.evaluate e)) rest := by
  rw [List.append_assoc, List.singleton_append]
  refine (reads_eat_other rfl).bind ((reads_peek _).bind ?_)
  exact (read.2 (Mark.semicolon.token :: rest) rfl).bind ((reads_expect ..).bind (.pure ..))

end EventLoop.Parsing
