import Scriptlet.Proofs.Parser.Reading
import Scriptlet.Proofs.Parser.Strata

/-!
# What follows the grammar is read without complaint

The other direction: tokens that the grammar derives with at most `room` levels of nesting are read
by the parsers of that room, nothing is reported, and the tree is the one of the derivation.

Conditions on what follows make up for the parser's greed. An expression is read to its end only in
front of a token that binds no tighter than its operators and is no `else`, which the parser would
take for a branch of a conditional. A statement is read to its end only if no further `;` follows.
In a derivation of a whole program these conditions always hold.

For expressions, the derivation is followed along its left operands. These are read inside the same
loop, so the statement is that the loop can be resumed behind them: whatever it reads from there on,
it reads from the beginning.
-/

namespace Scriptlet

namespace Grammar

theorem Block.firstKind_eq {nesting : Nat} {tokens rest : List Token} {body : Scriptlet.Block}
    (block : Block nesting tokens body rest) : firstKind tokens = .lbrace := by
  cases block with
  | closed opens => exact opens
  | unclosed opens => exact opens

theorem Statement.firstKind_mem {nesting : Nat} {tokens rest : List Token} {stmt : Stmt}
    (statement : Statement nesting tokens stmt rest) :
    firstKind tokens ∈ .kwLet :: .kwReturn :: .lbrace :: starters := by
  cases statement with
  | letBind isLet => simp [isLet]
  | ret isReturn => simp [isReturn]
  | expr expression =>
      have starts := expression.firstKind_mem
      simp only [List.mem_cons]
      exact .inr (.inr (.inr starts))
  | block inner => simp [inner.firstKind_eq]

theorem Expressions.firstKind_mem {nesting : Nat} {input rest : List Token} {exprs : List Expr}
    (expressions : Expressions nesting input exprs rest) : firstKind input ∈ starters := by
  cases expressions with
  | one expression => exact expression.firstKind_mem
  | more expression => exact expression.firstKind_mem

theorem Identifiers.firstKind_eq {input rest : List Token} {idents : List Ident}
    (identifiers : Identifiers input idents rest) : firstKind input = .ident := by
  cases identifiers with
  | one isIdent => exact isIdent
  | more isIdent => exact isIdent

/-- A statement without the `;` that may end it. -/
inductive Body : Nat → List Token → Stmt → List Token → Prop
  | letBind {nesting : Nat} {token name assign : Token} {input rest : List Token} {expr : Expr}
      (isLet : token.kind = .kwLet) (isIdent : name.kind = .ident) (isAssign : assign.kind = .assign)
      (value : Expression .equality nesting input expr rest) :
      Body (nesting + 1) (token :: name :: assign :: input) (.letBind token (.ofToken name) expr) rest
  | ret {nesting : Nat} {token : Token} {input rest : List Token} {expr : Expr}
      (isReturn : token.kind = .kwReturn) (value : Expression .equality nesting input expr rest) :
      Body (nesting + 1) (token :: input) (.ret token expr) rest
  | expr {nesting : Nat} {token : Token} {input rest : List Token} {expr : Expr}
      (expression : Expression .equality nesting (token :: input) expr rest) :
      Body (nesting + 1) (token :: input) (.expr token expr) rest
  | block {nesting : Nat} {input rest : List Token} {block : Scriptlet.Block}
      (inner : Block nesting input block rest) : Body (nesting + 1) input (.block block) rest

/-- The end of a statement is a `;`, or it is open. Only a block may then stand in front of a token
that could continue an expression. -/
theorem Statement.exists_body {nesting : Nat} {tokens rest : List Token} {stmt : Stmt}
    (statement : Statement nesting tokens stmt rest) :
    (∃ token, token.kind = .semicolon ∧ Body nesting tokens stmt (token :: rest)) ∨
      Body nesting tokens stmt rest ∧
        ((firstKind rest).precedence = .lowest ∨ ∃ block, stmt = .block block) := by
  cases statement with
  | letBind isLet isIdent isAssign value ending =>
      cases ending with
      | semicolon isSemicolon =>
          exact .inl ⟨_, isSemicolon, .letBind isLet isIdent isAssign value⟩
      | greedy loose => exact .inr ⟨.letBind isLet isIdent isAssign value, .inl loose⟩
  | ret isReturn value ending =>
      cases ending with
      | semicolon isSemicolon => exact .inl ⟨_, isSemicolon, .ret isReturn value⟩
      | greedy loose => exact .inr ⟨.ret isReturn value, .inl loose⟩
  | expr expression ending =>
      cases ending with
      | semicolon isSemicolon => exact .inl ⟨_, isSemicolon, .expr expression⟩
      | greedy loose => exact .inr ⟨.expr expression, .inl loose⟩
  | block inner semicolon =>
      cases semicolon with
      | present isSemicolon => exact .inl ⟨_, isSemicolon, .block inner⟩
      | absent => exact .inr ⟨.block inner, .inr ⟨_, rfl⟩⟩

end Grammar

/-- The tokens do not go on with an expression whose operators bind as tightly as `precedence`. -/
structure Stops (precedence : Precedence) (rest : List Token) : Prop where
  loose : (firstKind rest).precedence.rank ≤ precedence.rank
  notElse : firstKind rest ≠ .kwElse

theorem stops_lowest_of_kind {kind : Kind} {rest : List Token} (first : firstKind rest = kind)
    (loose : kind.precedence = .lowest) (notElse : kind ≠ .kwElse) : Stops .lowest rest := by
  subst first
  exact ⟨Nat.le_of_eq (by rw [loose]), notElse⟩

theorem stops_chain_of_continuation? {token : Token} {rest : List Token}
    {continuation : Continuation} (continues : token.kind.continuation? = some continuation) :
    Stops Stratum.chain.precedence (token :: rest) := by
  refine ⟨?_, ?_⟩
  · cases (firstKind (token :: rest)).precedence <;> decide
  · intro isElse
    rw [firstKind_cons] at isElse
    rw [isElse] at continues
    cases continues

/-- What the grammar derives with at most `room` levels of nesting is read by the parsers of the
level. -/
structure Level.Complete (inside : Level) (room : Nat) : Prop where
  accountable : Parser.Accountable inside.statement
  expression : ∀ {precedence : Precedence} {nesting : Nat} {tokens rest : List Token} {expr : Expr},
    precedence.rank ≤ Precedence.unary.rank → nesting ≤ room →
      Grammar.Expression precedence.above nesting tokens expr rest →
        Stops precedence rest → ∃ after, after.tail = rest ∧
          Parser.Gives (inside.expression precedence) tokens expr after
  statement : ∀ {nesting : Nat} {tokens rest : List Token} {stmt : Stmt},
    nesting ≤ room → Grammar.Statement nesting tokens stmt rest →
      firstKind rest ∉ [.semicolon, .kwElse] →
        ∃ after, after.tail = rest ∧ Parser.Gives inside.statement tokens stmt after

theorem Level.Complete.whole {inside : Level} {room nesting : Nat} {tokens rest : List Token}
    {expr : Expr} (complete : inside.Complete room) (within : nesting ≤ room)
    (expression : Grammar.Expression .equality nesting tokens expr rest)
    (stops : Stops .lowest rest) :
    ∃ after, after.tail = rest ∧ Parser.Gives (inside.expression .lowest) tokens expr after := by
  have above : Grammar.Expression Precedence.lowest.above nesting tokens expr rest := expression
  exact complete.expression (by decide) within above stops

namespace Parser

open Grammar

theorem comma?_eq_none_of_ne {kind : Kind} (notComma : kind ≠ .comma) : comma? kind = none := by
  simp [comma?, notComma]

theorem identifiers_complete {input rest : List Token} {idents : List Ident}
    (identifiers : Identifiers input idents rest) (notComma : firstKind rest ≠ .comma)
    (read : Array Ident) (cursor : List Token) (tail_eq : cursor.tail = input) :
    ∃ after, after.tail = rest ∧ Gives (do
      expect .ident
      let first ← identifier
      whileNext comma? comma?_eof (fun _ params => do
        expect .ident
        return params.push (← identifier)) (read.push first)) cursor (read ++ idents.toArray)
      after := by
  induction identifiers generalizing read cursor with
  | @one token rest isIdent =>
      have stops : comma? (firstKind (token :: rest).tail) = none := comma?_eq_none_of_ne notComma
      refine ⟨token :: rest, rfl, ?_⟩
      rw [gives_expect_bind_iff, gives_identifier_bind_iff, tail_eq, gives_whileNext_of_none stops]
      exact ⟨isIdent, by simp, rfl⟩
  | @more token comma input rest idents isIdent isComma others ih =>
      rcases ih notComma (read.push (.ofToken token)) (comma :: input) rfl with
        ⟨after, after_eq, gives⟩
      have goes : comma? (firstKind (token :: comma :: input).tail) = some () :=
        comma?_eq_some_iff.2 isComma
      refine ⟨after, after_eq, ?_⟩
      rw [gives_expect_bind_iff, gives_identifier_bind_iff] at gives
      rw [gives_expect_bind_iff, gives_identifier_bind_iff, tail_eq]
      refine ⟨isIdent, ?_⟩
      rw [gives_whileNext_of_some goes]
      refine ⟨_, input, ?_, by simpa using gives.2⟩
      rw [gives_expect_bind_iff, gives_identifier_bind_iff, gives_pure_iff]
      exact ⟨gives.1, by simp, rfl⟩

theorem parameters_complete {tokens rest : List Token} {params : List Ident}
    (derived : Parameters tokens.tail params rest) :
    ∃ after, after.tail = rest ∧ Gives parameters tokens params after := by
  generalize tail_eq : tokens.tail = input at derived
  rw [parameters]
  cases derived with
  | @none close rest closes =>
      refine ⟨close :: rest, rfl, ?_⟩
      rw [gives_peekKind_bind_iff, tail_eq, firstKind_cons, if_pos closes, gives_advance_bind_iff,
        gives_pure_iff, tail_eq]
      exact ⟨rfl, rfl⟩
  | @some close _ rest _ identifiers closes =>
      have notComma : firstKind (close :: rest) ≠ .comma := by simp [closes]
      rcases identifiers_complete identifiers notComma #[] tokens tail_eq with
        ⟨middle, middle_eq, gives⟩
      have isIdent := identifiers.firstKind_eq
      refine ⟨close :: rest, rfl, ?_⟩
      rw [gives_peekKind_bind_iff, tail_eq, if_neg (by simp [isIdent])]
      rw [gives_expect_bind_iff, gives_identifier_bind_iff] at gives ⊢
      refine ⟨gives.1, (gives_bind_of_gives gives.2).2 ?_⟩
      rw [gives_expect_bind_iff, gives_pure_iff, middle_eq]
      exact ⟨closes, by simp, rfl⟩

section Inside

variable {inside : Level} {room nesting : Nat} {tokens rest : List Token}

theorem expressions_complete (complete : inside.Complete room) {nesting : Nat}
    {input rest : List Token} {exprs : List Expr} (within : nesting ≤ room)
    (closes : firstKind rest = .rparen) (read : Array Expr) :
    Expressions nesting input exprs rest → ∃ after, after.tail = rest ∧ Gives (do
      let first ← inside.expression .lowest
      whileNext comma? comma?_eof (fun _ args => do
        advance
        return args.push (← inside.expression .lowest)) (read.push first)) input
      (read ++ exprs.toArray) after
  | @Expressions.one _ _ _ expr expression => by
      have ends := stops_lowest_of_kind closes rfl (by decide)
      rcases complete.whole within expression ends with ⟨after, after_eq, gives⟩
      have stops : comma? (firstKind after.tail) = none :=
        comma?_eq_none_of_ne (by rw [after_eq, closes]; decide)
      refine ⟨after, after_eq, (gives_bind_of_gives gives).2 ?_⟩
      rw [gives_whileNext_of_none stops]
      exact ⟨by simp, rfl⟩
  | @Expressions.more _ _ comma _ middle _ expr exprs expression isComma others => by
      have ends : Stops .lowest (comma :: middle) := stops_lowest_of_kind isComma rfl (by decide)
      rcases complete.whole (by omega) expression ends with ⟨before, before_eq, gives⟩
      rcases expressions_complete complete (by omega) closes (read.push expr) others with
        ⟨after, after_eq, othersGives⟩
      have goes : comma? (firstKind before.tail) = some () :=
        comma?_eq_some_iff.2 (by rw [before_eq]; exact isComma)
      refine ⟨after, after_eq, (gives_bind_of_gives gives).2 ?_⟩
      rw [gives_whileNext_of_some goes, before_eq]
      rw [gives_bind_iff] at othersGives
      rcases othersGives with ⟨second, between, secondGives, loop⟩
      rw [List.push_append_toArray] at loop
      refine ⟨_, between, ?_, loop⟩
      rw [gives_advance_bind_iff, List.tail_cons, gives_bind_of_gives secondGives, gives_pure_iff]
      exact ⟨rfl, rfl⟩

theorem arguments_complete (complete : inside.Complete room) {args : List Expr}
    (within : nesting ≤ room) (derived : Arguments nesting tokens.tail args rest) :
    ∃ after, after.tail = rest ∧ Gives (arguments inside) tokens args after := by
  generalize tail_eq : tokens.tail = input at derived
  rw [arguments]
  cases derived with
  | @none close rest closes =>
      refine ⟨close :: rest, rfl, ?_⟩
      rw [gives_peekKind_bind_iff, tail_eq, firstKind_cons, if_pos closes, gives_advance_bind_iff,
        gives_pure_iff, tail_eq]
      exact ⟨rfl, rfl⟩
  | @some _ close _ _ _ expressions closes =>
      have isClosed : firstKind (close :: rest) = .rparen := closes
      rcases expressions_complete complete within isClosed #[] expressions with
        ⟨middle, middle_eq, gives⟩
      have notClosed : firstKind input ≠ .rparen := by
        have starts := expressions.firstKind_mem
        intro isClose
        rw [isClose] at starts
        exact absurd starts (by decide)
      refine ⟨close :: rest, rfl, ?_⟩
      rw [gives_peekKind_bind_iff, tail_eq, if_neg notClosed, gives_advance_bind_iff, tail_eq]
      rw [gives_bind_iff] at gives
      rcases gives with ⟨first, firstAfter, firstGives, loop⟩
      refine (gives_bind_of_gives firstGives).2 ((gives_bind_of_gives loop).2 ?_)
      rw [gives_expect_bind_iff, gives_pure_iff, middle_eq]
      exact ⟨closes, by simp, rfl⟩

theorem statementsUntil_complete (complete : inside.Complete room) {close : Kind} {nesting : Nat}
    {tokens rest : List Token} {stmts : List Stmt} (within : nesting ≤ room)
    (isClose : close = .rbrace ∨ close = .eof)
    (closed : firstKind rest = close ∨ firstKind rest = .eof) (read : Array Stmt) :
    Statements nesting tokens stmts rest →
      (statementsUntil close inside.statement read).Reads tokens (read ++ stmts.toArray) rest
  | .nil => by
      rw [reads_statementsUntil_of_closed closed]
      exact ⟨by simp, rfl⟩
  | @Statements.cons _ _ _ middle _ stmt stmts statement statements => by
      have notClosed : ¬(firstKind tokens = close ∨ firstKind tokens = .eof) := by
        have starts := statement.firstKind_mem
        rintro (isEnd | isEnd)
        · rw [isEnd] at starts
          rcases isClose with rfl | rfl <;> exact absurd starts (by decide)
        · rw [isEnd] at starts
          exact absurd starts (by decide)
      -- neither a statement nor the end of the statements begins with a `;` or an `else`
      have follows : firstKind middle ∉ [.semicolon, .kwElse] := by
        intro continued
        cases statements with
        | nil =>
            rcases isClose with rfl | rfl <;> rcases closed with isEnd | isEnd <;>
              rw [isEnd] at continued <;> exact absurd continued (by decide)
        | cons next _ =>
            have starts := next.firstKind_mem
            revert starts continued
            cases firstKind middle <;> decide
      rcases complete.statement (by omega) statement follows with ⟨after, after_eq, gives⟩
      rw [reads_statementsUntil_of_not_closed complete.accountable notClosed]
      refine ⟨stmt, after, gives, ?_⟩
      rw [after_eq]
      have others := statementsUntil_complete complete (by omega) isClose closed (read.push stmt)
        statements
      simpa using others

theorem block_complete (complete : inside.Complete room) {body : Scriptlet.Block}
    (within : nesting ≤ room) (derived : Grammar.Block nesting tokens body rest) :
    ∃ after, after.tail = rest ∧ (block inside).Reads tokens body after := by
  -- the statements are read up to some tokens, whose tail is the rest
  have read : ∀ {token : Token} {input after : List Token} {stmts : List Stmt},
      Statements nesting input stmts after →
        (firstKind after = .rbrace ∨ firstKind after = .eof) →
          (block inside).Reads (token :: input) (.mk token stmts) after := by
    intro token input after stmts statements closed
    have loop := statementsUntil_complete complete within (.inl rfl) closed #[] statements
    rw [block, reads_bind_iff]
    refine ⟨token, token :: input, reads_current_iff.2 ⟨rfl, rfl⟩, ?_⟩
    rw [reads_bind_iff]
    refine ⟨(), input, reads_advance_iff.2 rfl, ?_⟩
    rw [reads_bind_iff]
    refine ⟨_, after, loop, ?_⟩
    rw [reads_pure_iff]
    exact ⟨by simp, rfl⟩
  cases derived with
  | @closed _ token close _ _ _ opens statements closes =>
      exact ⟨close :: rest, rfl, read statements (.inl closes)⟩
  | unclosed opens statements => exact ⟨[], rfl, read statements (.inr rfl)⟩

/-- Once the expression has been read from `tokens`, the loop can be resumed in front of `rest`. -/
def Resumes (inside : Level) (precedence : Precedence) (tokens : List Token) (expr : Expr)
    (rest : List Token) : Prop :=
  ∃ middle, middle.tail = rest ∧ ∀ result after,
    Gives (whileNext (tighter? precedence) (tighter?_eof precedence) (continuation inside) expr)
      middle result after →
        Gives (expressionWith inside precedence) tokens result after

variable {precedence : Precedence}

theorem resumes_of_operand {expr : Expr}
    (read : ∃ after, after.tail = rest ∧ Gives (operand inside) tokens expr after) :
    Resumes inside precedence tokens expr rest := by
  rcases read with ⟨middle, middle_eq, gives⟩
  refine ⟨middle, middle_eq, ?_⟩
  intro result after loop
  exact (gives_bind_of_gives gives).2 loop

theorem resumes_of_continuation {left expr : Expr} {token : Token} {input : List Token}
    {kind : Continuation} (sofar : Resumes inside precedence tokens left (token :: input))
    (admitted : tighter? precedence token.kind = some kind)
    (read : ∃ after, after.tail = rest ∧
      Gives (continuation inside kind left) (token :: input) expr after) :
    Resumes inside precedence tokens expr rest := by
  rcases sofar with ⟨cursor, cursor_eq, resume⟩
  rcases read with ⟨middle, middle_eq, gives⟩
  refine ⟨middle, middle_eq, ?_⟩
  intro result after loop
  apply resume
  rw [gives_whileNext_of_some (by rw [cursor_eq]; exact admitted), cursor_eq]
  exact ⟨expr, middle, gives, loop⟩

theorem name_complete {token : Token} (isIdent : token.kind = .ident) :
    ∃ after, after.tail = rest ∧
      Gives (operand inside) (token :: rest) (.name (.ofToken token)) after := by
  refine ⟨token :: rest, rfl, ?_⟩
  rw [operand, gives_current_bind_iff, List.headD_cons]
  simp only [isIdent]
  exact gives_pure_iff.2 ⟨rfl, rfl⟩

theorem integer_complete {token : Token} {number : Nat} (isInt : token.kind = .int)
    (denotes : number = Decimal.value token.literal.toList) (inRange : number < Nat.pow 2 63) :
    ∃ after, after.tail = rest ∧
      Gives (operand inside) (token :: rest) (.int token (.ofNat number)) after := by
  subst denotes
  refine ⟨token :: rest, rfl, ?_⟩
  rw [operand, gives_current_bind_iff, List.headD_cons]
  simp only [isInt]
  rw [gives_lift_iff, integer, Decimal.int64?]
  simp only [if_pos inRange]
  exact reads_pure_iff.2 ⟨rfl, rfl⟩

theorem boolean_complete {token : Token} (value : Bool)
    (isKind : token.kind = bif value then .kwTrue else .kwFalse) :
    ∃ after, after.tail = rest ∧
      Gives (operand inside) (token :: rest) (.bool token value) after := by
  refine ⟨token :: rest, rfl, ?_⟩
  rw [operand, gives_current_bind_iff, List.headD_cons]
  cases value <;> simp only [isKind, cond_true, cond_false] <;>
    exact gives_pure_iff.2 ⟨rfl, rfl⟩

theorem unary_complete (complete : inside.Complete room) {token : Token} {expr : Expr}
    (isOperator : token.kind = .bang ∨ token.kind = .minus) (within : nesting ≤ room)
    (operandDerived : Expression .unary nesting tokens expr rest)
    (follows : Stops .unary rest) :
    ∃ after, after.tail = rest ∧
      Gives (operand inside) (token :: tokens) (.unary token expr) after := by
  have above : Expression Precedence.unary.above nesting tokens expr rest := operandDerived
  rcases complete.expression (by decide) within above follows with ⟨after, after_eq, gives⟩
  refine ⟨after, after_eq, ?_⟩
  rw [operand, gives_current_bind_iff, List.headD_cons]
  rcases isOperator with isBang | isMinus
  · simp only [isBang]
    rw [gives_advance_bind_iff, List.tail_cons, gives_bind_of_gives gives, gives_pure_iff]
    exact ⟨rfl, rfl⟩
  · simp only [isMinus]
    rw [gives_advance_bind_iff, List.tail_cons, gives_bind_of_gives gives, gives_pure_iff]
    exact ⟨rfl, rfl⟩

theorem group_complete (complete : inside.Complete room) {token close : Token} {expr : Expr}
    (opens : token.kind = .lparen) (closes : close.kind = .rparen) (within : nesting ≤ room)
    (inner : Expression .equality nesting tokens expr (close :: rest)) :
    ∃ after, after.tail = rest ∧ Gives (operand inside) (token :: tokens) expr after := by
  have ends : Stops .lowest (close :: rest) := stops_lowest_of_kind closes rfl (by decide)
  rcases complete.whole within inner ends with ⟨middle, middle_eq, gives⟩
  refine ⟨close :: rest, rfl, ?_⟩
  rw [operand, gives_current_bind_iff, List.headD_cons]
  simp only [opens]
  rw [gives_advance_bind_iff, List.tail_cons, gives_bind_of_gives gives, gives_expect_bind_iff,
    gives_pure_iff, middle_eq]
  exact ⟨closes, rfl, rfl⟩

theorem alternative_complete_none (notElse : firstKind tokens.tail ≠ .kwElse) :
    Gives (alternative inside) tokens none tokens := by
  rw [alternative, gives_peekKind_bind_iff, if_neg notElse, gives_pure_iff]
  exact ⟨rfl, rfl⟩

theorem alternative_complete (complete : inside.Complete room) {kwElse : Token}
    {more : List Token} {body : Scriptlet.Block} (tail_eq : tokens.tail = kwElse :: more)
    (isElse : kwElse.kind = .kwElse) (within : nesting ≤ room)
    (derived : Grammar.Block nesting more body rest) :
    ∃ after, after.tail = rest ∧ Gives (alternative inside) tokens (some body) after := by
  rcases block_complete complete within derived with ⟨after, after_eq, reads⟩
  refine ⟨after, after_eq, ?_⟩
  rw [alternative, gives_peekKind_bind_iff, tail_eq, firstKind_cons, if_pos isElse,
    gives_advance_bind_iff, gives_expect_bind_iff, tail_eq, List.tail_cons,
    gives_bind_of_gives (gives_lift_iff.2 reads), gives_pure_iff]
  exact ⟨derived.firstKind_eq, rfl, rfl⟩

/-- The beginning of a conditional is read up to its first branch. -/
theorem cond_complete (complete : inside.Complete room) {testNesting : Nat}
    {token lparen rparen : Token} {input middle behind : List Token} {test : Expr}
    {consequence : Scriptlet.Block} {branch : Option Scriptlet.Block} (isIf : token.kind = .kwIf)
    (opens : lparen.kind = .lparen) (closes : rparen.kind = .rparen)
    (testWithin : testNesting ≤ room) (within : nesting ≤ room)
    (condition : Expression .equality testNesting input test (rparen :: middle))
    (derived : Grammar.Block nesting middle consequence behind)
    (branchRead : ∀ tokens : List Token, tokens.tail = behind →
      ∃ after, after.tail = rest ∧ Gives (alternative inside) tokens branch after) :
    ∃ after, after.tail = rest ∧ Gives (operand inside) (token :: lparen :: input)
      (.cond token test consequence branch) after := by
  have ends : Stops .lowest (rparen :: middle) := stops_lowest_of_kind closes rfl (by decide)
  rcases complete.whole testWithin condition ends with ⟨testAfter, test_eq, testGives⟩
  rcases block_complete complete within derived with ⟨blockAfter, block_eq, blockReads⟩
  rcases branchRead blockAfter block_eq with ⟨after, after_eq, branchGives⟩
  refine ⟨after, after_eq, ?_⟩
  rw [operand, gives_current_bind_iff, List.headD_cons]
  simp only [isIf]
  rw [gives_expect_bind_iff, gives_advance_bind_iff, List.tail_cons, List.tail_cons,
    gives_bind_of_gives testGives, gives_expect_bind_iff, gives_expect_bind_iff, test_eq,
    List.tail_cons, gives_bind_of_gives (gives_lift_iff.2 blockReads),
    gives_bind_of_gives branchGives, gives_pure_iff]
  exact ⟨opens, closes, derived.firstKind_eq, rfl, rfl⟩

theorem function_complete (complete : inside.Complete room) {token lparen : Token}
    {input middle : List Token} {params : List Ident} {body : Scriptlet.Block}
    (isFn : token.kind = .kwFn) (opens : lparen.kind = .lparen) (within : nesting ≤ room)
    (derivedParams : Parameters input params middle)
    (derived : Grammar.Block nesting middle body rest) :
    ∃ after, after.tail = rest ∧ Gives (operand inside) (token :: lparen :: input)
      (.function token params body) after := by
  have behind : Parameters (lparen :: input).tail params middle := derivedParams
  rcases parameters_complete behind with ⟨paramsAfter, params_eq, paramsGives⟩
  rcases block_complete complete within derived with ⟨after, after_eq, reads⟩
  refine ⟨after, after_eq, ?_⟩
  rw [operand, gives_current_bind_iff, List.headD_cons]
  simp only [isFn]
  rw [gives_expect_bind_iff, List.tail_cons, gives_bind_of_gives paramsGives,
    gives_expect_bind_iff, params_eq, gives_bind_of_gives (gives_lift_iff.2 reads), gives_pure_iff]
  exact ⟨opens, derived.firstKind_eq, rfl, rfl⟩

/-- Behind every expression of the strata that are asked for, the loop can be resumed. -/
theorem resumes_of_expression (complete : inside.Complete room)
    (operandOnly : precedence.rank ≤ Precedence.unary.rank) {stratum : Stratum} {nesting : Nat}
    {tokens rest : List Token} {expr : Expr} (within : nesting ≤ room + 1)
    (above : precedence.above.precedence.rank ≤ stratum.precedence.rank)
    (follows : Stops stratum.precedence rest) :
    Expression stratum nesting tokens expr rest → Resumes inside precedence tokens expr rest
  | .tighter isNext inner => by
      have closer := Stratum.rank_lt_of_next? isNext
      have nextFollows := Nat.le_trans follows.loose (Nat.le_of_lt closer)
      exact resumes_of_expression complete operandOnly within (by omega)
        ⟨nextFollows, follows.notElse⟩ inner
  | @Expression.binary _ next _ rightNesting token _ middle _ left right isOperator isNext
      leftOperand rightOperand => by
      have continues := Stratum.continuation?_of_mem_operators isOperator
      have tighter := Precedence.rank_lt_of_above above isOperator
      have leftFollows : Stops stratum.precedence (token :: middle) :=
        ⟨Nat.le_of_eq (Kind.rank_precedence_of_continuation? continues),
          (stops_chain_of_continuation? continues).notElse⟩
      have binary : stratum.precedence.rank ≤ Precedence.unary.rank := by
        cases stratum <;> first | decide | cases isOperator
      have rightAbove : Expression stratum.precedence.above rightNesting middle right rest := by
        rwa [Precedence.above_precedence_of_next? isOperator isNext]
      rcases complete.expression binary (by omega) rightAbove follows with ⟨after, after_eq, gives⟩
      apply resumes_of_continuation
        (resumes_of_expression complete operandOnly (by omega) above leftFollows leftOperand)
        (tighter?_eq_some_iff.2 ⟨continues, tighter⟩)
      refine ⟨after, after_eq, ?_⟩
      rw [continuation, gives_current_bind_iff, List.headD_cons]
      dsimp only
      rw [gives_advance_bind_iff, List.tail_cons, gives_bind_of_gives gives, gives_pure_iff]
      exact ⟨rfl, rfl⟩
  | .unary isOperator operandDerived =>
      resumes_of_operand (unary_complete complete isOperator (by omega) operandDerived follows)
  | @Expression.suffix _ token _ _ operandExpr isOperator operandDerived => by
      have continues := Kind.continuation?_eq_suffix_iff.2 isOperator
      apply resumes_of_continuation
        (resumes_of_expression complete operandOnly within above
          (stops_chain_of_continuation? continues) operandDerived)
        (tighter?_eq_some_iff.2 ⟨continues, Nat.lt_of_le_of_lt operandOnly (by decide)⟩)
      refine ⟨token :: rest, rfl, ?_⟩
      rw [continuation, gives_current_bind_iff, List.headD_cons]
      dsimp only
      rw [gives_pure_iff]
      exact ⟨rfl, rfl⟩
  | @Expression.call _ argsNesting token _ middle _ callee args opens calleeDerived argumentsDerived => by
      have continues := Kind.continuation?_eq_call_iff.2 opens
      have behind : Arguments argsNesting (token :: middle).tail args rest := argumentsDerived
      rcases arguments_complete complete (by omega) behind with ⟨after, after_eq, gives⟩
      apply resumes_of_continuation
        (resumes_of_expression complete operandOnly (by omega) above
          (stops_chain_of_continuation? continues) calleeDerived)
        (tighter?_eq_some_iff.2 ⟨continues, Nat.lt_of_le_of_lt operandOnly (by decide)⟩)
      refine ⟨after, after_eq, ?_⟩
      rw [continuation, gives_current_bind_iff, List.headD_cons]
      dsimp only
      rw [gives_bind_of_gives gives, gives_pure_iff]
      exact ⟨rfl, rfl⟩
  | .name isIdent => resumes_of_operand (name_complete isIdent)
  | .int isInt denotes inRange =>
      resumes_of_operand
        (integer_complete isInt (denotes.trans (Decimal.value_eq_ofDigits _).symm) inRange)
  | .true isKind => resumes_of_operand (boolean_complete Bool.true isKind)
  | .false isKind => resumes_of_operand (boolean_complete Bool.false isKind)
  | .group opens inner closes =>
      resumes_of_operand (group_complete complete opens closes (by omega) inner)
  | .cond isIf opens condition closes branch => by
      apply resumes_of_operand
      apply cond_complete complete isIf opens closes (by omega) (by omega) condition branch
      intro tokens tail_eq
      exact ⟨tokens, tail_eq, alternative_complete_none (by rw [tail_eq]; exact follows.notElse)⟩
  | .condElse isIf opens condition closes branch isElse elseBranch => by
      apply resumes_of_operand
      apply cond_complete complete isIf opens closes (by omega) (by omega) condition branch
      intro tokens tail_eq
      exact alternative_complete complete tail_eq isElse (by omega) elseBranch
  | .function isFn opens parameters block =>
      resumes_of_operand (function_complete complete isFn opens (by omega) parameters block)

theorem expressionWith_complete (complete : inside.Complete room)
    (operandOnly : precedence.rank ≤ Precedence.unary.rank) {expr : Expr}
    (within : nesting ≤ room + 1)
    (expression : Expression precedence.above nesting tokens expr rest)
    (stops : Stops precedence rest) :
    ∃ after, after.tail = rest ∧ Gives (expressionWith inside precedence) tokens expr after := by
  have follows : Stops precedence.above.precedence rest :=
    ⟨Nat.le_trans stops.loose (Precedence.rank_le_above operandOnly), stops.notElse⟩
  rcases resumes_of_expression complete operandOnly within (Nat.le_refl _) follows expression with
    ⟨middle, middle_eq, resume⟩
  have ends : tighter? precedence (firstKind middle.tail) = none := by
    rw [middle_eq, tighter?_eq_none_iff]
    exact stops.loose
  refine ⟨middle, middle_eq, resume expr middle ?_⟩
  rw [gives_whileNext_of_none ends]
  exact ⟨rfl, rfl⟩

theorem closedExpression_complete (complete : inside.Complete room) {expr : Expr}
    (within : nesting ≤ room) (expression : Expression .equality nesting tokens expr rest)
    (stops : Stops .lowest rest) :
    ∃ before, before.tail = rest ∧ ∀ after, eatSemicolon.Reads before () after →
      Gives (closedExpression inside) tokens expr after := by
  have opened : (closedExpression inside).run = (inside.expression .lowest).run >>= fun expr =>
      eatSemicolon >>= fun _ => pure expr := rfl
  rcases complete.whole within expression stops with ⟨before, before_eq, gives⟩
  refine ⟨before, before_eq, ?_⟩
  intro after eaten
  rw [Gives, opened, reads_bind_iff]
  refine ⟨some expr, before, gives, ?_⟩
  rw [reads_bind_iff]
  exact ⟨(), after, eaten, reads_pure_iff.2 ⟨rfl, rfl⟩⟩

/-- A statement is read up to its end, where a `;` may be eaten. -/
theorem body_complete (complete : inside.Complete room) {stmt : Stmt} (within : nesting ≤ room + 1)
    (body : Body nesting tokens stmt rest)
    (follows : Stops .lowest rest ∨ ∃ block, stmt = .block block) :
    ∃ before, before.tail = rest ∧ ∀ after, eatSemicolon.Reads before () after →
      Gives (statementWith inside) tokens stmt after := by
  rw [statementWith]
  cases body with
  | letBind isLet isIdent isAssign value =>
      have stops : Stops .lowest rest := by simpa using follows
      rcases closedExpression_complete complete (by omega) value stops with
        ⟨before, before_eq, closed⟩
      refine ⟨before, before_eq, ?_⟩
      intro after eaten
      rw [gives_current_bind_iff, List.headD_cons]
      simp only [isLet]
      rw [gives_expectInStatement_bind_iff, gives_identifier_bind_iff,
        gives_expectInStatement_bind_iff, gives_advance_bind_iff]
      simp only [List.tail_cons]
      rw [gives_bind_of_gives (closed after eaten), gives_pure_iff]
      exact ⟨isIdent, isAssign, rfl, rfl⟩
  | ret isReturn value =>
      have stops : Stops .lowest rest := by simpa using follows
      rcases closedExpression_complete complete (by omega) value stops with
        ⟨before, before_eq, closed⟩
      refine ⟨before, before_eq, ?_⟩
      intro after eaten
      rw [gives_current_bind_iff, List.headD_cons]
      simp only [isReturn]
      rw [gives_advance_bind_iff, List.tail_cons, gives_bind_of_gives (closed after eaten),
        gives_pure_iff]
      exact ⟨rfl, rfl⟩
  | @expr _ token _ _ _ expression =>
      have stops : Stops .lowest rest := by simpa using follows
      rcases closedExpression_complete complete (by omega) expression stops with
        ⟨before, before_eq, closed⟩
      have starts := expression.firstKind_mem
      rw [firstKind_cons] at starts
      refine ⟨before, before_eq, ?_⟩
      intro after eaten
      rw [gives_current_bind_iff, List.headD_cons]
      split
      · next isLet => exact absurd (isLet ▸ starts) (by decide)
      · next isReturn => exact absurd (isReturn ▸ starts) (by decide)
      · next isOpen => exact absurd (isOpen ▸ starts) (by decide)
      · rw [gives_bind_of_gives (closed after eaten), gives_pure_iff]
        exact ⟨rfl, rfl⟩
  | block inner =>
      rcases block_complete complete (by omega) inner with ⟨before, before_eq, reads⟩
      have opens : (tokens.headD .eof).kind = .lbrace := inner.firstKind_eq
      refine ⟨before, before_eq, ?_⟩
      intro after eaten
      rw [gives_current_bind_iff]
      simp only [opens]
      rw [gives_bind_of_gives (gives_lift_iff.2 reads), gives_bind_of_gives (gives_lift_iff.2 eaten),
        gives_pure_iff]
      exact ⟨rfl, rfl⟩

/-- A `;` ends a statement whatever follows it. -/
theorem statementWith_complete_semicolon (complete : inside.Complete room) {stmt : Stmt}
    {token : Token} (within : nesting ≤ room + 1) (isSemicolon : token.kind = .semicolon)
    (body : Body nesting tokens stmt (token :: rest)) :
    Gives (statementWith inside) tokens stmt (token :: rest) := by
  have stops : Stops .lowest (token :: rest) := stops_lowest_of_kind isSemicolon rfl (by decide)
  rcases body_complete complete within body (.inl stops) with ⟨before, before_eq, closed⟩
  apply closed
  rw [reads_eatSemicolon_iff, before_eq, firstKind_cons, if_pos isSemicolon]

theorem statementWith_complete (complete : inside.Complete room) {stmt : Stmt}
    (within : nesting ≤ room + 1) (statement : Statement nesting tokens stmt rest)
    (follows : firstKind rest ∉ [.semicolon, .kwElse]) :
    ∃ after, after.tail = rest ∧ Gives (statementWith inside) tokens stmt after := by
  simp only [List.mem_cons, List.not_mem_nil, or_false, not_or] at follows
  rcases statement.exists_body with ⟨token, isSemicolon, body⟩ | ⟨body, loose⟩
  · exact ⟨token :: rest, rfl,
      statementWith_complete_semicolon complete within isSemicolon body⟩
  · have stops : Stops .lowest rest ∨ ∃ block, stmt = .block block := by
      rcases loose with loose | isBlock
      · exact .inl ⟨Nat.le_of_eq (by rw [loose]), follows.2⟩
      · exact .inr isBlock
    rcases body_complete complete within body stops with ⟨before, before_eq, closed⟩
    refine ⟨before, before_eq, closed before ?_⟩
    rw [reads_eatSemicolon_iff, before_eq, if_neg follows.1]

end Inside

end Parser

namespace Grammar

theorem Expression.nesting_pos {stratum : Stratum} {nesting : Nat} {input rest : List Token}
    {expr : Expr} : Expression stratum nesting input expr rest → 0 < nesting
  | .tighter _ inner => inner.nesting_pos
  | .binary _ _ leftOperand _ => by
      have := leftOperand.nesting_pos
      omega
  | .suffix _ operand => operand.nesting_pos
  | .call _ callee _ => by
      have := callee.nesting_pos
      omega
  | .name _ | .int _ _ _ | .true _ | .false _ => Nat.one_pos
  | .unary _ _ | .group _ _ _ | .cond _ _ _ _ _ | .condElse _ _ _ _ _ _ _ | .function _ _ _ _ =>
      Nat.succ_pos _

theorem Statement.nesting_pos {nesting : Nat} {input rest : List Token} {stmt : Stmt}
    (statement : Statement nesting input stmt rest) : 0 < nesting := by
  cases statement <;> exact Nat.succ_pos _

end Grammar

theorem Level.complete_inside (room : Nat) : (Level.inside room).Complete room := by
  induction room with
  | zero =>
      refine ⟨(Parser.accountable_inside 0).2, ?_, ?_⟩
      · intro precedence nesting tokens rest expr _ within expression _
        exact absurd expression.nesting_pos (by omega)
      · intro nesting tokens rest stmt within statement _
        exact absurd statement.nesting_pos (by omega)
  | succ room ih =>
      refine ⟨(Parser.accountable_inside (room + 1)).2, ?_, ?_⟩
      · intro precedence nesting tokens rest expr operandOnly within expression stops
        exact Parser.expressionWith_complete ih operandOnly within expression stops
      · intro nesting tokens rest stmt within statement follows
        exact Parser.statementWith_complete ih within statement follows

end Scriptlet
