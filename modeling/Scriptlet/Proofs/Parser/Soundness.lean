import Scriptlet.Proofs.Parser.Reading
import Scriptlet.Proofs.Parser.Strata

/-!
# What is read without complaint follows the grammar

A parser that reports nothing has read what the grammar derives. A parser stops on the last token of
what it read, so the grammar's `rest` is the tail of the tokens it stops at.

The expression loop holds an expression of some stratum in front of a token that binds no tighter
than this stratum. A binary operator that comes next is of a stratum at least as loose, so what was
read is its left operand; a suffix or a parenthesis can only come next behind a chain.

The end mark must not occur among the tokens themselves, or a block could end in front of it. The
tokens of a source are `Proper` in this sense.
-/

namespace Scriptlet

/-- Tokens among which the end mark does not occur. -/
def Proper (tokens : List Token) : Prop :=
  ∀ token ∈ tokens, token.kind ≠ .eof

namespace Proper

variable {tokens rest : List Token}

theorem of_suffix (proper : Proper tokens) (suffix : rest <:+ tokens) : Proper rest :=
  fun token token_mem => proper token (suffix.subset token_mem)

theorem tail (proper : Proper tokens) : Proper tokens.tail :=
  proper.of_suffix (List.tail_suffix tokens)

theorem eq_nil_of_firstKind (proper : Proper tokens) (atEnd : firstKind tokens = .eof) :
    tokens = [] := by
  cases tokens with
  | nil => rfl
  | cons token tokens => exact absurd atEnd (proper token (by simp))

end Proper

namespace Grammar

theorem Identifiers.snoc {input rest : List Token} {idents : List Ident} {comma token : Token}
    (identifiers : Identifiers input idents (comma :: token :: rest))
    (isComma : comma.kind = .comma) (isIdent : token.kind = .ident) :
    Identifiers input (idents ++ [.ofToken token]) rest := by
  generalize following : comma :: token :: rest = all at identifiers
  induction identifiers with
  | one firstIdent =>
      subst following
      exact .more firstIdent isComma (.one isIdent)
  | more firstIdent firstComma _ ih => exact .more firstIdent firstComma (ih following)

theorem Expressions.snoc {nesting last : Nat} {input middle rest : List Token} {exprs : List Expr}
    {expr : Expr} {comma : Token} (isComma : comma.kind = .comma)
    (expression : Expression .equality last middle expr rest) :
    Expressions nesting input exprs (comma :: middle) →
      Expressions (max nesting last) input (exprs ++ [expr]) rest
  | .one first => .more first isComma (.one expression)
  | .more first firstComma others => by
      rw [Nat.max_assoc]
      exact .more first firstComma (others.snoc isComma expression)

end Grammar

namespace Parser

open Grammar

theorem parameters_sound {tokens after : List Token} {params : List Ident}
    (gives : Gives parameters tokens params after) :
    Parameters tokens.tail params after.tail := by
  rw [parameters, gives_peekKind_bind_iff] at gives
  split at gives
  · next closes =>
      rcases exists_cons_of_firstKind closes (by decide) with ⟨close, rest, tail_eq, isClose⟩
      rw [gives_advance_bind_iff, gives_pure_iff, tail_eq] at gives
      rcases gives with ⟨rfl, rfl⟩
      rw [tail_eq]
      exact .none isClose
  · rw [gives_expect_bind_iff, gives_identifier_bind_iff, gives_bind_iff] at gives
    rcases gives with ⟨isIdent, all, middle, loop, gives⟩
    rw [gives_expect_bind_iff, gives_pure_iff] at gives
    rcases gives with ⟨closes, rfl, rfl⟩
    rcases exists_cons_of_firstKind isIdent (by decide) with ⟨first, rest, tail_eq, isFirst⟩
    rcases exists_cons_of_firstKind closes (by decide) with ⟨close, behind, close_eq, isClose⟩
    -- the identifiers read so far end where the loop stands
    have read := gives_whileNext_induction loop
      (fun params cursor => Identifiers tokens.tail params.toList cursor.tail)
      (by
        rw [tail_eq]
        exact .one isFirst)
      (by
        intro sofar cursor _ read middle sofarRead admitted stepped
        rw [comma?_eq_some_iff] at admitted
        rcases exists_cons_of_firstKind admitted (by decide) with ⟨comma, more, comma_eq, isComma⟩
        rw [gives_expect_bind_iff, gives_identifier_bind_iff, gives_pure_iff] at stepped
        rcases stepped with ⟨another, rfl, rfl⟩
        rw [comma_eq, List.tail_cons] at another
        rcases exists_cons_of_firstKind another (by decide) with ⟨token, others, rfl, isToken⟩
        rw [comma_eq] at sofarRead ⊢
        simpa using sofarRead.snoc isComma isToken)
    rw [close_eq] at read ⊢
    exact .some read.1 isClose

end Parser

/-- What the parsers of a level read without complaint has at most `room` levels of nesting. -/
structure Level.Sound (inside : Level) (room : Nat) : Prop where
  accountable : Parser.Accountable inside.statement
  expression : ∀ {precedence : Precedence} {tokens after : List Token} {expr : Expr},
    Proper tokens → Parser.Gives (inside.expression precedence) tokens expr after →
      (∃ nesting ≤ room, Grammar.Expression precedence.above nesting tokens expr after.tail) ∧
        (firstKind after.tail).precedence.rank ≤ precedence.rank
  statement : ∀ {tokens after : List Token} {stmt : Stmt},
    Proper tokens → Parser.Gives inside.statement tokens stmt after →
      ∃ nesting ≤ room, Grammar.Statement nesting tokens stmt after.tail

namespace Parser

open Grammar

variable {inside : Level} {room : Nat} {tokens after : List Token}

theorem arguments_sound (sound : inside.Sound room) (proper : Proper tokens) {args : List Expr}
    (gives : Gives (arguments inside) tokens args after) :
    ∃ nesting ≤ room, Arguments nesting tokens.tail args after.tail := by
  rw [arguments, gives_peekKind_bind_iff] at gives
  split at gives
  · next closes =>
      rcases exists_cons_of_firstKind closes (by decide) with ⟨close, rest, tail_eq, isClose⟩
      rw [gives_advance_bind_iff, gives_pure_iff, tail_eq] at gives
      rcases gives with ⟨rfl, rfl⟩
      rw [tail_eq]
      exact ⟨0, Nat.zero_le room, .none isClose⟩
  · rw [gives_advance_bind_iff, gives_bind_iff] at gives
    rcases gives with ⟨first, firstAfter, firstGives, gives⟩
    rw [gives_bind_iff] at gives
    rcases gives with ⟨all, middle, loop, gives⟩
    rw [gives_expect_bind_iff, gives_pure_iff] at gives
    rcases gives with ⟨closes, rfl, rfl⟩
    rcases exists_cons_of_firstKind closes (by decide) with ⟨close, behind, close_eq, isClose⟩
    rcases sound.expression proper.tail firstGives with ⟨⟨nesting, within, firstRead⟩, _⟩
    have firstProper := proper.tail.of_suffix (suffix_of_reads firstGives)
    have read := gives_whileNext_induction loop
      (fun args cursor => Proper cursor ∧
        ∃ nesting ≤ room, Expressions nesting tokens.tail args.toList cursor.tail)
      ⟨firstProper, nesting, within, .one firstRead⟩
      (by
        rintro sofar cursor _ read middle ⟨cursorProper, nesting, within, sofarRead⟩ admitted stepped
        rw [comma?_eq_some_iff] at admitted
        rcases exists_cons_of_firstKind admitted (by decide) with ⟨comma, more, comma_eq, isComma⟩
        have moreProper : Proper more := by
          have := cursorProper.tail.tail
          rwa [comma_eq, List.tail_cons] at this
        rw [gives_advance_bind_iff, gives_bind_iff, comma_eq, List.tail_cons] at stepped
        rcases stepped with ⟨expr, exprAfter, exprGives, stepped⟩
        rw [gives_pure_iff] at stepped
        rcases stepped with ⟨rfl, rfl⟩
        rcases sound.expression moreProper exprGives with ⟨⟨last, lastWithin, exprRead⟩, _⟩
        rw [comma_eq] at sofarRead
        refine ⟨moreProper.of_suffix (suffix_of_reads exprGives), max nesting last, by omega, ?_⟩
        simpa using sofarRead.snoc isComma exprRead)
    rcases read with ⟨⟨_, nesting, within, read⟩, _⟩
    rw [close_eq] at read ⊢
    exact ⟨nesting, within, .some read isClose⟩

/-- Statements that are read up to a closing token follow the grammar up to there. -/
theorem statementsUntil_sound (sound : inside.Sound room) {close : Kind} {tokens : List Token}
    {read all : Array Stmt} (proper : Proper tokens)
    (reads : (statementsUntil close inside.statement read).Reads tokens all after) :
    (firstKind after = close ∨ after = []) ∧ ∃ stmts, all.toList = read.toList ++ stmts ∧
      ∃ nesting ≤ room, Statements nesting tokens stmts after := by
  by_cases closed : firstKind tokens = close ∨ firstKind tokens = .eof
  · rw [reads_statementsUntil_of_closed closed] at reads
    rcases reads with ⟨rfl, rfl⟩
    exact ⟨closed.imp_right proper.eq_nil_of_firstKind, [], by simp, 0, Nat.zero_le room, .nil⟩
  · rw [reads_statementsUntil_of_not_closed sound.accountable closed] at reads
    rcases reads with ⟨stmt, middle, gives, reads⟩
    have moved := suffix_of_reads gives
    have shorter : middle.tail.length < tokens.length := by
      have nonempty : tokens ≠ [] := by
        rintro rfl
        exact closed (.inr rfl)
      have := List.length_pos_iff.2 nonempty
      have := moved.length_le
      rw [List.length_tail]
      omega
    rcases sound.statement proper gives with ⟨nesting, within, stmtRead⟩
    rcases statementsUntil_sound sound (proper.of_suffix moved).tail reads with
      ⟨ends, stmts, all_eq, others, othersWithin, stmtsRead⟩
    refine ⟨ends, stmt :: stmts, by simpa using all_eq, max nesting others, by omega, ?_⟩
    exact .cons stmtRead stmtsRead
termination_by tokens.length
decreasing_by exact shorter

theorem block_sound (sound : inside.Sound room) (proper : Proper tokens) {body : Scriptlet.Block}
    (opens : firstKind tokens = .lbrace) (reads : (block inside).Reads tokens body after) :
    ∃ nesting ≤ room, Grammar.Block nesting tokens body after.tail := by
  rcases exists_cons_of_firstKind opens (by decide) with ⟨token, input, rfl, isOpen⟩
  rw [block, reads_bind_iff] at reads
  rcases reads with ⟨first, middle, current, reads⟩
  rw [reads_current_iff] at current
  rcases current with ⟨rfl, rfl⟩
  rw [reads_bind_iff] at reads
  rcases reads with ⟨_, middle, advanced, reads⟩
  rw [reads_advance_iff, List.tail_cons] at advanced
  subst advanced
  rw [reads_bind_iff] at reads
  rcases reads with ⟨all, middle, statements, reads⟩
  rw [reads_pure_iff] at reads
  rcases reads with ⟨rfl, rfl⟩
  rcases statementsUntil_sound sound proper.tail statements with
    ⟨ends, stmts, all_eq, nesting, within, stmtsRead⟩
  rw [show all.toList = stmts by simpa using all_eq]
  refine ⟨nesting, within, ?_⟩
  rcases ends with isClose | rfl
  · rcases exists_cons_of_firstKind isClose (by decide) with ⟨close, rest, rfl, isClose⟩
    exact .closed isOpen stmtsRead isClose
  · exact .unclosed isOpen stmtsRead

theorem alternative_sound (sound : inside.Sound room) (proper : Proper tokens)
    {branch : Option Scriptlet.Block} (gives : Gives (alternative inside) tokens branch after) :
    (branch = none ∧ after = tokens) ∨
      ∃ kwElse more body, tokens.tail = kwElse :: more ∧ kwElse.kind = .kwElse ∧
        branch = some body ∧ ∃ nesting ≤ room, Grammar.Block nesting more body after.tail := by
  rw [alternative, gives_peekKind_bind_iff] at gives
  split at gives
  · next isElse =>
      rcases exists_cons_of_firstKind isElse (by decide) with ⟨kwElse, more, tail_eq, isElse⟩
      have moreProper : Proper more := by
        have := proper.tail.tail
        rwa [tail_eq, List.tail_cons] at this
      rw [gives_advance_bind_iff, gives_expect_bind_iff, gives_bind_iff, tail_eq,
        List.tail_cons] at gives
      rcases gives with ⟨opens, body, middle, bodyReads, gives⟩
      rw [gives_pure_iff] at gives
      rcases gives with ⟨rfl, rfl⟩
      rw [gives_lift_iff] at bodyReads
      exact .inr ⟨kwElse, more, body, tail_eq, isElse, rfl,
        block_sound sound moreProper opens bodyReads⟩
  · rw [gives_pure_iff] at gives
    exact .inl gives

theorem integer_sound {token : Token} {expr : Expr}
    (reads : (integer token).Reads tokens expr after) :
    Decimal.value token.literal.toList < Nat.pow 2 63 ∧
      expr = .int token (Int64.ofNat (Decimal.value token.literal.toList)) ∧ after = tokens := by
  rw [integer] at reads
  split at reads
  · next value found =>
      rw [reads_pure_iff] at reads
      rcases reads with ⟨rfl, rfl⟩
      simp only [Decimal.int64?, Option.ite_none_right_eq_some, Option.some.injEq] at found
      exact ⟨found.1, by rw [found.2], rfl⟩
  · rw [reads_bind_iff] at reads
    rcases reads with ⟨_, _, reported, _⟩
    exact absurd reported not_reads_report

/-- An expression of a stratum has been read, in front of a token that binds no tighter. The stratum
is at least as tight as the one that is asked for. -/
def ReadSofar (room : Nat) (wanted : Stratum) (tokens : List Token) (expr : Expr)
    (after : List Token) : Prop :=
  ∃ stratum nesting, nesting ≤ room + 1 ∧ wanted.precedence.rank ≤ stratum.precedence.rank ∧
    Expression stratum nesting tokens expr after.tail ∧
      (firstKind after.tail).precedence.rank ≤ stratum.precedence.rank

/-- Any token may follow a chain. -/
theorem readSofar_chain {wanted : Stratum} {expr : Expr} {nesting : Nat}
    (within : nesting ≤ room + 1) (chain : Expression .chain nesting tokens expr after.tail) :
    ReadSofar room wanted tokens expr after := by
  refine ⟨.chain, nesting, within, ?_, chain, ?_⟩
  · cases wanted <;> decide
  · cases (firstKind after.tail).precedence <;> decide

theorem unary_sound (sound : inside.Sound room) {token : Token} {input : List Token} {expr : Expr}
    (proper : Proper input) {wanted : Stratum}
    (loose : wanted.precedence.rank ≤ Precedence.unary.rank)
    (isOperator : token.kind = .bang ∨ token.kind = .minus)
    (gives : Gives (do
      liftM advance
      return .unary token (← inside.expression .unary)) (token :: input) expr after) :
    ReadSofar room wanted (token :: input) expr after := by
  rw [gives_advance_bind_iff, gives_bind_iff, List.tail_cons] at gives
  rcases gives with ⟨operand, middle, operandGives, gives⟩
  rw [gives_pure_iff] at gives
  rcases gives with ⟨rfl, rfl⟩
  rcases sound.expression proper operandGives with ⟨⟨nesting, within, read⟩, follows⟩
  exact ⟨.unary, nesting + 1, by omega, loose, .unary isOperator read, follows⟩

theorem group_sound (sound : inside.Sound room) {token : Token} {input : List Token} {expr : Expr}
    (proper : Proper input) {wanted : Stratum} (opens : token.kind = .lparen)
    (gives : Gives (do
      liftM advance
      let expr ← inside.expression .lowest
      expect .rparen
      return expr) (token :: input) expr after) :
    ReadSofar room wanted (token :: input) expr after := by
  rw [gives_advance_bind_iff, gives_bind_iff, List.tail_cons] at gives
  rcases gives with ⟨inner, middle, innerGives, gives⟩
  rw [gives_expect_bind_iff, gives_pure_iff] at gives
  rcases gives with ⟨closes, rfl, rfl⟩
  rcases exists_cons_of_firstKind closes (by decide) with ⟨close, rest, close_eq, isClose⟩
  rcases sound.expression proper innerGives with ⟨⟨nesting, within, read⟩, _⟩
  rw [close_eq] at read ⊢
  exact readSofar_chain (Nat.succ_le_succ within) (.group opens read isClose)

theorem cond_sound (sound : inside.Sound room) {token : Token} {input : List Token} {expr : Expr}
    (proper : Proper input) {wanted : Stratum} (isIf : token.kind = .kwIf)
    (gives : Gives (do
      expect .lparen
      liftM advance
      let test ← inside.expression .lowest
      expect .rparen
      expect .lbrace
      let consequence ← block inside
      return .cond token test consequence (← alternative inside)) (token :: input) expr after) :
    ReadSofar room wanted (token :: input) expr after := by
  rw [gives_expect_bind_iff, gives_advance_bind_iff, gives_bind_iff, List.tail_cons] at gives
  rcases gives with ⟨opens, test, testAfter, testGives, gives⟩
  rcases exists_cons_of_firstKind opens (by decide) with ⟨lparen, inner, rfl, isOpen⟩
  rcases sound.expression proper.tail testGives with ⟨⟨testNesting, testWithin, testRead⟩, _⟩
  have testProper := proper.tail.of_suffix (suffix_of_reads testGives)
  rw [gives_expect_bind_iff, gives_expect_bind_iff] at gives
  rcases gives with ⟨closes, opensBlock, gives⟩
  rcases exists_cons_of_firstKind closes (by decide) with ⟨rparen, middle, close_eq, isClose⟩
  have middleProper : Proper middle := by
    have := testProper.tail.tail
    rwa [close_eq, List.tail_cons] at this
  rw [close_eq, List.tail_cons] at opensBlock gives
  rw [gives_bind_iff] at gives
  rcases gives with ⟨consequence, blockAfter, blockReads, gives⟩
  rw [gives_lift_iff] at blockReads
  rcases block_sound sound middleProper opensBlock blockReads with ⟨nesting, within, blockRead⟩
  have blockProper := middleProper.of_suffix (suffix_of_reads blockReads)
  rw [gives_bind_iff] at gives
  rcases gives with ⟨branch, branchAfter, branchGives, gives⟩
  rw [gives_pure_iff] at gives
  rcases gives with ⟨rfl, rfl⟩
  rw [close_eq] at testRead
  rcases alternative_sound sound blockProper branchGives with
    ⟨rfl, rfl⟩ | ⟨kwElse, more, body, else_eq, isElse, rfl, elseNesting, elseWithin, elseRead⟩
  · exact readSofar_chain (by omega) (.cond isIf isOpen testRead isClose blockRead)
  · rw [else_eq] at blockRead
    exact readSofar_chain (by omega)
      (.condElse isIf isOpen testRead isClose blockRead isElse elseRead)

theorem function_sound (sound : inside.Sound room) {token : Token} {input : List Token} {expr : Expr}
    (proper : Proper input) {wanted : Stratum} (isFn : token.kind = .kwFn)
    (gives : Gives (do
      expect .lparen
      let params ← parameters
      expect .lbrace
      return .function token params (← block inside)) (token :: input) expr after) :
    ReadSofar room wanted (token :: input) expr after := by
  rw [gives_expect_bind_iff, gives_bind_iff, List.tail_cons] at gives
  rcases gives with ⟨opens, params, paramsAfter, paramsGives, gives⟩
  rcases exists_cons_of_firstKind opens (by decide) with ⟨lparen, inner, rfl, isOpen⟩
  have paramsRead := parameters_sound paramsGives
  have paramsProper := proper.of_suffix (suffix_of_reads paramsGives)
  rw [gives_expect_bind_iff, gives_bind_iff] at gives
  rcases gives with ⟨opensBlock, body, bodyAfter, bodyReads, gives⟩
  rw [gives_pure_iff] at gives
  rcases gives with ⟨rfl, rfl⟩
  rw [gives_lift_iff] at bodyReads
  rcases block_sound sound paramsProper.tail opensBlock bodyReads with ⟨nesting, within, bodyRead⟩
  exact readSofar_chain (Nat.succ_le_succ within) (.function isFn isOpen paramsRead bodyRead)

theorem operand_sound (sound : inside.Sound room) (proper : Proper tokens) {wanted : Stratum}
    (loose : wanted.precedence.rank ≤ Precedence.unary.rank) {expr : Expr}
    (gives : Gives (operand inside) tokens expr after) :
    ReadSofar room wanted tokens expr after := by
  rw [operand, gives_current_bind_iff] at gives
  cases tokens with
  | nil =>
      simp only [List.headD_nil, Token.eof] at gives
      exact absurd gives not_gives_report_bind
  | cons token input =>
      have inputProper : Proper input := proper.tail
      rw [List.headD_cons] at gives
      split at gives
      · next isIdent =>
          rw [gives_pure_iff] at gives
          rcases gives with ⟨rfl, rfl⟩
          exact readSofar_chain (by omega) (.name isIdent)
      · next isInt =>
          rw [gives_lift_iff] at gives
          rcases integer_sound gives with ⟨inRange, rfl, rfl⟩
          exact readSofar_chain (by omega) (.ofValue isInt inRange)
      · next isTrue =>
          rw [gives_pure_iff] at gives
          rcases gives with ⟨rfl, rfl⟩
          exact readSofar_chain (by omega) (.true isTrue)
      · next isFalse =>
          rw [gives_pure_iff] at gives
          rcases gives with ⟨rfl, rfl⟩
          exact readSofar_chain (by omega) (.false isFalse)
      · next isBang => exact unary_sound sound inputProper loose (.inl isBang) gives
      · next isMinus => exact unary_sound sound inputProper loose (.inr isMinus) gives
      · next opens => exact group_sound sound inputProper opens gives
      · next isIf => exact cond_sound sound inputProper isIf gives
      · next isFn => exact function_sound sound inputProper isFn gives
      · exact absurd gives not_gives_report_bind
      · exact absurd gives not_gives_report_bind

/-- Whatever continues an expression, the result is again an expression that has been read. -/
theorem continuation_sound (sound : inside.Sound room) {precedence : Precedence}
    {cursor : List Token} (proper : Proper cursor) {kind : Continuation} {left expr : Expr}
    (sofar : ReadSofar room precedence.above tokens left cursor)
    (admitted : tighter? precedence (firstKind cursor.tail) = some kind)
    (gives : Gives (continuation inside kind left) cursor.tail expr after) :
    ReadSofar room precedence.above tokens expr after := by
  rcases sofar with ⟨stratum, nesting, within, above, leftRead, follows⟩
  rcases tighter?_eq_some_iff.1 admitted with ⟨continues, tighter⟩
  rw [Kind.rank_precedence_of_continuation? continues] at follows
  rcases tail_eq : cursor.tail with _ | ⟨token, input⟩
  · rw [tail_eq] at continues
    cases continues
  have inputProper : Proper input := by
    have := proper.tail.tail
    rwa [tail_eq, List.tail_cons] at this
  rw [tail_eq] at leftRead continues gives
  rw [firstKind_cons] at continues
  rw [continuation, gives_current_bind_iff, List.headD_cons] at gives
  cases kind with
  | binary operatorPrecedence =>
      rcases Kind.exists_stratum_of_continuation? continues with
        ⟨operatorStratum, isOperator, rfl, isNext⟩
      dsimp only at gives
      rw [gives_advance_bind_iff, gives_bind_iff, List.tail_cons] at gives
      rcases gives with ⟨right, rightAfter, rightGives, gives⟩
      rw [gives_pure_iff] at gives
      rcases gives with ⟨rfl, rfl⟩
      rcases sound.expression inputProper rightGives with
        ⟨⟨rightNesting, rightWithin, rightRead⟩, rightFollows⟩
      -- what was read binds at least as tightly as the operator
      have leftOperand := leftRead.loosen follows
      exact ⟨operatorStratum, max nesting (rightNesting + 1), by omega,
        Precedence.above_rank_le_of_lt tighter,
        .binary isOperator isNext leftOperand rightRead, rightFollows⟩
  | suffix =>
      have isChain : stratum = .chain :=
        Stratum.eq_chain_of_rank (Nat.lt_of_lt_of_le (by decide) follows)
      subst isChain
      simp only [gives_pure_iff] at gives
      rcases gives with ⟨rfl, rfl⟩
      exact readSofar_chain within
        (.suffix (Kind.continuation?_eq_suffix_iff.1 continues) leftRead)
  | call =>
      have isChain : stratum = .chain :=
        Stratum.eq_chain_of_rank (Nat.lt_of_lt_of_le (by decide) follows)
      subst isChain
      simp only [gives_bind_iff] at gives
      rcases gives with ⟨args, argsAfter, argsGives, gives⟩
      rw [gives_pure_iff] at gives
      rcases gives with ⟨rfl, rfl⟩
      have argsProper : Proper (token :: input) := by
        have := proper.tail
        rwa [tail_eq] at this
      rcases arguments_sound sound argsProper argsGives with ⟨argsNesting, argsWithin, argsRead⟩
      exact readSofar_chain (by omega)
        (.call (Kind.continuation?_eq_call_iff.1 continues) leftRead argsRead)

theorem expressionWith_sound (sound : inside.Sound room) (proper : Proper tokens)
    {precedence : Precedence} {expr : Expr}
    (gives : Gives (expressionWith inside precedence) tokens expr after) :
    (∃ nesting ≤ room + 1, Expression precedence.above nesting tokens expr after.tail) ∧
      (firstKind after.tail).precedence.rank ≤ precedence.rank := by
  rw [expressionWith, gives_bind_iff] at gives
  rcases gives with ⟨first, firstAfter, firstGives, loop⟩
  have loose : precedence.above.precedence.rank ≤ Precedence.unary.rank := by
    cases precedence <;> decide
  have firstProper := proper.of_suffix (suffix_of_reads firstGives)
  have read := gives_whileNext_induction loop
    (fun expr cursor => Proper cursor ∧ ReadSofar room precedence.above tokens expr cursor)
    ⟨firstProper, operand_sound sound proper loose firstGives⟩
    (by
      rintro left cursor kind expr after ⟨cursorProper, sofar⟩ admitted stepped
      exact ⟨cursorProper.tail.of_suffix (suffix_of_reads stepped),
        continuation_sound sound cursorProper sofar admitted stepped⟩)
  rcases read with ⟨⟨_, stratum, nesting, within, above, exprRead, _⟩, stops⟩
  exact ⟨⟨nesting, within, exprRead.loosen above⟩, tighter?_eq_none_iff.1 stops⟩

theorem closedExpression_sound (sound : inside.Sound room) (proper : Proper tokens) {expr : Expr}
    (gives : Gives (closedExpression inside) tokens expr after) :
    ∃ nesting ≤ room, ∃ middle, Expression .equality nesting tokens expr middle ∧
      Ending middle after.tail := by
  have opened : (closedExpression inside).run = (inside.expression .lowest).run >>= fun expr =>
      eatSemicolon >>= fun _ => pure expr := rfl
  rw [Gives, opened, reads_bind_iff] at gives
  rcases gives with ⟨result, middle, exprGives, gives⟩
  rw [reads_bind_iff] at gives
  rcases gives with ⟨_, ending, eaten, gives⟩
  rw [reads_pure_iff] at gives
  rcases gives with ⟨rfl, rfl⟩
  rcases sound.expression proper exprGives with ⟨⟨nesting, within, exprRead⟩, follows⟩
  refine ⟨nesting, within, middle.tail, exprRead, ?_⟩
  rw [reads_eatSemicolon_iff] at eaten
  split at eaten
  · next isSemicolon =>
      rcases exists_cons_of_firstKind isSemicolon (by decide) with ⟨token, rest, tail_eq, isToken⟩
      rw [eaten, tail_eq]
      exact .semicolon isToken
  · rw [eaten]
    exact .greedy (Precedence.eq_lowest_of_rank_le follows)

theorem statementWith_sound (sound : inside.Sound room) (proper : Proper tokens) {stmt : Stmt}
    (gives : Gives (statementWith inside) tokens stmt after) :
    ∃ nesting ≤ room + 1, Statement nesting tokens stmt after.tail := by
  rw [statementWith, gives_current_bind_iff] at gives
  split at gives
  · next isLet =>
      rcases exists_cons_of_firstKind isLet (by decide) with ⟨token, input, rfl, isLet⟩
      rw [gives_expectInStatement_bind_iff, gives_identifier_bind_iff,
        gives_expectInStatement_bind_iff, gives_advance_bind_iff, gives_bind_iff,
        List.tail_cons] at gives
      rcases gives with ⟨isIdent, isAssign, expr, _, valueGives, gives⟩
      rw [gives_pure_iff] at gives
      rcases gives with ⟨rfl, rfl⟩
      rcases exists_cons_of_firstKind isIdent (by decide) with ⟨name, behind, rfl, isIdent⟩
      rw [List.tail_cons] at isAssign
      rcases exists_cons_of_firstKind isAssign (by decide) with ⟨assign, value, rfl, isAssign⟩
      rcases closedExpression_sound sound proper.tail.tail.tail valueGives with
        ⟨nesting, within, middle, valueRead, ending⟩
      exact ⟨nesting + 1, by omega, .letBind isLet isIdent isAssign valueRead ending⟩
  · next isReturn =>
      rcases exists_cons_of_firstKind isReturn (by decide) with ⟨token, input, rfl, isReturn⟩
      rw [gives_advance_bind_iff, gives_bind_iff, List.tail_cons] at gives
      rcases gives with ⟨expr, _, valueGives, gives⟩
      rw [gives_pure_iff] at gives
      rcases gives with ⟨rfl, rfl⟩
      rcases closedExpression_sound sound proper.tail valueGives with
        ⟨nesting, within, middle, valueRead, ending⟩
      exact ⟨nesting + 1, by omega, .ret isReturn valueRead ending⟩
  · next opens =>
      simp only [gives_bind_iff, gives_lift_iff, reads_eatSemicolon_iff, gives_pure_iff] at gives
      rcases gives with ⟨body, middle, bodyReads, _, _, eaten, rfl, rfl⟩
      rcases block_sound sound proper opens bodyReads with ⟨nesting, within, bodyRead⟩
      refine ⟨nesting + 1, by omega, .block bodyRead ?_⟩
      split at eaten
      · next isSemicolon =>
          rcases exists_cons_of_firstKind isSemicolon (by decide) with
            ⟨token, rest, tail_eq, isToken⟩
          rw [eaten, tail_eq]
          exact .present isToken
      · rw [eaten]
        exact .absent
  · simp only [gives_bind_iff, gives_pure_iff] at gives
    rcases gives with ⟨expr, _, exprGives, rfl, rfl⟩
    rcases closedExpression_sound sound proper exprGives with
      ⟨nesting, within, middle, exprRead, ending⟩
    rcases tokens with _ | ⟨token, input⟩
    · exact absurd exprRead.firstKind_mem (by decide)
    · exact ⟨nesting + 1, by omega, .expr exprRead ending⟩

end Parser

theorem Level.sound_inside (room : Nat) : (Level.inside room).Sound room := by
  induction room with
  | zero =>
      refine ⟨(Parser.accountable_inside 0).2, ?_, ?_⟩
      · intro precedence tokens after expr _ gives
        exact absurd gives Parser.not_gives_report_bind
      · intro tokens after stmt _ gives
        exact absurd gives Parser.not_gives_report_bind
  | succ room ih =>
      refine ⟨(Parser.accountable_inside (room + 1)).2, ?_, ?_⟩
      · intro precedence tokens after expr proper gives
        exact Parser.expressionWith_sound ih proper gives
      · intro tokens after stmt proper gives
        exact Parser.statementWith_sound ih proper gives

end Scriptlet
