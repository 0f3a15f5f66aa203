import Mathlib.Algebra.Order.Group.Int
import Mathlib.Data.Int.ModEq
import Scriptlet.Proofs.Parser.Concatenation
import Scriptlet.Proofs.Printer.Tokens
import Scriptlet.Proofs.Session.Atomicity

/-!
# Arithmetic from text to text

What happens between the text of a calculation and the text of its result. An integer is printed in
decimal, with a minus sign in front if it is negative. When it is read again, the sign is a token of
its own and a unary operator, which binds tighter than the operator of the calculation. The
calculation is done in 64 bits, so the result is the exact one up to multiples of `2 ^ 64`.

The smallest integer is the only one that cannot be read again: the digits behind its sign denote a
number that is out of range.
-/

namespace Scriptlet

/-- The operators of integer arithmetic. -/
inductive Arithmetic where
  | add
  | sub
  | mul
  | div
  deriving DecidableEq

namespace Arithmetic

/-- How the operator is written. -/
def symbol : Arithmetic → String
  | add => "+"
  | sub => "-"
  | mul => "*"
  | div => "/"

/-- The exact result, a quotient being cut off toward zero. -/
def exact : Arithmetic → Int → Int → Int
  | add, left, right => left + right
  | sub, left, right => left - right
  | mul, left, right => left * right
  | div, left, right => left.tdiv right

def kind : Arithmetic → Kind
  | add => .plus
  | sub => .minus
  | mul => .star
  | div => .slash

/-- In 64 bits the result is the exact one, reduced to the range of the integers. -/
theorem exists_binary (op : Arithmetic) (left right : Int64)
    (isDefined : ¬(op = .div ∧ right = 0)) :
    ∃ value : Int64, Value.binary op.kind (.int left) (.int right) = .ok (.int value) ∧
      value.toInt = (op.exact left.toInt right.toInt).bmod (2 ^ 64) := by
  cases op with
  | add => exact ⟨_, rfl, left.toInt_add right⟩
  | sub => exact ⟨_, rfl, left.toInt_sub right⟩
  | mul => exact ⟨_, rfl, left.toInt_mul right⟩
  | div =>
      have nonzero : right ≠ 0 := by simpa using isDefined
      refine ⟨left / right, ?_, left.toInt_div right⟩
      simp [Value.binary, Value.binaryInt, kind, nonzero]

end Arithmetic

/-! ## Printed integers -/

/-- The tokens that a printed integer is read as. -/
def integerTokens : Int → List Token
  | .ofNat number => [⟨.int, toString number⟩]
  | .negSucc number => [.mark .minus, ⟨.int, toString (number + 1)⟩]

/-- The expression that a printed integer is read as. -/
def integerExpr : Int → Expr
  | .ofNat number => .int ⟨.int, toString number⟩ (.ofNat number)
  | .negSucc number =>
      .unary (.mark .minus) (.int ⟨.int, toString (number + 1)⟩ (.ofNat (number + 1)))

theorem spells_integer (integer : Int) {rest : List Char} {tokens : List Token}
    (apart : Kind.int.Apart rest) (others : Spells rest tokens) :
    Spells ((toString integer).toList ++ rest) (integerTokens integer ++ tokens) := by
  have numeral : ∀ number : Nat, Spells ((toString number).toList ++ rest)
      (⟨.int, toString number⟩ :: tokens) :=
    fun number => @Spells.cons ⟨.int, toString number⟩ _ _ (Token.wellFormed_numeral number) apart
      others
  cases integer with
  | ofNat number => exact numeral number
  | negSucc number =>
      have head := (Token.wellFormed_numeral (number + 1)).head_literal (.inl rfl)
      have apartMinus : Kind.minus.Apart ((toString (number + 1)).toList ++ rest) :=
        Kind.apart_of_starts (by decide) head rest
      have signed : (toString (Int.negSucc number)).toList ++ rest =
          Kind.minus.label.toList ++ ((toString (number + 1)).toList ++ rest) := by
        rw [← List.append_assoc, ← String.toList_append]
        rfl
      rw [signed]
      exact .mark .minus (by decide) apartMinus (numeral (number + 1))

theorem expression_integer {integer : Int} (fits : integer.natAbs < 2 ^ 63) (rest : List Token) :
    ∃ nesting ≤ 2, Grammar.Expression .unary nesting (integerTokens integer ++ rest)
      (integerExpr integer) rest := by
  have numeral : ∀ number < 2 ^ 63, Grammar.Expression .unary 1 (⟨.int, toString number⟩ :: rest)
      (.int ⟨.int, toString number⟩ (.ofNat number)) rest := by
    intro number fits
    have token : Decimal.value (toString number).toList < Nat.pow 2 63 := by
      rw [Decimal.value_toString]
      exact fits
    have expression := @Grammar.Expression.ofValue ⟨.int, toString number⟩ rest rfl token
    rw [Decimal.value_toString] at expression
    exact .tighter rfl expression
  cases integer with
  | ofNat number => exact ⟨1, by decide, numeral number fits⟩
  | negSucc number => exact ⟨2, by decide, .unary (.inr rfl) (numeral (number + 1) fits)⟩

theorem eval_integer (integer : Int) (enter : Enter) (scope : ScopeId) (store : Store) :
    (integerExpr integer).eval enter scope store = (.ok (.int (.ofInt integer)), store) := by
  cases integer with
  | ofNat number => rfl
  | negSucc number =>
      rw [Int.negSucc_eq, ← Int.natCast_succ, ← Int64.neg_ofNat]
      rfl

/-- A source that is an expression has the outcome of evaluating the expression. -/
theorem interpret_of_expression {source : String} {nesting : Nat} {expr : Expr}
    (within : nesting < nestingLimit)
    (expression : Grammar.Expression .equality nesting (tokenize source) expr [])
    {outcome : Except Fault Value} {after : Store}
    (evaluated : expr.eval (Closure.enter callLimit) Session.new.globals Session.new.store =
      (outcome.mapError .failed, after)) :
    interpret source = Session.outcome outcome := by
  have derived : ∃ token, Grammar.Derives (max (nesting + 1) 0) (tokenize source)
      ⟨[.expr token expr]⟩ := by
    cases tokens : tokenize source with
    | nil => exact absurd tokens expression.ne_nil
    | cons token rest =>
        rw [tokens] at expression
        exact ⟨token, .cons (.expr expression (.greedy rfl)) .nil⟩
  rcases derived with ⟨token, derived⟩
  have parsed := Program.parse_eq_ok_iff.2 (Program.read_of_derives (by omega) derived)
  rw [interpret, Session.run_of_parse parsed]
  simp only [Session.evalProgram, Program.evalIn, Eval.settle, evalStmts_singleton, Stmt.eval,
    evaluated]
  cases outcome <;> rfl

theorem interpret_integer {integer : Int} (fits : integer.natAbs < 2 ^ 63) :
    interpret (toString integer) = .ok (some (.int (.ofInt integer))) := by
  have spelled := spells_integer integer (by simp [Kind.Apart]) .nil
  rw [List.append_nil] at spelled
  have tokens : tokenize (toString integer) = integerTokens integer ++ [] := spelled.all_eq
  rcases expression_integer fits [] with ⟨nesting, small, expression⟩
  rw [← tokens] at expression
  have within : nesting < nestingLimit := Nat.lt_of_le_of_lt small (by decide)
  exact @interpret_of_expression _ _ _ within (expression.loosen (by decide))
    (.ok (.int (.ofInt integer))) _ (eval_integer integer _ _ _)

/-! ## Calculations -/

theorem tokenize_calculation (op : Arithmetic) (left right : Int) :
    tokenize (toString left ++ " " ++ op.symbol ++ " " ++ toString right) =
      integerTokens left ++ .mark op.kind :: integerTokens right := by
  have written : op.kind.label = op.symbol := by cases op <;> rfl
  have isMark : op.kind ∈ Kind.marks := by cases op <;> decide
  have behind := spells_integer right (by simp [Kind.Apart]) .nil
  rw [List.append_nil, List.append_nil] at behind
  have operator := Spells.mark op.kind isMark (op.kind.apart_blank _) behind.space
  have spelled := spells_integer left (Kind.int.apart_blank _) operator.space
  rw [written] at spelled
  have chars : (toString left ++ " " ++ op.symbol ++ " " ++ toString right).toList =
      (toString left).toList ++ ' ' :: (op.symbol.toList ++ ' ' :: (toString right).toList) := by
    simp
  rw [tokenize, chars]
  exact spelled.all_eq

theorem expression_calculation (op : Arithmetic) {left right : Int}
    (leftFits : left.natAbs < 2 ^ 63) (rightFits : right.natAbs < 2 ^ 63) :
    ∃ nesting ≤ 3, Grammar.Expression .equality nesting
      (integerTokens left ++ .mark op.kind :: integerTokens right)
      (.binary (.mark op.kind) (integerExpr left) (integerExpr right)) [] := by
  have stratified : ∃ stratum next : Stratum, op.kind ∈ stratum.operators ∧ stratum.next? = some next ∧
      Stratum.equality.precedence.rank ≤ stratum.precedence.rank ∧
      stratum.precedence.rank ≤ Stratum.unary.precedence.rank ∧
      next.precedence.rank ≤ Stratum.unary.precedence.rank := by
    cases op with
    | add | sub => exact ⟨.sum, .product, by decide⟩
    | mul | div => exact ⟨.product, .unary, by decide⟩
  rcases stratified with ⟨stratum, next, isOperator, isNext, loose, tight, tightNext⟩
  rcases expression_integer leftFits (.mark op.kind :: integerTokens right) with
    ⟨leftNesting, leftSmall, leftOperand⟩
  rcases expression_integer rightFits [] with ⟨rightNesting, rightSmall, rightOperand⟩
  rw [List.append_nil] at rightOperand
  have expression := Grammar.Expression.binary isOperator isNext (leftOperand.loosen tight)
    (rightOperand.loosen tightNext)
  exact ⟨_, by omega, expression.loosen loose⟩

theorem interpret_calculation (op : Arithmetic) {left right : Int}
    (leftFits : left.natAbs < 2 ^ 63) (rightFits : right.natAbs < 2 ^ 63) :
    interpret (toString left ++ " " ++ op.symbol ++ " " ++ toString right) =
      Session.outcome (Value.binary op.kind (.int (.ofInt left)) (.int (.ofInt right))) := by
  rcases expression_calculation op leftFits rightFits with ⟨nesting, small, expression⟩
  rw [← tokenize_calculation] at expression
  have within : nesting < nestingLimit := Nat.lt_of_le_of_lt small (by decide)
  apply interpret_of_expression within expression
  rw [Expr.eval, Eval.bind_of_ok (eval_integer left _ _ _),
    Eval.bind_of_ok (eval_integer right _ _ _), Eval.ofExcept_apply]
  rfl

/-- The digits of the smallest integer, without its sign, are out of range. -/
theorem interpret_smallest : interpret (Value.int (.ofInt (-2 ^ 63))).display =
    .error (.unreadable ⟨#[.integerRange "9223372036854775808"]⟩) := by
  decide +kernel

/-- A calculation with two integers. Dividing by zero is a fault. Otherwise the result is the integer
of 64 bits that is congruent to the exact result, a quotient being cut off toward zero. Every result
but the smallest integer can be printed and read again; for that one the digits are out of range. -/
theorem interpret_arithmetic (op : Arithmetic) {left right : Int}
    (leftFits : |left| ≤ 2 ^ 63 - 1) (rightFits : |right| ≤ 2 ^ 63 - 1) :
    let text (integer : Int) := (Value.int (.ofInt integer)).display
    let result := interpret (text left ++ " " ++ op.symbol ++ " " ++ text right)
    (op = .div ∧ right = 0 → result = .error (.faulty .divisionByZero)) ∧
    (¬(op = .div ∧ right = 0) → ∃ value : Int64, result = .ok (some (.int value)) ∧
      (-2 ^ 63 ≤ value.toInt ∧ value.toInt ≤ 2 ^ 63 - 1) ∧
      value.toInt ≡ op.exact left right [ZMOD 2 ^ 64] ∧
      (-2 ^ 63 < value.toInt → interpret (Value.int value).display = .ok (some (.int value)))) ∧
    ∃ report, interpret (text (-2 ^ 63)) = .error (.unreadable report) ∧
      (Failure.unreadable report).message = "could not parse 9223372036854775808 as integer" := by
  intro text result
  rw [← Int.natCast_natAbs] at leftFits rightFits
  have kept : ∀ integer : Int, integer.natAbs ≤ (2 ^ 63 - 1 : Int) →
      (Int64.ofInt integer).toInt = integer := by
    intro integer fits
    exact Int64.toInt_ofInt_of_le (by omega) (by omega)
  have calculated : result =
      Session.outcome (Value.binary op.kind (.int (.ofInt left)) (.int (.ofInt right))) := by
    simp only [result, text, Value.display, kept left leftFits, kept right rightFits]
    exact interpret_calculation op (by omega) (by omega)
  refine ⟨?_, ?_, ?_⟩
  · rintro ⟨rfl, rfl⟩
    rw [calculated]
    rfl
  · intro isDefined
    have nonzero : ¬(op = .div ∧ Int64.ofInt right = 0) := by
      rintro ⟨isDiv, isZero⟩
      have := kept right rightFits
      rw [isZero] at this
      exact isDefined ⟨isDiv, this.symm⟩
    rcases op.exists_binary (.ofInt left) (.ofInt right) nonzero with ⟨value, done, reduced⟩
    rw [kept left leftFits, kept right rightFits] at reduced
    have lower := value.le_toInt
    have upper := value.toInt_lt
    refine ⟨value, ?_, by omega, ?_, ?_⟩
    · rw [calculated, done]
      rfl
    · rw [reduced]
      exact Int.bmod_emod
    · intro greater
      have read := @interpret_integer value.toInt (by omega)
      rwa [Int64.ofInt_toInt] at read
  · exact ⟨_, interpret_smallest, by decide +kernel⟩

/-- Two negative operands. Below the smallest integer the results begin again at the largest one,
which can be read. -/
theorem interpret_arithmetic_wrapped :
    |(-(2 ^ 63 - 1) : Int)| ≤ 2 ^ 63 - 1 ∧ |(-2 : Int)| ≤ 2 ^ 63 - 1 ∧
      ∃ value : Int64, interpret "-9223372036854775807 + -2" = .ok (some (.int value)) ∧
        value.toInt = 2 ^ 63 - 1 ∧
        interpret (Value.int value).display = .ok (some (.int value)) := by
  have leftFits : |(-(2 ^ 63 - 1) : Int)| ≤ 2 ^ 63 - 1 := by decide
  have rightFits : |(-2 : Int)| ≤ 2 ^ 63 - 1 := by decide
  rcases interpret_arithmetic .add leftFits rightFits with ⟨_, result, _⟩
  rcases result (by simp) with ⟨value, done, ⟨lower, upper⟩, congruent, again⟩
  have wrapped : value.toInt = 2 ^ 63 - 1 := by
    simp only [Int.ModEq, Arithmetic.exact] at congruent
    omega
  refine ⟨leftFits, rightFits, value, ?_, wrapped, again (by omega)⟩
  rw [← done]
  congr 1

end Scriptlet
