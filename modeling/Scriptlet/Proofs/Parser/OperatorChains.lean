import Scriptlet.Proofs.Parser.Recognition
import Scriptlet.Tree.Equality

/-!
# Chains of operators

Operands with operators between them, as many as there may be, are always read without complaint.
In the tree the operators group by how tightly they bind, and to the left where they bind equally.
This determines the tree: there is only one with these tokens in this order in which no operator
stands below one that binds tighter, and below one that binds equally only to its left.

The right operand of an operator counts one level of nesting, and going down to the right operators
bind tighter and tighter. So a chain needs no more levels than there are strata of operators.
-/

namespace Scriptlet

/-- The expression that a token is by itself: a name, a boolean or an integer that is in range. -/
def Token.atom? (token : Token) : Option Expr :=
  match token.kind with
  | .ident => some (.name (.ofToken token))
  | .kwTrue => some (.bool token true)
  | .kwFalse => some (.bool token false)
  | .int =>
      if Decimal.value token.literal.toList < Nat.pow 2 63 then
        some (.int token (Int64.ofNat (Decimal.value token.literal.toList)))
      else none
  | _ => none

/-- A token that is an expression by itself, and suffix operators behind it. -/
structure Operand where
  atom : Token
  suffixes : List Token
  isAtom : atom.atom?.isSome
  areSuffixes : ∀ suffix ∈ suffixes, suffix.kind ∈ Role.suffix.allowed

def Operand.tokens (operand : Operand) : List Token := operand.atom :: operand.suffixes

/-- A binary operator and the operand on its right. -/
structure Link where
  operator : Token
  operand : Operand
  isOperator : operator.kind ∈ Role.binary.allowed

/-- Operands with binary operators between them. -/
structure OperatorChain where
  first : Operand
  links : List Link

def OperatorChain.tokens (chain : OperatorChain) : List Token :=
  chain.first.tokens ++ chain.links.flatMap fun link => link.operator :: link.operand.tokens

namespace Expr

/-- The tokens of a tree of operators in the order of the source. -/
def inOrder : Expr → List Token
  | .name ident => [ident.token]
  | .int token _ | .bool token _ => [token]
  | .unary token operand => token :: operand.inOrder
  | .binary token left right => left.inOrder ++ token :: right.inOrder
  | .suffix token operand => operand.inOrder ++ [token]
  | .cond .. | .function .. | .call .. => []

/-- The operator at the root, if it is a binary one. -/
def operator? : Expr → Option Token
  | .binary token _ _ => some token
  | _ => none

/-- Suffixes only, down to the token that they stand behind. -/
inductive IsOperand : Expr → Prop
  | atom {token : Token} {expr : Expr} (isAtom : token.atom? = some expr) : IsOperand expr
  | suffix {token : Token} {expr : Expr} (isSuffix : token.kind ∈ Role.suffix.allowed)
      (inner : IsOperand expr) : IsOperand (.suffix token expr)

/-- Binary operators over operands. An operator on the left of another binds at least as tightly as
this one, and one on its right binds tighter. -/
inductive Arranged : Expr → Prop
  | operand {expr : Expr} (isOperand : IsOperand expr) : Arranged expr
  | binary {token : Token} {left right : Expr} (isOperator : token.kind ∈ Role.binary.allowed)
      (leftArranged : Arranged left) (rightArranged : Arranged right)
      (leftTight : ∀ operator ∈ left.operator?,
        token.kind.precedence.rank ≤ operator.kind.precedence.rank)
      (rightTighter : ∀ operator ∈ right.operator?,
        token.kind.precedence.rank < operator.kind.precedence.rank) :
      Arranged (.binary token left right)

/-- Adds an operator and its right operand behind a tree, as deep on the right as the operator
binds tighter than those above it. -/
def attach (tree : Expr) (token : Token) (operand : Expr) : Expr :=
  match tree with
  | .binary operator left right =>
      if operator.kind.precedence.rank < token.kind.precedence.rank then
        .binary operator left (right.attach token operand)
      else .binary token (.binary operator left right) operand
  | other => .binary token other operand
termination_by structural tree

end Expr

open Grammar

/-- What there is to know of a token that is an expression by itself. -/
theorem Token.atom?_spec {token : Token} {expr : Expr} (isAtom : token.atom? = some expr) :
    expr.inOrder = [token] ∧ expr.operator? = none ∧
      ∀ rest, Expression .chain 1 (token :: rest) expr rest := by
  unfold Token.atom? at isAtom
  split at isAtom
  · next isKind =>
      cases isAtom
      exact ⟨rfl, rfl, fun _ => .name isKind⟩
  · next isKind =>
      cases isAtom
      exact ⟨rfl, rfl, fun _ => .true isKind⟩
  · next isKind =>
      cases isAtom
      exact ⟨rfl, rfl, fun _ => .false isKind⟩
  · next isKind =>
      split at isAtom
      · next inRange =>
          cases isAtom
          exact ⟨rfl, rfl, fun _ => .ofValue isKind inRange⟩
      · cases isAtom
  · cases isAtom

/-- Binary operators bind less tightly than unary ones. -/
theorem Kind.rank_lt_of_allowed {kind : Kind} (allowed : kind ∈ Role.binary.allowed) :
    kind.precedence.rank < Precedence.unary.rank := by
  simp only [Role.allowed, List.mem_cons, List.not_mem_nil, or_false] at allowed
  rcases allowed with rfl | rfl | rfl | rfl | rfl | rfl | rfl | rfl | rfl | rfl <;> decide

namespace Expr

variable {tree operand : Expr} {token : Token}

theorem IsOperand.operator?_eq_none (isOperand : tree.IsOperand) : tree.operator? = none := by
  cases isOperand with
  | atom isAtom => exact (Token.atom?_spec isAtom).2.1
  | suffix => rfl

/-- How tightly the operator at the root binds. An operand has none, and is as tight as what binary
operators apply to. -/
def tightness (tree : Expr) : Nat :=
  match tree.operator? with
  | some operator => operator.kind.precedence.rank
  | none => Precedence.unary.rank

theorem le_tightness_of_forall {rank : Nat} (low : rank ≤ Precedence.unary.rank)
    (tight : ∀ operator ∈ tree.operator?, rank ≤ operator.kind.precedence.rank) :
    rank ≤ tree.tightness := by
  unfold tightness
  split
  · next operator isOperator => exact tight operator isOperator
  · exact low

theorem IsOperand.derived (isOperand : tree.IsOperand) (rest : List Token) :
    Expression .chain 1 (tree.inOrder ++ rest) tree rest := by
  induction isOperand generalizing rest with
  | atom isAtom =>
      rcases Token.atom?_spec isAtom with ⟨tokens, _, derived⟩
      rw [tokens]
      exact derived rest
  | @suffix token expr isSuffix _ ih =>
      have inner := ih (token :: rest)
      simpa [inOrder] using Expression.suffix isSuffix inner

/-- An arranged tree is derived from its tokens. Each stratum that its operators are in costs one
level of nesting at most, so there is one level left for every stratum above the root. -/
theorem Arranged.derived (arranged : tree.Arranged) (rest : List Token) :
    ∃ stratum nesting, stratum.precedence.rank = tree.tightness ∧
      nesting + tree.tightness ≤ Precedence.unary.rank + 1 ∧
      Expression stratum nesting (tree.inOrder ++ rest) tree rest := by
  induction arranged generalizing rest with
  | operand isOperand =>
      have tight := isOperand.operator?_eq_none
      refine ⟨.unary, 1, ?_, ?_, .tighter rfl (isOperand.derived rest)⟩
      · simp [tightness, tight, Stratum.precedence]
      · simp [tightness, tight, Nat.add_comm]
  | @binary token left right isOperator _ _ leftTight rightTighter leftDerived rightDerived =>
      have low := Kind.rank_lt_of_allowed isOperator
      have leftBound := le_tightness_of_forall (Nat.le_of_lt low) leftTight
      have rightBound : token.kind.precedence.rank < right.tightness :=
        le_tightness_of_forall low rightTighter
      rcases Kind.exists_stratum_of_continuation? (Kind.continuation?_of_allowed isOperator) with
        ⟨stratum, inStratum, precedence_eq, isNext⟩
      rcases rightDerived rest with ⟨other, rightNesting, otherRank, rightLow, rightExpression⟩
      rcases leftDerived (token :: (right.inOrder ++ rest)) with
        ⟨another, leftNesting, anotherRank, leftLow, leftExpression⟩
      have looseLeft : stratum.precedence.rank ≤ another.precedence.rank := by
        rw [anotherRank, precedence_eq]
        exact leftBound
      have looseRight : token.kind.precedence.above.precedence.rank ≤ other.precedence.rank := by
        apply Precedence.above_rank_le_of_lt
        rw [otherRank]
        exact rightBound
      have applied := Expression.binary inStratum isNext (leftExpression.loosen looseLeft)
        (rightExpression.loosen looseRight)
      refine ⟨stratum, _, ?_, ?_, by simpa [inOrder] using applied⟩
      · simp [tightness, operator?, precedence_eq]
      · simp only [tightness, operator?]
        omega

theorem attach_of_operator?_eq_none (none : tree.operator? = none) :
    tree.attach token operand = .binary token tree operand := by
  cases tree with
  | binary => cases none
  | _ => rfl

/-- What is attached comes to the root or leaves the root as it is. -/
theorem operator?_attach (tree : Expr) (token : Token) (operand : Expr) :
    (tree.attach token operand).operator? = some token ∨
      (tree.attach token operand).operator? = tree.operator? := by
  cases tree with
  | binary operator left right =>
      simp only [attach]
      split
      · exact .inr rfl
      · exact .inl rfl
  | _ => exact .inl rfl

theorem Arranged.inOrder_attach (arranged : tree.Arranged) (token : Token) (operand : Expr) :
    (tree.attach token operand).inOrder = tree.inOrder ++ token :: operand.inOrder := by
  induction arranged with
  | operand isOperand =>
      rw [attach_of_operator?_eq_none isOperand.operator?_eq_none]
      rfl
  | binary _ _ _ _ _ _ ih =>
      simp only [attach]
      split
      · simp [inOrder, ih]
      · simp [inOrder]

theorem Arranged.attach (arranged : tree.Arranged) (isOperator : token.kind ∈ Role.binary.allowed)
    (isOperand : operand.IsOperand) : (tree.attach token operand).Arranged := by
  have nothing : ∀ operator ∈ operand.operator?,
      token.kind.precedence.rank < operator.kind.precedence.rank := by
    simp [isOperand.operator?_eq_none]
  induction arranged with
  | @operand tree isTreeOperand =>
      have none := isTreeOperand.operator?_eq_none
      rw [attach_of_operator?_eq_none none]
      exact .binary isOperator (.operand isTreeOperand) (.operand isOperand) (by simp [none]) nothing
  | @binary operator left right isRootOperator leftArranged rightArranged leftTight rightTighter _
      ih =>
      simp only [Expr.attach]
      split
      · next tighter =>
          refine .binary isRootOperator leftArranged ih leftTight ?_
          -- the root on the right is still the old one, or it is the new operator
          rcases operator?_attach right token operand with isNew | isOld
          · simpa [isNew] using tighter
          · rwa [isOld]
      · next notTighter =>
          have whole := Arranged.binary isRootOperator leftArranged rightArranged leftTight
            rightTighter
          refine .binary isOperator whole (.operand isOperand) ?_ nothing
          simpa [operator?] using notTighter

/-- An arranged tree is what its tokens are read as. -/
theorem Arranged.read_eq (arranged : tree.Arranged) {source : String} {rest : List Token}
    (spelled : tokenize source = tree.inOrder) (first : tree.inOrder = token :: rest) :
    Program.read source = (⟨[.expr token tree]⟩, .empty) := by
  rcases arranged.derived [] with ⟨stratum, nesting, rank_eq, low, expression⟩
  have loosest : Stratum.equality.precedence.rank ≤ stratum.precedence.rank := by
    cases stratum <;> decide
  have statement : Statement (nesting + 1) tree.inOrder (.expr token tree) [] := by
    rw [List.append_nil, first] at expression
    rw [first]
    exact .expr (expression.loosen loosest) (.greedy rfl)
  have within : max (nesting + 1) 0 ≤ nestingLimit := by
    simp only [Precedence.rank] at low
    simp only [nestingLimit]
    omega
  apply Program.read_of_derives within
  rw [spelled]
  exact .cons statement .nil

theorem IsOperand.exists_suffixed (isOperand : tree.IsOperand) {suffixes : List Token}
    (areSuffixes : ∀ suffix ∈ suffixes, suffix.kind ∈ Role.suffix.allowed) :
    ∃ whole : Expr, whole.IsOperand ∧ whole.inOrder = tree.inOrder ++ suffixes := by
  induction suffixes generalizing tree with
  | nil => exact ⟨tree, isOperand, by simp⟩
  | cons suffix suffixes ih =>
      rw [List.forall_mem_cons] at areSuffixes
      rcases ih (.suffix areSuffixes.1 isOperand) areSuffixes.2 with ⟨whole, isWhole, tokens⟩
      exact ⟨whole, isWhole, by simpa [inOrder] using tokens⟩

end Expr

theorem Operand.exists_expr (operand : Operand) :
    ∃ expr : Expr, expr.IsOperand ∧ expr.inOrder = operand.tokens := by
  rcases Option.isSome_iff_exists.1 operand.isAtom with ⟨atom, isAtom⟩
  rcases (Expr.IsOperand.atom isAtom).exists_suffixed operand.areSuffixes with
    ⟨whole, isWhole, tokens⟩
  refine ⟨whole, isWhole, ?_⟩
  simpa [Operand.tokens, (Token.atom?_spec isAtom).1] using tokens

/-- The operators of a chain are attached one after the other. -/
theorem Expr.Arranged.exists_extended {tree : Expr} (arranged : tree.Arranged)
    (links : List Link) :
    ∃ whole : Expr, whole.Arranged ∧ whole.inOrder =
      tree.inOrder ++ links.flatMap fun link => link.operator :: link.operand.tokens := by
  induction links generalizing tree with
  | nil => exact ⟨tree, arranged, by simp⟩
  | cons link links ih =>
      rcases link.operand.exists_expr with ⟨operand, isOperand, tokens⟩
      rcases ih (arranged.attach link.isOperator isOperand) with ⟨whole, isWhole, wholeTokens⟩
      refine ⟨whole, isWhole, ?_⟩
      simpa [arranged.inOrder_attach, tokens] using wholeTokens

theorem OperatorChain.exists_arranged (chain : OperatorChain) :
    ∃ tree : Expr, tree.Arranged ∧ tree.inOrder = chain.tokens := by
  rcases chain.first.exists_expr with ⟨first, isOperand, tokens⟩
  rcases (Expr.Arranged.operand isOperand).exists_extended chain.links with
    ⟨whole, isWhole, wholeTokens⟩
  exact ⟨whole, isWhole, by rw [wholeTokens, tokens, OperatorChain.tokens]⟩

/-- A source that spells a chain of operators is read without complaint, however long the chain is,
as a single expression. Of all arranged trees it is the one with the tokens of the chain. -/
theorem Program.read_operatorChain (chain : OperatorChain) (source : String)
    (spelled : tokenize source = chain.tokens) :
    ∃ tree, Program.read source = (⟨[.expr chain.first.atom tree]⟩, .empty) ∧
      ∀ other : Expr, other.Arranged ∧ other.inOrder = chain.tokens ↔ other = tree := by
  have read : ∀ other : Expr, other.Arranged → other.inOrder = chain.tokens →
      Program.read source = (⟨[.expr chain.first.atom other]⟩, .empty) :=
    fun other arranged tokens => arranged.read_eq (spelled.trans tokens.symm) tokens
  rcases chain.exists_arranged with ⟨tree, arranged, tokens⟩
  refine ⟨tree, read tree arranged tokens, ?_⟩
  intro other
  constructor
  · rintro ⟨otherArranged, otherTokens⟩
    have same := (read other otherArranged otherTokens).symm.trans (read tree arranged tokens)
    simpa using same
  · rintro rfl
    exact ⟨arranged, tokens⟩

/-- All four strata of operators, and suffixes on an operand in between. -/
theorem Program.read_operatorChain_mixed :
    let source := "a - b++? * 2 < 7 == true"
    let product : Expr := .binary (.mark .star)
      (.suffix (.mark .question) (.suffix (.mark .plusPlus) (.name (.ofToken (.word "b")))))
      (.int ⟨.int, "2"⟩ 2)
    let difference : Expr := .binary (.mark .minus) (.name (.ofToken (.word "a"))) product
    let comparison : Expr := .binary (.mark .lt) difference (.int ⟨.int, "7"⟩ 7)
    let tree : Expr := .binary (.mark .eq) comparison (.bool (.word "true") true)
    Program.read source = (⟨[.expr (.word "a") tree]⟩, .empty) ∧
      ∀ other : Expr, other.Arranged ∧ other.inOrder = tokenize source ↔ other = tree := by
  intro source product difference comparison tree
  have evaluated : Program.read source = (⟨[.expr (.word "a") tree]⟩, .empty) := by decide +kernel
  let chain : OperatorChain :=
    { first := ⟨.word "a", [], by decide, by simp⟩
      links := [
        ⟨.mark .minus, ⟨.word "b", [.mark .plusPlus, .mark .question], by decide, by decide⟩,
          by decide⟩,
        ⟨.mark .star, ⟨⟨.int, "2"⟩, [], by decide, by simp⟩, by decide⟩,
        ⟨.mark .lt, ⟨⟨.int, "7"⟩, [], by decide, by simp⟩, by decide⟩,
        ⟨.mark .eq, ⟨.word "true", [], by decide, by simp⟩, by decide⟩] }
  have spelled : tokenize source = chain.tokens := by decide +kernel
  rcases Program.read_operatorChain chain source spelled with ⟨found, read, unique⟩
  have same : chain.first.atom = .word "a" ∧ found = tree := by
    simpa using read.symm.trans evaluated
  rw [same.2, ← spelled] at unique
  exact ⟨evaluated, unique⟩

end Scriptlet
