import Scriptlet.Parser.Tree
import Scriptlet.Proofs.Parser.Grammar
import Scriptlet.Tree.Role

/-!
# Strata and precedence

The grammar separates operators by strata, the parser by comparing precedences. A stratum has the
precedence of its operators, and a precedence has a stratum above it, that of the expressions whose
operators all bind tighter. These two maps carry the one account over into the other.

Chains get the highest precedence, because any token may follow a chain: none that continues an
expression binds so tightly that the chain would have to end earlier.
-/

namespace Scriptlet

namespace Stratum

/-- How tightly the operators of a stratum bind. -/
def precedence : Stratum → Precedence
  | equality => .equals
  | comparison => .lessGreater
  | sum => .sum
  | product => .product
  | unary => .unary
  | chain => .paren

theorem exists_next_of_rank_lt {stratum other : Stratum}
    (looser : stratum.precedence.rank < other.precedence.rank) :
    ∃ next, stratum.next? = some next ∧ next.precedence.rank ≤ other.precedence.rank ∧
      stratum.precedence.rank < next.precedence.rank := by
  cases stratum with
  | chain => cases other <;> simp [precedence, Precedence.rank] at looser
  | _ => cases other <;> simp_all [next?, precedence, Precedence.rank]

theorem rank_lt_of_next? {stratum next : Stratum} (isNext : stratum.next? = some next) :
    stratum.precedence.rank < next.precedence.rank := by
  cases stratum <;> simp only [next?, Option.some.injEq, reduceCtorEq] at isNext <;>
    subst isNext <;> decide

theorem eq_of_rank_eq {stratum other : Stratum}
    (same : stratum.precedence.rank = other.precedence.rank) : stratum = other := by
  cases stratum <;> cases other <;> simp_all [precedence, Precedence.rank]

theorem eq_chain_of_rank {stratum : Stratum}
    (tight : Precedence.unary.rank < stratum.precedence.rank) : stratum = chain := by
  cases stratum <;> simp_all [precedence, Precedence.rank]

theorem continuation?_of_mem_operators {stratum : Stratum} {kind : Kind}
    (isOperator : kind ∈ stratum.operators) :
    kind.continuation? = some (.binary stratum.precedence) := by
  cases stratum <;> simp only [operators, List.mem_cons, List.not_mem_nil, or_false] at isOperator
  case equality => rcases isOperator with rfl | rfl <;> rfl
  case comparison => rcases isOperator with rfl | rfl | rfl | rfl <;> rfl
  case sum => rcases isOperator with rfl | rfl <;> rfl
  case product => rcases isOperator with rfl | rfl <;> rfl

end Stratum

namespace Precedence

/-- The stratum of the expressions whose operators all bind tighter than a precedence. -/
def above : Precedence → Stratum
  | lowest => .equality
  | equals => .comparison
  | lessGreater => .sum
  | sum => .product
  | product | unary | suffix | call | paren => .unary

theorem eq_lowest_of_rank_le {precedence : Precedence} (loose : precedence.rank ≤ lowest.rank) :
    precedence = lowest := by
  cases precedence <;> simp_all [rank]

/-- Operators of a stratum above a precedence bind tighter than it. -/
theorem rank_lt_of_above {precedence : Precedence} {stratum : Stratum} {kind : Kind}
    (above : precedence.above.precedence.rank ≤ stratum.precedence.rank)
    (isOperator : kind ∈ stratum.operators) : precedence.rank < stratum.precedence.rank := by
  cases stratum with
  | unary => simp [Stratum.operators] at isOperator
  | chain => simp [Stratum.operators] at isOperator
  | _ => cases precedence <;> simp_all [Precedence.above, Stratum.precedence, rank]

theorem above_rank_le_of_lt {precedence : Precedence} {stratum : Stratum}
    (tighter : precedence.rank < stratum.precedence.rank) :
    precedence.above.precedence.rank ≤ stratum.precedence.rank := by
  cases stratum <;> cases precedence <;> simp_all [Precedence.above, Stratum.precedence, rank]

theorem rank_le_above {precedence : Precedence} (operand : precedence.rank ≤ unary.rank) :
    precedence.rank ≤ precedence.above.precedence.rank := by
  cases precedence <;> simp_all [Precedence.above, Stratum.precedence, rank]

theorem above_precedence_of_next? {stratum next : Stratum} {kind : Kind}
    (isOperator : kind ∈ stratum.operators) (isNext : stratum.next? = some next) :
    stratum.precedence.above = next := by
  cases stratum <;> simp_all [Stratum.operators, Stratum.next?, Stratum.precedence, Precedence.above]

end Precedence

namespace Kind

theorem exists_stratum_of_continuation? {kind : Kind} {precedence : Precedence}
    (binary : kind.continuation? = some (.binary precedence)) :
    ∃ stratum : Stratum, kind ∈ stratum.operators ∧ stratum.precedence = precedence ∧
      stratum.next? = some precedence.above := by
  cases kind <;> simp only [continuation?, Option.some.injEq, Continuation.binary.injEq,
    reduceCtorEq] at binary <;> subst binary
  case eq | ne => exact ⟨.equality, by decide, rfl, rfl⟩
  case lt | le | gt | ge => exact ⟨.comparison, by decide, rfl, rfl⟩
  case plus | minus => exact ⟨.sum, by decide, rfl, rfl⟩
  case star | slash => exact ⟨.product, by decide, rfl, rfl⟩

theorem continuation?_of_allowed {kind : Kind} (allowed : kind ∈ Role.binary.allowed) :
    kind.continuation? = some (.binary kind.precedence) := by
  simp only [Role.allowed, List.mem_cons, List.not_mem_nil, or_false] at allowed
  rcases allowed with rfl | rfl | rfl | rfl | rfl | rfl | rfl | rfl | rfl | rfl <;> rfl

theorem continuation?_eq_suffix_iff {kind : Kind} :
    kind.continuation? = some .suffix ↔ kind ∈ [.plusPlus, .minusMinus, .question] := by
  cases kind <;> simp [continuation?]

theorem continuation?_eq_call_iff {kind : Kind} :
    kind.continuation? = some .call ↔ kind = .lparen := by
  cases kind <;> simp [continuation?]

theorem rank_precedence_of_continuation? {kind : Kind} {continuation : Continuation}
    (continues : kind.continuation? = some continuation) :
    kind.precedence.rank = continuation.precedence.rank := by
  rw [Kind.precedence, continues]

end Kind

namespace Parser

theorem tighter?_eq_some_iff {precedence : Precedence} {kind : Kind} {continuation : Continuation} :
    tighter? precedence kind = some continuation ↔
      kind.continuation? = some continuation ∧ precedence.rank < continuation.precedence.rank := by
  rw [tighter?, Option.filter_eq_some_iff]
  simp only [decide_eq_true_eq]
  rfl

theorem tighter?_eq_none_iff {precedence : Precedence} {kind : Kind} :
    tighter? precedence kind = none ↔ kind.precedence.rank ≤ precedence.rank := by
  cases continues : kind.continuation? with
  | none =>
      have loose : kind.precedence = .lowest := by rw [Kind.precedence, continues]
      simp [tighter?, continues, loose, Precedence.rank]
  | some continuation =>
      rw [Kind.rank_precedence_of_continuation? continues]
      simp only [tighter?, continues, Option.filter_some, decide_eq_true_eq, ite_eq_right_iff,
        reduceCtorEq, imp_false]
      exact Nat.not_lt

end Parser

namespace Grammar

/-- An expression of a tighter stratum is one of every looser stratum. -/
theorem Expression.loosen {stratum other : Stratum} {nesting : Nat} {input rest : List Token}
    {expr : Expr} (looser : stratum.precedence.rank ≤ other.precedence.rank)
    (expression : Expression other nesting input expr rest) :
    Expression stratum nesting input expr rest := by
  rcases Nat.eq_or_lt_of_le looser with same | less
  · rwa [Stratum.eq_of_rank_eq same]
  · rcases Stratum.exists_next_of_rank_lt less with ⟨next, isNext, nextLooser, closer⟩
    exact .tighter isNext (expression.loosen nextLooser)
termination_by other.precedence.rank - stratum.precedence.rank

end Grammar

end Scriptlet
