import Scriptlet.Proofs.Lexer.Spelling
import Scriptlet.Proofs.Parser.Grammar
import Scriptlet.Tree.Role

/-!
# Trees that were read

A tree may carry any token anywhere, but not every tree is one that the grammar derives from the
tokens of a source. `WellSpelled` says what is known of the tokens and values of such a tree: the
text of each token is fixed by the kind of the node, or is a word or a number that the node repeats.
Only the token of an expression statement is left open, as it depends on the parentheses around the
expression.
-/

namespace Scriptlet

namespace Kind

theorem eq_of_ofWord {word text : String} {kind : Kind} (reserved : (text, kind) ∈ keywords)
    (same : ofWord word = kind) : word = text := by
  have injective : ∀ one ∈ keywords, ∀ other ∈ keywords, one.2 = other.2 → one.1 = other.1 := by
    decide
  cases found : keywords.lookup word with
  | none =>
      have notIdent : ∀ one ∈ keywords, one.2 ≠ ident := by decide
      rw [ofWord, found] at same
      exact absurd same.symm (notIdent _ reserved)
  | some known =>
      rcases List.lookup_eq_some_iff.1 found with ⟨before, after, split, _⟩
      have known_mem : (word, known) ∈ keywords := by simp [split]
      rw [ofWord, found] at same
      exact injective _ known_mem _ reserved same

end Kind

namespace Token

theorem WellFormed.eq_mark {token : Token} (wellFormed : token.WellFormed)
    (isMark : token.kind ∈ Kind.marks) : token = .mark token.kind := by
  cases wellFormed with
  | int => exact absurd isMark (show Kind.int ∉ Kind.marks by decide)
  | @word first rest =>
      have notMark : ∀ kind ∈ [Kind.ident, .kwFn, .kwLet, .kwTrue, .kwFalse, .kwIf, .kwElse,
          .kwReturn], kind ∉ Kind.marks := by
        decide
      exact absurd isMark (notMark _ (Kind.ofWord_mem _))
  | mark => rfl
  | illegal => exact absurd isMark (show Kind.illegal ∉ Kind.marks by decide)

theorem WellFormed.eq_word {token : Token} (wellFormed : token.WellFormed) {text : String}
    (reserved : (text, token.kind) ∈ Kind.keywords) : token = .word text := by
  have notOther : ∀ known ∈ Kind.keywords,
      known.2 ≠ .int ∧ known.2 ≠ .illegal ∧ known.2 ∉ Kind.marks := by
    decide
  have other := notOther _ reserved
  cases wellFormed with
  | int => exact absurd rfl other.1
  | word => rw [Kind.eq_of_ofWord reserved rfl]
  | mark isMark => exact absurd isMark other.2.2
  | illegal => exact absurd rfl other.2.1

end Token

/-- A name with the token that spells it. -/
def Ident.WellSpelled (ident : Ident) : Prop :=
  ident.token.WellFormed ∧ ident.token.kind = .ident ∧ ident.name = ident.token.literal

mutual

/-- Expressions whose tokens and values are as they were read. -/
inductive Expr.WellSpelled : Expr → Prop
  | name {ident : Ident} (spelled : ident.WellSpelled) : Expr.WellSpelled (.name ident)
  | int {token : Token} (wellFormed : token.WellFormed) (isInt : token.kind = .int)
      (inRange : Decimal.value token.literal.toList < Nat.pow 2 63) :
      Expr.WellSpelled (.int token (Int64.ofNat (Decimal.value token.literal.toList)))
  | bool (value : Bool) : Expr.WellSpelled (.bool (.word (toString value)) value)
  | unary {kind : Kind} {operand : Expr} (allowed : kind ∈ Role.unary.allowed)
      (inner : operand.WellSpelled) : Expr.WellSpelled (.unary (.mark kind) operand)
  | binary {kind : Kind} {left right : Expr} (allowed : kind ∈ Role.binary.allowed)
      (leftOperand : left.WellSpelled) (rightOperand : right.WellSpelled) :
      Expr.WellSpelled (.binary (.mark kind) left right)
  | suffix {kind : Kind} {operand : Expr} (allowed : kind ∈ Role.suffix.allowed)
      (inner : operand.WellSpelled) : Expr.WellSpelled (.suffix (.mark kind) operand)
  | cond {test : Expr} {consequence : Block} {alternative : Option Block}
      (condition : test.WellSpelled) (branch : consequence.WellSpelled)
      (elseBranch : ∀ block ∈ alternative, Block.WellSpelled block) :
      Expr.WellSpelled (.cond (.word "if") test consequence alternative)
  | function {params : List Ident} {body : Block}
      (parameters : ∀ param ∈ params, param.WellSpelled) (block : body.WellSpelled) :
      Expr.WellSpelled (.function (.word "fn") params body)
  | call {callee : Expr} {args : List Expr} (function : callee.WellSpelled)
      (arguments : ∀ arg ∈ args, Expr.WellSpelled arg) :
      Expr.WellSpelled (.call (.mark .lparen) callee args)

inductive Stmt.WellSpelled : Stmt → Prop
  | letBind {name : Ident} {expr : Expr} (spelled : name.WellSpelled) (value : expr.WellSpelled) :
      Stmt.WellSpelled (.letBind (.word "let") name expr)
  | ret {expr : Expr} (value : expr.WellSpelled) : Stmt.WellSpelled (.ret (.word "return") expr)
  | expr {token : Token} {expr : Expr} (inner : expr.WellSpelled) :
      Stmt.WellSpelled (.expr token expr)
  | block {block : Block} (inner : block.WellSpelled) : Stmt.WellSpelled (.block block)

inductive Block.WellSpelled : Block → Prop
  | mk {stmts : List Stmt} (statements : ∀ stmt ∈ stmts, Stmt.WellSpelled stmt) :
      Block.WellSpelled (.mk (.mark .lbrace) stmts)

end

/-- Tokens that are all spelled by their texts, as those of a source are. -/
def Spelled (tokens : List Token) : Prop := ∀ token ∈ tokens, token.WellFormed

theorem spelled_cons_iff {token : Token} {tokens : List Token} :
    Spelled (token :: tokens) ↔ token.WellFormed ∧ Spelled tokens :=
  List.forall_mem_cons

theorem spelled_tokenize (source : String) : Spelled (tokenize source) :=
  fun _ token_mem => Token.wellFormed_of_mem_all token_mem

namespace Grammar

theorem wellSpelled_ofToken {token : Token} (wellFormed : token.WellFormed)
    (isIdent : token.kind = .ident) : (Ident.ofToken token).WellSpelled :=
  ⟨wellFormed, isIdent, rfl⟩

theorem Identifiers.wellSpelled {input rest : List Token} {idents : List Ident}
    (identifiers : Identifiers input idents rest) (spelled : Spelled input) :
    (∀ ident ∈ idents, ident.WellSpelled) ∧ Spelled rest := by
  induction identifiers with
  | one isIdent =>
      rw [spelled_cons_iff] at spelled
      simpa using ⟨wellSpelled_ofToken spelled.1 isIdent, spelled.2⟩
  | more isIdent isComma others ih =>
      simp only [spelled_cons_iff] at spelled
      rcases ih spelled.2.2 with ⟨idents, rest⟩
      simpa using ⟨⟨wellSpelled_ofToken spelled.1 isIdent, idents⟩, rest⟩

theorem Parameters.wellSpelled {input rest : List Token} {idents : List Ident}
    (parameters : Parameters input idents rest) (spelled : Spelled input) :
    (∀ ident ∈ idents, ident.WellSpelled) ∧ Spelled rest := by
  cases parameters with
  | none closes => exact ⟨by simp, (spelled_cons_iff.1 spelled).2⟩
  | some identifiers closes =>
      rcases identifiers.wellSpelled spelled with ⟨idents, others⟩
      exact ⟨idents, (spelled_cons_iff.1 others).2⟩

theorem Semicolon.spelled {input rest : List Token} (semicolon : Semicolon input rest)
    (spelled : Spelled input) : Spelled rest := by
  cases semicolon with
  | present => exact (spelled_cons_iff.1 spelled).2
  | absent => exact spelled

theorem Ending.spelled {input rest : List Token} (ending : Ending input rest)
    (spelled : Spelled input) : Spelled rest := by
  cases ending with
  | semicolon => exact (spelled_cons_iff.1 spelled).2
  | greedy => exact spelled

theorem mem_allowed_of_mem_operators {stratum : Stratum} {kind : Kind}
    (isOperator : kind ∈ stratum.operators) : kind ∈ Role.binary.allowed := by
  revert kind
  cases stratum <;> decide

theorem mem_allowed_of_bang_or_minus {kind : Kind} (isOperator : kind = .bang ∨ kind = .minus) :
    kind ∈ Role.unary.allowed := by
  rcases isOperator with rfl | rfl <;> decide

/-- The token of a mark in a role, as a source spells it. -/
theorem eq_mark_of_allowed {token : Token} (wellFormed : token.WellFormed) {role : Role}
    (allowed : token.kind ∈ role.allowed)
    (marks : ∀ kind ∈ role.allowed, kind ∈ Kind.marks) : ∃ kind ∈ role.allowed, token = .mark kind :=
  ⟨token.kind, allowed, wellFormed.eq_mark (marks _ allowed)⟩

mutual

theorem Expression.wellSpelled {stratum : Stratum} {nesting : Nat} {input rest : List Token}
    {expr : Expr} : Expression stratum nesting input expr rest → Spelled input →
      expr.WellSpelled ∧ Spelled rest
  | .tighter _ inner, spelled => inner.wellSpelled spelled
  | .binary isOperator _ leftOperand rightOperand, spelled => by
      rcases leftOperand.wellSpelled spelled with ⟨left, others⟩
      rw [spelled_cons_iff] at others
      rcases rightOperand.wellSpelled others.2 with ⟨right, rest⟩
      rcases eq_mark_of_allowed others.1 (mem_allowed_of_mem_operators isOperator) (by decide) with
        ⟨kind, allowed, rfl⟩
      exact ⟨.binary allowed left right, rest⟩
  | .unary isOperator operand, spelled => by
      rw [spelled_cons_iff] at spelled
      rcases operand.wellSpelled spelled.2 with ⟨inner, rest⟩
      rcases eq_mark_of_allowed spelled.1 (mem_allowed_of_bang_or_minus isOperator) (by decide) with
        ⟨kind, allowed, rfl⟩
      exact ⟨.unary allowed inner, rest⟩
  | .suffix isOperator operand, spelled => by
      rcases operand.wellSpelled spelled with ⟨inner, others⟩
      rw [spelled_cons_iff] at others
      rcases @eq_mark_of_allowed _ others.1 .suffix isOperator (by decide) with
        ⟨kind, allowed, rfl⟩
      exact ⟨.suffix allowed inner, others.2⟩
  | .call opens callee arguments, spelled => by
      rcases callee.wellSpelled spelled with ⟨function, others⟩
      rw [spelled_cons_iff] at others
      rcases arguments.wellSpelled others.2 with ⟨args, rest⟩
      rw [others.1.eq_mark (by rw [opens]; decide), opens]
      exact ⟨.call function args, rest⟩
  | .name isIdent, spelled => by
      rw [spelled_cons_iff] at spelled
      exact ⟨.name (wellSpelled_ofToken spelled.1 isIdent), spelled.2⟩
  | .int isInt denotes inRange, spelled => by
      rw [spelled_cons_iff] at spelled
      rw [← Decimal.value_eq_ofDigits] at denotes
      subst denotes
      exact ⟨.int spelled.1 isInt inRange, spelled.2⟩
  | .true isKind, spelled => by
      rw [spelled_cons_iff] at spelled
      rw [@Token.WellFormed.eq_word _ spelled.1 "true" (by rw [isKind]; decide)]
      exact ⟨.bool Bool.true, spelled.2⟩
  | .false isKind, spelled => by
      rw [spelled_cons_iff] at spelled
      rw [@Token.WellFormed.eq_word _ spelled.1 "false" (by rw [isKind]; decide)]
      exact ⟨.bool Bool.false, spelled.2⟩
  | .group _ inner _, spelled => by
      rw [spelled_cons_iff] at spelled
      rcases inner.wellSpelled spelled.2 with ⟨expr, others⟩
      exact ⟨expr, (spelled_cons_iff.1 others).2⟩
  | .cond isIf _ condition _ branch, spelled => by
      simp only [spelled_cons_iff] at spelled
      rcases condition.wellSpelled spelled.2.2 with ⟨test, others⟩
      rcases branch.wellSpelled (spelled_cons_iff.1 others).2 with ⟨consequence, rest⟩
      rw [@Token.WellFormed.eq_word _ spelled.1 "if" (by rw [isIf]; decide)]
      exact ⟨.cond test consequence (by simp), rest⟩
  | .condElse isIf _ condition _ branch _ elseBranch, spelled => by
      simp only [spelled_cons_iff] at spelled
      rcases condition.wellSpelled spelled.2.2 with ⟨test, others⟩
      rcases branch.wellSpelled (spelled_cons_iff.1 others).2 with ⟨consequence, more⟩
      rcases elseBranch.wellSpelled (spelled_cons_iff.1 more).2 with ⟨alternative, rest⟩
      rw [@Token.WellFormed.eq_word _ spelled.1 "if" (by rw [isIf]; decide)]
      exact ⟨.cond test consequence (by simpa using alternative), rest⟩
  | .function isFn _ parameters block, spelled => by
      simp only [spelled_cons_iff] at spelled
      rcases parameters.wellSpelled spelled.2.2 with ⟨params, others⟩
      rcases block.wellSpelled others with ⟨body, rest⟩
      rw [@Token.WellFormed.eq_word _ spelled.1 "fn" (by rw [isFn]; decide)]
      exact ⟨.function params body, rest⟩

theorem Expressions.wellSpelled {nesting : Nat} {input rest : List Token} {exprs : List Expr} :
    Expressions nesting input exprs rest → Spelled input →
      (∀ expr ∈ exprs, expr.WellSpelled) ∧ Spelled rest
  | .one expression, spelled => by
      simpa using expression.wellSpelled spelled
  | .more expression _ expressions, spelled => by
      rcases expression.wellSpelled spelled with ⟨first, others⟩
      rcases expressions.wellSpelled (spelled_cons_iff.1 others).2 with ⟨exprs, rest⟩
      exact ⟨List.forall_mem_cons.2 ⟨first, exprs⟩, rest⟩

theorem Arguments.wellSpelled {nesting : Nat} {input rest : List Token} {exprs : List Expr} :
    Arguments nesting input exprs rest → Spelled input →
      (∀ expr ∈ exprs, expr.WellSpelled) ∧ Spelled rest
  | .none _, spelled => ⟨by simp, (spelled_cons_iff.1 spelled).2⟩
  | .some expressions _, spelled => by
      rcases expressions.wellSpelled spelled with ⟨exprs, others⟩
      exact ⟨exprs, (spelled_cons_iff.1 others).2⟩

theorem Statement.wellSpelled {nesting : Nat} {input rest : List Token} {stmt : Stmt} :
    Statement nesting input stmt rest → Spelled input → stmt.WellSpelled ∧ Spelled rest
  | .letBind isLet isIdent _ value ending, spelled => by
      simp only [spelled_cons_iff] at spelled
      rcases value.wellSpelled spelled.2.2.2 with ⟨expr, others⟩
      rw [@Token.WellFormed.eq_word _ spelled.1 "let" (by rw [isLet]; decide)]
      exact ⟨.letBind (wellSpelled_ofToken spelled.2.1 isIdent) expr, ending.spelled others⟩
  | .ret isReturn value ending, spelled => by
      rw [spelled_cons_iff] at spelled
      rcases value.wellSpelled spelled.2 with ⟨expr, others⟩
      rw [@Token.WellFormed.eq_word _ spelled.1 "return" (by rw [isReturn]; decide)]
      exact ⟨.ret expr, ending.spelled others⟩
  | .expr expression ending, spelled => by
      rcases expression.wellSpelled spelled with ⟨expr, others⟩
      exact ⟨.expr expr, ending.spelled others⟩
  | .block inner semicolon, spelled => by
      rcases inner.wellSpelled spelled with ⟨block, others⟩
      exact ⟨.block block, semicolon.spelled others⟩

theorem Statements.wellSpelled {nesting : Nat} {input rest : List Token} {stmts : List Stmt} :
    Statements nesting input stmts rest → Spelled input →
      (∀ stmt ∈ stmts, stmt.WellSpelled) ∧ Spelled rest
  | .nil, spelled => ⟨by simp, spelled⟩
  | .cons statement statements, spelled => by
      rcases statement.wellSpelled spelled with ⟨first, others⟩
      rcases statements.wellSpelled others with ⟨stmts, rest⟩
      exact ⟨List.forall_mem_cons.2 ⟨first, stmts⟩, rest⟩

theorem Block.wellSpelled {nesting : Nat} {input rest : List Token} {block : Scriptlet.Block} :
    Block nesting input block rest → Spelled input → block.WellSpelled ∧ Spelled rest
  | .closed opens statements _, spelled => by
      rw [spelled_cons_iff] at spelled
      rcases statements.wellSpelled spelled.2 with ⟨stmts, others⟩
      rw [spelled.1.eq_mark (by rw [opens]; decide), opens]
      exact ⟨.mk stmts, (spelled_cons_iff.1 others).2⟩
  | .unclosed opens statements, spelled => by
      rw [spelled_cons_iff] at spelled
      rcases statements.wellSpelled spelled.2 with ⟨stmts, others⟩
      rw [spelled.1.eq_mark (by rw [opens]; decide), opens]
      exact ⟨.mk stmts, others⟩

end

end Grammar

end Scriptlet
