import Scriptlet.Proofs.Lexer.Spelling
import Scriptlet.Proofs.Parser.Course
import Scriptlet.Proofs.Tree.Roles

/-!
# Trees are consistent with their sources

Whatever is wrong with a source, the tree that is read from it tells nothing that the source does
not say. All nodes of a tree that was built are built themselves, so what a parser is known to do
when it makes one node holds at every depth.
-/

namespace Scriptlet

namespace Token

theorem WellFormed.ne_keyword {token : Token} (wellFormed : token.WellFormed)
    (isIdent : token.kind = .ident) : ∀ keyword ∈ Kind.keywords, token.literal ≠ keyword.1 := by
  have reserved : ∀ keyword ∈ Kind.keywords, Kind.ofWord keyword.1 ≠ .ident := by decide
  intro keyword keyword_mem same
  cases wellFormed with
  | int => cases isIdent
  | word =>
      apply reserved keyword keyword_mem
      rw [← same]
      exact isIdent
  | mark isMark =>
      have notMark : Kind.ident ∉ Kind.marks := by decide
      apply notMark
      rw [← isIdent]
      exact isMark
  | illegal => cases isIdent

end Token

/-- What the parser knows of a node that it makes. -/
structure Node.Sourced (transcript : Transcript) (node : Node) : Prop where
  fills : ∀ entry ∈ node.roles, transcript.Fills entry.1 entry.2
  read : ∀ token ∈ node.tokens, token ∈ transcript.tokens
  names : ∀ ident ∈ node.idents, transcript.Names .identifier ident
  bool : ∀ {token : Token} {value : Bool}, node = .expr (.bool token value) →
    (value = true ↔ token.kind = .kwTrue)
  int : ∀ {token : Token} {value : Int64}, node = .expr (.int token value) →
    transcript.Denotes token value

section Sourced

variable {transcript : Transcript}

/-- Operators, conditions and calls hold a single token and nothing else besides their children. -/
theorem Node.sourced_of_fills {expr : Expr} (fills : transcript.Fills expr.role expr.token)
    (plain : expr.role ∉ [.identifier, .integer, .boolean, .function]) :
    Node.Sourced transcript (.expr expr) := by
  cases expr with
  | name | int | bool | function => simp [Expr.role] at plain
  | _ => constructor <;> simp [Node.roles, Node.tokens, Node.idents, fills, fills.read]

theorem Node.sourced_function {token : Token} {params : List Ident} {body : Block}
    (fills : transcript.Fills .function token)
    (parameters : ∀ param ∈ params, transcript.Names .parameter param) :
    Node.Sourced transcript (.expr (.function token params body)) := by
  constructor
  · intro entry entry_mem
    simp only [Node.roles, List.mem_cons, List.mem_map] at entry_mem
    rcases entry_mem with rfl | ⟨param, param_mem, rfl⟩
    · exact fills
    · exact (parameters param param_mem).fills
  · intro token token_mem
    simp only [Node.tokens, List.mem_cons, List.mem_map] at token_mem
    rcases token_mem with rfl | ⟨param, param_mem, rfl⟩
    · exact fills.read
    · exact (parameters param param_mem).fills.read
  · intro param param_mem
    have names := parameters param param_mem
    exact ⟨⟨names.fills.read, names.fills.allowed⟩, names.name_eq⟩
  · simp
  · simp

theorem Node.sourced_letBind {token : Token} {name : Ident} {value : Expr}
    (fills : transcript.Fills .letBind token) (names : transcript.Names .letName name) :
    Node.Sourced transcript (.stmt (.letBind token name value)) := by
  have looksUp : transcript.Names .identifier name :=
    ⟨⟨names.fills.read, names.fills.allowed⟩, names.name_eq⟩
  constructor <;>
    simp [Node.roles, Node.tokens, Node.idents, fills, fills.read, names.fills, names.fills.read,
      looksUp]

mutual

theorem Expr.Built.sourced {room : Nat} {expr : Expr} :
    expr.Built transcript room → ∀ node ∈ expr.nodes, node.Sourced transcript
  | .name names => by
      simp only [Expr.nodes, List.forall_mem_singleton]
      constructor <;>
        simp [Node.roles, Node.tokens, Node.idents, Expr.role, Expr.token, names, names.fills,
          names.fills.read]
  | .int fills denotes => by
      simp only [Expr.nodes, List.forall_mem_singleton]
      constructor <;>
        simp [Node.roles, Node.tokens, Node.idents, Expr.role, Expr.token, fills, fills.read,
          denotes]
  | .bool fills isTrue_iff => by
      simp only [Expr.nodes, List.forall_mem_singleton]
      constructor <;>
        simp [Node.roles, Node.tokens, Node.idents, Expr.role, Expr.token, fills, fills.read,
          isTrue_iff]
  | .unary fills inner => by
      simp only [Expr.nodes, List.forall_mem_cons]
      exact ⟨Node.sourced_of_fills fills (by simp [Expr.role]), inner.sourced⟩
  | .binary fills leftOperand rightOperand => by
      simp only [Expr.nodes, List.forall_mem_cons, List.forall_mem_append]
      exact ⟨Node.sourced_of_fills fills (by simp [Expr.role]), leftOperand.sourced,
        rightOperand.sourced⟩
  | .suffix fills inner => by
      simp only [Expr.nodes, List.forall_mem_cons]
      exact ⟨Node.sourced_of_fills fills (by simp [Expr.role]), inner.sourced⟩
  | .group inner => inner.sourced
  | @Expr.Built.cond _ _ _ _ _ none fills condition branch _ => by
      simp only [Expr.nodes, List.forall_mem_cons, List.forall_mem_append]
      exact ⟨Node.sourced_of_fills fills (by simp [Expr.role]), condition.sourced, branch.sourced⟩
  | @Expr.Built.cond _ _ _ _ _ (some alternative) fills condition branch elseBranch => by
      simp only [Expr.nodes, List.forall_mem_cons, List.forall_mem_append]
      exact ⟨Node.sourced_of_fills fills (by simp [Expr.role]), ⟨condition.sourced, branch.sourced⟩,
        (elseBranch alternative rfl).sourced⟩
  | .function fills parameters block => by
      simp only [Expr.nodes, List.forall_mem_cons]
      exact ⟨Node.sourced_function fills parameters, block.sourced⟩
  | .call fills function arguments => by
      simp only [Expr.nodes, List.forall_mem_cons, List.forall_mem_append,
        nodesOfExprs_eq_flatMap, List.forall_mem_flatMap]
      exact ⟨Node.sourced_of_fills fills (by simp [Expr.role]), function.sourced,
        fun arg arg_mem => (arguments arg arg_mem).sourced⟩

theorem Stmt.Built.sourced {room : Nat} {stmt : Stmt} :
    stmt.Built transcript room → ∀ node ∈ stmt.nodes, node.Sourced transcript
  | .letBind fills names value => by
      simp only [Stmt.nodes, List.forall_mem_cons]
      exact ⟨Node.sourced_letBind fills names, value.sourced⟩
  | .ret fills value => by
      simp only [Stmt.nodes, List.forall_mem_cons]
      refine ⟨?_, value.sourced⟩
      constructor <;> simp [Node.roles, Node.tokens, Node.idents, fills, fills.read]
  | .expr read inner => by
      simp only [Stmt.nodes, List.forall_mem_cons]
      refine ⟨?_, inner.sourced⟩
      constructor <;> simp [Node.roles, Node.tokens, Node.idents, read]
  | .block inner => by
      simp only [Stmt.nodes, List.forall_mem_cons]
      refine ⟨?_, inner.sourced⟩
      constructor <;> simp [Node.roles, Node.tokens, Node.idents]

theorem Block.Built.sourced {room : Nat} {block : Block} :
    block.Built transcript room → ∀ node ∈ block.nodes, node.Sourced transcript
  | .mk fills statements => by
      simp only [Block.nodes, List.forall_mem_cons, nodesOfStmts_eq_flatMap,
        List.forall_mem_flatMap]
      refine ⟨?_, fun stmt stmt_mem => (statements stmt stmt_mem).sourced⟩
      constructor <;> simp [Node.roles, Node.tokens, Node.idents, Block.token, fills, fills.read]

end

end Sourced

/-- What a node of a program has to do with the source of the program and with what was reported. -/
structure Node.Consistent (source : String) (report : Report Diagnostic) (node : Node) : Prop where
  /-- The kinds of the tokens are allowed. -/
  allowed : ∀ entry ∈ node.roles, entry.2.kind ∈ entry.1.allowed
  /-- All tokens come from the source, those without a role among them. -/
  read : ∀ token ∈ node.tokens, token ∈ tokenize source
  /-- A name is the text of an identifier, and it is not reserved. -/
  names : ∀ ident ∈ node.idents, ident.token.kind = .ident ∧ ident.name = ident.token.literal ∧
    ∀ keyword ∈ Kind.keywords, ident.name ≠ keyword.1
  bool : ∀ {token : Token} {value : Bool}, node = .expr (.bool token value) →
    (value = true ↔ token.kind = .kwTrue)
  digits : ∀ {token : Token} {value : Int64}, node = .expr (.int token value) →
    token.literal ≠ "" ∧ ∀ char ∈ token.literal.toList, char.isDigit = true
  /-- An integer is the number that its digits denote. It is zero if this number is too large, but
  then it was reported. -/
  int : ∀ {token : Token} {value : Int64} {number : Nat}, node = .expr (.int token value) →
    number = Nat.ofDigits 10 (token.literal.toList.reverse.map fun digit =>
      digit.toNat - '0'.toNat) →
    if number < 2 ^ 63 then value.toInt = number
    else value = 0 ∧ "could not parse " ++ token.literal ++ " as integer" ∈
      report.toList.map Diagnostic.message

theorem Node.Sourced.consistent {source : String} {report : Report Diagnostic} {node : Node}
    (sourced : node.Sourced ⟨tokenize source, report.toList⟩) : node.Consistent source report := by
  have fills_int : ∀ {token : Token} {value : Int64}, node = .expr (.int token value) →
      Transcript.Fills ⟨tokenize source, report.toList⟩ .integer token := by
    rintro token value rfl
    exact sourced.fills (.integer, token) (by simp [Node.roles, Expr.role, Expr.token])
  constructor
  · intro entry entry_mem
    exact (sourced.fills entry entry_mem).allowed
  · exact sourced.read
  · intro ident ident_mem
    have names := sourced.names ident ident_mem
    have isIdent : ident.token.kind = .ident := List.mem_singleton.1 names.fills.allowed
    refine ⟨isIdent, names.name_eq, ?_⟩
    rw [names.name_eq]
    exact (Token.wellFormed_of_mem_all names.fills.read).ne_keyword isIdent
  · exact sourced.bool
  · intro token value isNode
    have fills := fills_int isNode
    exact (Token.wellFormed_of_mem_all fills.read).isDigit_of_int
      (List.mem_singleton.1 fills.allowed)
  · rintro token value number isNode rfl
    have denotes := sourced.int isNode
    rw [← Decimal.value_eq_ofDigits]
    have bound_eq : Nat.pow 2 63 = 2 ^ 63 := rfl
    rw [Transcript.Denotes, bound_eq] at denotes
    split
    · next inRange =>
        rw [if_pos inRange] at denotes
        rw [denotes]
        exact Int64.toInt_ofNat_of_lt inRange
    · next tooLarge =>
        rw [if_neg tooLarge] at denotes
        exact ⟨denotes.1, List.mem_map.2 ⟨_, denotes.2, rfl⟩⟩

/-- The tree that is read from a source is consistent with it at every node, whatever is wrong with
the source. -/
theorem Program.consistent_read (source : String) :
    (Program.read source).1.mismatches = [] ∧
      ∀ node ∈ (Program.read source).1.nodes,
        node.Consistent source (Program.read source).2 := by
  have consistent : ∀ node ∈ (Program.read source).1.nodes,
      node.Consistent source (Program.read source).2 := by
    simp only [Program.nodes, nodesOfStmts_eq_flatMap, List.forall_mem_flatMap]
    intro stmt stmt_mem node node_mem
    exact ((Program.built_of_mem_read stmt_mem).sourced node node_mem).consistent
  refine ⟨?_, consistent⟩
  rw [mismatches_eq_nil_iff]
  intro node node_mem
  exact (consistent node node_mem).allowed

/-- A number that is too large, in a statement that is kept although its braces are not closed. -/
theorem Program.consistent_read_reported :
    let source := "let 1; if (007 < 9223372036854775808) \x7b f(true, -x"
    let (program, report) := Program.read source
    report.toList.map Diagnostic.message =
        ["expect IDENT, got INT", "could not parse 9223372036854775808 as integer",
          "expect ), got EOF"] ∧
      ∃ node ∈ program.nodes, node.tokens = [⟨.int, "9223372036854775808"⟩] ∧
        node.Consistent source report := by
  intro source
  have node_mem := List.get_mem (Program.read source).1.nodes ⟨4, by decide +kernel⟩
  exact ⟨by decide +kernel, _, node_mem, by decide +kernel,
    (Program.consistent_read source).2 _ node_mem⟩

end Scriptlet
