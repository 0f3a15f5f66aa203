import Scriptlet.Proofs.Printer.RoundTrip
import Scriptlet.Proofs.Tree.Places

/-!
# Statements that run together

Statements are printed right behind each other. Where a word stands in front of a statement that
begins with a word, the two are read as a single word, and the same goes for numbers. `joined` puts
such statements together in the tree: the text stays as it is, and two expressions become one.

This may uncover more. A word in front of a function hides its `fn`, so that what is left of the
function is a call and a block. The other way round, words may make up `fn` in front of a list of
names and a block, or `else` between an `if` and a block, and then all these are one expression.

What the words make up can also be a reserved word at the wrong place, and the numbers may make up
one that is too large. The tree then is not one that was read from any text. But it is spelled like
one everywhere else, and this is all that is needed once it is known to be `Legible`.
-/

namespace Scriptlet

namespace Expr

/-- The expression that a word is read as, if it is one. -/
def ofWord (text : String) : Expr :=
  if text = "true" then .bool (.word "true") true
  else if text = "false" then .bool (.word "false") false
  else .name (.ofToken (.word text))

/-- The expression that digits are read as, unless they are too many. -/
def ofDigits (digits : String) : Expr :=
  .int ⟨.int, digits⟩ (Int64.ofNat (Decimal.value digits.toList))

/-- Two words as one, or two numbers. -/
def merge? : Expr → Expr → Option Expr
  | .int left _, .int right _ => some (ofDigits (left.literal ++ right.literal))
  | left, right =>
      if left.isWord ∧ right.isWord then some (ofWord (left.print ++ right.print)) else none

/-- The expression with a change made where its text begins: at what is called, if it is a call. -/
def atStart? (change : Expr → Option Expr) : Expr → Option Expr
  | .call token callee args => (callee.atStart? change).map (.call token · args)
  | expr => change expr

end Expr

/-- The names that expressions consist of. -/
def namesOf? : List Expr → Option (List Ident)
  | [] => some []
  | .name ident :: exprs =>
      if ident.token.kind = .ident then (namesOf? exprs).map (ident :: ·) else none
  | _ :: _ => none

namespace Expr

/-- A call of `fn` on names, with a block behind it, as a function. -/
def withBody? : Expr → List Stmt → Option (Expr × List Stmt)
  | .call _ (.name ident) args, .block body :: rest =>
      if ident.name = "fn" then
        (namesOf? args).map fun params => (.function (.word "fn") params body, rest)
      else none
  | _, _ => none

/-- A word in front of a function, as a call in front of a block. -/
def withName? : Expr → Expr → List Stmt → Option (Expr × List Stmt)
  | left, .function _ params body, rest =>
      if left.isWord then
        some (.call (.mark .lparen) (ofWord (left.print ++ "fn")) (params.map .name),
          .block body :: rest)
      else none
  | _, _, _ => none

/-- A condition with `else` and a block behind it. -/
def withElse? : Expr → Expr → List Stmt → Option (Expr × List Stmt)
  | .cond token test consequence none, .name ident, .block alternative :: rest =>
      if ident.name = "else" then some (.cond token test consequence (some alternative), rest)
      else none
  | _, _, _ => none

/-- An expression in front of another one and some statements, put together with as much of them as
its text runs together with. -/
def joinedTo? (left right : Expr) (rest : List Stmt) : Option (Expr × List Stmt) :=
  match right.atStart? left.merge? with
  | some both => some ((both.withBody? rest).getD (both, rest))
  | none => (left.withName? right rest).or (left.withElse? right rest)

end Expr

/-- A statement in front of others, put together with as much of them as its text runs together
with. -/
def Stmt.joinedTo (stmt : Stmt) (rest : List Stmt) : List Stmt :=
  match stmt, rest with
  | .expr token left, .expr _ right :: behind =>
      (left.joinedTo? right behind).elim (stmt :: rest) fun (both, behind) =>
        .expr token both :: behind
  | _, _ => stmt :: rest

mutual

/-- The expression with the statements of each block inside put together. -/
def Expr.joined : Expr → Expr
  | .name ident => .name ident
  | .int token value => .int token value
  | .bool token value => .bool token value
  | .unary token operand => .unary token operand.joined
  | .binary token left right => .binary token left.joined right.joined
  | .suffix token operand => .suffix token operand.joined
  | .cond token test consequence none => .cond token test.joined consequence.joined none
  | .cond token test consequence (some alternative) =>
      .cond token test.joined consequence.joined (some alternative.joined)
  | .function token params body => .function token params body.joined
  | .call token callee args => .call token callee.joined (exprsJoined args)
termination_by structural expr => expr

def exprsJoined : List Expr → List Expr
  | [] => []
  | expr :: exprs => expr.joined :: exprsJoined exprs
termination_by structural exprs => exprs

def Stmt.joined : Stmt → Stmt
  | .letBind token name value => .letBind token name value.joined
  | .ret token value => .ret token value.joined
  | .expr token expr => .expr token expr.joined
  | .block block => .block block.joined
termination_by structural stmt => stmt

def stmtsJoined : List Stmt → List Stmt
  | [] => []
  | stmt :: stmts => stmt.joined.joinedTo (stmtsJoined stmts)
termination_by structural stmts => stmts

def Block.joined : Block → Block
  | .mk token statements => .mk token (stmtsJoined statements)
termination_by structural block => block

end

/-- The program with the statements put together whose texts run together, at every depth. -/
def Program.joined (program : Program) : Program := ⟨stmtsJoined program.statements⟩

/-- A name is no reserved word, and a number is not too large to be read. -/
def Expr.Legible : Expr → Prop
  | .name ident => ident.token.kind = .ident
  | .int token _ =>
      Nat.ofDigits 10 (token.literal.toList.reverse.map fun digit => digit.toNat - '0'.toNat) <
        Nat.pow 2 63
  | _ => True

instance : DecidablePred Expr.Legible := fun expr =>
  match expr with
  | .name _ => inferInstanceAs (Decidable (_ = _))
  | .int _ _ => inferInstanceAs (Decidable (_ < _))
  | .bool _ _ | .unary _ _ | .binary _ _ _ | .suffix _ _ | .cond _ _ _ _ | .function _ _ _
  | .call _ _ _ => inferInstanceAs (Decidable True)

/-! ## The text -/

namespace Expr

theorem print_ofWord (text : String) : (ofWord text).print = text := by
  rw [ofWord]
  split
  · rename_i same
    exact same.symm
  · split
    · rename_i same
      exact same.symm
    · rfl

theorem print_of_merge? {left right both : Expr} (merged : left.merge? right = some both) :
    both.print = left.print ++ right.print := by
  revert merged
  fun_cases merge? left right with
  | case1 => rintro ⟨⟩; rfl
  | case2 => rintro ⟨⟩; exact print_ofWord _
  | case3 => rintro ⟨⟩

theorem print_of_atStart? {change : Expr → Option Expr} {text : String}
    (changes : ∀ {start changed}, change start = some changed → changed.print = text ++ start.print)
    {expr both : Expr} (changed : expr.atStart? change = some both) :
    both.print = text ++ expr.print := by
  revert both
  fun_induction atStart? change expr with
  | case1 token callee args ih =>
      intro both changed
      rcases Option.map_eq_some_iff.1 changed with ⟨function, found, rfl⟩
      simp [Expr.print, ih found, String.append_assoc]
  | case2 => exact changes

end Expr

theorem map_name_of_namesOf? {exprs : List Expr} {idents : List Ident}
    (named : namesOf? exprs = some idents) : exprs = idents.map .name := by
  revert idents
  fun_induction namesOf? exprs with
  | case1 => rintro _ ⟨⟩; rfl
  | case2 ident exprs isIdent ih =>
      intro idents named
      rcases Option.map_eq_some_iff.1 named with ⟨others, found, rfl⟩
      simp [ih found]
  | case3 => rintro _ ⟨⟩
  | case4 => rintro _ ⟨⟩

theorem printExprs_map_name (idents : List Ident) :
    printExprs (idents.map .name) = idents.map Ident.name := by
  rw [printExprs_eq_map, List.map_map]
  rfl

/-- The text of an expression with some statements behind it. -/
def textOf (parts : Expr × List Stmt) : String :=
  parts.1.print ++ String.join (printStmts parts.2)

namespace Expr

theorem textOf_withBody? {expr : Expr} {rest : List Stmt} {parts : Expr × List Stmt}
    (found : expr.withBody? rest = some parts) : textOf parts = textOf (expr, rest) := by
  revert found
  fun_cases withBody? expr rest with
  | case1 token ident args body rest isFn =>
      intro found
      rcases Option.map_eq_some_iff.1 found with ⟨params, named, rfl⟩
      rw [map_name_of_namesOf? named]
      simp [textOf, Expr.print, isFn, printExprs_map_name, printStmts, Stmt.print,
        String.append_assoc]
  | case2 => rintro ⟨⟩
  | case3 => rintro ⟨⟩

theorem textOf_withName? {left right : Expr} {rest : List Stmt} {parts : Expr × List Stmt}
    (found : left.withName? right rest = some parts) :
    textOf parts = left.print ++ textOf (right, rest) := by
  revert found
  fun_cases withName? left right rest with
  | case1 =>
      rintro ⟨⟩
      simp [textOf, Expr.print, print_ofWord, printExprs_map_name, printStmts, Stmt.print,
        String.append_assoc]
  | case2 => rintro ⟨⟩
  | case3 => rintro ⟨⟩

theorem textOf_withElse? {left right : Expr} {rest : List Stmt} {parts : Expr × List Stmt}
    (found : left.withElse? right rest = some parts) :
    textOf parts = left.print ++ textOf (right, rest) := by
  revert found
  fun_cases withElse? left right rest with
  | case1 token test consequence ident alternative rest isElse =>
      rintro ⟨⟩
      simp [textOf, Expr.print, isElse, printStmts, Stmt.print, String.append_assoc]
  | case2 => rintro ⟨⟩
  | case3 => rintro ⟨⟩

theorem textOf_joinedTo? {left right : Expr} {rest : List Stmt} {parts : Expr × List Stmt}
    (found : left.joinedTo? right rest = some parts) :
    textOf parts = left.print ++ textOf (right, rest) := by
  rw [joinedTo?] at found
  cases merged : right.atStart? left.merge? with
  | some both =>
      have printed : both.print = left.print ++ right.print :=
        print_of_atStart? print_of_merge? merged
      simp only [merged, Option.some.injEq] at found
      subst found
      have same : textOf (both, rest) = left.print ++ textOf (right, rest) := by
        simp [textOf, printed, String.append_assoc]
      cases body : both.withBody? rest with
      | none => exact same
      | some parts => exact (textOf_withBody? body).trans same
  | none =>
      rw [merged] at found
      rcases Option.or_eq_some_iff.1 found with named | ⟨_, branch⟩
      · exact textOf_withName? named
      · exact textOf_withElse? branch

end Expr

theorem Stmt.print_joinedTo (stmt : Stmt) (rest : List Stmt) :
    String.join (printStmts (stmt.joinedTo rest)) =
      stmt.print ++ String.join (printStmts rest) := by
  fun_cases Stmt.joinedTo stmt rest with
  | case1 token left next right behind =>
      cases found : left.joinedTo? right behind with
      | none => simp [printStmts, Stmt.print]
      | some parts =>
          simpa [textOf, printStmts, Stmt.print] using Expr.textOf_joinedTo? found
  | case2 => simp [printStmts]

theorem Expr.isWord_joined (expr : Expr) : expr.joined.isWord = expr.isWord := by
  match expr with
  | .cond _ _ _ none => rfl
  | .cond _ _ _ (some _) => rfl
  | .name _ | .int _ _ | .bool _ _ | .unary _ _ | .binary _ _ _ | .suffix _ _ | .function _ _ _
  | .call _ _ _ => rfl

mutual

theorem Expr.print_joined : (expr : Expr) → expr.joined.print = expr.print
  | .name _ | .int _ _ | .bool _ _ => rfl
  | .unary _ operand => by simp [Expr.joined, Expr.print, operand.print_joined]
  | .binary _ left right => by
      simp [Expr.joined, Expr.print, left.print_joined, right.print_joined]
  | .suffix _ operand => by
      simp [Expr.joined, Expr.print, operand.print_joined, operand.isWord_joined]
  | .cond _ test consequence none => by
      simp [Expr.joined, Expr.print, test.print_joined, consequence.print_joined]
  | .cond _ test consequence (some alternative) => by
      simp [Expr.joined, Expr.print, test.print_joined, consequence.print_joined,
        alternative.print_joined]
  | .function _ _ body => by simp [Expr.joined, Expr.print, body.print_joined]
  | .call _ callee args => by
      simp [Expr.joined, Expr.print, callee.print_joined, printExprs_joined args]

theorem printExprs_joined : (exprs : List Expr) → printExprs (exprsJoined exprs) = printExprs exprs
  | [] => rfl
  | expr :: exprs => by
      simp [exprsJoined, printExprs, expr.print_joined, printExprs_joined exprs]

theorem Stmt.print_joined : (stmt : Stmt) → stmt.joined.print = stmt.print
  | .letBind _ _ value | .ret _ value | .expr _ value => by
      simp [Stmt.joined, Stmt.print, value.print_joined]
  | .block block => by simp [Stmt.joined, Stmt.print, block.print_joined]

theorem print_stmtsJoined : (stmts : List Stmt) →
    String.join (printStmts (stmtsJoined stmts)) = String.join (printStmts stmts)
  | [] => rfl
  | stmt :: stmts => by
      rw [stmtsJoined, Stmt.print_joinedTo, stmt.print_joined, print_stmtsJoined stmts]
      simp [printStmts]

theorem Block.print_joined : (block : Block) → block.joined.print = block.print
  | .mk _ statements => by simp [Block.joined, Block.print, print_stmtsJoined statements]

end

theorem Program.print_joined (program : Program) : program.joined.print = program.print :=
  print_stmtsJoined program.statements

/-! ## The tokens -/

/-- A text that is read as one word, which may be a reserved one. -/
def IsWordText (text : String) : Prop :=
  text.toList.head?.any Token.isWordStart = true ∧ text.toList.all Token.isWordPart = true

/-- Digits, and at least one. -/
def IsNumberText (text : String) : Prop :=
  text ≠ "" ∧ ∀ char ∈ text.toList, char.isDigit = true

theorem IsWordText.append {left right : String} (isWord : IsWordText left)
    (goesOn : IsWordText right) : IsWordText (left ++ right) := by
  rcases isWord with ⟨starts, parts⟩
  refine ⟨?_, by simp [parts, goesOn.2]⟩
  cases chars : left.toList with
  | nil => simp [chars] at starts
  | cons first rest => simpa [chars] using starts

theorem IsNumberText.append {left right : String} (isNumber : IsNumberText left)
    (goesOn : IsNumberText right) : IsNumberText (left ++ right) := by
  refine ⟨by simp [isNumber.1], ?_⟩
  rw [String.toList_append, List.forall_mem_append]
  exact ⟨isNumber.2, goesOn.2⟩

theorem IsWordText.wellFormed {text : String} (isWord : IsWordText text) :
    (Token.word text).WellFormed := by
  refine Token.wellFormed_word isWord.1 ?_
  have parts := isWord.2
  rw [List.all_eq_true] at parts ⊢
  exact fun char char_mem => parts char (List.mem_of_mem_tail char_mem)

theorem IsNumberText.wellFormed {token : Token} (isNumber : IsNumberText token.literal)
    (isInt : token.kind = .int) : token.WellFormed := by
  rcases token with ⟨kind, literal⟩
  rcases isNumber with ⟨nonempty, digits⟩
  simp only at isInt nonempty digits
  subst isInt
  cases chars : literal.toList with
  | nil => exact absurd (String.toList_eq_nil_iff.1 chars) nonempty
  | cons first rest =>
      rw [chars, List.forall_mem_cons] at digits
      rw [← String.ofList_toList (s := literal), chars]
      exact .int digits.1 digits.2

/-- What a node was read from is as it should be, apart from its children. Only words may be
reserved and numbers too large. -/
def Node.Spelled : Node → Prop
  | .expr (.name ident) => IsWordText ident.name ∧ ident = .ofToken (.word ident.name)
  | .expr (.int token value) =>
      IsNumberText token.literal ∧ token.kind = .int ∧
        value = Int64.ofNat (Decimal.value token.literal.toList)
  | .expr (.bool token value) => token = .word (toString value)
  | .expr (.unary token _) => token.kind ∈ Role.unary.allowed ∧ token = .mark token.kind
  | .expr (.binary token _ _) => token.kind ∈ Role.binary.allowed ∧ token = .mark token.kind
  | .expr (.suffix token _) => token.kind ∈ Role.suffix.allowed ∧ token = .mark token.kind
  | .expr (.cond token _ _ _) => token = .word "if"
  | .expr (.function token params _) =>
      token = .word "fn" ∧ ∀ param ∈ params, param.WellSpelled
  | .expr (.call token _ _) => token = .mark .lparen
  | .stmt (.letBind token name _) => token = .word "let" ∧ name.WellSpelled
  | .stmt (.ret token _) => token = .word "return"
  | .stmt (.expr _ _) | .stmt (.block _) => True
  | .block inner => inner.token = .mark .lbrace

theorem Ident.WellSpelled.spelled {ident : Ident} (spelled : ident.WellSpelled) :
    Node.Spelled (.expr (.name ident)) := by
  rcases ident with ⟨token, name⟩
  rcases spelled with ⟨wellFormed, isIdent, named⟩
  simp only at wellFormed isIdent named
  subst named
  cases wellFormed with
  | @word first _ starts goesOn =>
      have isPart : Token.isWordPart first = true := by simp [Token.isWordPart, starts]
      refine ⟨?_, rfl⟩
      simpa [IsWordText, Token.word, starts, isPart] using goesOn
  | int | illegal => cases isIdent
  | mark isMark =>
      have notMark : Kind.ident ∉ Kind.marks := by decide
      rw [← isIdent] at notMark
      exact absurd isMark notMark

theorem Ident.wellSpelled_of_spelled {ident : Ident} (spelled : Node.Spelled (.expr (.name ident)))
    (isIdent : ident.token.kind = .ident) : ident.WellSpelled := by
  rcases spelled with ⟨isWord, named⟩
  refine ⟨?_, isIdent, ?_⟩
  · rw [named]
    exact isWord.wellFormed
  · rw [named]
    rfl

/-- The node is no reserved word and no number that is too large. -/
def Node.Legible : Node → Prop
  | .expr inner => inner.Legible
  | .stmt _ | .block _ => True

theorem Expr.spelled_self {expr : Expr} (spelled : ∀ node ∈ expr.nodes, node.Spelled) :
    Node.Spelled (.expr expr) :=
  spelled _ (Node.mem_nodes_self (.expr expr))

namespace Expr

theorem spelled_ofWord {text : String} (isWord : IsWordText text) :
    ∀ node ∈ (ofWord text).nodes, node.Spelled := by
  rw [ofWord]
  split
  · exact List.forall_mem_singleton.2 rfl
  · split
    · exact List.forall_mem_singleton.2 rfl
    · simpa [Expr.nodes, Node.Spelled, Ident.ofToken, Token.word] using isWord

theorem spelled_ofDigits {text : String} (isNumber : IsNumberText text) :
    ∀ node ∈ (ofDigits text).nodes, node.Spelled := by
  simpa [ofDigits, Expr.nodes, Node.Spelled] using isNumber

theorem isWordText_print {expr : Expr} (isWord : expr.isWord = true)
    (spelled : ∀ node ∈ expr.nodes, node.Spelled) : IsWordText expr.print := by
  cases expr with
  | name ident => exact (spelled_self spelled).1
  | bool token value =>
      have isBool : token = .word (toString value) := spelled_self spelled
      rw [isBool, Expr.print]
      cases value <;> exact ⟨by decide, by decide⟩
  | int | unary | binary | suffix | cond | function | call => cases isWord

theorem spelled_of_merge? {left right both : Expr} (merged : left.merge? right = some both)
    (first : ∀ node ∈ left.nodes, node.Spelled) (second : ∀ node ∈ right.nodes, node.Spelled) :
    ∀ node ∈ both.nodes, node.Spelled := by
  revert merged
  fun_cases merge? left right with
  | case1 =>
      rintro ⟨⟩
      exact spelled_ofDigits ((spelled_self first).1.append (spelled_self second).1)
  | case2 _ _ _ words =>
      rintro ⟨⟩
      exact spelled_ofWord
        ((isWordText_print words.1 first).append (isWordText_print words.2 second))
  | case3 => rintro ⟨⟩

theorem spelled_of_atStart? {change : Expr → Option Expr}
    (changes : ∀ {start changed}, change start = some changed →
      (∀ node ∈ start.nodes, node.Spelled) → ∀ node ∈ changed.nodes, node.Spelled)
    {expr both : Expr} (changed : expr.atStart? change = some both)
    (spelled : ∀ node ∈ expr.nodes, node.Spelled) : ∀ node ∈ both.nodes, node.Spelled := by
  revert both
  fun_induction atStart? change expr with
  | case1 token callee args ih =>
      intro both changed
      rcases Option.map_eq_some_iff.1 changed with ⟨function, found, rfl⟩
      simp only [Expr.nodes, List.forall_mem_cons, List.forall_mem_append] at spelled ⊢
      exact ⟨spelled.1, ih spelled.2.1 found, spelled.2.2⟩
  | case2 =>
      intro both changed
      exact changes changed spelled

end Expr

theorem spelled_map_name {idents : List Ident} (spelled : ∀ ident ∈ idents, ident.WellSpelled) :
    ∀ node ∈ nodesOfExprs (idents.map .name), node.Spelled := by
  intro node node_mem
  simp only [nodesOfExprs_eq_flatMap, List.flatMap_map, List.mem_flatMap, Expr.nodes,
    List.mem_singleton] at node_mem
  rcases node_mem with ⟨ident, ident_mem, rfl⟩
  exact (spelled ident ident_mem).spelled

theorem wellSpelled_of_namesOf? {exprs : List Expr} {idents : List Ident}
    (named : namesOf? exprs = some idents) (spelled : ∀ node ∈ nodesOfExprs exprs, node.Spelled) :
    ∀ ident ∈ idents, ident.WellSpelled := by
  revert idents
  fun_induction namesOf? exprs with
  | case1 =>
      rintro _ ⟨⟩
      simp
  | case2 ident exprs isIdent ih =>
      intro idents named
      rcases Option.map_eq_some_iff.1 named with ⟨others, found, rfl⟩
      simp only [nodesOfExprs, List.forall_mem_append] at spelled
      rw [List.forall_mem_cons]
      exact ⟨Ident.wellSpelled_of_spelled (Expr.spelled_self spelled.1) isIdent, ih spelled.2 found⟩
  | case3 => rintro _ ⟨⟩
  | case4 => rintro _ ⟨⟩

namespace Expr

theorem spelled_withBody? {expr : Expr} {rest : List Stmt} {parts : Expr × List Stmt}
    (found : expr.withBody? rest = some parts)
    (spelled : ∀ node ∈ expr.nodes ++ nodesOfStmts rest, node.Spelled) :
    ∀ node ∈ parts.1.nodes ++ nodesOfStmts parts.2, node.Spelled := by
  revert found
  fun_cases withBody? expr rest with
  | case1 token ident args body rest isFn =>
      intro found
      rcases Option.map_eq_some_iff.1 found with ⟨params, named, rfl⟩
      simp only [Expr.nodes, nodesOfStmts, Stmt.nodes, List.forall_mem_append,
        List.forall_mem_cons] at spelled ⊢
      exact ⟨⟨⟨rfl, wellSpelled_of_namesOf? named spelled.1.2.2⟩, spelled.2.1.2⟩, spelled.2.2⟩
  | case2 => rintro ⟨⟩
  | case3 => rintro ⟨⟩

theorem spelled_withName? {left right : Expr} {rest : List Stmt} {parts : Expr × List Stmt}
    (found : left.withName? right rest = some parts)
    (first : ∀ node ∈ left.nodes, node.Spelled)
    (spelled : ∀ node ∈ right.nodes ++ nodesOfStmts rest, node.Spelled) :
    ∀ node ∈ parts.1.nodes ++ nodesOfStmts parts.2, node.Spelled := by
  revert found
  fun_cases withName? left right rest with
  | case1 left token params body rest isWord =>
      rintro ⟨⟩
      simp only [Expr.nodes, nodesOfStmts, Stmt.nodes, List.forall_mem_append,
        List.forall_mem_cons] at spelled ⊢
      have isFn : IsWordText "fn" := ⟨by decide, by decide⟩
      have callee := spelled_ofWord ((isWordText_print isWord first).append isFn)
      exact ⟨⟨rfl, callee, spelled_map_name spelled.1.1.2⟩, ⟨trivial, spelled.1.2⟩, spelled.2⟩
  | case2 => rintro ⟨⟩
  | case3 => rintro ⟨⟩

theorem spelled_withElse? {left right : Expr} {rest : List Stmt} {parts : Expr × List Stmt}
    (found : left.withElse? right rest = some parts)
    (first : ∀ node ∈ left.nodes, node.Spelled)
    (spelled : ∀ node ∈ right.nodes ++ nodesOfStmts rest, node.Spelled) :
    ∀ node ∈ parts.1.nodes ++ nodesOfStmts parts.2, node.Spelled := by
  revert found
  fun_cases withElse? left right rest with
  | case1 token test consequence ident alternative rest isElse =>
      rintro ⟨⟩
      simp only [Expr.nodes, nodesOfStmts, Stmt.nodes, List.forall_mem_append,
        List.forall_mem_cons] at first spelled ⊢
      exact ⟨⟨first.1, first.2, spelled.2.1.2⟩, spelled.2.2⟩
  | case2 => rintro ⟨⟩
  | case3 => rintro ⟨⟩

theorem spelled_joinedTo? {left right : Expr} {rest : List Stmt} {parts : Expr × List Stmt}
    (found : left.joinedTo? right rest = some parts)
    (first : ∀ node ∈ left.nodes, node.Spelled)
    (spelled : ∀ node ∈ right.nodes ++ nodesOfStmts rest, node.Spelled) :
    ∀ node ∈ parts.1.nodes ++ nodesOfStmts parts.2, node.Spelled := by
  rw [joinedTo?] at found
  cases merged : right.atStart? left.merge? with
  | some both =>
      simp only [merged, Option.some.injEq] at found
      subst found
      have same : ∀ node ∈ both.nodes ++ nodesOfStmts rest, node.Spelled := by
        rw [List.forall_mem_append] at spelled ⊢
        have merges := fun {start changed} found =>
          @spelled_of_merge? left start changed found first
        exact ⟨spelled_of_atStart? merges merged spelled.1, spelled.2⟩
      cases body : both.withBody? rest with
      | none => exact same
      | some parts => exact spelled_withBody? body same
  | none =>
      rw [merged] at found
      rcases Option.or_eq_some_iff.1 found with named | ⟨_, branch⟩
      · exact spelled_withName? named first spelled
      · exact spelled_withElse? branch first spelled

end Expr

theorem Stmt.spelled_joinedTo {stmt : Stmt} {rest : List Stmt}
    (first : ∀ node ∈ stmt.nodes, node.Spelled)
    (others : ∀ node ∈ nodesOfStmts rest, node.Spelled) :
    ∀ node ∈ nodesOfStmts (stmt.joinedTo rest), node.Spelled := by
  fun_cases Stmt.joinedTo stmt rest with
  | case1 token left next right behind =>
      cases found : left.joinedTo? right behind with
      | none =>
          simp only [Option.elim_none, nodesOfStmts, List.forall_mem_append] at others ⊢
          exact ⟨first, others⟩
      | some parts =>
          simp only [nodesOfStmts, Stmt.nodes, Option.elim_some, List.cons_append,
            List.forall_mem_cons] at first others ⊢
          exact ⟨trivial, Expr.spelled_joinedTo? found first.2 others.2⟩
  | case2 =>
      rw [nodesOfStmts, List.forall_mem_append]
      exact ⟨first, others⟩

mutual

theorem Expr.WellSpelled.spelled_joined {expr : Expr} : expr.WellSpelled →
    ∀ node ∈ expr.joined.nodes, node.Spelled
  | .name spelled => List.forall_mem_singleton.2 spelled.spelled
  | .int wellFormed isInt _ =>
      List.forall_mem_singleton.2 ⟨wellFormed.isDigit_of_int isInt, isInt, rfl⟩
  | .bool value => List.forall_mem_singleton.2 rfl
  | .unary allowed inner => by
      simpa [Expr.joined, Expr.nodes, Node.Spelled, Token.mark] using
        ⟨allowed, inner.spelled_joined⟩
  | .binary allowed leftOperand rightOperand => by
      simp only [Expr.joined, Expr.nodes, List.forall_mem_cons, List.forall_mem_append]
      exact ⟨⟨allowed, rfl⟩, leftOperand.spelled_joined, rightOperand.spelled_joined⟩
  | .suffix allowed inner => by
      simpa [Expr.joined, Expr.nodes, Node.Spelled, Token.mark] using
        ⟨allowed, inner.spelled_joined⟩
  | @Expr.WellSpelled.cond _ _ none condition branch _ => by
      simp only [Expr.joined, Expr.nodes, List.forall_mem_cons, List.forall_mem_append]
      exact ⟨rfl, condition.spelled_joined, branch.spelled_joined⟩
  | @Expr.WellSpelled.cond _ _ (some block) condition branch elseBranch => by
      simp only [Expr.joined, Expr.nodes, List.forall_mem_cons, List.forall_mem_append]
      exact ⟨rfl, ⟨condition.spelled_joined, branch.spelled_joined⟩,
        (elseBranch block rfl).spelled_joined⟩
  | .function parameters block => by
      simp only [Expr.joined, Expr.nodes, List.forall_mem_cons]
      exact ⟨⟨rfl, parameters⟩, block.spelled_joined⟩
  | .call function arguments => by
      simp only [Expr.joined, Expr.nodes, List.forall_mem_cons, List.forall_mem_append]
      exact ⟨rfl, function.spelled_joined, spelled_exprsJoined arguments⟩

theorem spelled_exprsJoined : {exprs : List Expr} → (∀ expr ∈ exprs, expr.WellSpelled) →
    ∀ node ∈ nodesOfExprs (exprsJoined exprs), node.Spelled
  | [], _ => by simp [exprsJoined, nodesOfExprs]
  | expr :: exprs, spelled => by
      rw [List.forall_mem_cons] at spelled
      rw [exprsJoined, nodesOfExprs, List.forall_mem_append]
      exact ⟨spelled.1.spelled_joined, spelled_exprsJoined spelled.2⟩

theorem Stmt.WellSpelled.spelled_joined {stmt : Stmt} : stmt.WellSpelled →
    ∀ node ∈ stmt.joined.nodes, node.Spelled
  | .letBind spelled value => by
      simp only [Stmt.joined, Stmt.nodes, List.forall_mem_cons]
      exact ⟨⟨rfl, spelled⟩, value.spelled_joined⟩
  | .ret value => by
      simp only [Stmt.joined, Stmt.nodes, List.forall_mem_cons]
      exact ⟨rfl, value.spelled_joined⟩
  | .expr inner => by
      simp only [Stmt.joined, Stmt.nodes, List.forall_mem_cons]
      exact ⟨trivial, inner.spelled_joined⟩
  | .block inner => by
      simp only [Stmt.joined, Stmt.nodes, List.forall_mem_cons]
      exact ⟨trivial, inner.spelled_joined⟩

theorem spelled_stmtsJoined : {stmts : List Stmt} → (∀ stmt ∈ stmts, stmt.WellSpelled) →
    ∀ node ∈ nodesOfStmts (stmtsJoined stmts), node.Spelled
  | [], _ => by simp [stmtsJoined, nodesOfStmts]
  | stmt :: stmts, spelled => by
      rw [List.forall_mem_cons] at spelled
      exact Stmt.spelled_joinedTo spelled.1.spelled_joined (spelled_stmtsJoined spelled.2)

theorem Block.WellSpelled.spelled_joined {block : Block} : block.WellSpelled →
    ∀ node ∈ block.joined.nodes, node.Spelled
  | .mk statements => by
      simp only [Block.joined, Block.nodes, List.forall_mem_cons]
      exact ⟨rfl, spelled_stmtsJoined statements⟩

end

mutual

theorem Expr.wellSpelled_of_nodes : (expr : Expr) →
    (∀ node ∈ expr.nodes, node.Spelled ∧ node.Legible) → expr.WellSpelled
  | .name ident, read => by
      have ⟨spelled, legible⟩ := List.forall_mem_singleton.1 read
      exact .name (Ident.wellSpelled_of_spelled spelled legible)
  | .int token value, read => by
      have ⟨⟨isNumber, isInt, denotes⟩, legible⟩ := List.forall_mem_singleton.1 read
      rw [denotes]
      refine .int (isNumber.wellFormed isInt) isInt ?_
      rw [Decimal.value_eq_ofDigits]
      exact legible
  | .bool token value, read => by
      have ⟨isBool, _⟩ := List.forall_mem_singleton.1 read
      rw [show token = .word (toString value) from isBool]
      exact .bool value
  | .unary token operand, read => by
      simp only [Expr.nodes, List.forall_mem_cons] at read
      have ⟨⟨⟨allowed, isMark⟩, _⟩, inner⟩ := read
      rw [isMark]
      exact .unary allowed (operand.wellSpelled_of_nodes inner)
  | .binary token left right, read => by
      simp only [Expr.nodes, List.forall_mem_cons, List.forall_mem_append] at read
      have ⟨⟨⟨allowed, isMark⟩, _⟩, leftOperand, rightOperand⟩ := read
      rw [isMark]
      exact .binary allowed (left.wellSpelled_of_nodes leftOperand)
        (right.wellSpelled_of_nodes rightOperand)
  | .suffix token operand, read => by
      simp only [Expr.nodes, List.forall_mem_cons] at read
      have ⟨⟨⟨allowed, isMark⟩, _⟩, inner⟩ := read
      rw [isMark]
      exact .suffix allowed (operand.wellSpelled_of_nodes inner)
  | .cond token test consequence none, read => by
      simp only [Expr.nodes, List.forall_mem_cons, List.forall_mem_append] at read
      have ⟨⟨isIf, _⟩, condition, branch⟩ := read
      rw [show token = .word "if" from isIf]
      exact .cond (test.wellSpelled_of_nodes condition) (consequence.wellSpelled_of_nodes branch)
        (by simp)
  | .cond token test consequence (some alternative), read => by
      simp only [Expr.nodes, List.forall_mem_cons, List.forall_mem_append] at read
      have ⟨⟨isIf, _⟩, ⟨condition, branch⟩, elseBranch⟩ := read
      rw [show token = .word "if" from isIf]
      exact .cond (test.wellSpelled_of_nodes condition) (consequence.wellSpelled_of_nodes branch)
        (by simpa using alternative.wellSpelled_of_nodes elseBranch)
  | .function token params body, read => by
      simp only [Expr.nodes, List.forall_mem_cons] at read
      have ⟨⟨⟨isFn, parameters⟩, _⟩, block⟩ := read
      rw [isFn]
      exact .function parameters (body.wellSpelled_of_nodes block)
  | .call token callee args, read => by
      simp only [Expr.nodes, List.forall_mem_cons, List.forall_mem_append] at read
      have ⟨⟨isCall, _⟩, function, arguments⟩ := read
      rw [show token = .mark .lparen from isCall]
      exact .call (callee.wellSpelled_of_nodes function) (exprs_wellSpelled_of_nodes args arguments)

theorem exprs_wellSpelled_of_nodes : (exprs : List Expr) →
    (∀ node ∈ nodesOfExprs exprs, node.Spelled ∧ node.Legible) → ∀ expr ∈ exprs, expr.WellSpelled
  | [], _ => by simp
  | expr :: exprs, read => by
      rw [nodesOfExprs, List.forall_mem_append] at read
      rw [List.forall_mem_cons]
      exact ⟨expr.wellSpelled_of_nodes read.1, exprs_wellSpelled_of_nodes exprs read.2⟩

theorem Stmt.wellSpelled_of_nodes : (stmt : Stmt) →
    (∀ node ∈ stmt.nodes, node.Spelled ∧ node.Legible) → stmt.WellSpelled
  | .letBind token name value, read => by
      simp only [Stmt.nodes, List.forall_mem_cons] at read
      have ⟨⟨⟨isLet, spelled⟩, _⟩, inner⟩ := read
      rw [isLet]
      exact .letBind spelled (value.wellSpelled_of_nodes inner)
  | .ret token value, read => by
      simp only [Stmt.nodes, List.forall_mem_cons] at read
      have ⟨⟨isReturn, _⟩, inner⟩ := read
      rw [show token = .word "return" from isReturn]
      exact .ret (value.wellSpelled_of_nodes inner)
  | .expr token expr, read => by
      rw [Stmt.nodes, List.forall_mem_cons] at read
      exact .expr (expr.wellSpelled_of_nodes read.2)
  | .block block, read => by
      rw [Stmt.nodes, List.forall_mem_cons] at read
      exact .block (block.wellSpelled_of_nodes read.2)

theorem stmts_wellSpelled_of_nodes : (stmts : List Stmt) →
    (∀ node ∈ nodesOfStmts stmts, node.Spelled ∧ node.Legible) → ∀ stmt ∈ stmts, stmt.WellSpelled
  | [], _ => by simp
  | stmt :: stmts, read => by
      rw [nodesOfStmts, List.forall_mem_append] at read
      rw [List.forall_mem_cons]
      exact ⟨stmt.wellSpelled_of_nodes read.1, stmts_wellSpelled_of_nodes stmts read.2⟩

theorem Block.wellSpelled_of_nodes : (block : Block) →
    (∀ node ∈ block.nodes, node.Spelled ∧ node.Legible) → block.WellSpelled
  | .mk token statements, read => by
      simp only [Block.nodes, List.forall_mem_cons] at read
      have ⟨⟨isBrace, _⟩, inner⟩ := read
      rw [show token = .mark .lbrace from isBrace]
      exact .mk (stmts_wellSpelled_of_nodes statements inner)

end

/-- The statements that are put together are as if they were read, once they are legible. -/
theorem Program.wellSpelled_joined {program : Program}
    (spelled : ∀ stmt ∈ program.statements, stmt.WellSpelled)
    (legible : ∀ expr, .expr expr ∈ program.joined.nodes → expr.Legible) :
    ∀ stmt ∈ program.joined.statements, stmt.WellSpelled := by
  apply stmts_wellSpelled_of_nodes
  intro node node_mem
  refine ⟨spelled_stmtsJoined spelled node node_mem, ?_⟩
  cases node with
  | expr inner => exact legible inner node_mem
  | stmt | block => trivial

end Scriptlet
