import Mathlib.Data.List.Chain
import Scriptlet.Proofs.Parser.WellSpelled
import Scriptlet.Proofs.Tree.Nodes
import Scriptlet.Tree.Printer

/-!
# The tokens of a printed tree

What a tree prints as is read as the tokens it was printed from, and as no others: at no seam do two
of them run together. A word or a number is always followed by a blank, a parenthesis, a brace, a
comma, a `;` or an operator that cannot be part of it. The operator `?` could be part of a word, which
is why an operand that is a word gets its own parentheses there. A unary operator is followed by the
text of an expression, which never begins with the second character of a longer mark.

Statements are printed one right after the other, and only some of them end with a `;`. So what
stands behind an expression must be kept apart from it by its first character. A block always is.
-/

namespace Scriptlet

namespace Stmt

def isExpr : Stmt → Bool
  | .expr _ _ => true
  | _ => false

def isBlock : Stmt → Bool
  | .block _ => true
  | _ => false

theorem exists_block_of_isBlock {stmt : Stmt} (isBlock : stmt.isBlock = true) :
    ∃ block, stmt = .block block := by
  cases stmt with
  | block block => exact ⟨block, rfl⟩
  | letBind | ret | expr => simp [Stmt.isBlock] at isBlock

end Stmt

/-- Statements in which an expression is the last one or stands in front of a block. -/
def Separated (stmts : List Stmt) : Prop :=
  stmts.IsChain fun stmt next => stmt.isExpr = true → next.isBlock = true

instance (stmts : List Stmt) : Decidable (Separated stmts) :=
  inferInstanceAs (Decidable (List.IsChain _ _))

/-- Whether a character right behind the text of an expression would become part of its last
token. -/
def Expr.prolongedBy : Expr → Char → Bool
  | .name _, char | .bool _ _, char => Token.isWordPart char
  | .int _ _, char => char.isDigit
  | _, _ => false

/-- Whether a character right behind the text of a statement would carry on with it. Behind an
expression this is also the parenthesis of a call. -/
def Stmt.continuedBy : Stmt → Char → Bool
  | .expr _ inner, char => char == '(' || inner.prolongedBy char
  | .letBind _ _ _, _ | .ret _ _, _ | .block _, _ => false

/-- Statements none of which is carried on with by the text of the next one. -/
def KeptApart (stmts : List Stmt) : Prop :=
  stmts.IsChain fun stmt next => ∀ char ∈ next.print.toList.head?, stmt.continuedBy char = false

-- the first character is tested by itself, not searched for among all characters
instance (stmts : List Stmt) : Decidable (KeptApart stmts) :=
  decidable_of_iff
    (stmts.IsChain fun stmt next => next.print.toList.head?.any stmt.continuedBy = false)
    (by simp [KeptApart, Option.any_eq_false])

theorem Separated.keptApart {stmts : List Stmt} (separated : Separated stmts) : KeptApart stmts := by
  refine separated.imp ?_
  intro stmt next follows char isFirst
  cases stmt with
  | letBind | ret | block => rfl
  | expr token expr =>
      rcases Stmt.exists_block_of_isBlock (follows rfl) with ⟨⟨brace, statements⟩, rfl⟩
      have isBrace : '\x7b' = char := by simpa [Stmt.print, Block.print] using isFirst
      subst isBrace
      cases expr <;> rfl

/-- The statements of every block among some nodes are such that `holds` is true of them. -/
def AllBlocks (holds : List Stmt → Prop) (nodes : List Node) : Prop :=
  ∀ block, .block block ∈ nodes → holds block.statements

/-- All blocks among some nodes have separated statements. -/
def SeparatedBlocks (nodes : List Node) : Prop := AllBlocks Separated nodes

section AllBlocks

variable {holds : List Stmt → Prop} {nodes others : List Node}

@[simp]
theorem allBlocks_append :
    AllBlocks holds (nodes ++ others) ↔ AllBlocks holds nodes ∧ AllBlocks holds others := by
  simp only [AllBlocks, List.mem_append, or_imp, forall_and]

@[simp]
theorem allBlocks_expr {expr : Expr} :
    AllBlocks holds (.expr expr :: nodes) ↔ AllBlocks holds nodes := by
  simp [AllBlocks]

@[simp]
theorem allBlocks_stmt {stmt : Stmt} :
    AllBlocks holds (.stmt stmt :: nodes) ↔ AllBlocks holds nodes := by
  simp [AllBlocks]

@[simp]
theorem allBlocks_block {block : Block} :
    AllBlocks holds (.block block :: nodes) ↔ holds block.statements ∧ AllBlocks holds nodes := by
  simp [AllBlocks]

theorem allBlocks_nodesOfExprs {exprs : List Expr} :
    AllBlocks holds (nodesOfExprs exprs) ↔ ∀ expr ∈ exprs, AllBlocks holds expr.nodes := by
  induction exprs with
  | nil => simp [nodesOfExprs, AllBlocks]
  | cons expr exprs ih => simp [nodesOfExprs, ih]

theorem allBlocks_nodesOfStmts {stmts : List Stmt} :
    AllBlocks holds (nodesOfStmts stmts) ↔ ∀ stmt ∈ stmts, AllBlocks holds stmt.nodes := by
  induction stmts with
  | nil => simp [nodesOfStmts, AllBlocks]
  | cons stmt stmts ih => simp [nodesOfStmts, ih]

end AllBlocks

/-- Lists of tokens one after the other, with a comma between two of them. -/
def commaBetween : List (List Token) → List Token
  | [] => []
  | first :: rest => first ++ rest.flatMap (.mark .comma :: ·)

mutual

/-- The tokens of a printed expression. -/
def Expr.printedTokens : Expr → List Token
  | .name ident => [ident.token]
  | .int token _ | .bool token _ => [token]
  | .unary token operand => .mark .lparen :: token :: (operand.printedTokens ++ [.mark .rparen])
  | .binary token left right =>
      .mark .lparen :: (left.printedTokens ++ token :: (right.printedTokens ++ [.mark .rparen]))
  | .suffix token operand =>
      if token.kind = .question ∧ operand.isWord then
        .mark .lparen :: .mark .lparen ::
          (operand.printedTokens ++ [.mark .rparen, token, .mark .rparen])
      else
        .mark .lparen :: (operand.printedTokens ++ [token, .mark .rparen])
  | .cond token test consequence none =>
      token :: .mark .lparen ::
        (test.printedTokens ++ .mark .rparen :: consequence.printedTokens)
  | .cond token test consequence (some alternative) =>
      token :: .mark .lparen ::
        (test.printedTokens ++ .mark .rparen ::
          (consequence.printedTokens ++ .word "else" :: alternative.printedTokens))
  | .function token params body =>
      token :: .mark .lparen ::
        (commaBetween (params.map ([·.token])) ++ .mark .rparen :: body.printedTokens)
  | .call token callee args =>
      callee.printedTokens ++ token :: (commaBetween (printedTokensOfExprs args) ++ [.mark .rparen])
termination_by structural expr => expr

def printedTokensOfExprs : List Expr → List (List Token)
  | [] => []
  | expr :: exprs => expr.printedTokens :: printedTokensOfExprs exprs
termination_by structural exprs => exprs

def Stmt.printedTokens : Stmt → List Token
  | .letBind token name value =>
      token :: name.token :: .mark .assign :: (value.printedTokens ++ [.mark .semicolon])
  | .ret token value => token :: (value.printedTokens ++ [.mark .semicolon])
  | .expr _ expr => expr.printedTokens
  | .block block => block.printedTokens
termination_by structural stmt => stmt

def printedTokensOfStmts : List Stmt → List Token
  | [] => []
  | stmt :: stmts => stmt.printedTokens ++ printedTokensOfStmts stmts
termination_by structural stmts => stmts

def Block.printedTokens : Block → List Token
  | .mk token statements => token :: (printedTokensOfStmts statements ++ [.mark .rbrace])
termination_by structural block => block

end

/-- Neither a digit nor a character that a word can go on with. -/
def Token.divides (char : Char) : Bool := !char.isDigit && !isWordPart char

/-- A text that prolongs neither a word nor a number in front of it. -/
def Divided (rest : List Char) : Prop := ∀ char ∈ rest.head?, Token.divides char = true

theorem divided_nil : Divided [] := by simp [Divided]

theorem divided_cons {char : Char} {rest : List Char} (divides : Token.divides char = true) :
    Divided (char :: rest) := by
  simpa [Divided] using divides

/-- What follows the text of an expression does not prolong its last token. -/
def Expr.Ends (expr : Expr) (rest : List Char) : Prop :=
  ∀ char ∈ rest.head?, expr.prolongedBy char = false

theorem Divided.ends {rest : List Char} (divided : Divided rest) (expr : Expr) : expr.Ends rest := by
  intro char isFirst
  have divides := divided char isFirst
  simp only [Token.divides, Bool.and_eq_true, Bool.not_eq_eq_eq_not, Bool.not_true] at divides
  cases expr <;> simp [Expr.prolongedBy, divides]

theorem Divided.apart {rest : List Char} (divided : Divided rest) {kind : Kind}
    (isWord : kind.joins = Token.isWordPart) : kind.Apart rest := by
  intro char isFirst
  have divides := divided char isFirst
  simp only [Token.divides, Bool.and_eq_true, Bool.not_eq_eq_eq_not, Bool.not_true] at divides
  rw [isWord, divides.2]

theorem Token.wellFormed_word {text : String} (starts : text.toList.head?.any isWordStart = true)
    (goesOn : text.toList.tail.all isWordPart = true) : (Token.word text).WellFormed := by
  cases chars : text.toList with
  | nil => simp [chars] at starts
  | cons first rest =>
      have spelled : text = String.ofList (first :: rest) := by rw [← chars, String.ofList_toList]
      rw [spelled]
      simp only [chars, List.head?_cons, Option.any_some, List.tail_cons, List.all_eq_true] at *
      exact .word starts goesOn

theorem Kind.apart_blank (kind : Kind) (rest : List Char) : kind.Apart (' ' :: rest) :=
  kind.apart_of_isBlank (by simp [Token.isBlank])

namespace Spells

variable {rest : List Char} {tokens : List Token}

theorem mark (kind : Kind) (isMark : kind ∈ Kind.marks) (apart : kind.Apart rest)
    (others : Spells rest tokens) : Spells (kind.label.toList ++ rest) (.mark kind :: tokens) :=
  .cons (.mark isMark) apart others

theorem space (others : Spells rest tokens) : Spells (' ' :: rest) tokens :=
  .blank rfl others

/-- A mark of one character that is part of no longer mark stands in front of anything. -/
theorem single (char : Char) (kind : Kind) (isMark : kind ∈ Kind.marks)
    (spelled : kind.label.toList = [char]) (never : ∀ char, kind.joins char = false)
    (others : Spells rest tokens) : Spells (char :: rest) (.mark kind :: tokens) := by
  have read := Spells.mark kind isMark (fun char _ => never char) others
  rwa [spelled] at read

theorem lparen (others : Spells rest tokens) : Spells ('(' :: rest) (.mark .lparen :: tokens) :=
  .single '(' .lparen (by decide) rfl (fun _ => rfl) others

theorem rparen (others : Spells rest tokens) : Spells (')' :: rest) (.mark .rparen :: tokens) :=
  .single ')' .rparen (by decide) rfl (fun _ => rfl) others

theorem reserved (text : String) (known : text ∈ Kind.keywords.map Prod.fst)
    (divided : Divided rest) (others : Spells rest tokens) :
    Spells (text.toList ++ rest) (.word text :: tokens) := by
  have spelled : ∀ text ∈ Kind.keywords.map Prod.fst,
      text.toList.head?.any Token.isWordStart = true ∧
        text.toList.tail.all Token.isWordPart = true := by
    decide
  rcases spelled text known with ⟨starts, goesOn⟩
  have apart : (Token.word text).kind.Apart rest := divided.apart (Kind.joins_ofWord text)
  exact .cons (Token.wellFormed_word starts goesOn) apart others

theorem ident {ident : Ident} (spelled : ident.WellSpelled) (divided : Divided rest)
    (others : Spells rest tokens) :
    Spells (ident.name.toList ++ rest) (ident.token :: tokens) := by
  rcases spelled with ⟨wellFormed, isIdent, named⟩
  rw [named]
  refine .cons wellFormed ?_ others
  rw [isIdent]
  exact divided.apart rfl

end Spells

/-- A character that the text of an expression can begin with. -/
def Expr.starts (char : Char) : Bool := char.isDigit || Token.isWordStart char || char == '('

theorem Token.WellFormed.head_literal {token : Token} (wellFormed : token.WellFormed)
    (isKind : token.kind = .int ∨ token.kind = .ident) :
    token.literal.toList.head?.any Expr.starts = true := by
  cases wellFormed with
  | int isDigit => simp [Expr.starts, isDigit]
  | word isStart => simp [Token.word, Expr.starts, isStart]
  | mark isMark =>
      simp only [Token.mark] at isKind
      rcases isKind with rfl | rfl <;> exact absurd isMark (by decide)
  | illegal => simp at isKind

theorem Expr.WellSpelled.head_print {expr : Expr} (spelled : expr.WellSpelled) :
    expr.print.toList.head?.any Expr.starts = true := by
  cases spelled with
  | name spelled =>
      rcases spelled with ⟨wellFormed, isIdent, named⟩
      rw [Expr.print, named]
      exact wellFormed.head_literal (.inr isIdent)
  | int wellFormed isInt => exact wellFormed.head_literal (.inl isInt)
  | bool value => cases value <;> rfl
  | unary | binary => simp [Expr.print, Expr.starts]
  | suffix =>
      rw [Expr.print]
      split <;> simp [Expr.starts]
  | @cond _ _ alternative =>
      cases alternative <;> simp [Expr.print, Expr.starts, Token.isWordStart]
  | function => simp [Expr.print, Expr.starts, Token.isWordStart]
  | @call callee _ called =>
      have head := called.head_print
      cases print_eq : callee.print.toList with
      | nil => simp [print_eq] at head
      | cons first others => simpa [Expr.print, print_eq] using head
termination_by expr

/-- A text that begins like an expression does not prolong a unary operator in front of it. -/
theorem Kind.apart_of_starts {kind : Kind} (allowed : kind ∈ Role.unary.allowed)
    {text : List Char} (head : text.head?.any Expr.starts = true) (rest : List Char) :
    kind.Apart (text ++ rest) := by
  cases text with
  | nil => simp at head
  | cons first others =>
      simp only [List.head?_cons, Option.any_some] at head
      intro char isFirst
      simp only [List.cons_append, List.head?_cons, Option.mem_def, Option.some.injEq] at isFirst
      subst isFirst
      simp only [Role.allowed, List.mem_cons, List.not_mem_nil, or_false] at allowed
      rcases allowed with rfl | rfl
      · simp only [Kind.joins, beq_eq_false_iff_ne]
        rintro rfl
        exact absurd head (by decide)
      · simp only [Kind.joins, beq_eq_false_iff_ne]
        rintro rfl
        exact absurd head (by decide)

theorem Expr.WellSpelled.apart_print {expr : Expr} (spelled : expr.WellSpelled) {kind : Kind}
    (allowed : kind ∈ Role.unary.allowed) (rest : List Char) :
    kind.Apart (expr.print.toList ++ rest) :=
  Kind.apart_of_starts allowed spelled.head_print rest

theorem toList_commaSeparated_cons (first : String) (rest : List String) :
    (commaSeparated (first :: rest)).toList =
      first.toList ++ rest.flatMap fun item => ',' :: ' ' :: item.toList := by
  simp [commaSeparated, List.flatMap_map]

namespace Spells

variable {Item : Type} {text : Item → String} {spelling : Item → List Token}

theorem commaItems {items : List Item}
    (reads : ∀ item ∈ items, ∀ {rest : List Char} {tokens : List Token}, Divided rest →
      Spells rest tokens → Spells ((text item).toList ++ rest) (spelling item ++ tokens))
    {rest : List Char} {tokens : List Token} (divided : Divided rest) (others : Spells rest tokens) :
    Divided ((items.flatMap fun item => ',' :: ' ' :: (text item).toList) ++ rest) ∧
      Spells ((items.flatMap fun item => ',' :: ' ' :: (text item).toList) ++ rest)
        (items.flatMap (.mark .comma :: spelling ·) ++ tokens) := by
  induction items with
  | nil => exact ⟨divided, others⟩
  | cons item items ih =>
      rw [List.forall_mem_cons] at reads
      rcases ih reads.2 with ⟨divided, others⟩
      simp only [List.flatMap_cons, List.cons_append, List.append_assoc]
      refine ⟨divided_cons rfl, .single ',' .comma (by decide) rfl (fun _ => rfl) ?_⟩
      exact .space (reads.1 divided others)

/-- Items with commas between them spell what the items spell, with commas between. -/
theorem commaSeparated {items : List Item}
    (reads : ∀ item ∈ items, ∀ {rest : List Char} {tokens : List Token}, Divided rest →
      Spells rest tokens → Spells ((text item).toList ++ rest) (spelling item ++ tokens))
    {rest : List Char} {tokens : List Token} (divided : Divided rest) (others : Spells rest tokens) :
    Spells ((Scriptlet.commaSeparated (items.map text)).toList ++ rest)
      (commaBetween (items.map spelling) ++ tokens) := by
  cases items with
  | nil => simpa [Scriptlet.commaSeparated, commaBetween] using others
  | cons first items =>
      rw [List.forall_mem_cons] at reads
      rcases commaItems reads.2 divided others with ⟨divided, others⟩
      simp only [List.map_cons, toList_commaSeparated_cons, commaBetween, List.flatMap_map,
        List.append_assoc]
      exact reads.1 divided others

end Spells

theorem printedTokensOfExprs_eq_map (exprs : List Expr) :
    printedTokensOfExprs exprs = exprs.map Expr.printedTokens := by
  induction exprs with
  | nil => rfl
  | cons expr exprs ih => simp [printedTokensOfExprs, ih]

theorem Block.divided_print (block : Block) (rest : List Char) :
    Divided (block.print.toList ++ rest) := by
  cases block
  simp only [Block.print, String.toList_append, List.append_assoc]
  exact divided_cons rfl

theorem Kind.joins_suffix {kind : Kind} (allowed : kind ∈ Role.suffix.allowed) (char : Char) :
    kind.joins char = false := by
  simp only [Role.allowed, List.mem_cons, List.not_mem_nil, or_false] at allowed
  rcases allowed with rfl | rfl | rfl <;> rfl

/-- A suffix right behind an operand does not prolong it, but for a `?` behind a word. -/
theorem Expr.ends_suffix {operand : Expr} {kind : Kind} (allowed : kind ∈ Role.suffix.allowed)
    (apart : ¬(kind = .question ∧ operand.isWord = true)) (rest : List Char) :
    operand.Ends (kind.label.toList ++ rest) := by
  simp only [Role.allowed, List.mem_cons, List.not_mem_nil, or_false] at allowed
  rcases allowed with rfl | rfl | rfl
  · exact (divided_cons rfl).ends operand
  · exact (divided_cons rfl).ends operand
  · intro char isFirst
    have isQuestion : '?' = char := by simpa [Kind.label] using isFirst
    subst isQuestion
    cases operand <;> simp [Expr.isWord, Expr.prolongedBy] at apart ⊢

/-- What follows the text of a statement does not carry on with it. -/
def Stmt.Ends (stmt : Stmt) (rest : List Char) : Prop :=
  ∀ char ∈ rest.head?, stmt.continuedBy char = false

theorem Divided.ends_stmt {rest : List Char} (divided : Divided rest)
    (noCall : rest.head? ≠ some '(') (stmt : Stmt) : stmt.Ends rest := by
  intro char isFirst
  cases stmt with
  | letBind | ret | block => rfl
  | expr token expr =>
      have distinct : char ≠ '(' := by
        rintro rfl
        exact noCall isFirst
      simp [Stmt.continuedBy, distinct, divided.ends expr char isFirst]

/-- The text of a statement is read as its tokens in front of any text that does not carry on with
it. -/
def Stmt.Prints (stmt : Stmt) : Prop :=
  ∀ {rest : List Char} {tokens : List Token}, stmt.Ends rest → Spells rest tokens →
    Spells (stmt.print.toList ++ rest) (stmt.printedTokens ++ tokens)

theorem Stmt.WellSpelled.print_ne_nil {stmt : Stmt} (spelled : stmt.WellSpelled) :
    stmt.print.toList ≠ [] := by
  cases spelled with
  | letBind => simp [Stmt.print]
  | ret => simp [Stmt.print]
  | expr inner =>
      intro empty
      have head := inner.head_print
      rw [Stmt.print] at empty
      simp [empty] at head
  | block inner =>
      cases inner
      simp [Stmt.print, Block.print]

theorem Spells.stmts {stmts : List Stmt} (spelled : ∀ stmt ∈ stmts, stmt.WellSpelled)
    (prints : ∀ stmt ∈ stmts, stmt.Prints) (apart : KeptApart stmts) {rest : List Char}
    {tokens : List Token} (ends : ∀ stmt : Stmt, stmt.Ends rest) (others : Spells rest tokens) :
    Spells ((String.join (printStmts stmts)).toList ++ rest)
      (printedTokensOfStmts stmts ++ tokens) := by
  induction apart with
  | nil => simpa [printStmts, printedTokensOfStmts] using others
  | singleton stmt =>
      have only : stmt.Prints := prints stmt (by simp)
      simpa [printStmts, printedTokensOfStmts] using only (ends stmt) others
  | @cons_cons stmt next stmts follows apart ih =>
      have first : stmt.Prints := prints stmt (by simp)
      have behind := ih (fun stmt stmt_mem => spelled stmt (by simp [stmt_mem]))
        fun stmt stmt_mem => prints stmt (by simp [stmt_mem])
      have nonempty := (spelled next (by simp)).print_ne_nil
      simp only [printStmts, printedTokensOfStmts, String.join_cons, String.toList_append,
        List.append_assoc] at behind ⊢
      refine first ?_ behind
      intro char isFirst
      rw [List.head?_append_of_ne_nil _ nonempty] at isFirst
      exact follows char isFirst

mutual

theorem Expr.WellSpelled.spells_print {expr : Expr} : expr.WellSpelled →
    AllBlocks KeptApart expr.nodes → ∀ {rest : List Char} {tokens : List Token}, expr.Ends rest →
      Spells rest tokens → Spells (expr.print.toList ++ rest) (expr.printedTokens ++ tokens)
  | .name ⟨wellFormed, isIdent, named⟩, _, _, _, ends, others => by
      simp only [Expr.print, named, Expr.printedTokens]
      refine .cons wellFormed ?_ others
      rw [isIdent]
      exact ends
  | .int wellFormed isInt _, _, _, _, ends, others => by
      simp only [Expr.print, Expr.printedTokens]
      refine .cons wellFormed ?_ others
      rw [isInt]
      exact ends
  | .bool value, _, _, _, ends, others => by
      have starts : (toString value).toList.head?.any Token.isWordStart = true := by
        cases value <;> decide
      have goesOn : (toString value).toList.tail.all Token.isWordPart = true := by
        cases value <;> decide
      simp only [Expr.print, Expr.printedTokens]
      refine .cons (Token.wellFormed_word starts goesOn) ?_ others
      intro char isFirst
      rw [Token.word, Kind.joins_ofWord]
      exact ends char isFirst
  | .unary allowed inner, apart, rest, _, _, others => by
      have isMark : ∀ kind ∈ Role.unary.allowed, kind ∈ Kind.marks := by decide
      have operand := inner.spells_print (by simpa [Expr.nodes] using apart)
        ((divided_cons rfl).ends _) others.rparen
      have operator := Spells.mark _ (isMark _ allowed) (inner.apart_print allowed _) operand
      simpa [Expr.print, Expr.printedTokens, Token.mark] using operator.lparen
  | .binary allowed leftOperand rightOperand, apart, _, _, _, others => by
      have isMark : ∀ kind ∈ Role.binary.allowed, kind ∈ Kind.marks := by decide
      simp only [Expr.nodes, allBlocks_expr, allBlocks_append] at apart
      have right := rightOperand.spells_print apart.2 ((divided_cons rfl).ends _) others.rparen
      have operator := Spells.mark _ (isMark _ allowed) (Kind.apart_blank _ _) right.space
      have left := leftOperand.spells_print apart.1 ((divided_cons rfl).ends _)
        operator.space
      simpa [Expr.print, Expr.printedTokens, Token.mark] using left.lparen
  | @Expr.WellSpelled.suffix kind operand allowed inner, apart, _, _, _, others => by
      have isMark : ∀ kind ∈ Role.suffix.allowed, kind ∈ Kind.marks := by decide
      have apart : AllBlocks KeptApart operand.nodes := by simpa [Expr.nodes] using apart
      have operator := Spells.mark kind (isMark _ allowed)
        (fun char _ => Kind.joins_suffix allowed char) others.rparen
      by_cases joined : kind = .question ∧ operand.isWord = true
      · have read := inner.spells_print apart ((divided_cons rfl).ends _) operator.rparen
        simpa [Expr.print, Expr.printedTokens, Token.mark, joined] using read.lparen.lparen
      · have read := inner.spells_print apart (Expr.ends_suffix allowed joined _) operator
        simpa [Expr.print, Expr.printedTokens, Token.mark, joined] using read.lparen
  | @Expr.WellSpelled.cond _ _ none condition branch _, apart, _, _, _, others => by
      simp only [Expr.nodes, allBlocks_expr, allBlocks_append] at apart
      have consequence := branch.spells_print apart.2 others
      have test := condition.spells_print apart.1 ((divided_cons rfl).ends _) consequence.rparen
      have read := Spells.reserved "if" (by decide) (divided_cons rfl) test.lparen.space
      simpa [Expr.print, Expr.printedTokens] using read
  | @Expr.WellSpelled.cond _ _ (some block) condition branch elseBranch, apart, _, _, _,
      others => by
      simp only [Expr.nodes, allBlocks_expr, allBlocks_append] at apart
      have alternative := (elseBranch block rfl).spells_print apart.2 others
      have kwElse := Spells.reserved "else" (by decide) (block.divided_print _) alternative
      have consequence := branch.spells_print apart.1.2 kwElse
      have test := condition.spells_print apart.1.1 ((divided_cons rfl).ends _)
        consequence.rparen
      have read := Spells.reserved "if" (by decide) (divided_cons rfl) test.lparen.space
      simpa [Expr.print, Expr.printedTokens] using read
  | .function parameters block, apart, _, _, _, others => by
      have body := block.spells_print (by simpa [Expr.nodes] using apart) others
      have params := @Spells.commaSeparated Ident Ident.name ([·.token]) _
        (fun param param_mem _ _ divided others =>
          Spells.ident (parameters param param_mem) divided others)
        _ _ (divided_cons rfl) body.rparen
      have read := Spells.reserved "fn" (by decide) (divided_cons rfl) params.lparen
      simpa [Expr.print, Expr.printedTokens] using read
  | .call called arguments, apart, _, _, _, others => by
      simp only [Expr.nodes, allBlocks_expr, allBlocks_append,
        allBlocks_nodesOfExprs] at apart
      have args := Spells.commaSeparated
        (fun arg arg_mem _ _ divided others =>
          (arguments arg arg_mem).spells_print (apart.2 arg arg_mem) (divided.ends _) others)
        (divided_cons rfl) others.rparen
      have read := called.spells_print apart.1 ((divided_cons rfl).ends _) args.lparen
      simpa [Expr.print, Expr.printedTokens, printExprs_eq_map, printedTokensOfExprs_eq_map]
        using read

theorem Stmt.WellSpelled.prints {stmt : Stmt} : stmt.WellSpelled → AllBlocks KeptApart stmt.nodes →
    stmt.Prints
  | .letBind spelled value, apart, _, _, _, others => by
      have read := value.spells_print (by simpa [Stmt.nodes] using apart)
        ((divided_cons rfl).ends _)
        (others.single ';' .semicolon (by decide) rfl (fun _ => rfl))
      have assign := Spells.mark .assign (by decide) (Kind.apart_blank _ _) read.space
      have name := Spells.ident spelled (divided_cons rfl) assign.space
      have read := Spells.reserved "let" (by decide) (divided_cons rfl) name.space
      simpa [Stmt.print, Stmt.printedTokens, Kind.label] using read
  | .ret value, apart, _, _, _, others => by
      have read := value.spells_print (by simpa [Stmt.nodes] using apart)
        ((divided_cons rfl).ends _)
        (others.single ';' .semicolon (by decide) rfl (fun _ => rfl))
      have read := Spells.reserved "return" (by decide) (divided_cons rfl) read.space
      simpa [Stmt.print, Stmt.printedTokens] using read
  | .expr inner, apart, _, _, ends, others => by
      refine inner.spells_print (by simpa [Stmt.nodes] using apart) ?_ others
      intro char isFirst
      have notContinued := ends char isFirst
      simp only [Stmt.continuedBy, Bool.or_eq_false_iff] at notContinued
      exact notContinued.2
  | .block inner, apart, _, _, _, others =>
      inner.spells_print (by simpa [Stmt.nodes] using apart) others

theorem Block.WellSpelled.spells_print {block : Block} : block.WellSpelled →
    AllBlocks KeptApart block.nodes → ∀ {rest : List Char} {tokens : List Token},
      Spells rest tokens → Spells (block.print.toList ++ rest) (block.printedTokens ++ tokens)
  | .mk statements, apart, _, _, others => by
      simp only [Block.nodes, allBlocks_block, allBlocks_nodesOfStmts] at apart
      have stmts := Spells.stmts statements
        (fun stmt stmt_mem => (statements stmt stmt_mem).prints (apart.2 stmt stmt_mem))
        apart.1 ((divided_cons rfl).ends_stmt (by simp))
        (others.single '\x7d' .rbrace (by decide) rfl (fun _ => rfl))
      have read := stmts.single '\x7b' .lbrace (by decide) rfl (fun _ => rfl)
      simpa [Block.print, Block.printedTokens] using read

end

/-- The text of a program that was read is read as its tokens, if its statements are kept apart. -/
theorem Program.tokenize_print {program : Program}
    (spelled : ∀ stmt ∈ program.statements, stmt.WellSpelled)
    (apart : KeptApart program.statements) (blocks : AllBlocks KeptApart program.nodes) :
    tokenize program.print = printedTokensOfStmts program.statements := by
  rw [Program.nodes, allBlocks_nodesOfStmts] at blocks
  have read := Spells.stmts spelled
    (fun stmt stmt_mem => (spelled stmt stmt_mem).prints (blocks stmt stmt_mem))
    apart (divided_nil.ends_stmt (by simp)) .nil
  simpa [tokenize, Program.print] using read.all_eq

end Scriptlet
