import Scriptlet.Proofs.Printer.Joining

/-!
# The printed form of a printed form

Printing what was read from a printed program gives the printed program again, even where statements
have run together, as what is read then is the program with these statements put together. Three
things can go wrong. The next statement may carry on with an expression in another way, so that
`3 + 4; -5 * 5` becomes the text of a call, and `a; let b = 1` begins with the word `alet`. The words
or numbers that have run together may not be legible, as in `le; t`. And the parentheses that are
printed count as nesting when they are read.
-/

namespace Scriptlet

section Print

variable (first : Expr → Token)

theorem Expr.isWord_withFirstTokens (expr : Expr) :
    (expr.withFirstTokens first).isWord = expr.isWord := by
  match expr with
  | .cond _ _ _ none => rfl
  | .cond _ _ _ (some _) => rfl
  | .name _ | .int _ _ | .bool _ _ | .unary _ _ | .binary _ _ _ | .suffix _ _ | .function _ _ _
  | .call _ _ _ => rfl

mutual

/-- Nothing of the tokens of expression statements is printed. -/
theorem Expr.print_withFirstTokens : (expr : Expr) →
    (expr.withFirstTokens first).print = expr.print
  | .name _ | .int _ _ | .bool _ _ => rfl
  | .unary _ operand => by
      simp [Expr.withFirstTokens, Expr.print, operand.print_withFirstTokens]
  | .binary _ left right => by
      simp [Expr.withFirstTokens, Expr.print, left.print_withFirstTokens,
        right.print_withFirstTokens]
  | .suffix _ operand => by
      simp [Expr.withFirstTokens, Expr.print, operand.print_withFirstTokens,
        operand.isWord_withFirstTokens first]
  | .cond _ test consequence none => by
      simp [Expr.withFirstTokens, Expr.print, test.print_withFirstTokens,
        consequence.print_withFirstTokens]
  | .cond _ test consequence (some alternative) => by
      simp [Expr.withFirstTokens, Expr.print, test.print_withFirstTokens,
        consequence.print_withFirstTokens, alternative.print_withFirstTokens]
  | .function _ _ body => by
      simp [Expr.withFirstTokens, Expr.print, body.print_withFirstTokens]
  | .call _ callee args => by
      simp [Expr.withFirstTokens, Expr.print, callee.print_withFirstTokens,
        printExprs_withFirstTokens args]

theorem printExprs_withFirstTokens : (exprs : List Expr) →
    printExprs (exprsWithFirstTokens first exprs) = printExprs exprs
  | [] => rfl
  | expr :: exprs => by
      simp [exprsWithFirstTokens, printExprs, expr.print_withFirstTokens,
        printExprs_withFirstTokens exprs]

theorem Stmt.print_withFirstTokens : (stmt : Stmt) →
    (stmt.withFirstTokens first).print = stmt.print
  | .letBind _ _ value | .ret _ value | .expr _ value => by
      simp [Stmt.withFirstTokens, Stmt.print, value.print_withFirstTokens]
  | .block block => by
      simp [Stmt.withFirstTokens, Stmt.print, block.print_withFirstTokens]

theorem printStmts_withFirstTokens : (stmts : List Stmt) →
    printStmts (stmtsWithFirstTokens first stmts) = printStmts stmts
  | [] => rfl
  | stmt :: stmts => by
      simp [stmtsWithFirstTokens, printStmts, stmt.print_withFirstTokens,
        printStmts_withFirstTokens stmts]

theorem Block.print_withFirstTokens : (block : Block) →
    (block.withFirstTokens first).print = block.print
  | .mk _ statements => by
      simp [Block.withFirstTokens, Block.print, printStmts_withFirstTokens statements]

end

theorem Program.print_withFirstTokens (program : Program) :
    (program.withFirstTokens first).print = program.print := by
  simp [Program.withFirstTokens, Program.print, printStmts_withFirstTokens]

end Print

namespace Program

/-- The printed form is stable: it is read again, and what is read prints as the same text. It is the
program with the statements put together that have run together. For this, what is put together has
to be legible, the statements that remain have to be kept apart, in the program and in all its
blocks, and the printed form must not nest too deeply. -/
theorem print_stable {source : String} {program : Program}
    (parsed : Program.parse source = .ok program)
    (apart : KeptApart program.joined.statements ∧
      ∀ block ∈ program.joined.blocks true, KeptApart block.statements)
    (legible : ∀ expr ∈ program.joined.exprs true, expr.Legible)
    (shallow : program.joined.printedNesting ≤ nestingLimit) :
    ∃ again, Program.parse program.print = .ok again ∧ again.print = program.print ∧
      again.withoutFirstTokens = program.joined.withoutFirstTokens := by
  have spelled := wellSpelled_joined (wellSpelled_of_read (parse_eq_ok_iff.1 parsed))
    fun expr expr_mem => legible expr (mem_exprs_iff.2 expr_mem)
  have blocks : AllBlocks KeptApart program.joined.nodes := by
    intro block block_mem
    exact apart.2 block (mem_blocks_iff.2 block_mem)
  have derives := derives_print_of_keptApart spelled apart.1 blocks
  rw [program.print_joined] at derives
  refine ⟨_, parse_eq_ok_iff.2 (read_of_derives shallow derives), ?_, ?_⟩
  · rw [print_withFirstTokens, program.print_joined]
  · exact withoutFirstTokens_withFirstTokens _ program.joined

/-- Words, numbers and a function that run together, in a block too. -/
theorem print_stable_juxtaposed :
    let source := "f(x); 1; 2; a; b(c) \x7b -a; let b = 1; if (b) \x7b 2; c \x7d; els; e \x7b i; f; x \x7d; d; " ++
      "fn(y) \x7b y \x7d \x7d t; rue"
    ∃ program again, Program.parse source = .ok program ∧
      (KeptApart program.joined.statements ∧
        ∀ block ∈ program.joined.blocks true, KeptApart block.statements) ∧
      (∀ expr ∈ program.joined.exprs true, expr.Legible) ∧
      program.joined.printedNesting ≤ nestingLimit ∧
      program.print =
        "f(x)12ab(c)\x7b(-a)let b = 1;if (b)\x7b2c\x7delse\x7bifx\x7ddfn(y)\x7by\x7d\x7dtrue" ∧
      Program.parse program.print = .ok again ∧ again.print = program.print ∧
        again.withoutFirstTokens = program.joined.withoutFirstTokens := by
  intro source
  have evaluated : (Program.read source).2.isEmpty = true ∧
      (KeptApart (Program.read source).1.joined.statements ∧
        ∀ block ∈ (Program.read source).1.joined.blocks true, KeptApart block.statements) ∧
      (∀ expr ∈ (Program.read source).1.joined.exprs true, expr.Legible) ∧
      (Program.read source).1.joined.printedNesting ≤ nestingLimit ∧
      (Program.read source).1.print =
        "f(x)12ab(c)\x7b(-a)let b = 1;if (b)\x7b2c\x7delse\x7bifx\x7ddfn(y)\x7by\x7d\x7dtrue" := by
    decide +kernel
  rcases evaluated with ⟨isEmpty, apart, legible, shallow, printed⟩
  have parsed := parse_of_isEmpty isEmpty
  rcases print_stable parsed apart legible shallow with ⟨again, reparsed, same, isJoined⟩
  exact ⟨_, again, parsed, apart, legible, shallow, printed, reparsed, same, isJoined⟩

end Program

/-! ## Parentheses and nesting -/

/-- How many parentheses and unary operators stand at the beginning of some tokens. -/
def openers (tokens : List Token) : Nat :=
  (tokens.takeWhile fun token => token.kind ∈ [.lparen, .bang, .minus]).length

theorem openers_cons {token : Token} (opens : token.kind ∈ [.lparen, .bang, .minus])
    (tokens : List Token) : openers (token :: tokens) = openers tokens + 1 := by
  rw [openers, List.takeWhile_cons_of_pos (by simpa using opens)]
  rfl

theorem openers_eq_zero {tokens : List Token}
    (other : firstKind tokens ∉ [.lparen, .bang, .minus]) : openers tokens = 0 := by
  cases tokens with
  | nil => rfl
  | cons token tokens =>
      rw [openers, List.takeWhile_cons_of_neg (by simpa using other)]
      rfl

namespace Grammar

/-- Each parenthesis and each unary operator in front of an operand is a level of nesting. -/
theorem Expression.openers_lt {stratum : Stratum} {nesting : Nat} {input rest : List Token}
    {expr : Expr} : Expression stratum nesting input expr rest → openers input < nesting
  | .tighter _ inner => inner.openers_lt
  | .binary _ _ leftOperand _ => by
      have inside := leftOperand.openers_lt
      omega
  | .unary isOperator operand => by
      have inside := operand.openers_lt
      rw [openers_cons (by rcases isOperator with kind | kind <;> simp [kind])]
      omega
  | .suffix _ operand => operand.openers_lt
  | .call _ callee _ => by
      have inside := callee.openers_lt
      omega
  | .group opens inner _ => by
      have inside := inner.openers_lt
      rw [openers_cons (by simp [opens])]
      omega
  | .name isKind | .int isKind _ _ | .true isKind | .false isKind => by
      rw [openers_eq_zero (by simp [isKind])]
      exact Nat.one_pos
  | .cond isKind _ _ _ _ | .condElse isKind _ _ _ _ _ _ | .function isKind _ _ _ => by
      rw [openers_eq_zero (by simp [isKind])]
      omega

theorem Statement.openers_lt {nesting : Nat} {input rest : List Token} {stmt : Stmt}
    (statement : Statement nesting input stmt rest) : openers input < nesting := by
  cases statement with
  | letBind isLet =>
      rw [openers_eq_zero (by simp [isLet])]
      omega
  | ret isReturn =>
      rw [openers_eq_zero (by simp [isReturn])]
      omega
  | expr expression =>
      have inside := expression.openers_lt
      omega
  | block inner =>
      rw [openers_eq_zero (by simp [inner.firstKind_eq])]
      omega

theorem Derives.openers_le {nesting : Nat} {tokens : List Token} {program : Program}
    (derived : Derives nesting tokens program) : openers tokens ≤ nesting := by
  unfold Derives at derived
  generalize program.statements = stmts at derived
  cases derived with
  | nil => exact Nat.le_refl 0
  | cons statement _ =>
      have inside := statement.openers_lt
      omega

end Grammar

/-- A number with so many exclamation marks in front of it. -/
def negations : Nat → Expr
  | 0 => .int ⟨.int, "1"⟩ (Int64.ofNat (Decimal.value "1".toList))
  | count + 1 => .unary (.mark .bang) (negations count)

theorem Token.wellFormed_one : Token.WellFormed ⟨.int, "1"⟩ :=
  @WellFormed.int '1' [] (by decide) (by simp)

theorem wellSpelled_negations (count : Nat) : (negations count).WellSpelled := by
  induction count with
  | zero => exact .int Token.wellFormed_one rfl (by decide)
  | succ count ih => exact .unary (by decide) ih

theorem spells_negations (count : Nat) :
    Spells (List.replicate count '!' ++ ['1'])
      (List.replicate count (.mark .bang) ++ [⟨.int, "1"⟩]) := by
  induction count with
  | zero => exact .cons Token.wellFormed_one (fun _ isFirst => by simp at isFirst) .nil
  | succ count ih =>
      have apart : Kind.bang.Apart (List.replicate count '!' ++ ['1']) := by
        cases count <;> simp [Kind.Apart, Kind.joins, List.replicate_succ]
      exact .mark .bang (by decide) apart ih

theorem expression_negations (count : Nat) (rest : List Token) :
    Grammar.Expression .unary (count + 1)
      (List.replicate count (.mark .bang) ++ ⟨.int, "1"⟩ :: rest) (negations count) rest := by
  induction count with
  | zero => exact .tighter rfl (@Grammar.Expression.ofValue ⟨.int, "1"⟩ _ rfl (by decide))
  | succ count ih => exact .unary (.inl rfl) ih

theorem openers_negations (count : Nat) (rest : List Token) :
    2 * count ≤ openers ((negations count).printedTokens ++ rest) := by
  induction count generalizing rest with
  | zero => exact Nat.zero_le _
  | succ count ih =>
      have inside := ih (.mark .rparen :: rest)
      rw [negations, Expr.printedTokens]
      simp only [List.cons_append, List.append_assoc, List.nil_append]
      rw [openers_cons (by decide), openers_cons (by decide)]
      omega

namespace Program

theorem parse_negations {count : Nat} (fits : count + 3 ≤ nestingLimit) :
    Program.parse (String.ofList (List.replicate (count + 1) '!' ++ ['1'])) =
      .ok ⟨[.expr (.mark .bang) (negations (count + 1))]⟩ := by
  have tokens : tokenize (String.ofList (List.replicate (count + 1) '!' ++ ['1'])) =
      .mark .bang :: (List.replicate count (.mark .bang) ++ [⟨.int, "1"⟩]) := by
    rw [tokenize, String.toList_ofList, (spells_negations (count + 1)).all_eq]
    rfl
  have expression : Grammar.Expression .equality (count + 2)
      (.mark .bang :: (List.replicate count (.mark .bang) ++ [⟨.int, "1"⟩]))
      (negations (count + 1)) [] := (expression_negations (count + 1) []).loosen (by decide)
  have derived : Grammar.Derives (count + 3)
      (tokenize (String.ofList (List.replicate (count + 1) '!' ++ ['1'])))
      ⟨[.expr (.mark .bang) (negations (count + 1))]⟩ := by
    rw [tokens]
    exact .cons (.expr expression (.greedy rfl)) .nil
  exact parse_eq_ok_iff.2 (read_of_derives fits derived)

/-- With two levels of nesting for each exclamation mark, the printed form is not read any more. -/
theorem parse_print_negations {count : Nat} (exceeds : nestingLimit < 2 * count) (token : Token) :
    ∃ report, Program.parse (Program.print ⟨[.expr token (negations count)]⟩) = .error report := by
  have noBlocks : AllBlocks KeptApart (negations count).nodes := by
    clear exceeds
    induction count with
    | zero => simp [negations, Expr.nodes, AllBlocks]
    | succ count ih => simpa [negations, Expr.nodes] using ih
  have tokens : tokenize (Program.print ⟨[.expr token (negations count)]⟩) =
      (negations count).printedTokens ++ [] := by
    apply tokenize_print
    · simpa using .expr (wellSpelled_negations count)
    · simp [KeptApart]
    · simpa [Program.nodes, nodesOfStmts, Stmt.nodes] using noBlocks
  cases parsed : Program.parse (Program.print ⟨[.expr token (negations count)]⟩) with
  | error report => exact ⟨report, rfl⟩
  | ok again =>
      rcases derives_of_read (parse_eq_ok_iff.1 parsed) with ⟨nesting, within, derived⟩
      have deep := openers_negations count []
      have bound := derived.openers_le
      rw [tokens] at bound
      omega

/-- A source that is read, but whose printed form is not read or prints as another text. -/
theorem exists_not_stable_of_read {source : String}
    (isEmpty : (Program.read source).2.isEmpty = true)
    (differs : (Program.read (Program.read source).1.print).2.isEmpty = true →
      (Program.read (Program.read source).1.print).1.print ≠ (Program.read source).1.print) :
    ∃ program, Program.parse source = .ok program ∧
      ¬∃ again, Program.parse program.print = .ok again ∧ again.print = program.print := by
  refine ⟨_, parse_of_isEmpty isEmpty, ?_⟩
  rintro ⟨again, reparsed, same⟩
  rw [parse_eq_ok_iff] at reparsed
  rw [reparsed] at differs
  exact differs rfl same

/-- An expression in front of a parenthesis, two numbers that run together into one that is too
large, words that run together into each of the reserved words at a wrong place, a word in front of
`let`, `return`, `if` and a function that is called, and an expression whose printed form nests too
deeply to be read. -/
theorem print_not_stable :
    (∀ source ∈ ["3 + 4; -5 * 5", "9223372036854775807; 9", "le; t", "retur; n", "i; f", "els; e",
        "f; n", "a; let b = 1", "a; return 1", "a; if (b) \x7b c \x7d", "a; fn(x) \x7b x \x7d(1)"],
      ∃ program, Program.parse source = .ok program ∧
        ¬∃ again, Program.parse program.print = .ok again ∧ again.print = program.print) ∧
      ∃ program report, Program.parse (String.ofList (List.replicate 130 '!' ++ ['1'])) = .ok program ∧
        Program.parse program.print = .error report := by
  constructor
  · have evaluated : ∀ source ∈ ["3 + 4; -5 * 5", "9223372036854775807; 9", "le; t", "retur; n",
          "i; f", "els; e", "f; n", "a; let b = 1", "a; return 1", "a; if (b) \x7b c \x7d",
          "a; fn(x) \x7b x \x7d(1)"],
        (Program.read source).2.isEmpty = true ∧
          ((Program.read (Program.read source).1.print).2.isEmpty = true →
            (Program.read (Program.read source).1.print).1.print ≠
              (Program.read source).1.print) := by
      decide +kernel
    intro source source_mem
    rcases evaluated source source_mem with ⟨isEmpty, differs⟩
    exact exists_not_stable_of_read isEmpty differs
  · rcases @parse_print_negations 130 (by decide) (.mark .bang) with ⟨report, tooDeep⟩
    exact ⟨_, report, @parse_negations 129 (by decide), tooDeep⟩

end Program

end Scriptlet
