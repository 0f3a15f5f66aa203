import Scriptlet.Proofs.Parser.Recognition

/-!
# One source behind another

If a source is read without complaint, then more text behind it is read as if it stood alone,
provided that the first source is over: its last token is a `;` and all its braces are closed.

Both conditions are needed for the same reason. A derivation looks at the end of the input in one
place only, which is where it leaves a block open. As long as tokens are left behind the tree, no
block is open, so braces come in pairs and the derivation goes through in front of further tokens
too. At the end of the input the braces tell whether a block is open. If none is, then a final `;`
ends the last statement and is not inside it.
-/

namespace Scriptlet

/-- How many more braces are opened than closed. -/
def braceExcess (tokens : List Token) : Int :=
  (tokens.countP (·.kind = .lbrace) : Int) - tokens.countP (·.kind = .rbrace)

@[simp]
theorem braceExcess_nil : braceExcess [] = 0 := rfl

theorem braceExcess_lbrace {token : Token} {tokens : List Token} (opens : token.kind = .lbrace) :
    braceExcess (token :: tokens) = braceExcess tokens + 1 := by
  simp [braceExcess, opens]
  omega

theorem braceExcess_rbrace {token : Token} {tokens : List Token} (closes : token.kind = .rbrace) :
    braceExcess (token :: tokens) = braceExcess tokens - 1 := by
  simp [braceExcess, closes]
  omega

theorem braceExcess_cons {token : Token} {tokens : List Token}
    (noBrace : token.kind ∉ [.lbrace, .rbrace]) :
    braceExcess (token :: tokens) = braceExcess tokens := by
  simp at noBrace
  simp [braceExcess, noBrace]

/-- What stands between `input` and `rest` closes the braces that it opens, unless the input ends
before that. -/
structure Consumes (input rest : List Token) : Prop where
  suffix : rest <:+ input
  le : braceExcess rest ≤ braceExcess input
  eq : rest ≠ [] → braceExcess rest = braceExcess input

namespace Consumes

variable {input middle rest : List Token}

theorem refl (input : List Token) : Consumes input input :=
  ⟨List.suffix_refl input, Int.le_refl _, fun _ => rfl⟩

theorem trans (first : Consumes input middle) (second : Consumes middle rest) :
    Consumes input rest := by
  refine ⟨second.suffix.trans first.suffix, Int.le_trans second.le first.le, ?_⟩
  intro notEnd
  have middle_ne : middle ≠ [] := by
    rintro rfl
    exact notEnd (List.suffix_nil.1 second.suffix)
  rw [second.eq notEnd, first.eq middle_ne]

theorem tail {token : Token} (noBrace : token.kind ∉ [.lbrace, .rbrace]) :
    Consumes (token :: rest) rest := by
  have same : braceExcess (token :: rest) = braceExcess rest := braceExcess_cons noBrace
  exact ⟨List.suffix_cons token rest, by omega, fun _ => same.symm⟩

theorem cons {token : Token} (noBrace : token.kind ∉ [.lbrace, .rbrace])
    (consumes : Consumes input rest) : Consumes (token :: input) rest :=
  (tail noBrace).trans consumes

theorem snoc {token : Token} (consumes : Consumes input (token :: rest))
    (noBrace : token.kind ∉ [.lbrace, .rbrace]) : Consumes input rest :=
  consumes.trans (tail noBrace)

end Consumes

namespace Grammar

theorem Identifiers.consumes {input rest : List Token} {idents : List Ident}
    (identifiers : Identifiers input idents rest) : Consumes input rest := by
  induction identifiers with
  | one isIdent => exact .tail (by simp [isIdent])
  | more isIdent isComma _ ih => exact .cons (by simp [isIdent]) (.cons (by simp [isComma]) ih)

theorem Parameters.consumes {input rest : List Token} {idents : List Ident}
    (parameters : Parameters input idents rest) : Consumes input rest := by
  cases parameters with
  | none closes => exact .tail (by simp [closes])
  | some identifiers closes => exact identifiers.consumes.snoc (by simp [closes])

theorem Semicolon.consumes {input rest : List Token} (semicolon : Semicolon input rest) :
    Consumes input rest := by
  cases semicolon with
  | present isSemicolon => exact .tail (by simp [isSemicolon])
  | absent => exact .refl _

theorem Ending.consumes {input rest : List Token} (ending : Ending input rest) :
    Consumes input rest := by
  cases ending with
  | semicolon isSemicolon => exact .tail (by simp [isSemicolon])
  | greedy => exact .refl _

theorem noBrace_of_mem_operators {stratum : Stratum} {kind : Kind}
    (isOperator : kind ∈ stratum.operators) : kind ∉ [.lbrace, .rbrace] := by
  cases stratum <;> simp [Stratum.operators] at isOperator <;> grind

mutual

theorem Expression.consumes {stratum : Stratum} {nesting : Nat} {input rest : List Token}
    {expr : Expr} : Expression stratum nesting input expr rest → Consumes input rest
  | .tighter _ inner => inner.consumes
  | .binary isOperator _ leftOperand rightOperand =>
      (leftOperand.consumes.snoc (noBrace_of_mem_operators isOperator)).trans rightOperand.consumes
  | .unary isOperator operand => .cons (by grind) operand.consumes
  | .suffix isOperator operand => operand.consumes.snoc (by grind)
  | .call opens callee arguments =>
      (callee.consumes.snoc (by simp [opens])).trans arguments.consumes
  | .name isKind | .int isKind _ _ | .true isKind | .false isKind => .tail (by simp [isKind])
  | .group opens inner closes =>
      .cons (by simp [opens]) (inner.consumes.snoc (by simp [closes]))
  | .cond isIf opens condition closes branch =>
      .cons (by simp [isIf]) (.cons (by simp [opens])
        ((condition.consumes.snoc (by simp [closes])).trans branch.consumes))
  | .condElse isIf opens condition closes branch isElse elseBranch =>
      .cons (by simp [isIf]) (.cons (by simp [opens])
        ((condition.consumes.snoc (by simp [closes])).trans
          ((branch.consumes.snoc (by simp [isElse])).trans elseBranch.consumes)))
  | .function isFn opens parameters block =>
      .cons (by simp [isFn]) (.cons (by simp [opens]) (parameters.consumes.trans block.consumes))

theorem Expressions.consumes {nesting : Nat} {input rest : List Token} {exprs : List Expr} :
    Expressions nesting input exprs rest → Consumes input rest
  | .one expression => expression.consumes
  | .more expression isComma expressions =>
      (expression.consumes.snoc (by simp [isComma])).trans expressions.consumes

theorem Arguments.consumes {nesting : Nat} {input rest : List Token} {args : List Expr} :
    Arguments nesting input args rest → Consumes input rest
  | .none closes => .tail (by simp [closes])
  | .some expressions closes => expressions.consumes.snoc (by simp [closes])

theorem Statement.consumes {nesting : Nat} {input rest : List Token} {stmt : Stmt} :
    Statement nesting input stmt rest → Consumes input rest
  | .letBind isLet isIdent isAssign value ending =>
      .cons (by simp [isLet]) (.cons (by simp [isIdent]) (.cons (by simp [isAssign])
        (value.consumes.trans ending.consumes)))
  | .ret isReturn value ending =>
      .cons (by simp [isReturn]) (value.consumes.trans ending.consumes)
  | .expr expression ending => expression.consumes.trans ending.consumes
  | .block inner semicolon => inner.consumes.trans semicolon.consumes

theorem Statements.consumes {nesting : Nat} {input rest : List Token} {stmts : List Stmt} :
    Statements nesting input stmts rest → Consumes input rest
  | .nil => .refl _
  | .cons statement statements => statement.consumes.trans statements.consumes

theorem Block.consumes {nesting : Nat} {input rest : List Token} {block : Scriptlet.Block} :
    Block nesting input block rest → Consumes input rest
  | @Block.closed _ token close input _ _ opens statements closes => by
      have inside := statements.consumes
      have paired : braceExcess (close :: rest) = braceExcess input := inside.eq (by simp)
      rw [braceExcess_rbrace closes] at paired
      have whole : braceExcess rest = braceExcess (token :: input) := by
        rw [braceExcess_lbrace opens]
        omega
      have suffix : rest <:+ token :: input :=
        (List.suffix_cons close rest).trans (inside.suffix.trans (List.suffix_cons token input))
      exact ⟨suffix, by omega, fun _ => whole⟩
  | @Block.unclosed _ token input _ opens statements => by
      have le := statements.consumes.le
      refine ⟨List.nil_suffix, ?_, fun notEnd => absurd rfl notEnd⟩
      rw [braceExcess_lbrace opens]
      omega

end

/-! ## Further tokens behind a tree -/

theorem Identifiers.append {input rest : List Token} {idents : List Ident} (more : List Token)
    (identifiers : Identifiers input idents rest) :
    Identifiers (input ++ more) idents (rest ++ more) := by
  induction identifiers with
  | one isIdent => exact .one isIdent
  | more isIdent isComma _ ih => exact .more isIdent isComma ih

theorem Parameters.append {input rest : List Token} {idents : List Ident} (more : List Token)
    (parameters : Parameters input idents rest) :
    Parameters (input ++ more) idents (rest ++ more) := by
  cases parameters with
  | none closes => exact .none closes
  | some identifiers closes => exact .some (identifiers.append more) closes

theorem firstKind_append {rest : List Token} (notEnd : rest ≠ []) (more : List Token) :
    firstKind (rest ++ more) = firstKind rest := by
  cases rest with
  | nil => exact absurd rfl notEnd
  | cons token rest => rfl

theorem Ending.append {middle rest : List Token} (notEnd : rest ≠ []) (more : List Token)
    (ending : Ending middle rest) : Ending (middle ++ more) (rest ++ more) := by
  cases ending with
  | semicolon isSemicolon => exact .semicolon isSemicolon
  | greedy loose => exact .greedy (by rwa [firstKind_append notEnd])

theorem Ending.ne_nil {middle rest : List Token} (notEnd : rest ≠ []) (ending : Ending middle rest) :
    middle ≠ [] := by
  cases ending with
  | semicolon => simp
  | greedy => exact notEnd

theorem Semicolon.append {middle rest : List Token} (more : List Token)
    (semicolon : Semicolon middle rest) : Semicolon (middle ++ more) (rest ++ more) := by
  cases semicolon with
  | present isSemicolon => exact .present isSemicolon
  | absent => exact .absent

theorem Semicolon.ne_nil {middle rest : List Token} (notEnd : rest ≠ [])
    (semicolon : Semicolon middle rest) : middle ≠ [] := by
  cases semicolon with
  | present => simp
  | absent => exact notEnd

mutual

theorem Expression.append {stratum : Stratum} {nesting : Nat} {input rest : List Token}
    {expr : Expr} (notEnd : rest ≠ []) (more : List Token) :
    Expression stratum nesting input expr rest →
      Expression stratum nesting (input ++ more) expr (rest ++ more)
  | .tighter isNext inner => .tighter isNext (inner.append notEnd more)
  | .binary isOperator isNext leftOperand rightOperand =>
      .binary isOperator isNext (leftOperand.append (by simp) more)
        (rightOperand.append notEnd more)
  | .unary isOperator operand => .unary isOperator (operand.append notEnd more)
  | .suffix isOperator operand => .suffix isOperator (operand.append (by simp) more)
  | .call opens callee arguments =>
      .call opens (callee.append (by simp) more) (arguments.append more)
  | .name isIdent => .name isIdent
  | .int isInt denotes inRange => .int isInt denotes inRange
  | .true isKind => .true isKind
  | .false isKind => .false isKind
  | .group opens inner closes => .group opens (inner.append (by simp) more) closes
  | .cond isIf opens condition closes branch =>
      .cond isIf opens (condition.append (by simp) more) closes (branch.append notEnd more)
  | .condElse isIf opens condition closes branch isElse elseBranch =>
      .condElse isIf opens (condition.append (by simp) more) closes
        (branch.append (by simp) more) isElse (elseBranch.append notEnd more)
  | .function isFn opens parameters block =>
      .function isFn opens (parameters.append more) (block.append notEnd more)

theorem Expressions.append {nesting : Nat} {input rest : List Token} {exprs : List Expr}
    (notEnd : rest ≠ []) (more : List Token) :
    Expressions nesting input exprs rest → Expressions nesting (input ++ more) exprs (rest ++ more)
  | .one expression => .one (expression.append notEnd more)
  | .more expression isComma expressions =>
      .more (expression.append (by simp) more) isComma (expressions.append notEnd more)

theorem Arguments.append {nesting : Nat} {input rest : List Token} {args : List Expr}
    (more : List Token) :
    Arguments nesting input args rest → Arguments nesting (input ++ more) args (rest ++ more)
  | .none closes => .none closes
  | .some expressions closes => .some (expressions.append (by simp) more) closes

theorem Statement.append {nesting : Nat} {input rest : List Token} {stmt : Stmt}
    (notEnd : rest ≠ []) (more : List Token) :
    Statement nesting input stmt rest → Statement nesting (input ++ more) stmt (rest ++ more)
  | .letBind isLet isIdent isAssign value ending =>
      .letBind isLet isIdent isAssign (value.append (ending.ne_nil notEnd) more)
        (ending.append notEnd more)
  | .ret isReturn value ending =>
      .ret isReturn (value.append (ending.ne_nil notEnd) more) (ending.append notEnd more)
  | .expr expression ending =>
      .expr (expression.append (ending.ne_nil notEnd) more) (ending.append notEnd more)
  | .block inner semicolon =>
      .block (inner.append (semicolon.ne_nil notEnd) more) (semicolon.append more)

theorem Statements.append {nesting : Nat} {input rest : List Token} {stmts : List Stmt}
    (notEnd : rest ≠ []) (more : List Token) :
    Statements nesting input stmts rest → Statements nesting (input ++ more) stmts (rest ++ more)
  | .nil => .nil
  | .cons statement statements => by
      refine .cons (statement.append ?_ more) (statements.append notEnd more)
      rintro rfl
      exact notEnd (List.suffix_nil.1 statements.consumes.suffix)

theorem Block.append {nesting : Nat} {input rest : List Token} {block : Scriptlet.Block}
    (notEnd : rest ≠ []) (more : List Token) :
    Block nesting input block rest → Block nesting (input ++ more) block (rest ++ more)
  | .closed opens statements closes => .closed opens (statements.append (by simp) more) closes
  | .unclosed _ _ => absurd rfl notEnd

end

theorem Body.append {nesting : Nat} {input rest : List Token} {stmt : Stmt} (notEnd : rest ≠ [])
    (more : List Token) (body : Body nesting input stmt rest) :
    Body nesting (input ++ more) stmt (rest ++ more) := by
  cases body with
  | letBind isLet isIdent isAssign value =>
      exact .letBind isLet isIdent isAssign (value.append notEnd more)
  | ret isReturn value => exact .ret isReturn (value.append notEnd more)
  | expr expression => exact .expr (expression.append notEnd more)
  | block inner => exact .block (inner.append notEnd more)

/-! ## The last token -/

/-- The last token is a `;`. -/
def EndsInSemicolon (tokens : List Token) : Prop :=
  ∃ token, token.kind = .semicolon ∧ tokens.getLast? = some token

theorem EndsInSemicolon.of_suffix {input rest : List Token} (ends : EndsInSemicolon input)
    (suffix : rest <:+ input) (notEnd : rest ≠ []) : EndsInSemicolon rest := by
  rcases ends with ⟨token, isSemicolon, last⟩
  rcases suffix with ⟨front, rfl⟩
  rw [List.getLast?_append, List.getLast?_eq_some_getLast notEnd, Option.some_or] at last
  exact ⟨token, isSemicolon, by rw [List.getLast?_eq_some_getLast notEnd, last]⟩

theorem EndsInSemicolon.kind_eq {input : List Token} {token : Token} (ends : EndsInSemicolon input)
    (suffix : [token] <:+ input) : token.kind = .semicolon := by
  rcases ends.of_suffix suffix (by simp) with ⟨last, isSemicolon, last_eq⟩
  cases last_eq
  exact isSemicolon

theorem Expression.ne_nil {stratum : Stratum} {nesting : Nat} {input rest : List Token} {expr : Expr}
    (expression : Expression stratum nesting input expr rest) : input ≠ [] := by
  rintro rfl
  exact absurd expression.firstKind_mem (by decide)

theorem Block.ne_nil {nesting : Nat} {input rest : List Token} {block : Scriptlet.Block}
    (derived : Block nesting input block rest) : input ≠ [] := by
  rintro rfl
  exact absurd derived.firstKind_eq (by decide)

theorem Arguments.exists_close {nesting : Nat} {input rest : List Token} {args : List Expr}
    (arguments : Arguments nesting input args rest) :
    ∃ close, close.kind = .rparen ∧ close :: rest <:+ input := by
  cases arguments with
  | none closes => exact ⟨_, closes, List.suffix_refl _⟩
  | some expressions closes => exact ⟨_, closes, expressions.consumes.suffix⟩

/-- The last token is a `;` only if it lies inside a block that is still open at the end. -/
def Open (input : List Token) : Prop :=
  EndsInSemicolon input → 0 < braceExcess input

theorem Open.of_suffix {input : List Token} {token : Token} (suffix : [token] <:+ input)
    (other : token.kind ≠ .semicolon) : Open input :=
  fun ends => absurd (ends.kind_eq suffix) other

theorem Open.of_consumes {input middle : List Token} (isOpen : Open middle)
    (consumes : Consumes input middle) (notEnd : middle ≠ []) : Open input := by
  intro ends
  have pos := isOpen (ends.of_suffix consumes.suffix notEnd)
  rwa [consumes.eq notEnd] at pos

theorem Block.isOpen {nesting : Nat} {input rest : List Token} {block : Scriptlet.Block}
    (atEnd : rest = []) (derived : Block nesting input block rest) : Open input := by
  cases derived with
  | @closed _ token close input _ _ opens statements closes =>
      subst atEnd
      have suffix : [close] <:+ token :: input :=
        statements.consumes.suffix.trans (List.suffix_cons token input)
      exact .of_suffix suffix (by simp [closes])
  | unclosed opens statements =>
      intro _
      have le := statements.consumes.le
      rw [braceExcess_lbrace opens]
      simp at le
      omega

-- the derivation is followed along its right operands, where the end of the input is
theorem Expression.isOpen {stratum : Stratum} {nesting : Nat} {input rest : List Token}
    {expr : Expr} (atEnd : rest = []) : Expression stratum nesting input expr rest → Open input
  | .tighter _ inner => inner.isOpen atEnd
  | .binary isOperator _ leftOperand rightOperand =>
      (rightOperand.isOpen atEnd).of_consumes
        (leftOperand.consumes.snoc (noBrace_of_mem_operators isOperator)) rightOperand.ne_nil
  | .unary isOperator operand =>
      (operand.isOpen atEnd).of_consumes (.tail (by grind)) operand.ne_nil
  | .suffix isOperator operand =>
      .of_suffix (atEnd ▸ operand.consumes.suffix) (by grind)
  | .call opens callee arguments => by
      rcases arguments.exists_close with ⟨close, closes, suffix⟩
      have behind := (callee.consumes.snoc (by simp [opens])).suffix
      subst atEnd
      exact .of_suffix (suffix.trans behind) (by simp [closes])
  | .name isKind | .int isKind _ _ | .true isKind | .false isKind => by
      subst atEnd
      exact .of_suffix (List.suffix_refl _) (by simp [isKind])
  | @Expression.group _ token close input _ _ opens inner closes => by
      subst atEnd
      have suffix := inner.consumes.suffix.trans (List.suffix_cons token input)
      exact .of_suffix suffix (by simp [closes])
  | .cond isIf opens condition closes branch =>
      (branch.isOpen atEnd).of_consumes
        (.cons (by simp [isIf]) (.cons (by simp [opens]) (condition.consumes.snoc (by simp [closes]))))
        branch.ne_nil
  | .condElse isIf opens condition closes branch isElse elseBranch =>
      (elseBranch.isOpen atEnd).of_consumes
        (.cons (by simp [isIf]) (.cons (by simp [opens])
          ((condition.consumes.snoc (by simp [closes])).trans
            (branch.consumes.snoc (by simp [isElse])))))
        elseBranch.ne_nil
  | .function isFn opens parameters block =>
      (block.isOpen atEnd).of_consumes
        (.cons (by simp [isFn]) (.cons (by simp [opens]) parameters.consumes)) block.ne_nil

theorem Body.isOpen {nesting : Nat} {input : List Token} {stmt : Stmt}
    (body : Body nesting input stmt []) : Open input := by
  cases body with
  | letBind isLet isIdent isAssign value =>
      exact (value.isOpen rfl).of_consumes
        (.cons (by simp [isLet]) (.cons (by simp [isIdent]) (.tail (by simp [isAssign]))))
        value.ne_nil
  | ret isReturn value =>
      exact (value.isOpen rfl).of_consumes (.tail (by simp [isReturn])) value.ne_nil
  | expr expression => exact expression.isOpen rfl
  | block inner => exact inner.isOpen rfl

/-- With all braces closed, a `;` at the end of the input is the end of the last statement. -/
theorem Statement.exists_semicolon {nesting : Nat} {input : List Token} {stmt : Stmt}
    (statement : Statement nesting input stmt []) (ends : EndsInSemicolon input)
    (balanced : braceExcess input = 0) :
    ∃ token, token.kind = .semicolon ∧ Body nesting input stmt [token] := by
  rcases statement.exists_body with closed | ⟨body, _⟩
  · exact closed
  · have pos := body.isOpen ends
    omega

end Grammar

namespace Parser

open Grammar

variable {Item : Type} {close : Kind} {statement : OptionT Parser Item}

theorem run_statementsUntil_of_gives {tokens after : List Token} {item : Item}
    (notClosed : ¬(firstKind tokens = close ∨ firstKind tokens = .eof))
    (gives : Gives statement tokens item after) (read : Array Item) :
    (statementsUntil close statement read).run ⟨tokens, {}⟩ =
      (statementsUntil close statement (read.push item)).run ⟨after.tail, {}⟩ := by
  have goesOn : ¬((Cursor.mk tokens {}).current.kind = close ∨
      (Cursor.mk tokens {}).current.kind = .eof) := notClosed
  rw [run_statementsUntil_of_not_closed goesOn,
    show statement.run.run ⟨tokens, {}⟩ = (some item, ⟨after, {}⟩) from gives]
  rfl

/-- What has been read before is put in front and has no other effect. -/
theorem run_statementsUntil_read (read : Array Item) (start : Cursor) :
    (statementsUntil close statement read).run start =
      (read ++ ((statementsUntil close statement #[]).run start).1,
        ((statementsUntil close statement #[]).run start).2) := by
  by_cases closed : start.current.kind = close ∨ start.current.kind = .eof
  · simp [run_statementsUntil_of_closed closed]
  · have shorter : (statement.run.run start).2.advance.tokens.length < start.tokens.length := by
      have nonempty := List.length_pos_iff.2 (Cursor.tokens_ne_nil_of_current (not_or.1 closed).2)
      have bound := (leadsTo_run statement.run start).tokens.length_le
      simp only [Cursor.advance, List.length_tail]
      omega
    rw [run_statementsUntil_of_not_closed closed, run_statementsUntil_of_not_closed closed,
      run_statementsUntil_read _ (statement.run.run start).2.advance]
    rw [run_statementsUntil_read ((statement.run.run start).1.elim #[] (#[].push ·)) _]
    cases (statement.run.run start).1 <;> simp
termination_by start.tokens.length

variable {room nesting : Nat}

theorem gives_statement_of_body {tokens rest : List Token} {stmt : Stmt} {token : Token}
    (within : nesting ≤ room) (isSemicolon : token.kind = .semicolon)
    (body : Body nesting tokens stmt (token :: rest)) :
    Gives (Level.inside room).statement tokens stmt (token :: rest) := by
  cases room with
  | zero => cases body <;> omega
  | succ room =>
      exact statementWith_complete_semicolon (Level.complete_inside room) within isSemicolon body

/-- A statement of the first source is read as before. If it is the last one, then its `;` shields
it from what follows. -/
theorem gives_statement_append {others : Nat} {tokens middle : List Token} {stmt : Stmt}
    {stmts : List Stmt} (within : nesting ≤ room) (derived : Statement nesting tokens stmt middle)
    (statements : Statements others middle stmts []) (ends : EndsInSemicolon tokens)
    (balanced : braceExcess tokens = 0) (more : List Token) :
    ∃ after, after.tail = middle ++ more ∧
      Gives (Level.inside room).statement (tokens ++ more) stmt after := by
  cases statements with
  | nil =>
      rcases derived.exists_semicolon ends balanced with ⟨token, isSemicolon, body⟩
      exact ⟨token :: more, rfl,
        gives_statement_of_body within isSemicolon (body.append (by simp) more)⟩
  | cons next _ =>
      have starts := next.firstKind_mem
      have notEnd : middle ≠ [] := by
        rintro rfl
        exact absurd starts (by decide)
      have follows : firstKind (middle ++ more) ∉ [.semicolon, .kwElse] := by
        rw [firstKind_append notEnd]
        revert starts
        cases firstKind middle <;> decide
      exact (Level.complete_inside room).statement within (derived.append notEnd more) follows

/-- Reading goes through the statements of the first source and on with what follows. -/
theorem run_statementsUntil_append {nesting : Nat} {tokens rest : List Token} {stmts : List Stmt}
    (atEnd : rest = []) (within : nesting ≤ room) (ends : tokens ≠ [] → EndsInSemicolon tokens)
    (balanced : braceExcess tokens = 0) (more : List Token) (read : Array Stmt) :
    Statements nesting tokens stmts rest →
      (statementsUntil .eof (Level.inside room).statement read).run ⟨tokens ++ more, {}⟩ =
        (statementsUntil .eof (Level.inside room).statement (read ++ stmts.toArray)).run ⟨more, {}⟩
  | .nil => by simp [atEnd]
  | @Statements.cons nesting others _ middle _ stmt stmts derived statements => by
      subst atEnd
      have stmtWithin : nesting ≤ room := by omega
      have starts := derived.firstKind_mem
      have tokens_ne : tokens ≠ [] := by
        rintro rfl
        exact absurd starts (by decide)
      have notClosed : ¬(firstKind (tokens ++ more) = .eof ∨ firstKind (tokens ++ more) = .eof) := by
        rw [firstKind_append tokens_ne, or_self]
        intro isEnd
        rw [isEnd] at starts
        exact absurd starts (by decide)
      have middleEnds : middle ≠ [] → EndsInSemicolon middle :=
        fun notEnd => (ends tokens_ne).of_suffix derived.consumes.suffix notEnd
      have middleBalanced : braceExcess middle = 0 := by
        by_cases notEnd : middle = []
        · simp [notEnd]
        · rw [derived.consumes.eq notEnd, balanced]
      rcases gives_statement_append stmtWithin derived statements (ends tokens_ne) balanced more with
        ⟨after, after_eq, gives⟩
      rw [run_statementsUntil_of_gives notClosed gives, after_eq,
        run_statementsUntil_append rfl (by omega) middleEnds middleBalanced more _ statements]
      simp

end Parser

/-- A source that is over is read in front of another one as it is read alone, and so is the other
one behind it. -/
theorem Program.read_append {first second : String} {program : Program}
    (read : Program.read first = (program, .empty))
    (ends : Grammar.EndsInSemicolon (tokenize first))
    (balanced : braceExcess (tokenize first) = 0) :
    Program.read (first ++ second) =
      (⟨program.statements ++ (Program.read second).1.statements⟩, (Program.read second).2) := by
  have opened : ∀ source, Program.read source =
      (⟨((Parser.statementsUntil .eof Parser.statement #[]).run (.ofSource source)).1.toList⟩,
        ((Parser.statementsUntil .eof Parser.statement #[]).run (.ofSource source)).2.report) :=
    fun _ => rfl
  have split : tokenize (first ++ second) = tokenize first ++ tokenize second := by
    apply tokenize_append
    intro last isLast char
    rcases ends with ⟨token, isSemicolon, last_eq⟩
    cases isLast.symm.trans last_eq
    simp [isSemicolon, Kind.joins]
  rcases derives_of_read read with ⟨nesting, within, derived⟩
  have resumed := Parser.run_statementsUntil_append rfl within (fun _ => ends) balanced
    (tokenize second) #[] derived
  rw [Parser.run_statementsUntil_read (#[] ++ program.statements.toArray)] at resumed
  rw [opened (first ++ second), opened second, Cursor.ofSource, split, Parser.statement, resumed]
  simp [Cursor.ofSource]

end Scriptlet
