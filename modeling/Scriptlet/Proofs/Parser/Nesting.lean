import Scriptlet.Proofs.Parser.Course
import Scriptlet.Proofs.Parser.Termination

/-!
# The nesting limit bounds every tree

The counter of open levels and the depth of the finished tree are two different things. The counter
goes up and down while something is read, and only a tree that was read to its end is left. What
lies to the left of an operator is read before the operator is known, so it is on the same level and
does not add to the nesting of the tree; what lies to its right does.

That the counter stays within the limit is said with a reader that looks after it: it breaks off,
and has no result at all, as soon as it has changed the counter to something above the limit. This
reader has the same answers as the one that does not look.
-/

namespace Scriptlet

/-! ## Nesting of trees -/

mutual

/-- How many levels an expression takes. -/
def Expr.nesting : Expr → Nat
  | .name _ | .int _ _ | .bool _ _ => 1
  | .unary _ operand => 1 + operand.nesting
  | .binary _ left right => max left.nesting (1 + right.nesting)
  | .suffix _ operand => operand.nesting
  | .cond _ test consequence none => 1 + max test.nesting consequence.nesting
  | .cond _ test consequence (some alternative) =>
      1 + max test.nesting (max consequence.nesting alternative.nesting)
  | .function _ _ body => 1 + body.nesting
  | .call _ callee args => max callee.nesting (1 + nestingOfExprs args)
termination_by structural expr => expr

def nestingOfExprs : List Expr → Nat
  | [] => 0
  | expr :: exprs => max expr.nesting (nestingOfExprs exprs)
termination_by structural exprs => exprs

/-- How many levels a statement takes. -/
def Stmt.nesting : Stmt → Nat
  | .letBind _ _ value | .ret _ value | .expr _ value => 1 + value.nesting
  | .block block => 1 + block.nesting
termination_by structural stmt => stmt

def nestingOfStmts : List Stmt → Nat
  | [] => 0
  | stmt :: stmts => max stmt.nesting (nestingOfStmts stmts)
termination_by structural stmts => stmts

/-- How many levels the statements of a block take. -/
def Block.nesting : Block → Nat
  | .mk _ statements => nestingOfStmts statements
termination_by structural block => block

end

theorem nestingOfExprs_le_iff {exprs : List Expr} {room : Nat} :
    nestingOfExprs exprs ≤ room ↔ ∀ expr ∈ exprs, expr.nesting ≤ room := by
  induction exprs with
  | nil => simp [nestingOfExprs]
  | cons expr exprs ih => rw [nestingOfExprs, Nat.max_le, ih, List.forall_mem_cons]

theorem nestingOfStmts_le_iff {stmts : List Stmt} {room : Nat} :
    nestingOfStmts stmts ≤ room ↔ ∀ stmt ∈ stmts, stmt.nesting ≤ room := by
  induction stmts with
  | nil => simp [nestingOfStmts]
  | cons stmt stmts ih => rw [nestingOfStmts, Nat.max_le, ih, List.forall_mem_cons]

section Built

variable {transcript : Transcript}

mutual

/-- What is built with some levels takes no more than these. -/
theorem Expr.Built.nesting_le {room : Nat} {expr : Expr} :
    expr.Built transcript room → expr.nesting ≤ room
  | .name _ | .int _ _ | .bool _ _ => by
      simp only [Expr.nesting]
      omega
  | .unary _ inner => by
      have operand := inner.nesting_le
      simp only [Expr.nesting]
      omega
  | .binary _ leftOperand rightOperand => by
      have left := leftOperand.nesting_le
      have right := rightOperand.nesting_le
      simp only [Expr.nesting]
      omega
  | .suffix _ inner => by
      simp only [Expr.nesting]
      exact inner.nesting_le
  | .group inner => Nat.le_succ_of_le inner.nesting_le
  | @Expr.Built.cond _ _ _ _ _ none _ condition branch _ => by
      have test := condition.nesting_le
      have consequence := branch.nesting_le
      simp only [Expr.nesting]
      omega
  | @Expr.Built.cond _ _ _ _ _ (some alternative) _ condition branch elseBranch => by
      have test := condition.nesting_le
      have consequence := branch.nesting_le
      have other := (elseBranch alternative rfl).nesting_le
      simp only [Expr.nesting]
      omega
  | .function _ _ block => by
      have body := block.nesting_le
      simp only [Expr.nesting]
      omega
  | .call _ function arguments => by
      have callee := function.nesting_le
      have args := nestingOfExprs_le_iff.2 fun arg arg_mem => (arguments arg arg_mem).nesting_le
      simp only [Expr.nesting]
      omega

theorem Stmt.Built.nesting_le {room : Nat} {stmt : Stmt} :
    stmt.Built transcript room → stmt.nesting ≤ room
  | .letBind _ _ value | .ret _ value | .expr _ value => by
      have inner := value.nesting_le
      simp only [Stmt.nesting]
      omega
  | .block inner => by
      have block := inner.nesting_le
      simp only [Stmt.nesting]
      omega

theorem Block.Built.nesting_le {room : Nat} {block : Block} :
    block.Built transcript room → block.nesting ≤ room
  | .mk _ statements => by
      simp only [Block.nesting]
      exact nestingOfStmts_le_iff.2 fun stmt stmt_mem => (statements stmt stmt_mem).nesting_le

end

end Built

/-! ## The counter of levels -/

/-- Changes the counter of open levels. There is no result if it is above `limit` then. -/
def Run.count (limit : Nat) (change : Nat → Nat) : Run Unit := do
  modify fun window => { window with depth := change window.depth }
  if limit < (← get).depth then
    failure

namespace Routines

open Run

variable {Result : Type}

/-- Reads one level deeper as `nested` does, and looks after the counter. -/
def nestedWithin (again : Routines) (limit : Nat) (read : OptionT Run Result) :
    OptionT Run Result := OptionT.mk do
  if nestingLimit ≤ (← get).depth then
    report .tooDeep
    again.skip
    return none
  else
    count limit (· + 1)
    let result ← read.run
    count limit (· - 1)
    return result

/-- The text of the routines as in `unroll`, where the counter is looked after. -/
def unrollWithin (again : Routines) (limit : Nat) : Routines :=
  { again.unroll with
    expression := fun precedence =>
      again.nestedWithin limit do again.continuations precedence (← again.operand)
    statement := again.nestedWithin limit again.body }

/-- The routines with a number of rounds, which break off with more than `limit` levels open. -/
def unrolledWithin (limit : Nat) : Nat → Routines
  | 0 => idle
  | rounds + 1 => (unrolledWithin limit rounds).unrollWithin limit

section Mirroring

variable {again : Routines} {source : String} {depth limit room rounds : Nat}
  {read : OptionT Run Result} {parser : OptionT Parser Result}

theorem run_nestedWithin_of_full (full : nestingLimit ≤ depth) (cursor : Cursor) :
    (again.nestedWithin nestingLimit read).run.run (cursor.window source depth) =
      (again.nested read).run.run (cursor.window source depth) := by
  rw [run_nested, if_pos full]
  change (if nestingLimit ≤ depth then _ else _ : Run (Option Result)).run _ = _
  rw [if_pos full]

theorem run_count {change : Nat → Nat} (fits : change depth ≤ nestingLimit) (cursor : Cursor) :
    (count nestingLimit change).run (cursor.window source depth) =
      some ((), cursor.window source (change depth)) := by
  change (if nestingLimit < change depth then failure else pure () : Run Unit).run
    (cursor.window source (change depth)) = _
  rw [if_neg (Nat.not_lt.2 fits)]
  rfl

/-- The counter was below the limit, so it is not above it when it has gone up. -/
theorem mirrors_nestedWithin (hasRoom : depth < nestingLimit)
    (inner : Mirrors read.run parser.run source (depth + 1) limit) :
    Mirrors (again.nestedWithin nestingLimit read).run parser.run source depth limit := by
  constructor
  intro cursor inSource short
  change (if nestingLimit ≤ depth then _ else count nestingLimit (· + 1) >>= fun _ =>
    read.run >>= fun result => count nestingLimit (· - 1) >>= fun _ => pure result :
      Run (Option Result)).run (cursor.window source depth) = _
  rw [if_neg (Nat.not_le.2 hasRoom), StateT.run_bind, run_count hasRoom]
  change (read.run.run (cursor.window source (depth + 1))).bind _ = _
  rw [inner.ends inSource short]
  change ((count nestingLimit (· - 1)).run
    ((parser.run.run cursor).2.window source (depth + 1))).bind _ = _
  rw [run_count (Nat.le_of_lt hasRoom)]
  rfl

theorem mirrors_nestedWithin_tooDeep (full : nestingLimit ≤ depth)
    (skip : again.skip.Mirrors Parser.skipStatement source depth limit) :
    Mirrors (again.nestedWithin nestingLimit read).run (Parser.tooDeep : OptionT Parser Result).run
      source depth limit := by
  constructor
  intro cursor inSource short
  rw [run_nestedWithin_of_full full]
  exact (mirrors_nested_tooDeep full skip).ends inSource short

end Mirroring

section Finishes

variable {again : Routines} {source : String} {depth limit room rounds : Nat}
  (finishes : again.Finishes source rounds)

include finishes

theorem mirrors_expressionWithin (onLevel : depth + room = nestingLimit)
    (enough : limit + 2 * room + 1 < rounds + 1) (precedence : Precedence) :
    Mirrors ((again.unrollWithin nestingLimit).expression precedence).run
      ((Level.inside room).expression precedence).run source depth limit := by
  cases room with
  | zero => exact mirrors_nestedWithin_tooDeep (by omega) (finishes.skip (by omega))
  | succ room =>
      have ready : again.Ready (Level.inside room) source (depth + 1) limit :=
        finishes.ready (by omega) (by omega)
      apply mirrors_nestedWithin (by omega)
      exact mirrors_bindOption (mirrors_operand ready) (ready.continuations precedence)

theorem mirrors_statementWithin (onLevel : depth + room = nestingLimit)
    (enough : limit + 2 * room + 1 < rounds + 1) :
    Mirrors (again.unrollWithin nestingLimit).statement.run (Level.inside room).statement.run source
      depth limit := by
  cases room with
  | zero => exact mirrors_nestedWithin_tooDeep (by omega) (finishes.skip (by omega))
  | succ room =>
      have ready : again.Ready (Level.inside room) source (depth + 1) limit :=
        finishes.ready (by omega) (by omega)
      exact mirrors_nestedWithin (by omega) (mirrors_body ready)

/-- Only the two routines that open a level differ from those of `unroll`. -/
theorem finishes_unrollWithin :
    (again.unrollWithin nestingLimit).Finishes source (rounds + 1) := by
  have unroll := finishes_unroll finishes
  constructor
  · intro depth limit enough
    exact unroll.skip enough
  · intro room depth limit onLevel enough
    exact mirrors_expressionWithin finishes onLevel enough
  · intro room depth limit onLevel enough
    exact mirrors_statementWithin finishes onLevel enough
  · intro room depth limit onLevel enough
    -- a loop does not open a level, so it goes on with the routines it had before
    have ready := unroll.ready onLevel enough
    exact {
      skip := ready.skip
      expression := mirrors_expressionWithin finishes onLevel (by omega)
      continuations := ready.continuations
      parameters := ready.parameters
      arguments := ready.arguments
      statements := ready.statements }

end Finishes

theorem finishes_unrolledWithin (source : String) (rounds : Nat) :
    (unrolledWithin nestingLimit rounds).Finishes source rounds := by
  induction rounds with
  | zero => exact finishes_unrolled source 0
  | succ rounds ih => exact finishes_unrollWithin ih

end Routines

namespace Call

open Run

/-- The call to given routines. -/
def performBy (routines : Routines) : Call → Run Answer
  | program => return .program ⟨(← routines.statements .eof #[]).toList⟩
  | statement => return .statement (← routines.statement.run)
  | block => return .block (← routines.block)
  | expression precedence => return .expression (← (routines.expression precedence).run)

theorem performBy_unrolled (call : Call) (rounds : Nat) :
    call.performBy (Routines.unrolled rounds) = call.perform rounds := by
  cases call <;> rfl

/-- On a cursor in the source, routines with enough rounds answer as the parser does. -/
theorem run_performBy {routines : Routines} {source : String} {rounds : Nat}
    (finishes : routines.Finishes source rounds) (call : Call) {cursor : Cursor}
    (inSource : cursor.tokens <:+ tokenize source)
    (enough : cursor.tokens.length + 2 * nestingLimit + 2 < rounds) :
    (call.performBy routines).run (cursor.window source 0) =
      some ((call.parser.run cursor).1, (call.parser.run cursor).2.window source 0) := by
  have ready := finishes.ready (Nat.zero_add nestingLimit) enough
  have mirrors : (call.performBy routines).Mirrors (call.within (Level.inside nestingLimit)) source
      0 cursor.tokens.length := by
    cases call with
    | program => exact mirrors_bind (ready.statements .eof #[]) fun _ => mirrors_pure _
    | statement =>
        exact mirrors_bind (finishes.statement (Nat.zero_add _) (by omega)) fun _ => mirrors_pure _
    | block => exact mirrors_bind (Routines.mirrors_block ready) fun _ => mirrors_pure _
    | expression precedence =>
        exact mirrors_bind (ready.expression precedence) fun _ => mirrors_pure _
  rw [← call.within_inside]
  exact mirrors.ends inSource (Nat.le_refl _)

/-- A program takes no more levels than there are, wherever its reading began. -/
theorem nesting_le_of_program {source : String} {cursor : Cursor} {program : Program}
    (inSource : cursor.tokens <:+ tokenize source)
    (answered : (Call.program.parser.run cursor).1 = .program program) :
    ∀ stmt ∈ program.statements, stmt.nesting ≤ nestingLimit := by
  intro stmt stmt_mem
  have conforms := Level.conforms_inside
    ⟨tokenize source, (Parser.program.run cursor).2.report.toList⟩ nestingLimit
  have course := Parser.course_statementsUntil conforms.statement #[] cursor.stepBack (by simp)
    ⟨inSource, List.Subset.refl _⟩
  have program_eq : (Parser.program.run cursor).1 = program := Answer.program.inj answered
  rw [← program_eq] at stmt_mem
  exact (course.2.2 stmt (Array.mem_toList_iff.1 stmt_mem)).nesting_le

end Call

namespace Window

variable {source : String} {window : Window}

/-- Between calls no level is open. During a call never more than `nestingLimit` levels are, however
it ends: the reader that breaks off with more of them open gives the same answers. So no statement
of a program takes more levels than that, whatever was reported. -/
theorem Reached.levels_limited (reached : window.Reached source) :
    window.depth = 0 ∧
    (∀ call : Call, ∃ answer after,
      (∀ rounds, window.unread.length + 2 * nestingLimit + 2 < rounds →
        (call.perform rounds).run window = some (answer, after) ∧
        (call.performBy (Routines.unrolledWithin nestingLimit rounds)).run window =
          some (answer, after)) ∧
      after.depth = 0 ∧
      ∀ program, answer = .program program →
        ∀ stmt ∈ program.statements, stmt.nesting ≤ nestingLimit) ∧
    ∀ stmt ∈ (Program.read source).1.statements, stmt.nesting ≤ nestingLimit := by
  rcases reached.exists_cursor with ⟨cursor, inSource, rfl⟩
  rw [unread_window inSource]
  refine ⟨rfl, ?_, ?_⟩
  · intro call
    refine ⟨(call.parser.run cursor).1, (call.parser.run cursor).2.window source 0, ?_, rfl, ?_⟩
    · intro rounds enough
      rw [← call.performBy_unrolled]
      exact ⟨Call.run_performBy (Routines.finishes_unrolled source rounds) call inSource enough,
        Call.run_performBy (Routines.finishes_unrolledWithin source rounds) call inSource enough⟩
    · intro program answered
      cases call with
      | program => exact Call.nesting_le_of_program inSource answered
      | statement | block | expression => cases answered
  · exact Call.nesting_le_of_program (List.suffix_refl _) rfl

/-- Seven levels are open inside the first branch, so the reader that allows six breaks off there.
The second branch is reported and left out. -/
theorem levels_limited_branches :
    let source := "if (a) \x7b f(1 + !b, -c) \x7d else \x7b let 5 \x7d"
    (Program.read source).1.statements.map Stmt.nesting = [7] ∧
    (Program.read source).2.toList.map Diagnostic.message = ["expect IDENT, got INT"] ∧
    (∃ answer after,
      (Call.program.perform 600).run (start source) = some (answer, after) ∧
      (Call.program.performBy (Routines.unrolledWithin nestingLimit 600)).run (start source) =
        some (answer, after) ∧
      after.depth = 0) ∧
    ((Call.program.performBy (Routines.unrolledWithin 6 600)).run (start source)).isNone := by
  intro source
  have started : (start source).Reached source := .start
  rcases started.levels_limited with ⟨_, calls, _⟩
  rcases calls .program with ⟨answer, after, ends, closed, _⟩
  rcases ends 600 (by decide +kernel) with ⟨plain, within⟩
  exact ⟨by decide +kernel, by decide +kernel, ⟨answer, after, plain, within, closed⟩,
    by decide +kernel⟩

end Window

end Scriptlet
