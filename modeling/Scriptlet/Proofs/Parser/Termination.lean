import Scriptlet.Proofs.Parser.Mirroring

/-!
# Reading comes to an end

A reader that looks through a window and repeats its loops until they are over does the same as the
parsers, after a number of rounds that is known in advance. Each call inside another one either has
fewer tokens left or less room below the nesting limit, so the tokens that are left and twice the
room are enough, with a few rounds to spare. Behind the end of the input no tokens are left, and
only the room counts.
-/

namespace Scriptlet

namespace Routines

open Run

variable {again : Routines} {inside : Level} {source : String} {depth limit : Nat}

theorem mirrors_skip
    (repeated : ∀ fewer, fewer < limit →
      again.skip.Mirrors Parser.skipStatement source depth fewer) :
    again.unroll.skip.Mirrors Parser.skipStatement source depth limit := by
  constructor
  rintro ⟨tokens, report⟩ inSource short
  have opened : again.unroll.skip.run (Cursor.window ⟨tokens, report⟩ source depth) =
      (if (tokens.headD .eof).kind ∈ [.semicolon, .eof] ∨
          (tokens.tail.headD .eof).kind ∈ [.rbrace, .kwLet, .kwReturn] then
        (pure () : Run Unit)
      else next >>= fun _ => again.skip).run (Cursor.window ⟨tokens, report⟩ source depth) := rfl
  have skipped : Parser.skipStatement.run ⟨tokens, report⟩ =
      ((), ⟨Cursor.skipTokens tokens, report⟩) := rfl
  rw [opened, skipped]
  cases tokens with
  | nil => rfl
  | cons token rest =>
      rw [Cursor.skipTokens, List.headD_cons, List.tail_cons]
      split
      · rfl
      · have moved : (Cursor.window ⟨token :: rest, report⟩ source depth).next =
            Cursor.window ⟨rest, report⟩ source depth := window_next inSource
        have onward := (List.suffix_cons token rest).trans inSource
        exact (congrArg again.skip.run moved).trans
          ((repeated rest.length short).ends onward (Nat.le_refl _))

theorem mirrors_statements {close : Kind}
    (statement : Mirrors again.statement.run inside.statement.run source depth limit)
    (repeated : ∀ fewer, fewer < limit → ∀ read, (again.statements close read).Mirrors
      (Parser.statementsUntil close inside.statement read) source depth fewer)
    (read : Array Stmt) :
    (again.unroll.statements close read).Mirrors
      (Parser.statementsUntil close inside.statement read) source depth limit := by
  constructor
  intro cursor inSource short
  have opened : (again.unroll.statements close read).run (cursor.window source depth) =
      (if cursor.current.kind = close ∨ cursor.current.kind = .eof then
        (pure read : Run (Array Stmt))
      else
        again.statement.run >>= fun result => next >>= fun _ =>
          again.statements close (result.elim read read.push)).run
            (cursor.window source depth) := rfl
  rw [opened]
  by_cases closed : cursor.current.kind = close ∨ cursor.current.kind = .eof
  · rw [if_pos closed, Parser.run_statementsUntil_of_closed closed]
    rfl
  · have shorter := Nat.lt_of_lt_of_le
      (Parser.length_advance_run_lt inside.statement.run (not_or.1 closed).2) short
    have moved := (Parser.leadsTo_run inside.statement.run cursor).tokens.trans inSource
    have onward := (Cursor.leadsTo_advance (inside.statement.run.run cursor).2).tokens.trans moved
    rw [if_neg closed, Parser.run_statementsUntil_of_not_closed closed, StateT.run_bind,
      statement.ends inSource short]
    exact (congrArg _ (window_next moved)).trans
      ((repeated _ shorter _).ends onward (Nat.le_refl _))

section Nested

variable {Result : Type} {read : OptionT Run Result}

theorem run_nested (read : OptionT Run Result) (cursor : Cursor) :
    (again.nested read).run.run (cursor.window source depth) =
      (if nestingLimit ≤ depth then
        report .tooDeep >>= fun _ => again.skip >>= fun _ => pure none
      else
        modify (fun window => { window with depth := window.depth + 1 }) >>= fun _ =>
          read.run >>= fun result =>
            modify (fun window => { window with depth := window.depth - 1 }) >>= fun _ =>
              pure result : Run (Option Result)).run (cursor.window source depth) :=
  rfl

theorem mirrors_nested {parser : OptionT Parser Result} (hasRoom : depth < nestingLimit)
    (inner : Mirrors read.run parser.run source (depth + 1) limit) :
    Mirrors (again.nested read).run parser.run source depth limit := by
  constructor
  intro cursor inSource short
  rw [run_nested, if_neg (Nat.not_le.2 hasRoom)]
  change (read.run.run (cursor.window source (depth + 1))).bind _ = _
  rw [inner.ends inSource short]
  rfl

theorem mirrors_nested_tooDeep (full : nestingLimit ≤ depth)
    (skip : again.skip.Mirrors Parser.skipStatement source depth limit) :
    Mirrors (again.nested read).run (Parser.tooDeep : OptionT Parser Result).run source depth
      limit := by
  have given : Mirrors
      (report .tooDeep >>= fun _ => again.skip >>= fun _ => (pure none : Run (Option Result)))
      (Parser.tooDeep : OptionT Parser Result).run source depth limit :=
    mirrors_bind (mirrors_report _) fun _ => mirrors_bind skip fun _ => mirrors_pure none
  constructor
  intro cursor inSource short
  rw [run_nested, if_pos full]
  exact given.ends inSource short

end Nested

/-- All that can be called is over on up to `limit` tokens and does what the parsers of the level
do. -/
structure Ready (again : Routines) (inside : Level) (source : String) (depth limit : Nat) :
    Prop where
  skip : again.skip.Mirrors Parser.skipStatement source depth limit
  expression : ∀ precedence,
    Mirrors (again.expression precedence).run (inside.expression precedence).run source depth limit
  continuations : ∀ precedence left, Mirrors (again.continuations precedence left).run
    (Parser.whileNext (Parser.tighter? precedence) (Parser.tighter?_eof precedence)
      (Parser.continuation inside) left).run source depth limit
  parameters : ∀ params, Mirrors (again.parameters params).run
    (Parser.whileNext Parser.comma? Parser.comma?_eof (fun _ params => do
      Parser.expect .ident
      return params.push (← Parser.identifier)) params).run source depth limit
  arguments : ∀ args, Mirrors (again.arguments args).run
    (Parser.whileNext Parser.comma? Parser.comma?_eof (fun _ args => do
      Parser.advance
      return args.push (← inside.expression .lowest)) args).run source depth limit
  statements : ∀ close read, (again.statements close read).Mirrors
    (Parser.statementsUntil close inside.statement read) source depth limit

section Ready

variable (ready : again.Ready inside source depth limit)

include ready

theorem mirrors_block : again.block.Mirrors (Parser.block inside) source depth limit := by
  apply mirrors_bind mirrors_current
  intro token
  apply mirrors_bind mirrors_next
  intro _
  exact mirrors_bind (ready.statements _ _) fun _ => mirrors_pure _

theorem mirrors_allParameters :
    Mirrors again.allParameters.run Parser.parameters.run source depth limit := by
  apply mirrors_bindOption (mirrors_lift mirrors_peekKind)
  intro kind
  split
  · exact mirrors_bindOption (mirrors_lift mirrors_next) fun _ => mirrors_pure _
  · apply mirrors_bindOption (mirrors_expect _)
    intro _
    apply mirrors_bindOption (mirrors_lift mirrors_identifier)
    intro first
    apply mirrors_bindOption (ready.parameters _)
    intro params
    exact mirrors_bindOption (mirrors_expect _) fun _ => mirrors_pure _

theorem mirrors_allArguments :
    Mirrors again.allArguments.run (Parser.arguments inside).run source depth limit := by
  apply mirrors_bindOption (mirrors_lift mirrors_peekKind)
  intro kind
  split
  · exact mirrors_bindOption (mirrors_lift mirrors_next) fun _ => mirrors_pure _
  · apply mirrors_bindOption (mirrors_lift mirrors_next)
    intro _
    apply mirrors_bindOption (ready.expression _)
    intro first
    apply mirrors_bindOption (ready.arguments _)
    intro args
    exact mirrors_bindOption (mirrors_expect _) fun _ => mirrors_pure _

theorem mirrors_alternative :
    Mirrors again.alternative.run (Parser.alternative inside).run source depth limit := by
  apply mirrors_bindOption (mirrors_lift mirrors_peekKind)
  intro kind
  split
  · apply mirrors_bindOption (mirrors_lift mirrors_next)
    intro _
    apply mirrors_bindOption (mirrors_expect _)
    intro _
    exact mirrors_bindOption (mirrors_lift (mirrors_block ready)) fun _ => mirrors_pure _
  · exact mirrors_pure _

theorem mirrors_operand :
    Mirrors again.operand.run (Parser.operand inside).run source depth limit := by
  apply mirrors_bindOption (mirrors_lift mirrors_current)
  rintro ⟨kind, literal⟩
  cases kind with
  | ident => exact mirrors_pure _
  | int => exact mirrors_lift (mirrors_integer _)
  | kwTrue => exact mirrors_pure _
  | kwFalse => exact mirrors_pure _
  | bang | minus =>
      apply mirrors_bindOption (mirrors_lift mirrors_next)
      intro _
      exact mirrors_bindOption (ready.expression _) fun _ => mirrors_pure _
  | lparen =>
      apply mirrors_bindOption (mirrors_lift mirrors_next)
      intro _
      apply mirrors_bindOption (ready.expression _)
      intro expr
      exact mirrors_bindOption (mirrors_expect _) fun _ => mirrors_pure _
  | kwIf =>
      apply mirrors_bindOption (mirrors_expect _)
      intro _
      apply mirrors_bindOption (mirrors_lift mirrors_next)
      intro _
      apply mirrors_bindOption (ready.expression _)
      intro test
      apply mirrors_bindOption (mirrors_expect _)
      intro _
      apply mirrors_bindOption (mirrors_expect _)
      intro _
      apply mirrors_bindOption (mirrors_lift (mirrors_block ready))
      intro consequence
      exact mirrors_bindOption (mirrors_alternative ready) fun _ => mirrors_pure _
  | kwFn =>
      apply mirrors_bindOption (mirrors_expect _)
      intro _
      apply mirrors_bindOption (mirrors_allParameters ready)
      intro params
      apply mirrors_bindOption (mirrors_expect _)
      intro _
      exact mirrors_bindOption (mirrors_lift (mirrors_block ready)) fun _ => mirrors_pure _
  | _ => exact mirrors_bindOption (mirrors_lift (mirrors_report _)) fun _ => mirrors_failure

theorem mirrors_continuation (kind : Continuation) (left : Expr) :
    Mirrors (again.continuation kind left).run (Parser.continuation inside kind left).run source
      depth limit := by
  apply mirrors_bindOption (mirrors_lift mirrors_current)
  intro token
  cases kind with
  | binary precedence =>
      apply mirrors_bindOption (mirrors_lift mirrors_next)
      intro _
      exact mirrors_bindOption (ready.expression _) fun _ => mirrors_pure _
  | suffix => exact mirrors_pure _
  | call => exact mirrors_bindOption (mirrors_allArguments ready) fun _ => mirrors_pure _

theorem mirrors_closedExpression :
    Mirrors again.closedExpression.run (Parser.closedExpression inside).run source depth limit := by
  apply mirrors_bind (ready.expression _)
  intro expr
  exact mirrors_bind mirrors_eatSemicolon fun _ => mirrors_pure _

theorem mirrors_expectInStatement (wanted : Kind) :
    Mirrors (again.expectInStatement wanted).run (Parser.expectInStatement wanted).run source depth
      limit := by
  rw [expectInStatement, Parser.expectInStatement, OptionT.run_orElse, OptionT.run_orElse]
  apply mirrors_bind (mirrors_expect wanted)
  intro found
  cases found with
  | none => exact mirrors_bindOption (mirrors_lift ready.skip) fun _ => mirrors_failure
  | some found => exact mirrors_pure _

theorem mirrors_body :
    Mirrors again.body.run (Parser.statementWith inside).run source depth limit := by
  apply mirrors_bindOption (mirrors_lift mirrors_current)
  rintro ⟨kind, literal⟩
  cases kind with
  | kwLet =>
      apply mirrors_bindOption (mirrors_expectInStatement ready _)
      intro _
      apply mirrors_bindOption (mirrors_lift mirrors_identifier)
      intro name
      apply mirrors_bindOption (mirrors_expectInStatement ready _)
      intro _
      apply mirrors_bindOption (mirrors_lift mirrors_next)
      intro _
      exact mirrors_bindOption (mirrors_closedExpression ready) fun _ => mirrors_pure _
  | kwReturn =>
      apply mirrors_bindOption (mirrors_lift mirrors_next)
      intro _
      exact mirrors_bindOption (mirrors_closedExpression ready) fun _ => mirrors_pure _
  | lbrace =>
      apply mirrors_bindOption (mirrors_lift (mirrors_block ready))
      intro block
      exact mirrors_bindOption (mirrors_lift mirrors_eatSemicolon) fun _ => mirrors_pure _
  | _ => exact mirrors_bindOption (mirrors_closedExpression ready) fun _ => mirrors_pure _

end Ready

/-- With so many rounds the routines are over. Skipping takes a round for each token. What lies
inside something takes two rounds for each level of room, one for the level itself and one for the
loop on it. -/
structure Finishes (routines : Routines) (source : String) (rounds : Nat) : Prop where
  skip : ∀ {depth limit : Nat}, limit < rounds →
    routines.skip.Mirrors Parser.skipStatement source depth limit
  expression : ∀ {room depth limit : Nat}, depth + room = nestingLimit →
    limit + 2 * room + 1 < rounds → ∀ precedence, Mirrors (routines.expression precedence).run
      ((Level.inside room).expression precedence).run source depth limit
  statement : ∀ {room depth limit : Nat}, depth + room = nestingLimit →
    limit + 2 * room + 1 < rounds →
      Mirrors routines.statement.run (Level.inside room).statement.run source depth limit
  ready : ∀ {room depth limit : Nat}, depth + room = nestingLimit →
    limit + 2 * room + 2 < rounds → routines.Ready (Level.inside room) source depth limit

section Finishes

variable {room rounds : Nat} (finishes : again.Finishes source rounds)

include finishes

theorem mirrors_expression (onLevel : depth + room = nestingLimit)
    (enough : limit + 2 * room + 1 < rounds + 1) (precedence : Precedence) :
    Mirrors (again.unroll.expression precedence).run
      ((Level.inside room).expression precedence).run source depth limit := by
  cases room with
  | zero => exact mirrors_nested_tooDeep (by omega) (finishes.skip (by omega))
  | succ room =>
      have ready : again.Ready (Level.inside room) source (depth + 1) limit :=
        finishes.ready (by omega) (by omega)
      apply mirrors_nested (by omega)
      exact mirrors_bindOption (mirrors_operand ready) (ready.continuations precedence)

theorem mirrors_statement (onLevel : depth + room = nestingLimit)
    (enough : limit + 2 * room + 1 < rounds + 1) :
    Mirrors again.unroll.statement.run (Level.inside room).statement.run source depth limit := by
  cases room with
  | zero => exact mirrors_nested_tooDeep (by omega) (finishes.skip (by omega))
  | succ room =>
      have ready : again.Ready (Level.inside room) source (depth + 1) limit :=
        finishes.ready (by omega) (by omega)
      exact mirrors_nested (by omega) (mirrors_body ready)

theorem ready_unroll (onLevel : depth + room = nestingLimit)
    (enough : limit + 2 * room + 2 < rounds + 1) :
    again.unroll.Ready (Level.inside room) source depth limit := by
  -- a loop that goes on has moved, so it is over on what is left
  have ready : ∀ fewer, fewer < limit → again.Ready (Level.inside room) source depth fewer := by
    intro fewer isFewer
    exact finishes.ready onLevel (by omega)
  constructor
  · exact mirrors_skip fun fewer isFewer => (ready fewer isFewer).skip
  · exact mirrors_expression finishes onLevel (by omega)
  · intro precedence
    apply mirrors_round
    · intro fewer isFewer
      exact mirrors_continuation (ready fewer isFewer)
    · intro fewer isFewer
      exact (ready fewer isFewer).continuations precedence
  · apply mirrors_round
    · intro fewer _ _ params
      apply mirrors_bindOption (mirrors_expect _)
      intro _
      exact mirrors_bindOption (mirrors_lift mirrors_identifier) fun _ => mirrors_pure _
    · intro fewer isFewer
      exact (ready fewer isFewer).parameters
  · apply mirrors_round
    · intro fewer isFewer _ args
      apply mirrors_bindOption (mirrors_lift mirrors_next)
      intro _
      exact mirrors_bindOption ((ready fewer isFewer).expression _) fun _ => mirrors_pure _
    · intro fewer isFewer
      exact (ready fewer isFewer).arguments
  · intro close
    apply mirrors_statements (finishes.statement onLevel (by omega))
    intro fewer isFewer
    exact (ready fewer isFewer).statements close

theorem finishes_unroll : again.unroll.Finishes source (rounds + 1) := by
  constructor
  · intro depth limit enough
    exact mirrors_skip fun fewer isFewer => finishes.skip (by omega)
  · intro room depth limit onLevel enough
    exact mirrors_expression finishes onLevel enough
  · intro room depth limit onLevel enough
    exact mirrors_statement finishes onLevel enough
  · intro room depth limit onLevel enough
    exact ready_unroll finishes onLevel enough

end Finishes

theorem finishes_unrolled (source : String) (rounds : Nat) :
    (unrolled rounds).Finishes source rounds := by
  induction rounds with
  | zero =>
      constructor
      · intro depth limit enough
        omega
      · intro room depth limit _ enough
        omega
      · intro room depth limit _ enough
        omega
      · intro room depth limit _ enough
        omega
  | succ rounds ih => exact finishes_unroll ih

end Routines

namespace Call

open Run

/-- Every call is over after so many rounds, on whatever token it starts and however deep. -/
theorem mirrors_perform (call : Call) {room depth limit rounds : Nat}
    (onLevel : depth + room = nestingLimit) (enough : limit + 2 * room + 2 < rounds) :
    (call.perform rounds).Mirrors (call.within (Level.inside room)) source depth limit := by
  have finishes := Routines.finishes_unrolled source rounds
  have ready := finishes.ready onLevel enough
  cases call with
  | program => exact mirrors_bind (ready.statements .eof #[]) fun _ => mirrors_pure _
  | statement => exact mirrors_bind (finishes.statement onLevel (by omega)) fun _ => mirrors_pure _
  | block => exact mirrors_bind (Routines.mirrors_block ready) fun _ => mirrors_pure _
  | expression precedence =>
      exact mirrors_bind (ready.expression precedence) fun _ => mirrors_pure _

theorem current_program (inside : Level) (cursor : Cursor) :
    ((program.within inside).run cursor).2.current.kind = .eof := by
  rcases Parser.current_statementsUntil #[] cursor with atEnd | atEnd
  · exact atEnd
  · exact atEnd

end Call

namespace Window

variable {source : String} {window : Window}

/-- Between two calls no level is open, and the window is somewhere in the source. -/
theorem Reached.exists_cursor (reached : window.Reached source) :
    ∃ cursor : Cursor, cursor.tokens <:+ tokenize source ∧ window = cursor.window source 0 := by
  induction reached with
  | start => exact ⟨.ofSource source, List.suffix_refl _, start_eq_window source⟩
  | @call call answer before after reached ends ih =>
      rcases ih with ⟨cursor, inSource, rfl⟩
      rcases ends with ⟨enough, ends⟩
      let rounds := enough + cursor.tokens.length + 2 * nestingLimit + 3
      have mirrors : (call.perform rounds).Mirrors (call.within (Level.inside nestingLimit)) source
          0 cursor.tokens.length :=
        call.mirrors_perform (Nat.zero_add _) (by omega)
      have same := ends rounds (by omega)
      rw [mirrors.ends inSource (Nat.le_refl _)] at same
      simp only [Option.some.injEq, Prod.mk.injEq] at same
      exact ⟨_, (Parser.leadsTo_run _ cursor).tokens.trans inSource, same.2.symm⟩

/-- Whatever was called before, every call comes to an end. The number of rounds is bounded by the
tokens that are left and the room below the nesting limit, also for calls that are made inside
others. The answer is that of the parser, the window only moves on, and all levels are closed again.
A call for the whole program ends behind the last token. -/
theorem Reached.call_ends (reached : window.Reached source) (call : Call) :
    window.unread <:+ tokenize source ∧
    (∃ answer after,
      (∀ rounds, window.unread.length + 2 * nestingLimit + 2 < rounds →
        (call.perform rounds).run window = some (answer, after)) ∧
      call.parser.run ⟨window.unread, window.report⟩ = (answer, ⟨after.unread, after.report⟩) ∧
      after.unread <:+ window.unread ∧ after.depth = 0 ∧
      (call = .program → after.current = .eof ∧ after.unread = [])) ∧
    ∀ depth ≤ nestingLimit, ∃ answer after,
      (∀ rounds, window.unread.length + 2 * (nestingLimit - depth) + 2 < rounds →
        (call.perform rounds).run { window with depth } = some (answer, after)) ∧
      after.unread <:+ window.unread ∧ after.depth = depth := by
  rcases reached.exists_cursor with ⟨cursor, inSource, rfl⟩
  rw [unread_window inSource]
  -- at any depth, the outcome is that of the parser with the room that is left
  have ends : ∀ depth ≤ nestingLimit, ∀ rounds,
      cursor.tokens.length + 2 * (nestingLimit - depth) + 2 < rounds →
        (call.perform rounds).run (cursor.window source depth) =
          some (((call.within (Level.inside (nestingLimit - depth))).run cursor).1,
            ((call.within (Level.inside (nestingLimit - depth))).run cursor).2.window source
              depth) := by
    intro depth deep rounds enough
    exact (call.mirrors_perform (Nat.add_sub_cancel' deep) enough).ends inSource (Nat.le_refl _)
  refine ⟨inSource, ?_, ?_⟩
  · have moved := (Parser.leadsTo_run call.parser cursor).tokens
    have unread_eq : ((call.parser.run cursor).2.window source 0).unread =
        (call.parser.run cursor).2.tokens := unread_window (moved.trans inSource)
    refine ⟨(call.parser.run cursor).1, (call.parser.run cursor).2.window source 0, ?_, ?_, ?_, rfl,
      ?_⟩
    · intro rounds enough
      rw [← call.within_inside]
      exact ends 0 (Nat.zero_le _) rounds enough
    · rw [unread_eq]
      rfl
    · rw [unread_eq]
      exact moved
    · rintro rfl
      have proper := (proper_tokenize source).of_suffix (moved.trans inSource)
      have ended : (Call.program.parser.run cursor).2.tokens = [] :=
        proper.eq_nil_of_firstKind (Call.current_program (Level.inside nestingLimit) cursor)
      rw [unread_eq]
      refine ⟨?_, ended⟩
      rw [Cursor.window, Cursor.current, ended]
      rfl
  · intro depth deep
    have moved := (Parser.leadsTo_run
      (call.within (Level.inside (nestingLimit - depth))) cursor).tokens
    refine ⟨_, _, ends depth deep, ?_, rfl⟩
    rw [unread_window (moved.trans inSource)]
    exact moved

/-- Parameters that break off leave the window in front of a brace. The call for the whole program
goes on from there and ends behind the last token. -/
theorem call_ends_broken_off :
    let source := "(1 + fn(a, \x7b let 2"
    ∃ (middle last : Window) (answer : Answer),
      (Call.expression .lowest).Ends (.start source) (.expression none) middle ∧
      middle.unread.map Token.literal = [",", "\x7b", "let", "2"] ∧
      Call.program.Ends middle answer last ∧
      last.current = .eof ∧
      last.report.toList.map Diagnostic.message =
        ["expect IDENT, got \x7b", "no prefix parse fn for , found", "expect IDENT, got INT"] := by
  intro source
  have started : (start source).Reached source := .start
  rcases started.call_ends (.expression .lowest) with ⟨_, ⟨first, middle, ends, read, _⟩, _⟩
  have reached : middle.Reached source := .call started ⟨_, ends⟩
  rcases reached.call_ends .program with ⟨_, ⟨answer, last, lastEnds, lastRead, _, _, atEnd⟩, _⟩
  have gaveUp : ((Parser.expression .lowest).run.run
      ⟨(start source).unread, (start source).report⟩).1 = none :=
    Option.isNone_iff_eq_none.1 (by decide +kernel)
  have first_eq : first = .expression none := by
    rw [← gaveUp]
    exact (congrArg Prod.fst read).symm
  have stopped := congrArg Prod.snd read
  have unread_eq : ((Call.expression .lowest).parser.run
      ⟨(start source).unread, (start source).report⟩).2.tokens.map Token.literal =
        [",", "\x7b", "let", "2"] := by decide +kernel
  have report_eq : (Call.program.parser.run ((Call.expression .lowest).parser.run
      ⟨(start source).unread, (start source).report⟩).2).2.report.toList.map Diagnostic.message =
        ["expect IDENT, got \x7b", "no prefix parse fn for , found", "expect IDENT, got INT"] := by
    decide +kernel
  rw [stopped] at unread_eq report_eq
  rw [lastRead] at report_eq
  exact ⟨middle, last, answer, ⟨_, first_eq ▸ ends⟩, unread_eq, ⟨_, lastEnds⟩, (atEnd rfl).1,
    report_eq⟩

end Window

end Scriptlet
