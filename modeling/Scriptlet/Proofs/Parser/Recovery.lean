import Scriptlet.Proofs.Parser.Concatenation
import Scriptlet.Proofs.Parser.Course
import Scriptlet.Proofs.Parser.Mirroring

/-!
# Recovery from a broken `let`

A `let` that is not followed by a name and a `=` is reported once and given up. What follows it is
skipped, whatever it is, up to a token at which a statement can end or begin, and from there on the
source is read as if the `let` had never been there.

The cursor comes to rest in two ways. It is on a `;` or behind the last token, or it is one token in
front of a `}`, a `let` or a `return`. In both cases the loop over the statements moves on by one
token, and is then on the first token that is not part of the broken statement: `behindSemicolon`
says which one that is. The loop over the statements of a block is in the same position, so a block
that holds nothing but a broken `let` is closed by the brace behind it.
-/

namespace Scriptlet

/-- Tokens that do not go on from a `let`, without any at which a statement could end or begin. -/
structure BreaksLet (skipped : List Token) : Prop where
  plain : ∀ token ∈ skipped, token.kind ∉ [.semicolon, .rbrace, .kwLet, .kwReturn]
  noHeader : ¬(firstKind skipped = .ident ∧ firstKind skipped.tail = .assign)

/-- What is left when a `;` in front is taken away. -/
def behindSemicolon (tokens : List Token) : List Token :=
  if firstKind tokens = .semicolon then tokens.tail else tokens

/-- What is reported about the tokens behind a broken `let`. -/
def Diagnostic.brokenLet (tokens : List Token) : Diagnostic :=
  if firstKind tokens = .ident then .expected .assign (firstKind tokens.tail)
  else .expected .ident (firstKind tokens)

theorem behindSemicolon_cons {token : Token} (other : token.kind ≠ .semicolon)
    (tokens : List Token) : behindSemicolon (token :: tokens) = token :: tokens :=
  if_neg other

/-- Skipping goes past all plain tokens and stops so that the next token is the one behind them, or
behind the `;` that follows them. -/
theorem Cursor.tail_skipTokens {token : Token} {skipped rest : List Token}
    (inside : token.kind ∉ [.semicolon, .eof])
    (plain : ∀ other ∈ skipped, other.kind ∉ [.semicolon, .rbrace, .kwLet, .kwReturn, .eof])
    (stops : rest = [] ∨ firstKind rest ∈ [.semicolon, .rbrace, .kwLet, .kwReturn]) :
    (skipTokens (token :: (skipped ++ rest))).tail = behindSemicolon rest := by
  induction skipped generalizing token with
  | nil =>
      cases rest with
      | nil =>
          rw [List.append_nil, skipTokens]
          split <;> rfl
      | cons next rest =>
          have stops : next.kind ∈ [.semicolon, .rbrace, .kwLet, .kwReturn] := by simpa using stops
          by_cases isSemicolon : next.kind = .semicolon
          · have goesOn : ¬(token.kind ∈ [.semicolon, .eof] ∨
                next.kind ∈ [.rbrace, .kwLet, .kwReturn]) := by
              simp [isSemicolon, inside]
            rw [List.nil_append, skipTokens, List.headD_cons, if_neg goesOn, skipTokens,
              if_pos (.inl (by simp [isSemicolon])), behindSemicolon, firstKind_cons,
              if_pos isSemicolon]
          · have stopsHere : next.kind ∈ [.rbrace, .kwLet, .kwReturn] := by
              simpa [isSemicolon] using stops
            rw [List.nil_append, skipTokens, List.headD_cons, if_pos (.inr stopsHere),
              behindSemicolon_cons isSemicolon, List.tail_cons]
  | cons other skipped ih =>
      have otherPlain := plain other (by simp)
      have goesOn : ¬(token.kind ∈ [.semicolon, .eof] ∨
          other.kind ∈ [.rbrace, .kwLet, .kwReturn]) := by
        simp at inside otherPlain ⊢
        simp [inside, otherPlain]
      rw [List.cons_append, skipTokens, List.headD_cons, if_neg goesOn]
      apply ih
      · simp at otherPlain ⊢
        simp [otherPlain]
      · intro next next_mem
        exact plain next (List.mem_cons_of_mem _ next_mem)

namespace Parser

section Required

variable {Result : Type} {wanted : Kind} {next : Unit → OptionT Parser Result} {token : Token}
  {tokens : List Token} {report : Report Diagnostic}

theorem run_expectInStatement_bind (found : firstKind tokens = wanted) :
    (expectInStatement wanted >>= next).run.run ⟨token :: tokens, report⟩ =
      (next ()).run.run ⟨tokens, report⟩ := by
  have peeked : (Cursor.mk (token :: tokens) report).peek.kind = wanted := found
  rw [run_run_bind, run_expectInStatement, if_pos peeked]
  rfl

theorem run_expectInStatement_bind_of_ne (other : firstKind tokens ≠ wanted) :
    (expectInStatement wanted >>= next).run.run ⟨token :: tokens, report⟩ =
      (none, ⟨Cursor.skipTokens (token :: tokens),
        report.add (.expected wanted (firstKind tokens))⟩) := by
  have peeked : (Cursor.mk (token :: tokens) report).peek.kind ≠ wanted := other
  rw [run_run_bind, run_expectInStatement, if_neg peeked]
  rfl

theorem run_identifier_bind {next : Ident → OptionT Parser Result} (start : Cursor) :
    (liftM identifier >>= next).run.run start = (next (.ofToken start.current)).run.run start :=
  rfl

end Required

variable {inside : Level} {letToken : Token} {skipped rest : List Token}

/-- A `let` without a name and a `=` behind it is given up with a single report. -/
theorem run_statementWith_of_brokenLet (report : Report Diagnostic) (isLet : letToken.kind = .kwLet)
    (breaks : BreaksLet skipped) (proper : Proper skipped)
    (stops : rest = [] ∨ firstKind rest ∈ [.semicolon, .rbrace, .kwLet, .kwReturn]) :
    ∃ after : List Token, after.tail = behindSemicolon rest ∧
      (statementWith inside).run.run ⟨letToken :: (skipped ++ rest), report⟩ =
        (none, ⟨after, report.add (.brokenLet (skipped ++ rest))⟩) := by
  have plain : ∀ token ∈ skipped,
      token.kind ∉ [.semicolon, .rbrace, .kwLet, .kwReturn, .eof] := by
    intro token token_mem
    have isPlain := breaks.plain token token_mem
    simp at isPlain ⊢
    simp [isPlain, proper token token_mem]
  rcases letToken with ⟨kind, literal⟩
  subst isLet
  have opened : (statementWith inside).run.run ⟨⟨.kwLet, literal⟩ :: (skipped ++ rest), report⟩ =
      (expectInStatement .ident >>= fun _ => liftM identifier >>= fun name =>
        expectInStatement .assign >>= fun _ => liftM advance >>= fun _ =>
          closedExpression inside >>= fun value =>
            pure (Stmt.letBind ⟨.kwLet, literal⟩ name value)).run.run
              ⟨⟨.kwLet, literal⟩ :: (skipped ++ rest), report⟩ := rfl
  rw [opened, Diagnostic.brokenLet]
  by_cases named : firstKind (skipped ++ rest) = .ident
  · cases skipped with
    | nil =>
        -- no name is among the tokens at which skipping stops
        rcases stops with rfl | stops
        · cases named
        · rw [List.nil_append] at named
          simp [named] at stops
    | cons name others =>
        rw [List.cons_append] at named
        have isName : name.kind = .ident := named
        have unassigned : firstKind (others ++ rest) ≠ .assign := by
          intro isAssign
          cases others with
          | nil =>
              -- nor is a `=`
              rw [List.nil_append] at isAssign
              rcases stops with rfl | stops
              · cases isAssign
              · simp [isAssign] at stops
          | cons sign others => exact breaks.noHeader ⟨named, isAssign⟩
        refine ⟨Cursor.skipTokens (name :: (others ++ rest)), ?_, ?_⟩
        · apply Cursor.tail_skipTokens (by simp [isName]) _ stops
          intro other other_mem
          exact plain other (List.mem_cons_of_mem _ other_mem)
        · rw [List.cons_append, run_expectInStatement_bind named, run_identifier_bind,
            run_expectInStatement_bind_of_ne unassigned, if_pos named, List.tail_cons]
  · refine ⟨Cursor.skipTokens (⟨.kwLet, literal⟩ :: (skipped ++ rest)), ?_, ?_⟩
    · exact Cursor.tail_skipTokens (by simp) plain stops
    · rw [run_expectInStatement_bind_of_ne named, if_neg named]

/-- Reading statements goes on behind the broken `let` as if it had not been there. -/
theorem run_statementsUntil_of_brokenLet {close : Kind} {room : Nat} (read : Array Stmt)
    (report : Report Diagnostic) (isLet : letToken.kind = .kwLet) (notLet : close ≠ .kwLet)
    (breaks : BreaksLet skipped) (proper : Proper skipped)
    (stops : rest = [] ∨ firstKind rest ∈ [.semicolon, .rbrace, .kwLet, .kwReturn]) :
    (statementsUntil close (Level.inside (room + 1)).statement read).run
        ⟨letToken :: (skipped ++ rest), report⟩ =
      (statementsUntil close (Level.inside (room + 1)).statement read).run
        ⟨behindSemicolon rest, report.add (.brokenLet (skipped ++ rest))⟩ := by
  have notClosed : ¬((Cursor.mk (letToken :: (skipped ++ rest)) report).current.kind = close ∨
      (Cursor.mk (letToken :: (skipped ++ rest)) report).current.kind = .eof) := by
    rintro (isClose | isEnd)
    · exact notLet (isClose.symm.trans isLet)
    · cases isEnd.symm.trans isLet
  have given : ∃ after : List Token, after.tail = behindSemicolon rest ∧
      (Level.inside (room + 1)).statement.run.run ⟨letToken :: (skipped ++ rest), report⟩ =
        (none, ⟨after, report.add (.brokenLet (skipped ++ rest))⟩) :=
    run_statementWith_of_brokenLet report isLet breaks proper stops
  rcases given with ⟨after, after_eq, gaveUp⟩
  rw [run_statementsUntil_of_not_closed notClosed, gaveUp, ← after_eq]
  rfl

section Block

variable {room : Nat} {opening closing : Token}

/-- The brace behind a broken `let` closes the block that the `let` is in. -/
theorem run_block_of_brokenLet (report : Report Diagnostic) (closes : closing.kind = .rbrace)
    (isLet : letToken.kind = .kwLet) (breaks : BreaksLet skipped) (proper : Proper skipped) :
    (block (Level.inside (room + 1))).run
        ⟨opening :: letToken :: (skipped ++ closing :: rest), report⟩ =
      (.mk opening [],
        ⟨closing :: rest, report.add (.brokenLet (skipped ++ closing :: rest))⟩) := by
  have loop : (statementsUntil .rbrace (Level.inside (room + 1)).statement #[]).run
        ⟨letToken :: (skipped ++ closing :: rest), report⟩ =
      (#[], ⟨closing :: rest, report.add (.brokenLet (skipped ++ closing :: rest))⟩) := by
    rw [run_statementsUntil_of_brokenLet #[] report isLet (by decide) breaks proper
      (.inr (by simp [closes])), behindSemicolon_cons (by simp [closes])]
    exact run_statementsUntil_of_closed (.inl closes)
  exact congrArg (fun done => (Block.mk opening done.1.toList, done.2)) loop

theorem advance_run_eatSemicolon (token : Token) (rest : List Token) (report : Report Diagnostic) :
    (eatSemicolon.run ⟨token :: rest, report⟩).2.advance = ⟨behindSemicolon rest, report⟩ := by
  have opened : eatSemicolon.run ⟨token :: rest, report⟩ =
      (if firstKind rest = .semicolon then advance else pure () : Parser Unit).run
        ⟨token :: rest, report⟩ := rfl
  rw [opened, behindSemicolon]
  split <;> rfl

/-- A block that holds nothing but a broken `let` is read as an empty block, and takes the `;` that
may follow it. -/
theorem run_statementsUntil_of_brokenBlock (read : Array Stmt) (report : Report Diagnostic)
    (opens : opening.kind = .lbrace) (closes : closing.kind = .rbrace)
    (isLet : letToken.kind = .kwLet) (breaks : BreaksLet skipped) (proper : Proper skipped) :
    (statementsUntil .eof (Level.inside (room + 2)).statement read).run
        ⟨opening :: letToken :: (skipped ++ closing :: rest), report⟩ =
      (statementsUntil .eof (Level.inside (room + 2)).statement
        (read.push (.block (.mk opening [])))).run
          ⟨behindSemicolon rest, report.add (.brokenLet (skipped ++ closing :: rest))⟩ := by
  let start : Cursor := ⟨opening :: letToken :: (skipped ++ closing :: rest), report⟩
  have notClosed : ¬(start.current.kind = .eof ∨ start.current.kind = .eof) := by
    rw [or_self]
    intro isEnd
    cases isEnd.symm.trans opens
  have statement_eq : (Level.inside (room + 2)).statement.run.run start =
      (some (.block ((block (Level.inside (room + 1))).run start).1),
        (eatSemicolon.run ((block (Level.inside (room + 1))).run start).2).2) := by
    rcases opening with ⟨kind, literal⟩
    subst opens
    rfl
  rw [run_block_of_brokenLet report closes isLet breaks proper] at statement_eq
  rw [run_statementsUntil_of_not_closed notClosed, statement_eq, advance_run_eatSemicolon]
  rfl

end Block

end Parser

/-! ## Whole sources -/

/-- What may stand behind a broken `let` outside of blocks so that `second` is read from there: a
`;` in front of it, or `second` itself if it is empty or begins with a statement of its own. -/
inductive Resumes (second : List Token) : List Token → Prop
  | semicolon {token : Token} (isSemicolon : token.kind = .semicolon) :
      Resumes second (token :: second)
  | fresh (starts : firstKind second ∈ [.eof, .kwLet, .kwReturn]) : Resumes second second

theorem Resumes.behindSemicolon_eq {second rest : List Token} (resumes : Resumes second rest) :
    behindSemicolon rest = second := by
  cases resumes with
  | semicolon isSemicolon => exact if_pos isSemicolon
  | fresh starts =>
      apply if_neg
      intro isSemicolon
      simp [isSemicolon] at starts

theorem Resumes.stops {second rest : List Token} (resumes : Resumes second rest)
    (proper : Proper second) :
    rest = [] ∨ firstKind rest ∈ [.semicolon, .rbrace, .kwLet, .kwReturn] := by
  cases resumes with
  | semicolon isSemicolon => exact .inr (by simp [isSemicolon])
  | fresh starts =>
      rcases List.mem_cons.1 starts with atEnd | begins
      · exact .inl (proper.eq_nil_of_firstKind atEnd)
      · exact .inr (List.mem_cons_of_mem _ (List.mem_cons_of_mem _ begins))

theorem exists_tokenize_eq_behindSemicolon (source : String) :
    ∃ other, tokenize other = behindSemicolon (tokenize source) := by
  rw [behindSemicolon]
  split
  · refine ⟨String.ofList (Token.next source.toList).2, ?_⟩
    rw [tokenize, String.toList_ofList, Token.all_next_snd]
    rfl
  · exact ⟨source, rfl⟩

namespace Program

/-- The source has no tokens, or it is read without complaint, its last token is a `;` and all its
braces are closed. -/
structure Over (program : Program) (source : String) : Prop where
  read : Program.read source = (program, .empty)
  ends : tokenize source ≠ [] → Grammar.EndsInSemicolon (tokenize source)
  balanced : braceExcess (tokenize source) = 0

/-- If reading goes on from some tokens to a second source, with some statements and one error, then
it does so behind a source that is over. -/
theorem read_of_resumed {first second source : String} {program : Program} {more : List Token}
    {stmts : List Stmt} {diagnostic : Diagnostic} (isOver : program.Over first)
    (spelled : tokenize source = tokenize first ++ more)
    (resumed : ∀ read, (Parser.statementsUntil .eof Parser.statement read).run ⟨more, {}⟩ =
      (Parser.statementsUntil .eof Parser.statement (read ++ stmts.toArray)).run
        ⟨tokenize second, ⟨#[diagnostic]⟩⟩) :
    (Program.read source).1.statements =
        program.statements ++ stmts ++ (Program.read second).1.statements ∧
      (Program.read source).2.toList = diagnostic :: (Program.read second).2.toList := by
  have opened : ∀ source, Program.read source =
      (⟨((Parser.statementsUntil .eof Parser.statement #[]).run (.ofSource source)).1.toList⟩,
        ((Parser.statementsUntil .eof Parser.statement #[]).run (.ofSource source)).2.report) :=
    fun _ => rfl
  rcases derives_of_read isOver.read with ⟨nesting, within, derived⟩
  have oblivious : Parser.Oblivious (Parser.statementsUntil .eof Parser.statement #[])
      (.ofSource second) := (Level.course_statements nestingLimit _ .eof).1
  have behind : Cursor.mk (tokenize second) ⟨#[diagnostic]⟩ =
      (Cursor.ofSource second).reportedAfter ⟨#[diagnostic]⟩ := by
    simp [Cursor.ofSource, Cursor.reportedAfter]
  have whole : (Parser.statementsUntil .eof Parser.statement #[]).run (.ofSource source) =
      (#[] ++ program.statements.toArray ++ stmts.toArray ++
          ((Parser.statementsUntil .eof Parser.statement #[]).run (.ofSource second)).1,
        ((Parser.statementsUntil .eof Parser.statement #[]).run
          (.ofSource second)).2.reportedAfter ⟨#[diagnostic]⟩) := by
    rw [Cursor.ofSource, spelled]
    refine (Parser.run_statementsUntil_append rfl within isOver.ends isOver.balanced more #[]
      derived).trans ?_
    refine (resumed _).trans ?_
    rw [behind, Parser.run_statementsUntil_read, oblivious]
  rw [opened source, opened second, whole]
  constructor
  · simp
  · simp [Cursor.reportedAfter, Report.toList]

/-- A broken `let` costs one diagnostic and nothing else. What it is followed by is skipped, and
what comes before and behind that is read as if it stood alone. A block around it is read as an
empty block, which also takes the `;` that may follow. -/
theorem read_brokenLet {first second : String} {program : Program} {skipped : List Token}
    (isOver : program.Over first) (breaks : BreaksLet skipped) :
    (∀ source letToken rest, letToken.kind = .kwLet → Resumes (tokenize second) rest →
      tokenize source = tokenize first ++ letToken :: (skipped ++ rest) →
        (Program.read source).1.statements =
            program.statements ++ (Program.read second).1.statements ∧
          (Program.read source).2.toList =
            .brokenLet (skipped ++ rest) :: (Program.read second).2.toList) ∧
    (∀ source opening letToken closing, opening.kind = .lbrace → letToken.kind = .kwLet →
      closing.kind = .rbrace →
      tokenize source =
        tokenize first ++ opening :: letToken :: (skipped ++ closing :: tokenize second) →
        ∃ other, tokenize other = behindSemicolon (tokenize second) ∧
          (Program.read source).1.statements =
            program.statements ++ .block (.mk opening []) :: (Program.read other).1.statements ∧
          (Program.read source).2.toList =
            .brokenLet (skipped ++ closing :: tokenize second) ::
              (Program.read other).2.toList) := by
  constructor
  · intro source letToken rest isLet resumes spelled
    have proper : Proper skipped :=
      fun token token_mem => proper_tokenize source token (by simp [spelled, token_mem])
    have resumed : ∀ read, (Parser.statementsUntil .eof Parser.statement read).run
          ⟨letToken :: (skipped ++ rest), {}⟩ =
        (Parser.statementsUntil .eof Parser.statement (read ++ ([] : List Stmt).toArray)).run
          ⟨tokenize second, ⟨#[.brokenLet (skipped ++ rest)]⟩⟩ := by
      intro read
      rw [Array.append_empty, ← resumes.behindSemicolon_eq]
      exact Parser.run_statementsUntil_of_brokenLet read {} isLet (by decide) breaks proper
        (resumes.stops (proper_tokenize second))
    simpa using read_of_resumed isOver spelled resumed
  · intro source opening letToken closing opens isLet closes spelled
    have proper : Proper skipped :=
      fun token token_mem => proper_tokenize source token (by simp [spelled, token_mem])
    rcases exists_tokenize_eq_behindSemicolon second with ⟨other, other_eq⟩
    have resumed : ∀ read, (Parser.statementsUntil .eof Parser.statement read).run
          ⟨opening :: letToken :: (skipped ++ closing :: tokenize second), {}⟩ =
        (Parser.statementsUntil .eof Parser.statement
          (read ++ [Stmt.block (.mk opening [])].toArray)).run
            ⟨tokenize other, ⟨#[.brokenLet (skipped ++ closing :: tokenize second)]⟩⟩ := by
      intro read
      rw [other_eq]
      exact Parser.run_statementsUntil_of_brokenBlock read {} opens closes isLet breaks proper
    refine ⟨other, other_eq, ?_⟩
    simpa using read_of_resumed isOver spelled resumed

/-- The name is there but the `=` is not, and the brace and the parenthesis behind it stay open. The
`let` that follows is read all the same, and so is what is wrong behind it. In the second source the
broken `let` is in a block with a `;` behind it. -/
theorem read_brokenLet_unclosed :
    let first := "let a = 1;"
    let second := "let b = a; )"
    let source := "let a = 1; let x \x7b ( @ let b = a; )"
    let inBlock := "let a = 1; \x7b let x \x7b ( @ \x7d; let b = a; )"
    ((Program.read source).1.statements =
        (Program.read first).1.statements ++ (Program.read second).1.statements ∧
      (Program.read source).2.toList.map Diagnostic.message =
        "expect =, got \x7b" :: (Program.read second).2.toList.map Diagnostic.message) ∧
    ∃ other, tokenize other = tokenize second ∧
      (Program.read inBlock).1.statements =
        (Program.read first).1.statements ++
          .block (.mk ⟨.lbrace, "\x7b"⟩ []) :: (Program.read other).1.statements ∧
      (Program.read inBlock).2.toList.map Diagnostic.message =
        "expect =, got \x7b" :: (Program.read other).2.toList.map Diagnostic.message := by
  intro first second source inBlock
  have isOver : (Program.read first).1.Over first := {
    read := by decide +kernel
    ends := fun _ => ⟨⟨.semicolon, ";"⟩, rfl, by decide +kernel⟩
    balanced := by decide +kernel }
  let skipped : List Token :=
    [⟨.ident, "x"⟩, ⟨.lbrace, "\x7b"⟩, ⟨.lparen, "("⟩, ⟨.illegal, "@"⟩]
  have breaks : BreaksLet skipped := ⟨by decide, by decide⟩
  constructor
  · have resumes : Resumes (tokenize second) (tokenize second) := .fresh (by decide +kernel)
    have read_eq := (read_brokenLet isOver breaks).1 source ⟨.kwLet, "let"⟩ _ rfl resumes
      (by decide +kernel)
    refine ⟨read_eq.1, ?_⟩
    rw [read_eq.2]
    rfl
  · have spelled : tokenize inBlock = tokenize first ++ ⟨.lbrace, "\x7b"⟩ :: ⟨.kwLet, "let"⟩ ::
        (skipped ++ ⟨.rbrace, "\x7d"⟩ :: tokenize "; let b = a; )") := by decide +kernel
    rcases (read_brokenLet isOver breaks).2 inBlock _ _ _ rfl rfl rfl spelled with
      ⟨other, other_eq, statements_eq, report_eq⟩
    have behind : behindSemicolon (tokenize "; let b = a; )") = tokenize second := by
      decide +kernel
    refine ⟨other, other_eq.trans behind, statements_eq, ?_⟩
    rw [report_eq]
    rfl

end Program

end Scriptlet
