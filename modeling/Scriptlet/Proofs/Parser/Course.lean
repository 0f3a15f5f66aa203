import Scriptlet.Proofs.Parser.Building
import Scriptlet.Proofs.Parser.Loops
import Scriptlet.Proofs.Parser.Strata

/-!
# The course of a parser

What the parsers can do is said once here, for every source and with all its mistakes. Where a
cursor gets to is described by two relations: it passes to another cursor if something was read
between them, and it gives up at another cursor if something was begun that could not be read. The
relations say only how reading, giving up and going on come after each other. What they mean for the
report and for the tokens follows by induction on them, without another look at the parsers.

`Does` follows a parser from a cursor. It has three parts: what was reported earlier makes no
difference, what was read is good, and if nothing was read the parser gave up. Each combinator has
one lemma, and each parser is put together from these, level by level. A parser that changes changes
one lemma.
-/

namespace Scriptlet

namespace Cursor

/-- The cursor with errors that were reported before all others. -/
def reportedAfter (cursor : Cursor) (earlier : Report Diagnostic) : Cursor :=
  { cursor with report := ⟨earlier.errors ++ cursor.report.errors⟩ }

/-- A cursor that gets here if it moves on. -/
def stepBack (cursor : Cursor) : Cursor :=
  { cursor with tokens := .eof :: cursor.tokens }

theorem reportedAfter_empty (cursor : Cursor) : cursor.reportedAfter {} = cursor := by
  simp [reportedAfter]

theorem addDiagnostic_reportedAfter (cursor : Cursor) (diagnostic : Diagnostic)
    (earlier : Report Diagnostic) :
    (cursor.reportedAfter earlier).addDiagnostic diagnostic =
      (cursor.addDiagnostic diagnostic).reportedAfter earlier := by
  have pushed : (earlier.errors ++ cursor.report.errors).push diagnostic =
      earlier.errors ++ cursor.report.errors.push diagnostic := Array.append_push.symm
  exact congrArg (fun errors => Cursor.mk cursor.tokens ⟨errors⟩) pushed

mutual

/-- What is behind the token under the first cursor was read, up to the second one. -/
inductive PassesTo : Cursor → Cursor → Prop
  | moves {start : Cursor} {tokens : List Token} (onward : tokens <:+ start.tokens) :
      PassesTo start { start with tokens := tokens }
  | trans {start middle done : Cursor} (first : PassesTo start middle)
      (second : PassesTo middle done) : PassesTo start done
  /-- What begins with the next token was reported, and reading goes on behind it. -/
  | recovers {start done : Cursor} (notEnd : start.peek.kind ≠ .eof)
      (gaveUp : GivesUpAt start.advance done) : PassesTo start done

/-- What begins with the token under the first cursor was given up, and the second one is where. -/
inductive GivesUpAt : Cursor → Cursor → Prop
  | reports {start : Cursor} (diagnostic : Diagnostic) :
      GivesUpAt start (start.addDiagnostic diagnostic)
  | behind {start middle done : Cursor} (passed : PassesTo start middle)
      (gaveUp : GivesUpAt middle done) : GivesUpAt start done
  | followed {start middle done : Cursor} (gaveUp : GivesUpAt start middle)
      (passed : PassesTo middle done) : GivesUpAt start done
  /-- What begins behind `start` goes on with the token behind `middle`, and is given up there. -/
  | onward {start middle done : Cursor} (passed : PassesTo start middle)
      (notEnd : middle.peek.kind ≠ .eof) (gaveUp : GivesUpAt middle.advance done) :
      GivesUpAt start.advance done

end

theorem PassesTo.refl (cursor : Cursor) : cursor.PassesTo cursor :=
  .moves (List.suffix_refl _)

theorem passesTo_advance (cursor : Cursor) : cursor.PassesTo cursor.advance :=
  .moves (List.tail_suffix _)

theorem length_advance (cursor : Cursor) :
    cursor.advance.tokens.length = cursor.tokens.length - 1 :=
  List.length_tail

mutual

theorem PassesTo.length_le {start done : Cursor} :
    start.PassesTo done → done.tokens.length ≤ start.tokens.length
  | .moves onward => onward.length_le
  | .trans first second => Nat.le_trans second.length_le first.length_le
  | .recovers _ gaveUp => Nat.le_trans gaveUp.length_le (List.tail_suffix _).length_le

theorem GivesUpAt.length_le {start done : Cursor} :
    start.GivesUpAt done → done.tokens.length ≤ start.tokens.length
  | .reports _ => Nat.le_refl _
  | .behind passed gaveUp => Nat.le_trans gaveUp.length_le passed.length_le
  | .followed gaveUp passed => Nat.le_trans passed.length_le gaveUp.length_le
  | .onward passed _ gaveUp => by
      have moved := passed.length_le
      have lost := gaveUp.length_le
      rw [length_advance] at lost ⊢
      omega

end

/-- What is read goes on with at least one token behind the cursor, and is given up there. -/
def BreaksOffAt (start done : Cursor) : Prop :=
  ∃ last, start.PassesTo last ∧ last.peek.kind ≠ .eof ∧ last.advance.GivesUpAt done

namespace BreaksOffAt

variable {start middle done : Cursor}

theorem next (notEnd : start.peek.kind ≠ .eof) (gaveUp : start.advance.GivesUpAt done) :
    start.BreaksOffAt done :=
  ⟨start, .refl start, notEnd, gaveUp⟩

theorem behind (passed : start.PassesTo middle) (breaks : middle.BreaksOffAt done) :
    start.BreaksOffAt done := by
  rcases breaks with ⟨last, toLast, notEnd, gaveUp⟩
  exact ⟨last, passed.trans toLast, notEnd, gaveUp⟩

theorem givesUpAt (breaks : start.BreaksOffAt done) : start.GivesUpAt done := by
  rcases breaks with ⟨last, toLast, _, gaveUp⟩
  exact .behind (toLast.trans last.passesTo_advance) gaveUp

theorem givesUpAt_advance (breaks : start.BreaksOffAt done) : start.advance.GivesUpAt done := by
  rcases breaks with ⟨last, toLast, notEnd, gaveUp⟩
  exact .onward toLast notEnd gaveUp

end BreaksOffAt

end Cursor

/-- A run that begins in the source and reports nothing but what is in the transcript. -/
structure Transcript.Covers (transcript : Transcript) (start done : Cursor) : Prop where
  tokens : start.tokens <:+ transcript.tokens
  errors : done.report.toList ⊆ transcript.errors

namespace Parser

variable {transcript : Transcript} {Result Next : Type} {start before : Cursor}

/-- Whatever was reported before, the parser reads and reports the same from this cursor on. -/
def Oblivious (parser : Parser Result) (start : Cursor) : Prop :=
  ∀ earlier, parser.run (start.reportedAfter earlier) =
    ((parser.run start).1, (parser.run start).2.reportedAfter earlier)

structure Ends (parser : OptionT Parser Result) (start : Cursor) (read : Result → Cursor → Prop)
    (gaveUp : Cursor → Prop) : Prop where
  oblivious : Oblivious parser.run start
  read : ∀ result, (parser.run.run start).1 = some result → read result (parser.run.run start).2
  gaveUp : (parser.run.run start).1 = none → gaveUp (parser.run.run start).2

/-- How a run of the parser ends if the transcript covers it. -/
def Does (transcript : Transcript) (parser : OptionT Parser Result) (start : Cursor)
    (read : Result → Cursor → Prop) (gaveUp : Cursor → Prop) : Prop :=
  transcript.Covers start (parser.run.run start).2 → Ends parser start read gaveUp

/-- The parser reads something good behind the token under the cursor. -/
abbrev Continues (transcript : Transcript) (parser : OptionT Parser Result) (start : Cursor)
    (good : Result → Cursor → Prop) : Prop :=
  Does transcript parser start (fun result done => start.PassesTo done ∧ good result done)
    start.GivesUpAt

/-- The parser reads something good that begins behind a cursor. -/
abbrev Begins (transcript : Transcript) (parser : OptionT Parser Result) (before : Cursor)
    (good : Result → Cursor → Prop) : Prop :=
  Does transcript parser before.advance
    (fun result done => before.PassesTo done ∧ good result done) before.advance.GivesUpAt

/-! ## Combinators -/

section Does

variable {read : Result → Cursor → Prop} {gaveUp : Cursor → Prop}

/-- Every run is covered by a transcript of its own. -/
theorem ends_of_does {parser : OptionT Parser Result}
    (does : ∀ transcript, Does transcript parser start read gaveUp) :
    Ends parser start read gaveUp :=
  does ⟨start.tokens, (parser.run.run start).2.report.toList⟩
    ⟨List.suffix_refl _, List.Subset.refl _⟩

theorem Does.imp {parser : OptionT Parser Result} {wider : Result → Cursor → Prop}
    {lost : Cursor → Prop} (does : Does transcript parser start read gaveUp)
    (isRead : ∀ result done, read result done → wider result done)
    (isLost : ∀ done, gaveUp done → lost done) : Does transcript parser start wider lost := by
  intro covers
  have ends := does covers
  exact ⟨ends.oblivious, fun result isResult => isRead _ _ (ends.read result isResult),
    fun isNone => isLost _ (ends.gaveUp isNone)⟩

/-- A parser does what another one does that runs in the same way from here. -/
theorem Does.congr {parser other : OptionT Parser Result}
    (does : Does transcript other start read gaveUp)
    (same : ∀ earlier, parser.run.run (start.reportedAfter earlier) =
      other.run.run (start.reportedAfter earlier)) :
    Does transcript parser start read gaveUp := by
  have sameHere := same {}
  rw [start.reportedAfter_empty] at sameHere
  intro covers
  rw [sameHere] at covers
  have ends := does covers
  refine ⟨?_, ?_, ?_⟩
  · intro earlier
    rw [same, sameHere, ends.oblivious]
  · rw [sameHere]
    exact ends.read
  · rw [sameHere]
    exact ends.gaveUp

theorem does_pure {result : Result} (isRead : read result start) :
    Does transcript (pure result) start read gaveUp := by
  intro _
  refine ⟨fun _ => rfl, ?_, ?_⟩
  · intro other isResult
    obtain rfl : result = other := Option.some.inj isResult
    exact isRead
  · intro isNone
    cases isNone

theorem does_lift {parser : Parser Result}
    (ends : transcript.Covers start (parser.run start).2 →
      Oblivious parser start ∧ read (parser.run start).1 (parser.run start).2) :
    Does transcript (liftM parser) start read gaveUp := by
  intro covers
  rcases ends covers with ⟨oblivious, isRead⟩
  refine ⟨?_, ?_, ?_⟩
  · intro earlier
    exact congrArg (fun done => (some done.1, done.2)) (oblivious earlier)
  · intro result isResult
    obtain rfl : (parser.run start).1 = result := Option.some.inj isResult
    exact isRead
  · intro isNone
    cases isNone

/-- A parser in two parts gives up with the first part or ends as the second one does. -/
theorem does_bind {parser : OptionT Parser Result} {next : Result → OptionT Parser Next}
    {good : Next → Cursor → Prop} (first : Does transcript parser start read gaveUp)
    (second : ∀ result middle, read result middle →
      Does transcript (next result) middle good gaveUp) :
    Does transcript (parser >>= next) start good gaveUp := by
  intro covers
  have moved := leadsTo_run parser.run start
  have opened : ∀ cursor, (parser >>= next).run.run cursor = _ := run_run_bind parser next
  rw [opened] at covers
  rcases done : parser.run.run start with ⟨_ | result, middle⟩
  · rw [done] at covers
    have ends := first (by rw [done]; exact covers)
    refine ⟨?_, ?_, ?_⟩
    · intro earlier
      rw [opened, opened, ends.oblivious earlier, done]
    · intro result isResult
      rw [opened, done] at isResult
      cases isResult
    · intro _
      have lost := ends.gaveUp (by rw [done])
      rw [done] at lost
      rwa [opened, done]
  · rw [done] at covers moved
    have kept := (leadsTo_run (next result).run middle).report.subset
    have ends := first (by
      rw [done]
      exact ⟨covers.tokens, List.Subset.trans kept covers.errors⟩)
    have isRead := ends.read result (by rw [done])
    rw [done] at isRead
    have rest := second result middle isRead ⟨moved.tokens.trans covers.tokens, covers.errors⟩
    refine ⟨?_, ?_, ?_⟩
    · intro earlier
      rw [opened, opened, ends.oblivious earlier, done]
      exact rest.oblivious earlier
    · rw [opened, done]
      exact rest.read
    · rw [opened, done]
      exact rest.gaveUp

end Does

section Steps

variable {parser : OptionT Parser Result} {next : Result → OptionT Parser Next}
  {read good : Next → Cursor → Prop} {gaveUp : Cursor → Prop}

theorem does_current_bind {next : Token → OptionT Parser Next}
    (rest : start.tokens <:+ transcript.tokens →
      Does transcript (next start.current) start read gaveUp) :
    Does transcript (liftM current >>= next) start read gaveUp := by
  intro covers
  have ends := rest covers.tokens covers
  exact ⟨ends.oblivious, ends.read, ends.gaveUp⟩

theorem does_peekKind_bind {next : Kind → OptionT Parser Next}
    (rest : Does transcript (next start.peek.kind) start read gaveUp) :
    Does transcript (liftM peekKind >>= next) start read gaveUp := by
  intro covers
  have ends := rest covers
  exact ⟨ends.oblivious, ends.read, ends.gaveUp⟩

theorem does_advance_bind {next : Unit → OptionT Parser Next}
    (rest : Does transcript (next ()) start.advance read gaveUp) :
    Does transcript (liftM advance >>= next) start read gaveUp := by
  intro covers
  have ends := rest ⟨start.leadsTo_advance.tokens.trans covers.tokens, covers.errors⟩
  exact ⟨ends.oblivious, ends.read, ends.gaveUp⟩

theorem continues_pure {fine : Result → Cursor → Prop} {result : Result}
    (isFine : fine result start) : Continues transcript (pure result) start fine :=
  does_pure ⟨.refl start, isFine⟩

theorem continues_bind {fine : Result → Cursor → Prop}
    (first : Continues transcript parser start fine)
    (second : ∀ result middle, fine result middle →
      Continues transcript (next result) middle good) :
    Continues transcript (parser >>= next) start good := by
  apply does_bind first
  rintro result middle ⟨passed, isFine⟩
  exact (second result middle isFine).imp (fun _ _ isRead => ⟨passed.trans isRead.1, isRead.2⟩)
    fun _ lost => .behind passed lost

theorem continues_advance_bind {next : Unit → OptionT Parser Next}
    (rest : Continues transcript (next ()) start.advance good) :
    Continues transcript (liftM advance >>= next) start good := by
  have passed := start.passesTo_advance
  exact does_advance_bind (rest.imp (fun _ _ isRead => ⟨passed.trans isRead.1, isRead.2⟩)
    fun _ lost => .behind passed lost)

/-- What begins behind the cursor is read once the cursor moves on. -/
theorem continues_behind_bind {fine : Result → Cursor → Prop}
    (first : Begins transcript parser start fine)
    (second : ∀ result middle, fine result middle →
      Continues transcript (next result) middle good) :
    Continues transcript (liftM advance >>= fun _ => parser >>= next) start good := by
  have behind : Continues transcript (liftM advance >>= fun _ => parser) start fine :=
    does_advance_bind (first.imp (fun _ _ isRead => isRead)
      fun _ lost => .behind start.passesTo_advance lost)
  rw [← bind_assoc]
  exact continues_bind behind second

theorem begins_of_continues {fine : Result → Cursor → Prop}
    (continues : Continues transcript parser before.advance fine) :
    Begins transcript parser before fine :=
  continues.imp (fun _ _ isRead => ⟨before.passesTo_advance.trans isRead.1, isRead.2⟩)
    fun _ lost => lost

theorem begins_map {fine : Result → Cursor → Prop} {build : Result → Next}
    (first : Begins transcript parser before fine)
    (built : ∀ result done, fine result done → good (build result) done) :
    Begins transcript (parser >>= fun result => pure (build result)) before good := by
  apply does_bind first
  rintro result done ⟨passed, isFine⟩
  exact does_pure ⟨passed, built result done isFine⟩

theorem continues_report_failure (diagnostic : Diagnostic) :
    Continues transcript (liftM (report diagnostic) >>= fun _ => failure) start good := by
  intro _
  refine ⟨?_, ?_, ?_⟩
  · intro earlier
    exact congrArg (fun done => (none, done))
      (start.addDiagnostic_reportedAfter diagnostic earlier)
  · intro _ isResult
    cases isResult
  · intro _
    exact .reports diagnostic

/-- A token that is required is under the cursor then. -/
theorem continues_required {wanted : Kind} {required : OptionT Parser Unit}
    {lost : Cursor → Cursor}
    (opened : ∀ cursor, required.run.run cursor =
      if cursor.peek.kind = wanted then (some (), cursor.advance) else (none, lost cursor))
    (oblivious : ∀ earlier, lost (start.reportedAfter earlier) =
      (lost start).reportedAfter earlier)
    (gaveUp : start.GivesUpAt (lost start)) :
    Continues transcript required start fun _ done => done.current.kind = wanted := by
  intro _
  by_cases found : start.peek.kind = wanted
  · have foundAfter : ∀ earlier, (start.reportedAfter earlier).peek.kind = wanted := fun _ => found
    refine ⟨?_, ?_, ?_⟩
    · intro earlier
      rw [opened, opened, if_pos found, if_pos (foundAfter earlier)]
      rfl
    · intro _ _
      rw [opened, if_pos found]
      exact ⟨start.passesTo_advance, found⟩
    · intro isNone
      rw [opened, if_pos found] at isNone
      cases isNone
  · have missingAfter : ∀ earlier, (start.reportedAfter earlier).peek.kind ≠ wanted :=
      fun _ => found
    refine ⟨?_, ?_, ?_⟩
    · intro earlier
      rw [opened, opened, if_neg found, if_neg (missingAfter earlier), oblivious]
    · intro _ isResult
      rw [opened, if_neg found] at isResult
      cases isResult
    · intro _
      rw [opened, if_neg found]
      exact gaveUp

theorem continues_expect (wanted : Kind) :
    Continues transcript (expect wanted) start fun _ done => done.current.kind = wanted :=
  continues_required (run_expect wanted)
    (fun earlier => start.addDiagnostic_reportedAfter _ earlier) (.reports _)

theorem continues_expectInStatement (wanted : Kind) :
    Continues transcript (expectInStatement wanted) start
      fun _ done => done.current.kind = wanted := by
  apply continues_required (run_expectInStatement wanted)
  · intro earlier
    exact congrArg (fun cursor => (skipStatement.run cursor).2)
      (start.addDiagnostic_reportedAfter _ earlier)
  · exact .followed (.reports _) (.moves (Cursor.skipTokens_suffix _))

theorem continues_identifier {role : Role} (allowed : start.current.kind ∈ role.allowed) :
    Continues transcript (liftM identifier) start fun ident _ => transcript.Names role ident :=
  does_lift fun covers =>
    ⟨fun _ => rfl, .refl start, Transcript.names_current covers.tokens allowed⟩

theorem passesTo_eatSemicolon (start : Cursor) :
    start.PassesTo (eatSemicolon.run start).2 := by
  have opened : eatSemicolon.run start =
      (if start.peek.kind = .semicolon then advance else pure () : Parser Unit).run start := rfl
  rw [opened]
  split
  · exact start.passesTo_advance
  · exact .refl start

theorem oblivious_eatSemicolon (start : Cursor) : Oblivious eatSemicolon start := by
  intro earlier
  have opened : ∀ cursor : Cursor, eatSemicolon.run cursor =
      (if cursor.peek.kind = .semicolon then advance else pure () : Parser Unit).run cursor :=
    fun _ => rfl
  rw [opened, opened]
  change (if start.peek.kind = .semicolon then advance else pure () : Parser Unit).run
    (start.reportedAfter earlier) = _
  split <;> rfl

theorem continues_eatSemicolon :
    Continues transcript (liftM eatSemicolon) start fun _ _ => True :=
  does_lift fun _ => ⟨oblivious_eatSemicolon start, passesTo_eatSemicolon start, trivial⟩

end Steps

/-! ## Loops -/

section WhileNext

variable {Admitted : Type} {follow : Kind → Option Admitted} {follow_eof : follow .eof = none}
  {step : Admitted → Result → OptionT Parser Result} {good : Result → Prop} {sofar : Result}

/-- What each round of a loop keeps holds in the end. A round that gives up has moved onto a token
that the loop goes on with. -/
theorem does_whileNext
    (kept : ∀ admitted sofar cursor, follow cursor.current.kind = some admitted → good sofar →
      Continues transcript (step admitted sofar) cursor fun result _ => good result)
    {sofar : Result} (isGood : good sofar) (start : Cursor) :
    Does transcript (whileNext follow follow_eof step sofar) start
      (fun result done => start.PassesTo done ∧ good result) start.BreaksOffAt := by
  cases goes : follow start.peek.kind with
  | none =>
      have stopped : Does transcript (pure sofar) start
          (fun result done => start.PassesTo done ∧ good result) start.BreaksOffAt :=
        does_pure ⟨.refl start, isGood⟩
      exact stopped.congr fun earlier => run_whileNext_of_none goes
  | some admitted =>
      have shorter := length_advance_lt_of_follow follow_eof goes
      have stepped := (kept admitted sofar start.advance goes isGood).imp (fun _ _ isRead => isRead)
        fun _ lost => Cursor.BreaksOffAt.next (peek_ne_eof_of_follow follow_eof goes) lost
      have goesOn : Does transcript
          (liftM advance >>= fun _ => step admitted sofar >>= whileNext follow follow_eof step)
          start (fun result done => start.PassesTo done ∧ good result) start.BreaksOffAt := by
        apply does_advance_bind
        apply does_bind stepped
        rintro result middle ⟨passed, readGood⟩
        have moved := passed.length_le
        have behind := start.passesTo_advance.trans passed
        exact (does_whileNext kept readGood middle).imp
          (fun _ _ isRead => ⟨behind.trans isRead.1, isRead.2⟩) fun _ lost => .behind behind lost
      exact goesOn.congr fun earlier => run_whileNext_eq_bind goes
termination_by start.tokens.length

theorem continues_whileNext (good : Result → Prop)
    (kept : ∀ admitted sofar cursor, follow cursor.current.kind = some admitted → good sofar →
      Continues transcript (step admitted sofar) cursor fun result _ => good result)
    (isGood : good sofar) :
    Continues transcript (whileNext follow follow_eof step sofar) start
      fun result _ => good result :=
  (does_whileNext kept isGood start).imp (fun _ _ isRead => isRead) fun _ lost => lost.givesUpAt

end WhileNext

/-- Where statements are read one after the other, those that are given up are passed over. -/
theorem course_statementsUntil {Item : Type} {close : Kind} {statement : OptionT Parser Item}
    {good : Item → Prop}
    (begins : ∀ before, Begins transcript statement before fun item _ => good item)
    (read : Array Item) (before : Cursor) (readGood : ∀ item ∈ read, good item)
    (covers : transcript.Covers before.advance
      ((statementsUntil close statement read).run before.advance).2) :
    Oblivious (statementsUntil close statement read) before.advance ∧
      before.PassesTo ((statementsUntil close statement read).run before.advance).2 ∧
      ∀ item ∈ ((statementsUntil close statement read).run before.advance).1, good item := by
  by_cases atEnd : before.advance.current.kind = close ∨ before.advance.current.kind = .eof
  · have closed : ∀ earlier, (before.advance.reportedAfter earlier).current.kind = close ∨
        (before.advance.reportedAfter earlier).current.kind = .eof := fun _ => atEnd
    refine ⟨?_, ?_⟩
    · intro earlier
      rw [run_statementsUntil_of_closed atEnd, run_statementsUntil_of_closed (closed earlier)]
    · rw [run_statementsUntil_of_closed atEnd]
      exact ⟨before.passesTo_advance, readGood⟩
  · have notClosed : ∀ earlier, ¬((before.advance.reportedAfter earlier).current.kind = close ∨
        (before.advance.reportedAfter earlier).current.kind = .eof) := fun _ => atEnd
    have shorter := length_advance_run_lt statement.run (not_or.1 atEnd).2
    have moved := leadsTo_run statement.run before.advance
    rw [run_statementsUntil_of_not_closed atEnd] at covers
    have later := leadsTo_run
      (statementsUntil close statement ((statement.run.run before.advance).1.elim read read.push))
      (statement.run.run before.advance).2.advance
    have ends := begins before ⟨covers.tokens, List.Subset.trans later.report.subset covers.errors⟩
    -- whether the statement is read or given up, reading goes on behind it
    have passed : before.PassesTo (statement.run.run before.advance).2 := by
      cases result : (statement.run.run before.advance).1 with
      | none => exact .recovers (not_or.1 atEnd).2 (ends.gaveUp result)
      | some item => exact (ends.read item result).1
    have nextGood : ∀ item ∈ (statement.run.run before.advance).1.elim read read.push,
        good item := by
      cases result : (statement.run.run before.advance).1 with
      | none => exact readGood
      | some item => exact Array.forall_mem_push.2 ⟨(ends.read item result).2, readGood⟩
    rcases course_statementsUntil begins _ _ nextGood
      ⟨((moved.trans (Cursor.leadsTo_advance _)).tokens).trans covers.tokens, covers.errors⟩
      with ⟨oblivious, onward, allGood⟩
    refine ⟨?_, ?_⟩
    · intro earlier
      rw [run_statementsUntil_of_not_closed atEnd, run_statementsUntil_of_not_closed
        (notClosed earlier), ends.oblivious earlier]
      exact oblivious earlier
    · rw [run_statementsUntil_of_not_closed atEnd]
      exact ⟨passed.trans onward, allGood⟩
termination_by before.advance.tokens.length

end Parser

/-! ## Levels -/

/-- What the parsers of a level read is built with at most `room` levels of nesting. -/
structure Level.Conforms (inside : Level) (transcript : Transcript) (room : Nat) : Prop where
  expression : ∀ precedence before,
    Parser.Begins transcript (inside.expression precedence) before fun expr _ =>
      before.advance.current ∈ transcript.tokens ∧ expr.Built transcript room
  statement : ∀ before,
    Parser.Begins transcript inside.statement before fun stmt _ => stmt.Built transcript room

namespace Parser

variable {transcript : Transcript} {inside : Level} {room : Nat} {start before : Cursor}

theorem begins_integer (isInt : before.advance.current.kind = .int) :
    Begins transcript (liftM (integer before.advance.current)) before fun expr _ =>
      expr.Built transcript (room + 1) := by
  apply does_lift
  intro covers
  have fills : transcript.Fills .integer before.advance.current :=
    Transcript.fills_current covers.tokens (by simp [Role.allowed, isInt])
  by_cases inRange : Decimal.value before.advance.current.literal.toList < Nat.pow 2 63
  · rw [integer, Decimal.int64?, if_pos inRange]
    exact ⟨fun _ => rfl, before.passesTo_advance,
      .int fills (by rw [Transcript.Denotes, if_pos inRange])⟩
  · rw [integer, Decimal.int64?, if_neg inRange] at covers ⊢
    have mentioned : .integerRange before.advance.current.literal ∈ (before.advance.addDiagnostic
        (.integerRange before.advance.current.literal)).report.toList := by
      simp [Cursor.addDiagnostic]
    refine ⟨?_, ?_, .int fills ?_⟩
    · intro earlier
      exact congrArg (fun done => (Expr.int before.advance.current 0, done))
        (before.advance.addDiagnostic_reportedAfter _ earlier)
    · have notEnd : before.peek.kind ≠ .eof := by
        intro isEnd
        exact absurd (isInt.symm.trans isEnd) (by decide)
      -- a number out of range is reported and read all the same
      exact .recovers notEnd (.reports _)
    · rw [Transcript.Denotes, if_neg inRange]
      exact ⟨rfl, covers.errors mentioned⟩

theorem continues_parameters :
    Continues transcript parameters start fun params _ =>
      ∀ param ∈ params, transcript.Names .parameter param := by
  apply does_peekKind_bind
  split
  · apply continues_advance_bind
    exact continues_pure (by simp)
  · apply continues_bind (continues_expect .ident)
    intro _ cursor isIdent
    have allowed : cursor.current.kind ∈ Role.parameter.allowed := by simp [Role.allowed, isIdent]
    apply continues_bind (continues_identifier allowed)
    intro first cursor named
    apply continues_bind (continues_whileNext
      (fun params : Array Ident => ∀ param ∈ params, transcript.Names .parameter param) ?_ ?_)
    · intro params cursor allNamed
      apply continues_bind (continues_expect _)
      intro _ cursor _
      exact continues_pure (by simpa using allNamed)
    · intro _ params cursor _ allNamed
      apply continues_bind (continues_expect .ident)
      intro _ cursor isIdent
      have allowed : cursor.current.kind ∈ Role.parameter.allowed := by simp [Role.allowed, isIdent]
      apply continues_bind (continues_identifier allowed)
      intro next cursor named
      exact continues_pure (Array.forall_mem_push.2 ⟨named, allNamed⟩)
    · simpa using named

section Conforms

variable (conforms : inside.Conforms transcript room)

include conforms

theorem continues_expression_bind {Result : Type} {precedence : Precedence}
    {next : Expr → OptionT Parser Result} {good : Result → Cursor → Prop}
    (rest : ∀ expr middle, expr.Built transcript room →
      Continues transcript (next expr) middle good) :
    Continues transcript (liftM advance >>= fun _ => inside.expression precedence >>= next) start
      good :=
  continues_behind_bind (conforms.expression precedence start) fun expr middle isRead =>
    rest expr middle isRead.2

theorem continues_block :
    Continues transcript (liftM (block inside)) start fun block _ =>
      start.current.kind = .lbrace → block.Built transcript room := by
  apply does_lift
  intro covers
  have onward := start.leadsTo_advance.tokens.trans covers.tokens
  rcases course_statementsUntil conforms.statement #[] start (by simp) ⟨onward, covers.errors⟩
    with ⟨oblivious, passed, built⟩
  refine ⟨?_, passed, ?_⟩
  · intro earlier
    exact congrArg (fun done => (Block.mk start.current done.1.toList, done.2)) (oblivious earlier)
  · intro opens
    refine .mk (Transcript.fills_current covers.tokens (by simp [Role.allowed, opens])) ?_
    intro stmt stmt_mem
    exact built stmt (Array.mem_toList_iff.1 stmt_mem)

theorem continues_arguments :
    Continues transcript (arguments inside) start fun args _ =>
      ∀ arg ∈ args, arg.Built transcript room := by
  apply does_peekKind_bind
  split
  · apply continues_advance_bind
    exact continues_pure (by simp)
  · apply continues_expression_bind conforms
    intro first cursor built
    apply continues_bind (continues_whileNext
      (fun args : Array Expr => ∀ arg ∈ args, arg.Built transcript room) ?_ ?_)
    · intro args cursor allBuilt
      apply continues_bind (continues_expect _)
      intro _ cursor _
      exact continues_pure (by simpa using allBuilt)
    · intro _ args cursor _ allBuilt
      apply continues_expression_bind conforms
      intro next cursor built
      exact continues_pure (Array.forall_mem_push.2 ⟨built, allBuilt⟩)
    · simpa using built

theorem continues_alternative :
    Continues transcript (alternative inside) start fun alternative _ =>
      ∀ block ∈ alternative, block.Built transcript room := by
  apply does_peekKind_bind
  split
  · apply continues_advance_bind
    apply continues_bind (continues_expect .lbrace)
    intro _ cursor opens
    apply continues_bind (continues_block conforms)
    intro block cursor built
    exact continues_pure (by simpa using built opens)
  · exact continues_pure (by simp)

theorem begins_operand :
    Begins transcript (operand inside) before fun expr _ =>
      before.advance.current ∈ transcript.tokens ∧ expr.Built transcript (room + 1) := by
  apply does_current_bind
  intro inSource
  have fills : ∀ role : Role, before.advance.current.kind ∈ role.allowed →
      transcript.Fills role before.advance.current := fun role => Transcript.fills_current inSource
  split
  · next kind =>
      have named := fills .identifier (by simp [Role.allowed, kind])
      exact begins_of_continues (continues_pure ⟨named.read, .name ⟨named, rfl⟩⟩)
  · next kind =>
      have read := Transcript.mem_of_current inSource (by simp [kind])
      exact (begins_integer kind).imp (fun _ _ isRead => ⟨isRead.1, read, isRead.2⟩)
        fun _ lost => lost
  · next kind =>
      have isBool := fills .boolean (by simp [Role.allowed, kind])
      exact begins_of_continues (continues_pure ⟨isBool.read, .bool isBool (by simp [kind])⟩)
  · next kind =>
      have isBool := fills .boolean (by simp [Role.allowed, kind])
      exact begins_of_continues (continues_pure ⟨isBool.read, .bool isBool (by simp [kind])⟩)
  · next kind =>
      have operator := fills .unary (by simp [Role.allowed, kind])
      apply begins_of_continues
      apply continues_expression_bind conforms
      intro operand _ inner
      exact continues_pure ⟨operator.read, .unary operator inner⟩
  · next kind =>
      have operator := fills .unary (by simp [Role.allowed, kind])
      apply begins_of_continues
      apply continues_expression_bind conforms
      intro operand _ inner
      exact continues_pure ⟨operator.read, .unary operator inner⟩
  · next kind =>
      have read := Transcript.mem_of_current inSource (by simp [kind])
      apply begins_of_continues
      apply continues_expression_bind conforms
      intro expr _ inner
      apply continues_bind (continues_expect _)
      intro _ _ _
      exact continues_pure ⟨read, .group inner⟩
  · next kind =>
      have isIf := fills .cond (by simp [Role.allowed, kind])
      apply begins_of_continues
      apply continues_bind (continues_expect _)
      intro _ _ _
      apply continues_expression_bind conforms
      intro test _ condition
      apply continues_bind (continues_expect _)
      intro _ _ _
      apply continues_bind (continues_expect .lbrace)
      intro _ cursor opens
      apply continues_bind (continues_block conforms)
      intro consequence _ branch
      apply continues_bind (continues_alternative conforms)
      intro alternative _ elseBranch
      exact continues_pure ⟨isIf.read, .cond isIf condition (branch opens) elseBranch⟩
  · next kind =>
      have isFn := fills .function (by simp [Role.allowed, kind])
      apply begins_of_continues
      apply continues_bind (continues_expect _)
      intro _ _ _
      apply continues_bind continues_parameters
      intro params _ named
      apply continues_bind (continues_expect .lbrace)
      intro _ cursor opens
      apply continues_bind (continues_block conforms)
      intro body _ built
      exact continues_pure ⟨isFn.read, .function isFn named (built opens)⟩
  · exact begins_of_continues (continues_report_failure _)
  · exact begins_of_continues (continues_report_failure _)

theorem continues_continuation {kind : Continuation} {left : Expr}
    (continues : start.current.kind.continuation? = some kind)
    (leftBuilt : left.Built transcript (room + 1)) :
    Continues transcript (continuation inside kind left) start fun expr _ =>
      expr.Built transcript (room + 1) := by
  apply does_current_bind
  intro inSource
  cases kind with
  | binary precedence =>
      have fills : transcript.Fills .binary start.current := by
        apply Transcript.fills_current inSource
        revert continues
        cases start.current.kind <;> simp [Kind.continuation?, Role.allowed]
      apply continues_expression_bind conforms
      intro right _ rightBuilt
      exact continues_pure (.binary fills leftBuilt rightBuilt)
  | suffix =>
      have fills : transcript.Fills .suffix start.current :=
        Transcript.fills_current inSource (Kind.continuation?_eq_suffix_iff.1 continues)
      exact continues_pure (.suffix fills leftBuilt)
  | call =>
      have fills : transcript.Fills .call start.current := by
        apply Transcript.fills_current inSource
        simp [Role.allowed, Kind.continuation?_eq_call_iff.1 continues]
      apply continues_bind (continues_arguments conforms)
      intro args _ argsBuilt
      exact continues_pure (.call fills leftBuilt argsBuilt)

theorem begins_expressionWith (precedence : Precedence) :
    Begins transcript (expressionWith inside precedence) before fun expr _ =>
      before.advance.current ∈ transcript.tokens ∧ expr.Built transcript (room + 1) := by
  apply does_bind (begins_operand conforms)
  rintro first middle ⟨passed, read, firstBuilt⟩
  refine (does_whileNext ?_ firstBuilt middle).imp
    (fun _ _ isRead => ⟨passed.trans isRead.1, read, isRead.2⟩)
    fun _ lost => (Cursor.BreaksOffAt.behind passed lost).givesUpAt_advance
  intro kind left cursor admitted leftBuilt
  exact continues_continuation conforms (Option.filter_eq_some_iff.1 admitted).1 leftBuilt

/-- The `;` is read whether there is an expression or not. -/
theorem begins_closedExpression :
    Begins transcript (closedExpression inside) before fun expr _ =>
      before.advance.current ∈ transcript.tokens ∧ expr.Built transcript room := by
  have opened : ∀ cursor, (closedExpression inside).run.run cursor =
      (((inside.expression .lowest).run.run cursor).1,
        (eatSemicolon.run ((inside.expression .lowest).run.run cursor).2).2) := fun _ => rfl
  intro covers
  rw [opened] at covers
  have later := leadsTo_run eatSemicolon ((inside.expression .lowest).run.run before.advance).2
  have passed := passesTo_eatSemicolon ((inside.expression .lowest).run.run before.advance).2
  have ends := conforms.expression .lowest before
    ⟨covers.tokens, List.Subset.trans later.report.subset covers.errors⟩
  refine ⟨?_, ?_, ?_⟩
  · intro earlier
    rw [opened, opened, ends.oblivious earlier, oblivious_eatSemicolon _ earlier]
  · rw [opened]
    intro expr isExpr
    have isRead := ends.read expr isExpr
    exact ⟨isRead.1.trans passed, isRead.2⟩
  · rw [opened]
    intro isNone
    exact .followed (ends.gaveUp isNone) passed

theorem begins_statementWith :
    Begins transcript (statementWith inside) before fun stmt _ =>
      stmt.Built transcript (room + 1) := by
  have closed : ∀ before, Begins transcript (closedExpression inside) before fun expr _ =>
      before.advance.current ∈ transcript.tokens ∧ expr.Built transcript room :=
    fun _ => begins_closedExpression conforms
  apply does_current_bind
  intro inSource
  split
  · next kind =>
      have fills : transcript.Fills .letBind before.advance.current :=
        Transcript.fills_current inSource (by simp [Role.allowed, kind])
      apply begins_of_continues
      apply continues_bind (continues_expectInStatement .ident)
      intro _ cursor isIdent
      have allowed : cursor.current.kind ∈ Role.letName.allowed := by simp [Role.allowed, isIdent]
      apply continues_bind (continues_identifier allowed)
      intro name _ names
      apply continues_bind (continues_expectInStatement _)
      intro _ cursor _
      apply continues_behind_bind (closed cursor)
      intro expr _ value
      exact continues_pure (.letBind fills names value.2)
  · next kind =>
      have fills : transcript.Fills .ret before.advance.current :=
        Transcript.fills_current inSource (by simp [Role.allowed, kind])
      apply begins_of_continues
      apply continues_behind_bind (closed before.advance)
      intro expr _ value
      exact continues_pure (.ret fills value.2)
  · next kind =>
      apply begins_of_continues
      apply continues_bind (continues_block conforms)
      intro block _ inner
      apply continues_bind continues_eatSemicolon
      intro _ _ _
      exact continues_pure (.block (inner kind))
  · exact begins_map (closed before) fun _ _ isRead => .expr isRead.1 isRead.2

end Conforms

theorem begins_tooDeep {Result : Type} {good : Result → Cursor → Prop} :
    Begins transcript tooDeep before good := by
  intro _
  refine ⟨?_, ?_, ?_⟩
  · intro earlier
    exact congrArg (fun done => (none, (skipStatement.run done).2))
      (before.advance.addDiagnostic_reportedAfter .tooDeep earlier)
  · intro _ isResult
    cases isResult
  · intro _
    exact .followed (.reports .tooDeep) (.moves (Cursor.skipTokens_suffix _))

end Parser

theorem Level.conforms_inside (transcript : Transcript) (room : Nat) :
    (Level.inside room).Conforms transcript room := by
  induction room with
  | zero => exact ⟨fun _ _ => Parser.begins_tooDeep, fun _ => Parser.begins_tooDeep⟩
  | succ room ih =>
      exact ⟨fun precedence _ => Parser.begins_expressionWith ih precedence,
        fun _ => Parser.begins_statementWith ih⟩

/-- Every statement of a program is built from the tokens of its source, whatever is reported. -/
theorem Program.built_of_mem_read {source : String} {stmt : Stmt}
    (stmt_mem : stmt ∈ (Program.read source).1.statements) :
    stmt.Built ⟨tokenize source, (Program.read source).2.toList⟩ nestingLimit := by
  have conforms := Level.conforms_inside ⟨tokenize source, (Program.read source).2.toList⟩
    nestingLimit
  have course := Parser.course_statementsUntil conforms.statement #[]
    (Cursor.ofSource source).stepBack (by simp) ⟨List.suffix_refl _, List.Subset.refl _⟩
  exact course.2.2 stmt (Array.mem_toList_iff.1 stmt_mem)

/-! ## From any cursor -/

section Inside

variable (room : Nat) (start : Cursor)

theorem Level.ends_expression (precedence : Precedence) :
    Parser.Ends ((Level.inside room).expression precedence) start
      (fun _ done => start.stepBack.PassesTo done) start.GivesUpAt := by
  apply Parser.ends_of_does
  intro transcript
  have begins := (Level.conforms_inside transcript room).expression precedence start.stepBack
  exact begins.imp (fun _ _ isRead => isRead.1) fun _ lost => lost

theorem Level.ends_statement :
    Parser.Ends (Level.inside room).statement start (fun _ done => start.stepBack.PassesTo done)
      start.GivesUpAt := by
  apply Parser.ends_of_does
  intro transcript
  have begins := (Level.conforms_inside transcript room).statement start.stepBack
  exact begins.imp (fun _ _ isRead => isRead.1) fun _ lost => lost

theorem Level.course_statements (close : Kind) :
    Parser.Oblivious (Parser.statementsUntil close (Level.inside room).statement #[]) start ∧
      start.stepBack.PassesTo
        ((Parser.statementsUntil close (Level.inside room).statement #[]).run start).2 := by
  have conforms := Level.conforms_inside ⟨start.tokens,
    ((Parser.statementsUntil close (Level.inside room).statement #[]).run start).2.report.toList⟩
    room
  have course := Parser.course_statementsUntil conforms.statement #[] start.stepBack (by simp)
    ⟨List.suffix_refl _, List.Subset.refl _⟩
  exact ⟨course.1, course.2.1⟩

end Inside

/-! ## Giving up is reported -/

namespace Cursor

mutual

theorem PassesTo.length_report_le {start done : Cursor} :
    start.PassesTo done → start.report.toList.length ≤ done.report.toList.length
  | .moves _ => Nat.le_refl _
  | .trans first second => Nat.le_trans first.length_report_le second.length_report_le
  | .recovers _ gaveUp => Nat.le_of_lt gaveUp.length_report_lt

theorem GivesUpAt.length_report_lt {start done : Cursor} :
    start.GivesUpAt done → start.report.toList.length < done.report.toList.length
  | .reports diagnostic => by simp [addDiagnostic]
  | .behind passed gaveUp => Nat.lt_of_le_of_lt passed.length_report_le gaveUp.length_report_lt
  | .followed gaveUp passed => Nat.lt_of_lt_of_le gaveUp.length_report_lt passed.length_report_le
  | .onward passed _ gaveUp => Nat.lt_of_le_of_lt passed.length_report_le gaveUp.length_report_lt

end

end Cursor

namespace Parser

/-- The parser never gives up without adding to the report. -/
def Accountable {Result : Type} (parser : OptionT Parser Result) : Prop :=
  ∀ start, (parser.run.run start).1 = none →
    start.report.toList.length < (parser.run.run start).2.report.toList.length

theorem accountable_expect (wanted : Kind) : Accountable (expect wanted) := by
  intro start gaveUp
  have ends : Ends (expect wanted) start _ start.GivesUpAt :=
    ends_of_does fun _ => continues_expect wanted
  exact (ends.gaveUp gaveUp).length_report_lt

/-- No level gives up in silence. -/
theorem accountable_inside (room : Nat) :
    (∀ precedence, Accountable ((Level.inside room).expression precedence)) ∧
      Accountable (Level.inside room).statement :=
  ⟨fun precedence start gaveUp =>
    ((Level.ends_expression room start precedence).gaveUp gaveUp).length_report_lt,
    fun start gaveUp => ((Level.ends_statement room start).gaveUp gaveUp).length_report_lt⟩

end Parser

end Scriptlet
