import Scriptlet.Proofs.Parser.Grammar
import Scriptlet.Proofs.Parser.Course

/-!
# Reading without complaint

A parser is followed here only as long as nothing is reported. `Reads` says that a parser, started
on some tokens with an empty report, ends with a result at certain other tokens and leaves the
report empty; `Gives` says the same of a parser that may give up, when it does not.

Because a parser takes nothing back that was reported, the parts of a parser that reads without
complaint do so themselves. That makes `Reads` and `Gives` compositional in both directions: each
combinator has one equivalence, and a whole parser is opened by rewriting with them. The two loops
are opened one round at a time.
-/

namespace Scriptlet

namespace Report

theorem eq_empty_of_toList {Error : Type} {report : Report Error} (none : report.toList = []) :
    report = {} := by
  rcases report with ⟨errors⟩
  have : errors = #[] := Array.toList_eq_nil_iff.1 none
  rw [this]

end Report

namespace Parser

variable {Result Next : Type}

/-- With nothing reported, the parser reads `result` from `tokens` and stops at `after`, and still
nothing is reported. -/
def Reads (parser : Parser Result) (tokens : List Token) (result : Result)
    (after : List Token) : Prop :=
  parser.run ⟨tokens, {}⟩ = (result, ⟨after, {}⟩)

/-- With nothing reported, the parser does not give up: it reads `result` from `tokens` and stops at
`after`, and still nothing is reported. -/
def Gives (parser : OptionT Parser Result) (tokens : List Token) (result : Result)
    (after : List Token) : Prop :=
  parser.run.Reads tokens (some result) after

theorem suffix_of_reads {parser : Parser Result} {tokens after : List Token} {result : Result}
    (reads : parser.Reads tokens result after) : after <:+ tokens := by
  have moved := (leadsTo_run parser ⟨tokens, {}⟩).tokens
  rw [reads] at moved
  exact moved

theorem reads_pure_iff {result other : Result} {tokens after : List Token} :
    (pure result : Parser Result).Reads tokens other after ↔ other = result ∧ after = tokens := by
  simp only [Reads, run_pure, Prod.mk.injEq, Cursor.mk.injEq, and_true]
  exact ⟨fun equal => ⟨equal.1.symm, equal.2.symm⟩, fun equal => ⟨equal.1.symm, equal.2.symm⟩⟩

/-- A parser in two parts reads without complaint exactly if both parts do. -/
theorem reads_bind_iff {parser : Parser Result} {next : Result → Parser Next}
    {tokens after : List Token} {result : Next} :
    (parser >>= next).Reads tokens result after ↔
      ∃ first middle, parser.Reads tokens first middle ∧ (next first).Reads middle result after := by
  constructor
  · intro reads
    rw [Reads, run_bind] at reads
    rcases done : parser.run ⟨tokens, {}⟩ with ⟨first, ⟨middle, report⟩⟩
    rw [done] at reads
    have grown := (leadsTo_run (next first) ⟨middle, report⟩).report
    rw [reads] at grown
    -- the report was empty in the end, so it was empty in between
    obtain rfl := Report.eq_empty_of_toList (List.prefix_nil.1 grown)
    exact ⟨first, middle, done, reads⟩
  · rintro ⟨first, middle, firstReads, nextReads⟩
    rw [Reads] at firstReads
    rw [Reads, run_bind, firstReads]
    exact nextReads

theorem gives_pure_iff {result other : Result} {tokens after : List Token} :
    Gives (pure result) tokens other after ↔ other = result ∧ after = tokens := by
  rw [Gives, OptionT.run_pure, reads_pure_iff, Option.some.injEq]

theorem gives_bind_iff {parser : OptionT Parser Result} {next : Result → OptionT Parser Next}
    {tokens after : List Token} {result : Next} :
    Gives (parser >>= next) tokens result after ↔
      ∃ first middle, Gives parser tokens first middle ∧ Gives (next first) middle result after := by
  have opened : (parser >>= next).run = parser.run >>= fun
      | some first => (next first).run
      | none => pure none := rfl
  rw [Gives, opened, reads_bind_iff]
  constructor
  · rintro ⟨_ | first, middle, parserReads, nextReads⟩
    · rw [reads_pure_iff] at nextReads
      simp at nextReads
    · exact ⟨first, middle, parserReads, nextReads⟩
  · rintro ⟨first, middle, parserGives, nextGives⟩
    exact ⟨some first, middle, parserGives, nextGives⟩

theorem gives_lift_iff {parser : Parser Result} {tokens after : List Token} {result : Result} :
    Gives (liftM parser) tokens result after ↔ parser.Reads tokens result after := by
  have opened : (liftM parser : OptionT Parser Result).run =
      parser >>= fun first => pure (some first) := rfl
  rw [Gives, opened, reads_bind_iff]
  constructor
  · rintro ⟨first, middle, parserReads, done⟩
    rw [reads_pure_iff, Option.some.injEq] at done
    rcases done with ⟨rfl, rfl⟩
    exact parserReads
  · intro parserReads
    exact ⟨result, after, parserReads, reads_pure_iff.2 ⟨rfl, rfl⟩⟩

/-! ## Single steps -/

section Steps

variable {tokens after : List Token} {kind : Kind} {done : Unit}

theorem reads_current_iff {token : Token} :
    current.Reads tokens token after ↔ token = tokens.headD .eof ∧ after = tokens := by
  have opened : current.run ⟨tokens, {}⟩ = (tokens.headD .eof, ⟨tokens, {}⟩) := rfl
  rw [Reads, opened]
  simp [eq_comm]

theorem reads_peekKind_iff :
    peekKind.Reads tokens kind after ↔ kind = firstKind tokens.tail ∧ after = tokens := by
  have opened : peekKind.run ⟨tokens, {}⟩ = (firstKind tokens.tail, ⟨tokens, {}⟩) := rfl
  rw [Reads, opened]
  simp [eq_comm]

theorem reads_advance_iff : advance.Reads tokens done after ↔ after = tokens.tail := by
  have opened : advance.run ⟨tokens, {}⟩ = ((), ⟨tokens.tail, {}⟩) := rfl
  rw [Reads, opened]
  simp [eq_comm]

theorem not_reads_report {diagnostic : Diagnostic} :
    ¬(report diagnostic).Reads tokens done after := by
  intro reads
  have opened : (report diagnostic).run ⟨tokens, {}⟩ =
      ((), ⟨tokens, ({} : Report Diagnostic).add diagnostic⟩) := rfl
  rw [Reads, opened] at reads
  simp [Report.add] at reads

theorem reads_identifier_iff {ident : Ident} :
    identifier.Reads tokens ident after ↔
      ident = .ofToken (tokens.headD .eof) ∧ after = tokens := by
  rw [identifier, reads_bind_iff]
  constructor
  · rintro ⟨token, middle, reads, done⟩
    rw [reads_current_iff] at reads
    rw [reads_pure_iff] at done
    rcases reads with ⟨rfl, rfl⟩
    exact done
  · rintro ⟨rfl, rfl⟩
    exact ⟨_, _, reads_current_iff.2 ⟨rfl, rfl⟩, reads_pure_iff.2 ⟨rfl, rfl⟩⟩

/-- Without a report, only a token of the wanted kind is moved onto. -/
theorem gives_expect_iff {wanted : Kind} :
    Gives (expect wanted) tokens done after ↔
      firstKind tokens.tail = wanted ∧ after = tokens.tail := by
  rw [expect, gives_bind_iff]
  constructor
  · rintro ⟨found, middle, peeked, moved⟩
    rw [gives_lift_iff, reads_peekKind_iff] at peeked
    rcases peeked with ⟨rfl, rfl⟩
    split at moved
    · next isWanted =>
        rw [gives_lift_iff, reads_advance_iff] at moved
        exact ⟨isWanted, moved⟩
    · rw [gives_bind_iff] at moved
      rcases moved with ⟨_, _, reported, _⟩
      rw [gives_lift_iff] at reported
      exact absurd reported not_reads_report
  · rintro ⟨isWanted, rfl⟩
    refine ⟨_, _, gives_lift_iff.2 (reads_peekKind_iff.2 ⟨rfl, rfl⟩), ?_⟩
    rw [if_pos isWanted, gives_lift_iff, reads_advance_iff]

theorem reads_eatSemicolon_iff :
    eatSemicolon.Reads tokens done after ↔
      after = if firstKind tokens.tail = .semicolon then tokens.tail else tokens := by
  rw [eatSemicolon, reads_bind_iff]
  constructor
  · rintro ⟨found, middle, peeked, moved⟩
    rw [reads_peekKind_iff] at peeked
    rcases peeked with ⟨rfl, rfl⟩
    split at moved
    · next isSemicolon =>
        rw [if_pos isSemicolon]
        exact reads_advance_iff.1 moved
    · next notSemicolon =>
        rw [if_neg notSemicolon]
        exact (reads_pure_iff.1 moved).2
  · rintro rfl
    refine ⟨_, _, reads_peekKind_iff.2 ⟨rfl, rfl⟩, ?_⟩
    split
    · exact reads_advance_iff.2 rfl
    · exact reads_pure_iff.2 ⟨rfl, rfl⟩

variable {result : Result}

/-- Once it is known what the first part of a parser reads, only the second part is left. -/
theorem gives_bind_of_gives {parser : OptionT Parser Next} {next : Next → OptionT Parser Result}
    {first : Next} {middle : List Token} (known : Gives parser tokens first middle) :
    Gives (parser >>= next) tokens result after ↔ Gives (next first) middle result after := by
  rw [gives_bind_iff]
  constructor
  · rintro ⟨other, between, gives, rest⟩
    have same := known.symm.trans gives
    simp only [Prod.mk.injEq, Option.some.injEq, Cursor.mk.injEq, and_true] at same
    rcases same with ⟨rfl, rfl⟩
    exact rest
  · intro rest
    exact ⟨first, middle, known, rest⟩

theorem gives_current_bind_iff {next : Token → OptionT Parser Result} :
    Gives (liftM current >>= next) tokens result after ↔
      Gives (next (tokens.headD .eof)) tokens result after :=
  gives_bind_of_gives (gives_lift_iff.2 (reads_current_iff.2 ⟨rfl, rfl⟩))

theorem gives_peekKind_bind_iff {next : Kind → OptionT Parser Result} :
    Gives (liftM peekKind >>= next) tokens result after ↔
      Gives (next (firstKind tokens.tail)) tokens result after :=
  gives_bind_of_gives (gives_lift_iff.2 (reads_peekKind_iff.2 ⟨rfl, rfl⟩))

theorem gives_advance_bind_iff {next : Unit → OptionT Parser Result} :
    Gives (liftM advance >>= next) tokens result after ↔
      Gives (next ()) tokens.tail result after :=
  gives_bind_of_gives (gives_lift_iff.2 (reads_advance_iff.2 rfl))

theorem gives_identifier_bind_iff {next : Ident → OptionT Parser Result} :
    Gives (liftM identifier >>= next) tokens result after ↔
      Gives (next (.ofToken (tokens.headD .eof))) tokens result after :=
  gives_bind_of_gives (gives_lift_iff.2 (reads_identifier_iff.2 ⟨rfl, rfl⟩))

theorem not_gives_report_bind {diagnostic : Diagnostic} {next : Unit → OptionT Parser Result} :
    ¬Gives (liftM (report diagnostic) >>= next) tokens result after := by
  rw [gives_bind_iff]
  rintro ⟨_, _, reported, _⟩
  rw [gives_lift_iff] at reported
  exact not_reads_report reported

theorem comma?_eq_some_iff {kind : Kind} {admitted : Unit} :
    comma? kind = some admitted ↔ kind = .comma := by
  simp [comma?]

theorem gives_expect_bind_iff {wanted : Kind} {next : Unit → OptionT Parser Result} :
    Gives (expect wanted >>= next) tokens result after ↔
      firstKind tokens.tail = wanted ∧ Gives (next ()) tokens.tail result after := by
  constructor
  · intro gives
    rw [gives_bind_iff] at gives
    rcases gives with ⟨_, middle, moved, rest⟩
    rw [gives_expect_iff] at moved
    rcases moved with ⟨isWanted, rfl⟩
    exact ⟨isWanted, rest⟩
  · rintro ⟨isWanted, rest⟩
    exact (gives_bind_of_gives (gives_expect_iff.2 ⟨isWanted, rfl⟩)).2 rest

/-- Without a report, a statement is not skipped for lack of a token. -/
theorem gives_expectInStatement_iff {wanted : Kind} :
    Gives (expectInStatement wanted) tokens done after ↔ Gives (expect wanted) tokens done after := by
  rw [Gives, expectInStatement, OptionT.run_orElse, Option.elimM, reads_bind_iff]
  constructor
  · rintro ⟨_ | _, middle, first, rest⟩
    · have reported := accountable_expect wanted ⟨tokens, {}⟩ (by rw [first])
      rw [first] at reported
      exact absurd reported (Nat.lt_irrefl _)
    · rw [Option.elim_some, reads_pure_iff] at rest
      rcases rest with ⟨same, rfl⟩
      exact first
  · intro gives
    exact ⟨some done, after, gives, reads_pure_iff.2 ⟨rfl, rfl⟩⟩

theorem gives_expectInStatement_bind_iff {wanted : Kind} {next : Unit → OptionT Parser Result} :
    Gives (expectInStatement wanted >>= next) tokens result after ↔
      firstKind tokens.tail = wanted ∧ Gives (next ()) tokens.tail result after := by
  simp only [← gives_expect_bind_iff, gives_bind_iff, gives_expectInStatement_iff]

end Steps

/-! ## Loops -/

section Loops

variable {Admitted Item : Type} {follow : Kind → Option Admitted} {follow_eof : follow .eof = none}
  {step : Admitted → Result → OptionT Parser Result} {sofar result : Result}
  {tokens after : List Token}

theorem gives_whileNext_of_none (stops : follow (firstKind tokens.tail) = none) :
    Gives (whileNext follow follow_eof step sofar) tokens result after ↔
      result = sofar ∧ after = tokens := by
  rw [Gives, Reads, run_whileNext_of_none stops]
  simp [eq_comm]

theorem gives_whileNext_of_some {admitted : Admitted}
    (goes : follow (firstKind tokens.tail) = some admitted) :
    Gives (whileNext follow follow_eof step sofar) tokens result after ↔
      ∃ read middle, Gives (step admitted sofar) tokens.tail read middle ∧
        Gives (whileNext follow follow_eof step read) middle result after := by
  rw [← gives_bind_iff, Gives, Reads, run_whileNext_eq_bind goes]
  rfl

/-- What holds before a loop and is kept by each of its rounds holds in the end, in front of a token
that is not admitted. -/
theorem gives_whileNext_induction {sofar : Result} {tokens : List Token}
    (gives : Gives (whileNext follow follow_eof step sofar) tokens result after)
    (invariant : Result → List Token → Prop) (start : invariant sofar tokens)
    (kept : ∀ sofar tokens admitted read middle, invariant sofar tokens →
      follow (firstKind tokens.tail) = some admitted →
      Gives (step admitted sofar) tokens.tail read middle → invariant read middle) :
    invariant result after ∧ follow (firstKind after.tail) = none := by
  cases goes : follow (firstKind tokens.tail) with
  | none =>
      rw [gives_whileNext_of_none goes] at gives
      rcases gives with ⟨rfl, rfl⟩
      exact ⟨start, goes⟩
  | some admitted =>
      rw [gives_whileNext_of_some goes] at gives
      rcases gives with ⟨read, middle, stepped, rest⟩
      have shorter : middle.length < tokens.length := by
        have moved := (suffix_of_reads stepped).length_le
        cases tokens with
        | nil =>
            rw [List.tail_nil, firstKind_nil, follow_eof] at goes
            cases goes
        | cons token tokens =>
            rw [List.tail_cons] at moved
            exact Nat.lt_succ_of_le moved
      exact gives_whileNext_induction rest invariant
        (kept sofar tokens admitted read middle start goes stepped) kept
termination_by tokens.length

variable {close : Kind} {statement : OptionT Parser Item} {read all : Array Item}

theorem reads_statementsUntil_of_closed
    (closed : firstKind tokens = close ∨ firstKind tokens = .eof) :
    (statementsUntil close statement read).Reads tokens all after ↔
      all = read ∧ after = tokens := by
  have opened : (statementsUntil close statement read).run ⟨tokens, {}⟩ = (read, ⟨tokens, {}⟩) :=
    run_statementsUntil_of_closed closed
  rw [Reads, opened]
  simp [eq_comm]

/-- Without a report, no statement is left out. -/
theorem reads_statementsUntil_of_not_closed (accountable : Accountable statement)
    (notClosed : ¬(firstKind tokens = close ∨ firstKind tokens = .eof)) :
    (statementsUntil close statement read).Reads tokens all after ↔
      ∃ item middle, Gives statement tokens item middle ∧
        (statementsUntil close statement (read.push item)).Reads middle.tail all after := by
  have opened : (statementsUntil close statement read).run ⟨tokens, {}⟩ =
      (statement.run >>= fun item => advance >>= fun _ =>
        statementsUntil close statement (item.elim read read.push)).run ⟨tokens, {}⟩ :=
    run_statementsUntil_of_not_closed notClosed
  rw [Reads, opened]
  change (statement.run >>= _).Reads tokens all after ↔ _
  rw [reads_bind_iff]
  constructor
  · rintro ⟨_ | item, middle, first, rest⟩
    · have reported := accountable ⟨tokens, {}⟩ (by rw [first])
      rw [first] at reported
      exact absurd reported (Nat.lt_irrefl _)
    · rw [reads_bind_iff] at rest
      rcases rest with ⟨_, _, moved, rest⟩
      rw [reads_advance_iff] at moved
      rw [moved] at rest
      exact ⟨item, middle, first, rest⟩
  · rintro ⟨item, middle, first, rest⟩
    exact ⟨some item, middle, first,
      reads_bind_iff.2 ⟨(), middle.tail, reads_advance_iff.2 rfl, rest⟩⟩

end Loops

end Parser

end Scriptlet
