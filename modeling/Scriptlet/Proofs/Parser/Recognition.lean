import Scriptlet.Proofs.Lexer.Spelling
import Scriptlet.Proofs.Parser.Completeness
import Scriptlet.Proofs.Parser.Soundness
import Scriptlet.Session

/-!
# The parser recognizes the grammar

Soundness and completeness of the levels, put together for whole programs: a source is read without
complaint exactly if its tokens derive a program within the nesting limit, and what is read is the
program of the derivation. As the parser is a function, the grammar is unambiguous within the limit.
-/

namespace Scriptlet

theorem proper_tokenize (source : String) : Proper (tokenize source) :=
  fun _ token_mem => (Token.wellFormed_of_mem_all token_mem).kind_ne_eof

theorem Report.isEmpty_iff {Error : Type} {report : Report Error} :
    report.isEmpty = true ↔ report = .empty := by
  cases report
  simp [Report.isEmpty, Report.empty]

namespace Program

open Scriptlet.Parser

theorem read_eq_iff_reads {source : String} {program : Program} :
    Program.read source = (program, .empty) ↔ ∃ after,
      (statementsUntil .eof Parser.statement #[]).Reads (tokenize source)
        program.statements.toArray after := by
  have opened : Parser.program = statementsUntil .eof Parser.statement #[] >>= fun statements =>
      pure ⟨statements.toList⟩ := rfl
  constructor
  · intro read
    rcases done : Parser.program.run (.ofSource source) with ⟨result, after, report⟩
    rw [Program.read, done] at read
    simp only [Prod.mk.injEq] at read
    rcases read with ⟨rfl, rfl⟩
    have reads : Parser.program.Reads (tokenize source) result after := done
    rw [opened, reads_bind_iff] at reads
    rcases reads with ⟨statements, middle, loop, rest⟩
    rw [reads_pure_iff] at rest
    rcases rest with ⟨rfl, rfl⟩
    exact ⟨after, by simpa using loop⟩
  · rintro ⟨after, loop⟩
    have reads : Parser.program.Reads (tokenize source) program after := by
      rw [opened, reads_bind_iff]
      exact ⟨_, after, loop, reads_pure_iff.2 ⟨by simp, rfl⟩⟩
    rw [Program.read, show Parser.program.run (.ofSource source) = _ from reads]
    rfl

theorem derives_of_read {source : String} {program : Program}
    (read : Program.read source = (program, .empty)) :
    ∃ nesting ≤ nestingLimit, Grammar.Derives nesting (tokenize source) program := by
  rcases read_eq_iff_reads.1 read with ⟨after, loop⟩
  rcases statementsUntil_sound (Level.sound_inside nestingLimit) (proper_tokenize source) loop with
    ⟨ends, stmts, all_eq, nesting, within, derived⟩
  have atEnd : after = [] := by
    rcases ends with isEnd | isEnd
    · exact ((proper_tokenize source).of_suffix (suffix_of_reads loop)).eq_nil_of_firstKind isEnd
    · exact isEnd
  refine ⟨nesting, within, ?_⟩
  rw [Grammar.Derives, show program.statements = stmts by simpa using all_eq, ← atEnd]
  exact derived

theorem read_of_derives {source : String} {program : Program} {nesting : Nat}
    (within : nesting ≤ nestingLimit)
    (derived : Grammar.Derives nesting (tokenize source) program) :
    Program.read source = (program, .empty) := by
  have loop := statementsUntil_complete (Level.complete_inside nestingLimit) within (.inr rfl)
    (.inl rfl) #[] derived
  exact read_eq_iff_reads.2 ⟨[], by simpa [Parser.statement] using loop⟩

/-- A source is read without complaint, as a certain program, exactly if the grammar derives this
program from its tokens with a nesting that is within the limit. -/
theorem read_eq_iff_derives (source : String) (program : Program) :
    Program.read source = (program, .empty) ↔
      ∃ nesting ≤ nestingLimit, Grammar.Derives nesting (tokenize source) program := by
  constructor
  · exact derives_of_read
  · rintro ⟨nesting, within, derived⟩
    exact read_of_derives within derived

theorem parse_eq_ok_iff {source : String} {program : Program} :
    Program.parse source = .ok program ↔ Program.read source = (program, .empty) := by
  rcases read : Program.read source with ⟨tree, report⟩
  simp only [Program.parse, read, Prod.mk.injEq, ← Report.isEmpty_iff]
  split
  · next isEmpty => simp [isEmpty]
  · next notEmpty => simp [notEmpty]

theorem parse_of_isEmpty {source : String} (noErrors : (Program.read source).2.isEmpty = true) :
    Program.parse source = .ok (Program.read source).1 := by
  simp [Program.parse, noErrors]

end Program

end Scriptlet
