import Mathlib.Data.List.Permutation
import Scriptlet.Console.Basic
import Scriptlet.Proofs.Session.Noninterference

/-!
# Transcripts

Without a file, the input is read line by line and everything is written to one transcript: for each
line the prompt and what the line is answered, then the prompt once more. What a line is answered is
told here from the lines alone, without an exchange that is in progress. If trees are asked for, a
line is answered by itself and nothing is evaluated. Otherwise the lines are the sources of one
session, and the answers are the results of running them one after the other.

Errors in a line are part of its answer and end nothing. Only a line that is no text does.
-/

namespace Scriptlet

/-! ## Lines and texts -/

/-- The bytes that encode a text. -/
def encodeText (text : String) : List UInt8 := text.toUTF8.data.toList

theorem decodeText_encodeText (text : String) : decodeText (encodeText text) = .ok text := by
  have valid : text.toByteArray.IsValidUTF8 := text.isValidUTF8
  simp [decodeText, encodeText, String.fromUTF8?, valid, String.fromUTF8]

theorem decodeText_of_ne_encodeText {bytes : List UInt8}
    (noText : ∀ text, encodeText text ≠ bytes) : decodeText bytes = .error .notText := by
  have notValid : ¬ ByteArray.IsValidUTF8 ⟨bytes.toArray⟩ := by
    intro valid
    exact noText (String.fromUTF8 ⟨bytes.toArray⟩ valid) rfl
  simp [decodeText, String.fromUTF8?, notValid]

/-- The input, split after each line end. The last line need not have one, but no line is empty. -/
inductive Lines : List UInt8 → List (List UInt8) → Prop
  | nil : Lines [] []
  | last {line : List UInt8} (nonempty : line ≠ []) (noEnd : lineFeed ∉ line) : Lines line [line]
  | cons {line rest : List UInt8} {lines : List (List UInt8)} (noEnd : lineFeed ∉ line)
      (others : Lines rest lines) : Lines (line ++ lineFeed :: rest) ((line ++ [lineFeed]) :: lines)

/-- Reading a line goes on up to its end. -/
theorem readLine_append {line : List UInt8} (noEnd : lineFeed ∉ line) (rest : List UInt8) :
    firstLine (line ++ rest) = line ++ firstLine rest ∧
      otherLines (line ++ rest) = otherLines rest := by
  have passes : ∀ byte ∈ line, decide (byte ≠ lineFeed) = true := by
    intro byte byte_mem
    exact decide_eq_true fun isEnd => noEnd (isEnd ▸ byte_mem)
  constructor
  · rw [firstLine, List.takeWhile_append_of_pos passes, List.dropWhile_append_of_pos passes,
      List.append_assoc, firstLine]
  · rw [otherLines, List.dropWhile_append_of_pos passes, otherLines]

theorem exists_lines (input : List UInt8) : ∃ lines, Lines input lines := by
  induction input with
  | nil => exact ⟨[], .nil⟩
  | cons byte input ih =>
      rcases ih with ⟨lines, split⟩
      by_cases isEnd : byte = lineFeed
      · subst isEnd
        exact ⟨_, .cons List.not_mem_nil split⟩
      · -- The byte belongs to the first line, or is a line by itself if there is none.
        have noEnd_cons {line : List UInt8} (noEnd : lineFeed ∉ line) :
            lineFeed ∉ byte :: line := by
          simp [Ne.symm isEnd, noEnd]
        cases split with
        | nil => exact ⟨[[byte]], .last (List.cons_ne_nil _ _) (noEnd_cons List.not_mem_nil)⟩
        | last _ noEnd => exact ⟨_, .last (List.cons_ne_nil _ _) (noEnd_cons noEnd)⟩
        | cons noEnd others => exact ⟨_, .cons (noEnd_cons noEnd) others⟩

namespace Lines

theorem eq_nil {input : List UInt8} (split : Lines input []) : input = [] := by
  cases split
  rfl

/-- Of several lines the first one is read first. -/
theorem read_first {input line : List UInt8} {lines : List (List UInt8)}
    (split : Lines input (line :: lines)) :
    input ≠ [] ∧ firstLine input = line ∧ Lines (otherLines input) lines := by
  cases split with
  | last nonempty noEnd =>
      have read := readLine_append noEnd []
      rw [List.append_nil] at read
      rw [read.1, read.2]
      exact ⟨nonempty, List.append_nil _, .nil⟩
  | @cons line rest _ noEnd others =>
      rcases readLine_append noEnd (lineFeed :: rest) with ⟨first, remaining⟩
      rw [first, remaining]
      simpa [firstLine, otherLines] using others

end Lines

/-! ## Errors one on a line -/

theorem join_map_append_newline {texts : List String} (nonempty : texts ≠ []) :
    String.join (texts.map (· ++ "\n")) = "\n".intercalate texts ++ "\n" := by
  induction texts with
  | nil => exact absurd rfl nonempty
  | cons text texts ih =>
      cases texts with
      | nil => simp
      | cons next texts =>
          rw [List.map_cons, String.join_cons, ih (List.cons_ne_nil _ _)]
          simp [String.append_assoc]

theorem Report.lines_eq_joined {Error : Type} [ToString Error] {report : Report Error}
    (nonempty : report.isEmpty = false) : report.lines = report.joined ++ "\n" := by
  have some_error : report.toList.map toString ≠ [] := by
    simpa [Report.isEmpty, Report.toList] using nonempty
  simpa [Report.lines, Report.joined, Function.comp_def] using join_map_append_newline some_error

/-- A source that is not read has an error. -/
theorem Program.isEmpty_of_parse {source : String} {report : Report Diagnostic}
    (unread : Program.parse source = .error report) : report.isEmpty = false := by
  rcases read : Program.read source with ⟨program, found⟩
  simp only [Program.parse, read] at unread
  split at unread
  · cases unread
  · next complaints =>
      cases unread
      simpa using complaints

theorem Failure.lines_unreadable (report : Report Diagnostic) :
    (Failure.unreadable report).lines false = report.lines := by
  simp [Failure.lines, Report.lines, styled, toString]

/-- What is written for the failure of a run is its message. -/
theorem Session.lines_of_run {session : Session} {source : String} {failure : Failure}
    (failed : (session.run source).1 = .error failure) :
    failure.lines false = failure.message ++ "\n" := by
  cases failure with
  | faulty fault => simp [Failure.lines, Failure.message, styled, String.append_assoc]
  | unreadable report =>
      have unread : Program.parse source = .error report := by
        unfold Session.run at failed
        split at failed
        · simp_all
        · split at failed <;> simp at failed
      rw [Failure.lines_unreadable, Report.lines_eq_joined (Program.isEmpty_of_parse unread)]
      rfl

/-! ## Answers -/

namespace Repl

/-- The tokens of a source, one on a line. -/
def tokenLines (source : String) : String :=
  String.join ((tokenize source).map fun token => token.kind.label ++ " " ++ token.literal ++ "\n")

/-- The answer to a source whose tree is asked for. -/
def treeAnswer (source : String) : String :=
  match Program.parse source with
  | .ok program => program.print ++ "\n"
  | .error report => report.lines

/-- The answer to a source, given the result of running it. -/
def runAnswer : Except Failure (Option Value) → String
  | .ok (some value) => value.display ++ "\n"
  | .ok none => ""
  | .error failure => failure.message ++ "\n"

/-- The answers to sources. Trees are printed one by one, values come from running all the sources
in the session. -/
def answers (tree : Bool) (session : Session) (sources : List String) : List String :=
  if tree then sources.map treeAnswer else (session.results sources).map runAnswer

/-- What is written for sources with these answers: each is invited and answered, and its tokens
stand before the answer if they are asked for. -/
def exchanges (tokens : Bool) (sources answers : List String) : String :=
  String.join (List.zipWith (fun source answer =>
    prompt ++ (if tokens then tokenLines source else "") ++ answer) sources answers)

theorem output_answer (options : Options) (session : Session) (source : String) :
    (session.answer options false source).output =
      if options.tree then treeAnswer source else runAnswer (session.run source).1 := by
  unfold Session.answer treeAnswer
  cases options.tree with
  | true => cases Program.parse source <;> simp [Failure.lines_unreadable]
  | false =>
      rcases ran : session.run source with ⟨_ | _ | _, after⟩
      · simp [runAnswer, Session.lines_of_run (congrArg Prod.fst ran)]
      · rfl
      · rfl

theorem session_answer (options : Options) (session : Session) (source : String) :
    (session.answer options false source).session =
      if options.tree then session else (session.run source).2 := by
  unfold Session.answer
  cases options.tree with
  | true => cases Program.parse source <;> rfl
  | false => rcases session.run source with ⟨_ | _ | _, after⟩ <;> rfl

theorem turn_encodeText (options : Options) (session : Session) (source : String) :
    turn ⟨options, false, session⟩ (encodeText source) =
      .ok ((if options.tokens then tokenLines source else "") ++
          (if options.tree then treeAnswer source else runAnswer (session.run source).1),
        ⟨options, false, if options.tree then session else (session.run source).2⟩) := by
  have listed : tokenListing false source = tokenLines source := by
    simp [tokenListing, tokenLines, styled]
  rw [← output_answer, ← session_answer, ← listed, turn, decodeText_encodeText]
  cases tokens : options.tokens <;>
    simp [Session.reply, tokens, bind, Except.bind, pure, Except.pure]

theorem answers_cons (tree : Bool) (session : Session) (source : String) (sources : List String) :
    answers tree session (source :: sources) =
      (if tree then treeAnswer source else runAnswer (session.run source).1) ::
        answers tree (if tree then session else (session.run source).2) sources := by
  cases tree <;> simp [answers, Session.results]

/-! ## The whole exchange -/

theorem transcript_nil (repl : Repl) (written : String) :
    repl.transcript written [] = { stdout := written ++ prompt ++ "\n" } := by
  rw [transcript, dif_pos rfl]

theorem transcript_of_text {repl after : Repl} {input : List UInt8} {output : String}
    (nonempty : input ≠ []) (taken : repl.turn (firstLine input) = .ok (output, after))
    (written : String) : repl.transcript written input =
      after.transcript (written ++ prompt ++ output) (otherLines input) := by
  rw [transcript, dif_neg nonempty, taken]

theorem transcript_of_noText {input line : List UInt8} {lines : List (List UInt8)}
    (split : Lines input (line :: lines)) (noText : ∀ text, encodeText text ≠ line)
    (repl : Repl) (written : String) : repl.transcript written input =
      { stdout := written ++ prompt, stderr := ReadError.notText.reason ++ "\n",
        status := .unreadable } := by
  rcases split.read_first with ⟨nonempty, first, -⟩
  have refused : repl.turn (firstLine input) = .error .notText := by
    rw [turn, first, decodeText_of_ne_encodeText noText]
    rfl
  rw [transcript, dif_neg nonempty, refused]

/-- Lines that are texts are answered, and then the exchange goes on with the other lines. -/
theorem exists_transcript_eq (options : Options) {sources : List String}
    {lines : List (List UInt8)} (session : Session) {input : List UInt8}
    (split : Lines input (sources.map encodeText ++ lines)) (written : String) :
    ∃ after rest, Lines rest lines ∧
      transcript ⟨options, false, session⟩ written input =
        transcript after (written ++ exchanges options.tokens sources
          (answers options.tree session sources)) rest := by
  induction sources generalizing session input written with
  | nil => exact ⟨⟨options, false, session⟩, input, split, by simp [exchanges]⟩
  | cons source sources ih =>
      rcases split.read_first with ⟨nonempty, first, others⟩
      have taken := turn_encodeText options session source
      rw [← first] at taken
      rw [transcript_of_text nonempty taken, answers_cons]
      rcases ih _ others _ with ⟨after, rest, remaining, continued⟩
      refine ⟨after, rest, remaining, ?_⟩
      rw [continued]
      simp [exchanges, String.append_assoc]

/-- The two flags, in any order, are read as what they ask for. -/
theorem parse_flags {args : List String} {tokens tree : Bool}
    (flags : args.Perm ((if tokens then ["--tokens"] else []) ++ if tree then ["--ast"] else [])) :
    Command.parse args = some (.run { tokens, tree }) := by
  cases tokens <;> cases tree
  · obtain rfl := List.perm_nil.1 flags
    rfl
  · obtain rfl := List.perm_singleton.1 flags
    simp [Command.parse, Command.parseArgs]
  · obtain rfl := List.perm_singleton.1 flags
    simp [Command.parse, Command.parseArgs]
  · rcases List.perm_pair.1 flags with rfl | rfl <;> simp [Command.parse, Command.parseArgs]

/-- Every input is split into lines after its line ends. If all lines are texts, each is invited and
answered, then a last one is invited in vain, and the run succeeds whatever the answers are. If some
line is no text, this is done for the lines before the first such line, and the run fails when that
line has been invited. The answers do not depend on whether tokens are asked for. -/
theorem transcript_exact {args : List String} {tokens tree : Bool}
    (flags : args.Perm ((if tokens then ["--tokens"] else []) ++ if tree then ["--ast"] else []))
    (files : String → Except ReadError (List UInt8)) (input : List UInt8) :
    let outcome := runProgram args false files input
    (∃ lines, Lines input lines) ∧
      (∀ sources : List String, Lines input (sources.map encodeText) →
        outcome.stdout =
            exchanges tokens sources (answers tree .new sources) ++ prompt ++ "\n" ∧
          outcome.stderr = "" ∧ outcome.status.code = 0) ∧
      ∀ (sources : List String) (line : List UInt8) (others : List (List UInt8)),
        Lines input (sources.map encodeText ++ line :: others) →
        (∀ text, encodeText text ≠ line) →
        outcome.stdout = exchanges tokens sources (answers tree .new sources) ++ prompt ∧
          outcome.stderr = "stream did not contain valid UTF-8\n" ∧
          outcome.status.code = 74 := by
  intro outcome
  have started : outcome = transcript ⟨{ tokens, tree }, false, .new⟩ "" input := by
    simp [outcome, runProgram, parse_flags flags, Command.execute]
  refine ⟨exists_lines input, ?_, ?_⟩
  · intro sources split
    rw [← List.append_nil (sources.map encodeText)] at split
    rcases exists_transcript_eq { tokens, tree } .new split "" with ⟨after, rest, atEnd, continued⟩
    rw [started, continued, atEnd.eq_nil, transcript_nil]
    simp [Status.code]
  · intro sources line others split noText
    rcases exists_transcript_eq { tokens, tree } .new split "" with
      ⟨after, rest, remaining, continued⟩
    rw [started, continued, transcript_of_noText remaining noText]
    simp [ReadError.reason, Status.code]

/-- A line that fails, lines that share a name, and a line that is no text. -/
theorem transcript_exact_stopped :
    let input := encodeText "let x = 4;\n" ++ encodeText "y\n" ++ encodeText "x * x\n" ++ [255]
    let outcome := runProgram ["--tokens"] false (fun _ => .error .notFound) input
    outcome.stdout = "QWQ >> LET let\nIDENT x\n= =\nINT 4\n; ;\n" ++
        "QWQ >> IDENT y\nERROR: identifier not found: y\n" ++
        "QWQ >> IDENT x\n* *\nIDENT x\n16\n" ++ "QWQ >> " ∧
      outcome.stderr = "stream did not contain valid UTF-8\n" ∧ outcome.status.code = 74 := by
  intro input outcome
  let sources := ["let x = 4;\n", "y\n", "x * x\n"]
  have flags : ["--tokens"].Perm ((if true then ["--tokens"] else []) ++
      if false then ["--ast"] else []) := .refl _
  have split : Lines input (sources.map encodeText ++ [[255]]) := by
    have fourth : Lines [255] [[255]] := .last (by decide) (by decide)
    have third : Lines (encodeText "x * x" ++ lineFeed :: _) _ := .cons (by decide) fourth
    have second : Lines (encodeText "y" ++ lineFeed :: _) _ := .cons (by decide) third
    have first : Lines (encodeText "let x = 4;" ++ lineFeed :: _) _ := .cons (by decide) second
    exact first
  have noText : ∀ text, encodeText text ≠ [255] := by
    intro text same
    have decoded := decodeText_encodeText text
    rw [same] at decoded
    cases decoded
  have written := (transcript_exact flags (fun _ => .error .notFound) input).2.2 sources [255] []
    split noText
  have text : exchanges true sources (answers false .new sources) ++ prompt =
      "QWQ >> LET let\nIDENT x\n= =\nINT 4\n; ;\n" ++
        "QWQ >> IDENT y\nERROR: identifier not found: y\n" ++
        "QWQ >> IDENT x\n* *\nIDENT x\n16\n" ++ "QWQ >> " := by
    decide +kernel
  rwa [text] at written

end Repl

end Scriptlet
