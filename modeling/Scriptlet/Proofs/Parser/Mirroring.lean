import Scriptlet.Proofs.Parser.Loops
import Scriptlet.Proofs.Parser.Recognition
import Scriptlet.Proofs.Parser.Window

/-!
# Windows on cursors

A cursor in the tokens of a source and the number of open levels determine a window, and moving the
one moves the other, also behind the end of the text. `Mirrors` says that a run is over on all such
windows with a certain number of tokens left, and that it does there what a parser does to the
cursor. It passes from the parts of a run to the whole. A loop needs it of its next round only on
fewer tokens.
-/

namespace Scriptlet

namespace Token

theorem next_fst (input : List Char) : (next input).1 = (all input).headD eof := by
  cases scanned : scan? input with
  | none => rw [next, scanned, all_of_scan?_eq_none scanned]; rfl
  | some found => rw [next, scanned, all_of_scan?_eq_some scanned]; rfl

theorem all_next_snd (input : List Char) : all (next input).2 = (all input).tail := by
  cases scanned : scan? input with
  | none =>
      rw [next, scanned, all_of_scan?_eq_none scanned]
      exact all_of_scan?_eq_none rfl
  | some found => rw [next, scanned, all_of_scan?_eq_some scanned]; rfl

theorem next_snd_of_all_eq_nil {input : List Char} (none : all input = []) :
    (next input).2 = [] := by
  cases scanned : scan? input with
  | none => rw [next, scanned]; rfl
  | some found =>
      rw [all_of_scan?_eq_some scanned] at none
      cases none

/-- What is left of a text when a number of tokens have been asked for. -/
def remaining (input : List Char) : Nat → List Char
  | 0 => input
  | count + 1 => (next (remaining input count)).2

theorem all_remaining (input : List Char) (count : Nat) :
    all (remaining input count) = (all input).drop count := by
  induction count with
  | zero => rfl
  | succ count ih => rw [remaining, all_next_snd, ih, List.tail_drop]

/-- Behind the end nothing is left, and that does not change any more. -/
theorem remaining_eq_nil {input : List Char} {count : Nat} (behind : (all input).length < count) :
    remaining input count = [] := by
  cases count with
  | zero => omega
  | succ count =>
      apply next_snd_of_all_eq_nil
      rw [all_remaining]
      exact List.drop_eq_nil_of_le (by omega)

end Token

/-- The window on a cursor in the tokens of a source, with some levels open. -/
def Cursor.window (cursor : Cursor) (source : String) (depth : Nat) : Window where
  input := Token.remaining source.toList ((tokenize source).length + 2 - cursor.tokens.length)
  current := cursor.current
  peek := cursor.peek
  report := cursor.report
  depth := depth

section Window

variable {source : String} {depth : Nat} {cursor : Cursor}

theorem all_input_window (inSource : cursor.tokens <:+ tokenize source) :
    Token.all (cursor.window source depth).input = cursor.tokens.tail.tail := by
  have shorter := inSource.length_le
  have count_eq : (tokenize source).length + 2 - cursor.tokens.length =
      (tokenize source).length - cursor.tokens.length + 1 + 1 := by omega
  rw [List.suffix_iff_eq_drop.1 inSource, List.tail_drop, List.tail_drop, ← count_eq]
  exact Token.all_remaining _ _

/-- The window moves along with the cursor, also behind the end. -/
theorem window_next (inSource : cursor.tokens <:+ tokenize source) :
    (cursor.window source depth).next = cursor.advance.window source depth := by
  have peek_eq : (Token.next (cursor.window source depth).input).1 = cursor.advance.peek := by
    rw [Token.next_fst, all_input_window inSource]
    rfl
  have input_eq : (Token.next (cursor.window source depth).input).2 =
      (cursor.advance.window source depth).input := by
    have shorter := inSource.length_le
    have moved : (cursor.advance).tokens.length = cursor.tokens.length - 1 := List.length_tail
    change Token.remaining source.toList ((tokenize source).length + 2 - cursor.tokens.length + 1) =
      Token.remaining source.toList ((tokenize source).length + 2 - cursor.advance.tokens.length)
    rw [moved]
    by_cases atEnd : cursor.tokens.length = 0
    · have behind : ∀ count, (tokenize source).length < count →
          Token.remaining source.toList count = [] := fun _ => Token.remaining_eq_nil
      rw [behind _ (by omega), behind _ (by omega)]
    · congr 1
      omega
  rw [Window.next, peek_eq, input_eq]
  rfl

theorem start_eq_window (source : String) :
    Window.start source = (Cursor.ofSource source).window source 0 := by
  have count_eq : (tokenize source).length + 2 - (Cursor.ofSource source).tokens.length = 2 :=
    Nat.add_sub_cancel_left _ _
  rw [Cursor.window, count_eq]
  simp [Window.start, Window.next, Token.remaining, Token.next_fst, Token.all_next_snd,
    Cursor.ofSource, Cursor.current, Cursor.peek, tokenize]

theorem unread_window (inSource : cursor.tokens <:+ tokenize source) :
    (cursor.window source depth).unread = cursor.tokens := by
  have input_eq : Token.all (cursor.window source depth).input = cursor.tokens.tail.tail :=
    all_input_window inSource
  have proper := (proper_tokenize source).of_suffix inSource
  rw [Window.unread, input_eq]
  rcases cursor with ⟨_ | ⟨first, _ | ⟨second, rest⟩⟩, report⟩
  · rfl
  · have notEnd := proper first (by simp)
    simp [Cursor.window, Cursor.current, Cursor.peek, notEnd, Token.eof]
  · have notEnd := proper first (by simp)
    have secondNotEnd := proper second (by simp)
    simp [Cursor.window, Cursor.current, Cursor.peek, notEnd, secondNotEnd]

end Window

/-- On every cursor in the source that has at most `limit` tokens left, the run is over, has the
same result as the parser, and ends on the same cursor with the same levels open. -/
structure Run.Mirrors {Result : Type} (run : Run Result) (parser : Parser Result)
    (source : String) (depth limit : Nat) : Prop where
  ends : ∀ {cursor : Cursor}, cursor.tokens <:+ tokenize source → cursor.tokens.length ≤ limit →
    run.run (cursor.window source depth) =
      some ((parser.run cursor).1, (parser.run cursor).2.window source depth)

namespace Run

variable {Result Next : Type} {source : String} {depth limit : Nat}

theorem mirrors_pure (result : Result) :
    Mirrors (pure result) (pure result) source depth limit :=
  ⟨fun _ _ => rfl⟩

theorem mirrors_bind {run : Run Result} {parser : Parser Result} {next : Result → Run Next}
    {others : Result → Parser Next} (first : run.Mirrors parser source depth limit)
    (second : ∀ result, (next result).Mirrors (others result) source depth limit) :
    (run >>= next).Mirrors (parser >>= others) source depth limit := by
  constructor
  intro cursor inSource short
  have moved := (Parser.leadsTo_run parser cursor).tokens
  rw [StateT.run_bind, first.ends inSource short]
  exact (second _).ends (moved.trans inSource) (Nat.le_trans moved.length_le short)

theorem mirrors_bindOption {run : OptionT Run Result} {parser : OptionT Parser Result}
    {next : Result → OptionT Run Next} {others : Result → OptionT Parser Next}
    (first : Mirrors run.run parser.run source depth limit)
    (second : ∀ result, Mirrors (next result).run (others result).run source depth limit) :
    Mirrors (run >>= next).run (parser >>= others).run source depth limit := by
  have opened : (run >>= next).run = run.run >>= fun
      | some result => (next result).run
      | none => pure none := rfl
  have openedParser : (parser >>= others).run = parser.run >>= fun
      | some result => (others result).run
      | none => pure none := rfl
  rw [opened, openedParser]
  apply mirrors_bind first
  intro result
  cases result with
  | none => exact mirrors_pure none
  | some result => exact second result

theorem mirrors_lift {run : Run Result} {parser : Parser Result}
    (mirrors : run.Mirrors parser source depth limit) :
    Mirrors (liftM run : OptionT Run Result).run (liftM parser : OptionT Parser Result).run source
      depth limit :=
  mirrors_bind mirrors fun result => mirrors_pure (some result)

theorem mirrors_current : current.Mirrors Parser.current source depth limit :=
  ⟨fun _ _ => rfl⟩

theorem mirrors_peekKind : peekKind.Mirrors Parser.peekKind source depth limit :=
  ⟨fun _ _ => rfl⟩

theorem mirrors_next : next.Mirrors Parser.advance source depth limit := by
  constructor
  intro cursor inSource _
  exact congrArg (fun window => some ((), window)) (window_next inSource)

theorem mirrors_report (diagnostic : Diagnostic) :
    (report diagnostic).Mirrors (Parser.report diagnostic) source depth limit :=
  ⟨fun _ _ => rfl⟩

theorem mirrors_failure :
    Mirrors (failure : OptionT Run Result).run (failure : OptionT Parser Result).run source depth
      limit :=
  mirrors_pure none

theorem mirrors_expect (wanted : Kind) :
    Mirrors (expect wanted).run (Parser.expect wanted).run source depth limit := by
  apply mirrors_bindOption (mirrors_lift mirrors_peekKind)
  intro found
  split
  · exact mirrors_lift mirrors_next
  · exact mirrors_bindOption (mirrors_lift (mirrors_report _)) fun _ => mirrors_failure

theorem mirrors_eatSemicolon : eatSemicolon.Mirrors Parser.eatSemicolon source depth limit := by
  apply mirrors_bind mirrors_peekKind
  intro found
  split
  · exact mirrors_next
  · exact mirrors_pure ()

theorem mirrors_identifier : identifier.Mirrors Parser.identifier source depth limit :=
  mirrors_bind mirrors_current fun token => mirrors_pure (Ident.ofToken token)

theorem mirrors_integer (token : Token) :
    (integer token).Mirrors (Parser.integer token) source depth limit := by
  unfold integer Parser.integer
  cases Decimal.int64? token.literal with
  | some value => exact mirrors_pure _
  | none => exact mirrors_bind (mirrors_report _) fun _ => mirrors_pure _

/-- A round of a loop is followed by the rest of the loop on fewer tokens. -/
theorem mirrors_round {Admitted : Type} {follow : Kind → Option Admitted}
    {follow_eof : follow .eof = none} {step : Admitted → Result → OptionT Run Result}
    {parserStep : Admitted → Result → OptionT Parser Result} {again : Result → OptionT Run Result}
    (stepped : ∀ fewer, fewer < limit → ∀ admitted sofar,
      Mirrors (step admitted sofar).run (parserStep admitted sofar).run source depth fewer)
    (repeated : ∀ fewer, fewer < limit → ∀ sofar,
      Mirrors (again sofar).run (Parser.whileNext follow follow_eof parserStep sofar).run source
        depth fewer)
    (sofar : Result) :
    Mirrors (round follow step again sofar).run
      (Parser.whileNext follow follow_eof parserStep sofar).run source depth limit := by
  constructor
  intro cursor inSource short
  have opened : (round follow step again sofar).run.run (cursor.window source depth) =
      ((follow cursor.peek.kind).elim (pure sofar : OptionT Run Result) fun admitted =>
        liftM next >>= fun _ => step admitted sofar >>= again).run.run
          (cursor.window source depth) := rfl
  rw [opened]
  cases goes : follow cursor.peek.kind with
  | none =>
      rw [Parser.run_whileNext_of_none goes]
      rfl
  | some admitted =>
      have moved : (liftM next >>= fun _ => step admitted sofar >>= again :
          OptionT Run Result).run.run (cursor.window source depth) =
            (step admitted sofar >>= again).run.run (cursor.window source depth).next := rfl
      have shorter : cursor.advance.tokens.length < limit :=
        Nat.lt_of_lt_of_le (Parser.length_advance_lt_of_follow follow_eof goes) short
      have rest := mirrors_bindOption (stepped _ shorter admitted sofar) (repeated _ shorter)
      rw [Option.elim_some, moved, window_next inSource, Parser.run_whileNext_eq_bind goes]
      exact rest.ends (cursor.leadsTo_advance.tokens.trans inSource) (Nat.le_refl _)

end Run

end Scriptlet
