import Scriptlet.Proofs.Lexer.Spelling

/-!
# Laying tokens out

Spelling is undone by the lexer. Well-formed tokens can be laid out in many ways, with blanks
between them and around them; whichever way is chosen, the text is read as these tokens. So the
lists of well-formed tokens are exactly the ones that can be read from some source, and a source
keeps its tokens when all that is between them becomes a single space.

A blank behind a token is what makes this work for every kind at once: no kind of token goes on with
a blank, so nothing has to be known about the token that comes next.
-/

namespace Scriptlet

/-- Well-formed tokens laid out as a text, each behind a gap of its own, with a gap at the end. Gaps
are made of blanks, and one that stands between two tokens is not empty. -/
structure Layout where
  pieces : List (String × Token)
  ending : String
  wellFormed : ∀ piece ∈ pieces, piece.2.WellFormed
  blank : ∀ gap ∈ ending :: pieces.map Prod.fst, ∀ char ∈ gap.toList, Token.isBlank char = true
  apart : ∀ gap ∈ (pieces.map Prod.fst).tail, gap ≠ ""

namespace Layout

def tokens (layout : Layout) : List Token := layout.pieces.map Prod.snd

def text (layout : Layout) : String :=
  String.join (layout.pieces.map fun piece => piece.1 ++ piece.2.literal) ++ layout.ending

/-- The characters of pieces that stand one behind the other. -/
def chars (pieces : List (String × Token)) : List Char :=
  pieces.flatMap fun piece => piece.1.toList ++ piece.2.literal.toList

theorem toList_text (layout : Layout) :
    layout.text.toList = chars layout.pieces ++ layout.ending.toList := by
  simp [text, chars, List.flatMap_map]

variable {pieces : List (String × Token)} {ending : List Char}

/-- Behind a token stand the gap of the next one, which is not empty, or the gap at the end. -/
theorem head_isBlank
    (blank : ∀ piece ∈ pieces, ∀ char ∈ piece.1.toList, Token.isBlank char = true)
    (apart : ∀ piece ∈ pieces, piece.1 ≠ "")
    (blankEnding : ∀ char ∈ ending, Token.isBlank char = true) :
    ∀ char ∈ (chars pieces ++ ending).head?, Token.isBlank char = true := by
  intro char isFirst
  cases pieces with
  | nil =>
      apply blankEnding
      exact List.mem_of_mem_head? isFirst
  | cons piece pieces =>
      simp only [List.forall_mem_cons] at blank apart
      cases gap : piece.1.toList with
      | nil => exact absurd (String.toList_eq_nil_iff.1 gap) apart.1
      | cons first rest =>
          simp only [chars, List.flatMap_cons, gap, List.cons_append, List.head?_cons,
            Option.mem_some_iff] at isFirst
          apply blank.1
          simp [gap, isFirst]

theorem spells_chars (wellFormed : ∀ piece ∈ pieces, piece.2.WellFormed)
    (blank : ∀ piece ∈ pieces, ∀ char ∈ piece.1.toList, Token.isBlank char = true)
    (apart : ∀ piece ∈ pieces.tail, piece.1 ≠ "")
    (blankEnding : ∀ char ∈ ending, Token.isBlank char = true) :
    Spells (chars pieces ++ ending) (pieces.map Prod.snd) := by
  induction pieces with
  | nil => simpa [chars] using Spells.blanks blankEnding .nil
  | cons piece pieces ih =>
      simp only [List.forall_mem_cons, List.tail_cons] at wellFormed blank apart
      have others := ih wellFormed.2 blank.2 fun other other_mem =>
        apart other (List.mem_of_mem_tail other_mem)
      have ends : piece.2.kind.Apart (chars pieces ++ ending) :=
        piece.2.kind.apart_of_isBlank (head_isBlank blank.2 apart blankEnding)
      have spelled := Spells.blanks blank.1 (.cons wellFormed.1 ends others)
      simpa [chars] using spelled

theorem tokenize_text (layout : Layout) : tokenize layout.text = layout.tokens := by
  have spelled : Spells layout.text.toList layout.tokens := by
    rw [toList_text]
    apply spells_chars layout.wellFormed
    · intro piece piece_mem
      apply layout.blank
      simp only [List.mem_cons, List.mem_map]
      exact .inr ⟨piece, piece_mem, rfl⟩
    · intro piece piece_mem
      apply layout.apart
      rw [← List.map_tail]
      exact List.mem_map_of_mem piece_mem
    · exact layout.blank layout.ending (by simp)
  exact spelled.all_eq

/-- Tokens with a single space between any two of them. -/
def spaced (tokens : List Token) (wellFormed : ∀ token ∈ tokens, token.WellFormed) : Layout where
  pieces := (tokens.head?.map ("", ·)).toList ++ tokens.tail.map (" ", ·)
  ending := ""
  wellFormed := by
    cases tokens with
    | nil => simp
    | cons first others => simpa using wellFormed
  blank := by
    cases tokens with
    | nil => simp
    | cons first others => simp [Token.isBlank]
  apart := by
    cases tokens with
    | nil => simp
    | cons first others => simp

theorem tokens_spaced {tokens : List Token} (wellFormed : ∀ token ∈ tokens, token.WellFormed) :
    (spaced tokens wellFormed).tokens = tokens := by
  cases tokens with
  | nil => rfl
  | cons first others => simp [spaced, Layout.tokens, Function.comp_def]

theorem text_spaced {tokens : List Token} (wellFormed : ∀ token ∈ tokens, token.WellFormed) :
    (spaced tokens wellFormed).text = " ".intercalate (tokens.map Token.literal) := by
  have behind : ∀ (first : Token) (others : List Token),
      first.literal ++ String.join (others.map fun token => " " ++ token.literal) =
        " ".intercalate ((first :: others).map Token.literal) := by
    intro first others
    induction others generalizing first with
    | nil => simp
    | cons second others ih =>
        simp only [List.map_cons, String.join_cons, String.intercalate_cons_cons] at ih ⊢
        rw [← ih second]
        simp [String.append_assoc]
  cases tokens with
  | nil => rfl
  | cons first others => simpa [spaced, text, Function.comp_def] using behind first others

end Layout

/-- The lexer undoes every layout of well-formed tokens, so these are exactly the tokens it can
return, and tokens that were read are read again from their texts with single spaces between them.
Strings and the end mark are never among them. -/
theorem tokenize_layout :
    (∀ layout : Layout, tokenize layout.text = layout.tokens) ∧
      (∀ tokens : List Token,
        (∃ source, tokenize source = tokens) ↔ ∀ token ∈ tokens, token.WellFormed) ∧
      (∀ source, tokenize (" ".intercalate ((tokenize source).map Token.literal)) =
        tokenize source) ∧
      ∀ token : Token, token.WellFormed → token.kind ≠ .string ∧ token.kind ≠ .eof := by
  have respelled : ∀ tokens : List Token, (∀ token ∈ tokens, token.WellFormed) →
      tokenize (" ".intercalate (tokens.map Token.literal)) = tokens := by
    intro tokens wellFormed
    rw [← Layout.text_spaced wellFormed, Layout.tokenize_text, Layout.tokens_spaced]
  have wellFormed : ∀ source, ∀ token ∈ tokenize source, token.WellFormed :=
    fun _ _ token_mem => Token.wellFormed_of_mem_all token_mem
  refine ⟨Layout.tokenize_text, ?_, ?_, ?_⟩
  · intro tokens
    constructor
    · rintro ⟨source, rfl⟩
      exact wellFormed source
    · intro all
      exact ⟨_, respelled tokens all⟩
  · intro source
    exact respelled _ (wellFormed source)
  · intro token spelled
    exact ⟨spelled.kind_ne (by simp), spelled.kind_ne (by simp)⟩

/-- Without blanks the first two tokens would be one, and so would the two behind them. -/
theorem tokenize_layout_divided : ∃ layout : Layout,
    layout.text = "! =\r\nlet ?\té 007 " ∧ tokenize layout.text =
      [.mark .bang, .mark .assign, .word "let", .mark .question, ⟨.illegal, "é"⟩,
        ⟨.int, "007"⟩] := by
  have isWord : (Token.word "let").WellFormed :=
    @Token.WellFormed.word 'l' ['e', 't'] (by decide) (by simp [Token.isWordPart, Token.isWordStart])
  have isIllegal : Token.WellFormed ⟨.illegal, "é"⟩ :=
    @Token.WellFormed.illegal 'é' (by decide) (by decide) (by decide) (by decide)
  have isInt : Token.WellFormed ⟨.int, "007"⟩ :=
    @Token.WellFormed.int '0' ['0', '7'] (by decide) (by simp)
  let layout : Layout :=
    { pieces := [("", .mark .bang), (" ", .mark .assign), ("\r\n", .word "let"),
        (" ", .mark .question), ("\t", ⟨.illegal, "é"⟩), (" ", ⟨.int, "007"⟩)]
      ending := " "
      wellFormed := by
        simpa [isWord, isIllegal, isInt] using
          ⟨.mark (by decide), .mark (by decide), .mark (by decide)⟩
      blank := by simp [Token.isBlank]
      apart := by simp }
  exact ⟨layout, rfl, tokenize_layout.1 layout⟩

end Scriptlet
