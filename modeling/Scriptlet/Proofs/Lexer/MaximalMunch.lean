import Mathlib.Computability.RegularExpressions
import Scriptlet.Proofs.Lexer.Spelling

/-!
# Tokens are longest matches

The lexer is held against the patterns of the tokens, written as regular expressions: numbers, words
and the spellings of the marks. Blanks are skipped as long as there are any. From there the longest
text that matches a pattern is a token, and a character with which no match begins is a token by
itself. These rules say nothing about how the longest match is found.

A text follows the rules with certain tokens exactly if it spells them, which is what is known of the
tokens that are read. The two agree on where a token ends: a match is the longest one if the next
character would not become part of it.
-/

namespace Scriptlet

namespace Pattern

def oneOf (chars : List Char) : RegularExpression Char := (chars.map .char).sum

def exactly (text : List Char) : RegularExpression Char := (text.map .char).prod

def digits : List Char := "0123456789".toList

def letters : List Char := "abcdefghijklmnopqrstuvwxyzABCDEFGHIJKLMNOPQRSTUVWXYZ_".toList

def number : RegularExpression Char := oneOf digits * (oneOf digits).star

def word : RegularExpression Char := oneOf letters * (oneOf (letters ++ ['!', '?'])).star

def reserved : List (String × Kind) :=
  [("fn", .kwFn), ("let", .kwLet), ("true", .kwTrue), ("false", .kwFalse), ("if", .kwIf),
    ("else", .kwElse), ("return", .kwReturn)]

def marks : List (String × Kind) :=
  [("=", .assign), ("==", .eq), ("!=", .ne), ("+", .plus), ("-", .minus), ("*", .star),
    ("/", .slash), ("!", .bang), ("?", .question), ("<", .lt), ("<=", .le), (">", .gt), (">=", .ge),
    ("++", .plusPlus), ("--", .minusMinus), ("(", .lparen), (")", .rparen), ("\x7b", .lbrace),
    ("\x7d", .rbrace), (",", .comma), (";", .semicolon)]

def blanks : List Char := [' ', '\t', '\n', '\r']

theorem mem_char {char : Char} {text : List Char} :
    text ∈ (RegularExpression.char char).matches' ↔ text = [char] :=
  Iff.rfl

theorem mem_oneOf {chars text : List Char} :
    text ∈ (oneOf chars).matches' ↔ ∃ char ∈ chars, text = [char] := by
  induction chars with
  | nil => simp [oneOf, RegularExpression.matches'_zero]
  | cons char chars ih =>
      have opened : oneOf (char :: chars) = .char char + oneOf chars := by simp [oneOf]
      rw [opened, RegularExpression.matches'_add, Language.mem_add, mem_char, ih]
      simp

theorem mem_exactly {spelling text : List Char} :
    text ∈ (exactly spelling).matches' ↔ text = spelling := by
  induction spelling generalizing text with
  | nil => simp [exactly, RegularExpression.matches'_epsilon]
  | cons char spelling ih =>
      have opened : exactly (char :: spelling) = .char char * exactly spelling := by
        simp [exactly]
      rw [opened, RegularExpression.matches'_mul, Language.mem_mul]
      constructor
      · rintro ⟨first, isChar, rest, isRest, rfl⟩
        rw [mem_char.1 isChar, ih.1 isRest, List.singleton_append]
      · rintro rfl
        exact ⟨[char], mem_char.2 rfl, spelling, ih.2 rfl, rfl⟩

theorem mem_star_oneOf {chars text : List Char} :
    text ∈ (oneOf chars).star.matches' ↔ ∀ char ∈ text, char ∈ chars := by
  rw [RegularExpression.matches'_star, Language.mem_kstar]
  constructor
  · rintro ⟨parts, rfl, matched⟩ char char_mem
    rcases List.mem_flatten.1 char_mem with ⟨part, part_mem, char_mem⟩
    rcases mem_oneOf.1 (matched part part_mem) with ⟨only, only_mem, rfl⟩
    rwa [List.mem_singleton.1 char_mem]
  · intro all
    refine ⟨text.map ([·]), by simp [← List.flatMap_def], ?_⟩
    intro part part_mem
    rcases List.mem_map.1 part_mem with ⟨char, char_mem, rfl⟩
    exact mem_oneOf.2 ⟨char, all char char_mem, rfl⟩

/-- A run of characters: one of the first class, and then any number of the second. -/
theorem mem_run {starts goesOn text : List Char} :
    text ∈ (oneOf starts * (oneOf goesOn).star).matches' ↔
      ∃ first rest, text = first :: rest ∧ first ∈ starts ∧ ∀ char ∈ rest, char ∈ goesOn := by
  rw [RegularExpression.matches'_mul, Language.mem_mul]
  constructor
  · rintro ⟨start, matched, rest, goesOn, rfl⟩
    rcases mem_oneOf.1 matched with ⟨first, first_mem, rfl⟩
    exact ⟨first, rest, rfl, first_mem, mem_star_oneOf.1 goesOn⟩
  · rintro ⟨first, rest, rfl, first_mem, all⟩
    exact ⟨[first], mem_oneOf.2 ⟨first, first_mem, rfl⟩, rest, mem_star_oneOf.2 all, rfl⟩

/-- Digits and letters are characters of ASCII. -/
theorem toNat_lt_of_class {char : Char}
    (known : char.isDigit = true ∨ Token.isWordStart char = true) : char.toNat < 128 := by
  rcases known with isDigit | isStart
  · exact Nat.lt_of_le_of_lt (Char.isDigit_iff_toNat.1 isDigit).2 (by decide)
  · exact Nat.lt_of_le_of_lt (Token.toNat_of_isWordStart isStart).2 (by decide)

theorem mem_digits {char : Char} : char ∈ digits ↔ char.isDigit = true := by
  have sound : digits.all Char.isDigit = true := by decide
  have complete : ∀ code < 128, (Char.ofNat code).isDigit = true → Char.ofNat code ∈ digits := by
    decide
  constructor
  · exact List.all_eq_true.1 sound char
  · intro isDigit
    have small := toNat_lt_of_class (.inl isDigit)
    rw [← Char.ofNat_toNat char] at isDigit ⊢
    exact complete _ small isDigit

theorem mem_letters {char : Char} : char ∈ letters ↔ Token.isWordStart char = true := by
  have sound : letters.all Token.isWordStart = true := by decide
  have complete : ∀ code < 128, Token.isWordStart (Char.ofNat code) = true →
      Char.ofNat code ∈ letters := by
    decide
  constructor
  · exact List.all_eq_true.1 sound char
  · intro isStart
    have small := toNat_lt_of_class (.inr isStart)
    rw [← Char.ofNat_toNat char] at isStart ⊢
    exact complete _ small isStart

theorem mem_letters_append {char : Char} :
    char ∈ letters ++ ['!', '?'] ↔ Token.isWordPart char = true := by
  simp [Token.isWordPart, mem_letters, or_assoc]

theorem mem_number {text : List Char} : text ∈ number.matches' ↔
    ∃ first rest, text = first :: rest ∧ first.isDigit = true ∧
      ∀ char ∈ rest, char.isDigit = true := by
  simp only [number, mem_run, mem_digits]

theorem mem_word {text : List Char} : text ∈ word.matches' ↔
    ∃ first rest, text = first :: rest ∧ Token.isWordStart first = true ∧
      ∀ char ∈ rest, Token.isWordPart char = true := by
  simp only [word, mem_run, mem_letters, mem_letters_append]

theorem mem_marks {spelling : String} {kind : Kind} :
    (spelling, kind) ∈ marks ↔ kind ∈ Kind.marks ∧ spelling = kind.label := by
  have sound : ∀ entry ∈ marks, entry.2 ∈ Kind.marks ∧ entry.1 = entry.2.label := by decide
  have complete : ∀ kind ∈ Kind.marks, (kind.label, kind) ∈ marks := by decide
  constructor
  · exact sound (spelling, kind)
  · rintro ⟨isMark, rfl⟩
    exact complete kind isMark

theorem lookup_reserved (text : String) : (reserved.lookup text).getD .ident = Kind.ofWord text :=
  rfl

theorem mem_blanks {char : Char} : char ∈ blanks ↔ Token.isBlank char = true := by
  simp [blanks, Token.isBlank, or_assoc]

theorem not_mem_blanks {char : Char} : char ∉ blanks ↔ Token.isBlank char = false := by
  rw [mem_blanks, Bool.not_eq_true]

end Pattern

/-- The text matches the pattern of a token, which is this one. A word is looked up among the
reserved words. -/
inductive Matches : List Char → Token → Prop
  | number {text : List Char} (matched : text ∈ Pattern.number.matches') :
      Matches text ⟨.int, String.ofList text⟩
  | word {text : List Char} (matched : text ∈ Pattern.word.matches') :
      Matches text ⟨(Pattern.reserved.lookup (String.ofList text)).getD .ident, String.ofList text⟩
  | mark {text : List Char} {spelling : String} {kind : Kind}
      (listed : (spelling, kind) ∈ Pattern.marks)
      (matched : text ∈ (Pattern.exactly spelling.toList).matches') :
      Matches text ⟨kind, String.ofList text⟩

/-- The first token of a text that does not begin with a blank, and what follows it. -/
inductive Munch : List Char → Token → List Char → Prop
  | longest {text rest : List Char} {token : Token} (matched : Matches text token)
      (longest : ∀ other token, other <+: text ++ rest → Matches other token →
        other.length ≤ text.length) :
      Munch (text ++ rest) token rest
  | illegal {char : Char} {rest : List Char}
      (unmatched : ∀ other token, other <+: char :: rest → ¬Matches other token) :
      Munch (char :: rest) ⟨.illegal, char.toString⟩ rest

/-- The tokens of a text by the rules. Each run of blanks is skipped as a whole. -/
inductive Tokenization : List Char → List Token → Prop
  | done {blanks : List Char} (skipped : ∀ char ∈ blanks, char ∈ Pattern.blanks) :
      Tokenization blanks []
  | token {blanks input rest : List Char} {token : Token} {tokens : List Token}
      (skipped : ∀ char ∈ blanks, char ∈ Pattern.blanks)
      (allSkipped : ∀ char ∈ input.head?, char ∉ Pattern.blanks)
      (munch : Munch input token rest) (others : Tokenization rest tokens) :
      Tokenization (blanks ++ input) (token :: tokens)

/-! ## The rules and the spelling of tokens -/

namespace Matches

variable {text : List Char} {token : Token}

theorem wellFormed (matched : Matches text token) :
    token.WellFormed ∧ text = token.literal.toList := by
  cases matched with
  | number matched =>
      rcases Pattern.mem_number.1 matched with ⟨first, rest, rfl, starts, goesOn⟩
      exact ⟨.int starts goesOn, by simp⟩
  | word matched =>
      rcases Pattern.mem_word.1 matched with ⟨first, rest, rfl, starts, goesOn⟩
      exact ⟨.word starts goesOn, by simp⟩
  | @mark _ kind listed matched =>
      rcases Pattern.mem_marks.1 listed with ⟨isMark, rfl⟩
      have spelled := Pattern.mem_exactly.1 matched
      have same : (⟨kind, String.ofList text⟩ : Token) = .mark kind := by
        rw [spelled, String.ofList_toList, Token.mark]
      exact ⟨same ▸ .mark isMark, by simp⟩

/-- A match that the next character would prolong is not the longest one. -/
theorem prolong (matched : Matches text token) {char : Char}
    (joined : token.kind.joins char = true) : ∃ longer, Matches (text ++ [char]) longer := by
  cases matched with
  | number matched =>
      rcases Pattern.mem_number.1 matched with ⟨first, rest, rfl, starts, goesOn⟩
      refine ⟨_, .number (Pattern.mem_number.2 ⟨first, rest ++ [char], rfl, starts, ?_⟩)⟩
      have isDigit : char.isDigit = true := joined
      simpa [or_imp, forall_and, isDigit] using goesOn
  | word matched =>
      rcases Pattern.mem_word.1 matched with ⟨first, rest, rfl, starts, goesOn⟩
      refine ⟨_, .word (Pattern.mem_word.2 ⟨first, rest ++ [char], rfl, starts, ?_⟩)⟩
      have isPart : Token.isWordPart char = true := by
        rw [← Kind.joins_ofWord (String.ofList (first :: rest))]
        exact joined
      simpa [or_imp, forall_and, isPart] using goesOn
  | mark listed matched =>
      rcases Pattern.mem_marks.1 listed with ⟨isMark, rfl⟩
      rcases Kind.exists_longer_mark isMark joined with ⟨longer, isLonger, spelled, _⟩
      rw [Pattern.mem_exactly.1 matched, ← spelled]
      exact ⟨_, .mark (Pattern.mem_marks.2 ⟨isLonger, rfl⟩) (Pattern.mem_exactly.2 rfl)⟩

end Matches

theorem Token.WellFormed.matched_or_illegal {token : Token} (wellFormed : token.WellFormed) :
    Matches token.literal.toList token ∨
      ∃ char : Char, token = ⟨.illegal, char.toString⟩ := by
  cases wellFormed with
  | int starts goesOn =>
      left
      have matched := Matches.number (Pattern.mem_number.2 ⟨_, _, rfl, starts, goesOn⟩)
      simpa using matched
  | word starts goesOn =>
      left
      have matched := Matches.word (Pattern.mem_word.2 ⟨_, _, rfl, starts, goesOn⟩)
      simpa [Token.word, Pattern.lookup_reserved] using matched
  | mark isMark =>
      left
      have matched := Matches.mark (Pattern.mem_marks.2 ⟨isMark, rfl⟩) (Pattern.mem_exactly.2 rfl)
      simpa [Token.mark] using matched
  | @illegal char notBlank =>
      right
      exact ⟨char, rfl⟩

theorem Matches.kind_ne_illegal {text : List Char} {token : Token} (matched : Matches text token) :
    token.kind ≠ .illegal := by
  cases matched with
  | number => simp
  | word =>
      have known := Kind.ofWord_mem (String.ofList text)
      intro isIllegal
      rw [show Kind.ofWord (String.ofList text) = .illegal from isIllegal] at known
      exact absurd known (by decide)
  | mark listed =>
      rintro rfl
      exact absurd (Pattern.mem_marks.1 listed).1 (by decide)

/-- The lexer reads a match as its token, if nothing follows. -/
theorem Matches.scan?_eq {text : List Char} {token : Token} (matched : Matches text token) :
    Token.scan? text = some (token, []) := by
  rcases matched.wellFormed with ⟨wellFormed, rfl⟩
  have nothing : token.kind.Apart [] := by simp [Kind.Apart]
  simpa using Token.scan?_append wellFormed nothing

theorem Kind.Apart.of_prefix {kind : Kind} {more rest : List Char} (apart : kind.Apart rest)
    (begins : more <+: rest) : kind.Apart more := by
  rcases begins with ⟨others, rfl⟩
  intro char isFirst
  apply apart char
  simp [List.head?_append, Option.mem_def.1 isFirst]

/-- No match goes beyond a token that the next character does not prolong, for such a match would be
read in two ways. -/
theorem Token.WellFormed.eq_of_matches {token other : Token} (wellFormed : token.WellFormed)
    {text rest : List Char} (apart : token.kind.Apart rest)
    (begins : text <+: token.literal.toList ++ rest) (matched : Matches text other)
    (covers : token.literal.toList.length ≤ text.length) :
    text = token.literal.toList ∧ other = token := by
  rcases List.prefix_of_prefix_length_le (List.prefix_append _ _) begins covers with ⟨more, rfl⟩
  have moreBegins := (List.prefix_append_right_inj _).1 begins
  have scanned := scan?_append wellFormed (apart.of_prefix moreBegins)
  rw [matched.scan?_eq] at scanned
  cases scanned
  exact ⟨by simp, rfl⟩

theorem Token.WellFormed.munch {token : Token} (wellFormed : token.WellFormed) {rest : List Char}
    (apart : token.kind.Apart rest) : Munch (token.literal.toList ++ rest) token rest := by
  rcases wellFormed.matched_or_illegal with matched | ⟨char, rfl⟩
  · apply Munch.longest matched
    intro text other begins otherMatched
    by_contra longer
    have same := wellFormed.eq_of_matches apart begins otherMatched (by omega)
    exact longer (by simp [same])
  · have spelled : char.toString.toList = [char] := by simp [Char.toString]
    simp only [spelled, List.singleton_append]
    apply Munch.illegal
    intro text other begins otherMatched
    have nonempty : text ≠ [] := by
      rintro rfl
      have scanned := otherMatched.scan?_eq
      simp [scan?] at scanned
    have covers := List.length_pos_iff.2 nonempty
    have same := wellFormed.eq_of_matches apart (by simpa [spelled] using begins) otherMatched
      (by simp only [spelled, List.length_singleton]; omega)
    apply otherMatched.kind_ne_illegal
    rw [same.2]

/-- A token that the rules take off a text is spelled by it, and not prolonged by what follows. -/
theorem Munch.spells {input rest : List Char} {token : Token} {tokens : List Token}
    (munch : Munch input token rest) (notBlank : ∀ char ∈ input.head?, char ∉ Pattern.blanks)
    (others : Spells rest tokens) : Spells input (token :: tokens) := by
  cases munch with
  | longest matched longest =>
      have apart : token.kind.Apart rest := by
        intro char isFirst
        rcases List.head?_eq_some_iff.1 isFirst with ⟨more, rfl⟩
        by_contra joined
        rcases matched.prolong (by simpa using joined) with ⟨longer, longerMatched⟩
        have bound := longest _ longer ⟨more, by simp⟩ longerMatched
        simp only [List.length_append, List.length_singleton] at bound
        omega
      rcases matched.wellFormed with ⟨wellFormed, rfl⟩
      exact .cons wellFormed apart others
  | @illegal char _ unmatched =>
      -- what the lexer finds here is not a match, so it is the character alone
      have wellFormed := Token.wellFormed_scanFrom (Pattern.not_mem_blanks.1 (notBlank char rfl)) rest
      rcases found : Token.scanFrom char rest with ⟨token, remaining⟩
      simp only [found] at wellFormed
      rcases Token.apart_of_scanFrom found with ⟨split, apart⟩
      rcases wellFormed.matched_or_illegal with matched | ⟨other, rfl⟩
      · exact absurd matched (unmatched _ _ ⟨remaining, split.symm⟩)
      · have spelled : other.toString.toList = [other] := by simp [Char.toString]
        simp only [spelled, List.singleton_append] at split
        cases split
        have read := Spells.cons wellFormed apart others
        simpa only [spelled, List.singleton_append] using read

theorem Tokenization.blank {input : List Char} {tokens : List Token} {char : Char}
    (isBlank : char ∈ Pattern.blanks) (tokenization : Tokenization input tokens) :
    Tokenization (char :: input) tokens := by
  cases tokenization with
  | done skipped => exact .done (List.forall_mem_cons.2 ⟨isBlank, skipped⟩)
  | token skipped allSkipped munch others =>
      exact .token (List.forall_mem_cons.2 ⟨isBlank, skipped⟩) allSkipped munch others

theorem Token.not_isBlank_of_isWordPart {char : Char} (isPart : isWordPart char = true) :
    isBlank char = false := by
  simp only [isWordPart, Bool.or_eq_true, beq_iff_eq] at isPart
  rcases isPart with (isStart | rfl) | rfl
  · exact not_isBlank_of_isWordStart isStart
  · decide
  · decide

theorem Token.WellFormed.not_isBlank {token : Token} (wellFormed : token.WellFormed) :
    token.literal ≠ "" ∧ ∀ char ∈ token.literal.toList, isBlank char = false := by
  cases wellFormed with
  | int starts goesOn =>
      refine ⟨by simp [← String.toList_inj], ?_⟩
      simp only [String.toList_ofList, List.forall_mem_cons]
      exact ⟨not_isBlank_of_isDigit starts,
        fun char char_mem => not_isBlank_of_isDigit (goesOn char char_mem)⟩
  | word starts goesOn =>
      refine ⟨by simp [Token.word, ← String.toList_inj], ?_⟩
      simp only [Token.word, String.toList_ofList, List.forall_mem_cons]
      exact ⟨not_isBlank_of_isWordStart starts,
        fun char char_mem => not_isBlank_of_isWordPart (goesOn char char_mem)⟩
  | mark isMark =>
      have all : ∀ kind ∈ Kind.marks,
          kind.label ≠ "" ∧ kind.label.toList.any isBlank = false := by
        decide
      rcases all _ isMark with ⟨nonempty, notBlank⟩
      exact ⟨nonempty, by simpa [Token.mark] using notBlank⟩
  | illegal notBlank =>
      refine ⟨by simp [Char.toString], ?_⟩
      simpa [Char.toString] using notBlank

/-- The rules give a text certain tokens exactly if it spells them. -/
theorem tokenization_iff_spells {input : List Char} {tokens : List Token} :
    Tokenization input tokens ↔ Spells input tokens := by
  constructor
  · intro tokenization
    induction tokenization with
    | done skipped =>
        simp only [Pattern.mem_blanks] at skipped
        simpa using Spells.blanks skipped .nil
    | token skipped allSkipped munch _ ih =>
        simp only [Pattern.mem_blanks] at skipped
        exact .blanks skipped (munch.spells allSkipped ih)
  · intro spells
    induction spells with
    | nil => exact .done (by simp)
    | blank isBlank _ ih => exact ih.blank (Pattern.mem_blanks.2 isBlank)
    | @cons token rest tokens wellFormed apart _ ih =>
        rcases wellFormed.not_isBlank with ⟨nonempty, notBlank⟩
        have allSkipped : ∀ char ∈ (token.literal.toList ++ rest).head?, char ∉ Pattern.blanks := by
          intro char isFirst
          apply Pattern.not_mem_blanks.2
          apply notBlank
          cases spelled : token.literal.toList with
          | nil => exact absurd (by simpa using spelled) nonempty
          | cons first others =>
              simp only [spelled, List.cons_append, List.head?_cons] at isFirst
              simp [Option.some.inj isFirst]
        exact @Tokenization.token [] _ _ _ _ (by simp) allSkipped (wellFormed.munch apart) ih

/-- Put together, the texts of the tokens are what was read, without the blanks. -/
theorem Spells.flatMap_literal {input : List Char} {tokens : List Token}
    (spells : Spells input tokens) :
    tokens.flatMap (·.literal.toList) = input.filter (!Token.isBlank ·) := by
  induction spells with
  | nil => rfl
  | blank isBlank _ ih => simpa [isBlank] using ih
  | @cons token _ _ wellFormed _ _ ih =>
      have kept : token.literal.toList.filter (!Token.isBlank ·) = token.literal.toList := by
        apply List.filter_eq_self.2
        intro char char_mem
        simp [wellFormed.not_isBlank.2 char char_mem]
      simp [kept, ih]

/-! ## Asking for tokens -/

/-- The two ways to ask for the next token. Behind the last token the answer is the end mark, or
there is none. -/
inductive Request where
  | withEndMark
  | untilEnd

namespace Request

/-- What a request is answered with, and the text that is left for the next one. -/
def answer (input : List Char) : Request → Option Token × List Char
  | withEndMark => (some (Token.next input).1, (Token.next input).2)
  | untilEnd =>
      match Token.scan? input with
      | some (token, rest) => (some token, rest)
      | none => (none, input)

/-- The answers to several requests, made one after the other. -/
def answers (input : List Char) : List Request → List (Option Token)
  | [] => []
  | request :: requests => (request.answer input).1 :: answers (request.answer input).2 requests

def atEnd : Request → Option Token
  | withEndMark => some .eof
  | untilEnd => none

theorem answer_of_scan?_eq_some {input rest : List Char} {first : Token}
    (scanned : Token.scan? input = some (first, rest)) (request : Request) :
    request.answer input = (some first, rest) := by
  cases request <;> simp [answer, Token.next, scanned]

/-- At the end a request changes nothing, so it is answered in the same way ever after. -/
theorem answer_of_scan?_eq_none {input : List Char} (scanned : Token.scan? input = none)
    (request : Request) :
    (request.answer input).1 = request.atEnd ∧ Token.scan? (request.answer input).2 = none := by
  cases request with
  | withEndMark =>
      simp only [answer, Token.next, scanned, atEnd, Option.getD_none, true_and]
      rfl
  | untilEnd => simp [answer, scanned, atEnd]

theorem getElem?_answers (requests : List Request) (input : List Char) (index : Nat) :
    (answers input requests)[index]? =
      requests[index]?.map fun request => (Token.all input)[index]? <|> request.atEnd := by
  induction requests generalizing input index with
  | nil => simp [answers]
  | cons request requests ih =>
      cases scanned : Token.scan? input with
      | none =>
          rcases answer_of_scan?_eq_none scanned request with ⟨answered, stillNone⟩
          have others := ih (request.answer input).2
          rw [Token.all_of_scan?_eq_none stillNone] at others
          cases index with
          | zero => simp [answers, answered, Token.all_of_scan?_eq_none scanned]
          | succ index => simpa [answers, Token.all_of_scan?_eq_none scanned] using others index
      | some found =>
          rcases found with ⟨first, rest⟩
          cases index with
          | zero =>
              simp [answers, answer_of_scan?_eq_some scanned, Token.all_of_scan?_eq_some scanned]
          | succ index =>
              simpa [answers, answer_of_scan?_eq_some scanned, Token.all_of_scan?_eq_some scanned]
                using ih rest index

end Request

/-- The lexer takes longest matches. The rules give every source one list of tokens, which is the
one that is read. However tokens are asked for, the answers are these tokens in order, and behind
the last one the end mark or nothing, as the request has it. Nothing but blanks is lost. -/
theorem tokenize_munches (source : String) :
    (∀ tokens, Tokenization source.toList tokens ↔ tokens = tokenize source) ∧
      (∀ (requests : List Request) (index : Nat),
        (Request.answers source.toList requests)[index]? =
          requests[index]?.map fun request => (tokenize source)[index]? <|> request.atEnd) ∧
      String.join ((tokenize source).map Token.literal) =
        String.ofList (source.toList.filter (· ∉ Pattern.blanks)) := by
  refine ⟨?_, ?_, ?_⟩
  · intro tokens
    rw [tokenization_iff_spells, spells_iff]
    rfl
  · intro requests index
    exact Request.getElem?_answers requests source.toList index
  · rw [← String.toList_inj, tokenize]
    simpa [List.flatMap_map, Pattern.mem_blanks] using (spells_all source.toList).flatMap_literal

end Scriptlet
