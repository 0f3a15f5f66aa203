import Scriptlet.Decimal
import Scriptlet.Token.Lexer

/-!
# Spelling tokens

A token is `WellFormed` if it is what the characters of its text make of it: digits, a word, a mark,
or a single character that begins nothing else. The tokens of every source are well formed.

In the other direction, the text of a well-formed token is read as this token again, provided the
characters that follow do not prolong it. Which characters would do so depends on the kind alone and
is what `Kind.joins` says. A whole text `Spells` some tokens if it is made of their texts, blanks
apart, without such an accident at any seam; then these tokens are what it is read as.
-/

namespace Scriptlet

namespace Token

/-- Tokens that are spelled by their text. -/
inductive WellFormed : Token → Prop
  | int {first : Char} {rest : List Char} (starts : first.isDigit = true)
      (goesOn : ∀ char ∈ rest, char.isDigit = true) :
      WellFormed ⟨.int, String.ofList (first :: rest)⟩
  | word {first : Char} {rest : List Char} (starts : isWordStart first = true)
      (goesOn : ∀ char ∈ rest, isWordPart char = true) :
      WellFormed (word (String.ofList (first :: rest)))
  | mark {kind : Kind} (isMark : kind ∈ Kind.marks) : WellFormed (mark kind)
  | illegal {char : Char} (notBlank : isBlank char = false) (notDigit : char.isDigit = false)
      (notWord : isWordStart char = false)
      (notMark : ∀ kind ∈ Kind.marks, kind.label.toList.head? ≠ some char) :
      WellFormed ⟨.illegal, char.toString⟩

end Token

namespace Kind

/-- Whether a character right behind a token of this kind would become part of it. -/
def joins : Kind → Char → Bool
  | int, char => char.isDigit
  | ident, char | kwFn, char | kwLet, char | kwTrue, char | kwFalse, char | kwIf, char
  | kwElse, char | kwReturn, char => Token.isWordPart char
  | assign, char | bang, char | lt, char | gt, char => char == '='
  | plus, char => char == '+'
  | minus, char => char == '-'
  | _, _ => false

/-- What follows a token of this kind does not prolong it. -/
def Apart (kind : Kind) (rest : List Char) : Prop :=
  ∀ char ∈ rest.head?, kind.joins char = false

theorem ofWord_mem (word : String) :
    ofWord word ∈ [ident, kwFn, kwLet, kwTrue, kwFalse, kwIf, kwElse, kwReturn] := by
  have known : ∀ entry ∈ keywords,
      entry.2 ∈ [ident, kwFn, kwLet, kwTrue, kwFalse, kwIf, kwElse, kwReturn] := by
    decide
  rw [ofWord]
  cases found : keywords.lookup word with
  | none => decide
  | some kind =>
      rcases List.lookup_eq_some_iff.1 found with ⟨before, after, split, _⟩
      exact known (word, kind) (by simp [split])

theorem joins_ofWord (word : String) : (ofWord word).joins = Token.isWordPart := by
  have known := ofWord_mem word
  simp only [List.mem_cons, List.not_mem_nil, or_false] at known
  rcases known with known | known | known | known | known | known | known | known <;>
    rw [known] <;> rfl

/-- A blank becomes part of no token. -/
theorem joins_of_isBlank (kind : Kind) {char : Char} (blank : Token.isBlank char = true) :
    kind.joins char = false := by
  simp only [Token.isBlank, Bool.or_eq_true, beq_iff_eq] at blank
  rcases blank with ((rfl | rfl) | rfl) | rfl <;> cases kind <;> rfl

theorem apart_of_isBlank (kind : Kind) {rest : List Char}
    (blank : ∀ char ∈ rest.head?, Token.isBlank char = true) : kind.Apart rest := by
  intro char isFirst
  exact kind.joins_of_isBlank (blank char isFirst)

/-- What prolongs a mark makes a longer mark of it, and that one cannot be prolonged further. -/
theorem exists_longer_mark {kind : Kind} (isMark : kind ∈ marks) {char : Char}
    (joined : kind.joins char = true) :
    ∃ longer ∈ marks, longer.label.toList = kind.label.toList ++ [char] ∧
      ∀ next, longer.joins next = false := by
  revert isMark
  cases kind <;> simp only [joins, beq_iff_eq, Bool.false_eq_true] at joined <;> intro isMark
  case assign => subst joined; exact ⟨.eq, by decide, rfl, fun _ => rfl⟩
  case bang => subst joined; exact ⟨.ne, by decide, rfl, fun _ => rfl⟩
  case lt => subst joined; exact ⟨.le, by decide, rfl, fun _ => rfl⟩
  case gt => subst joined; exact ⟨.ge, by decide, rfl, fun _ => rfl⟩
  case plus => subst joined; exact ⟨.plusPlus, by decide, rfl, fun _ => rfl⟩
  case minus => subst joined; exact ⟨.minusMinus, by decide, rfl, fun _ => rfl⟩
  all_goals exact absurd isMark (by decide)

end Kind

namespace Token

theorem head_not_blank {input rest : List Char} {first : Char}
    (dropped : input.dropWhile isBlank = first :: rest) : isBlank first = false := by
  have head := List.head?_dropWhile_not isBlank input
  rw [dropped] at head
  simpa using head

theorem take_one_eq_label : ∀ kind ∈ Kind.marks, ∃ single ∈ Kind.marks,
    single.label.toList = kind.label.toList.take 1 := by
  decide

/-- A character that some mark begins with is never left over, as it is a mark by itself. -/
theorem mark?_ne_none_of_head {kind : Kind} {first : Char} {rest : List Char}
    (isMark : kind ∈ Kind.marks) (head : kind.label.toList.head? = some first) :
    mark? (first :: rest) ≠ none := by
  rcases take_one_eq_label kind isMark with ⟨single, isSingle, label_eq⟩
  have spelled : single.label.toList = [first] := by
    rw [label_eq]
    cases label : kind.label.toList with
    | nil => simp [label] at head
    | cons char chars => simpa [label] using head
  intro missing
  have := List.find?_eq_none.1 missing single isSingle
  rw [spelled] at this
  simp at this

theorem wellFormed_scanFrom {first : Char} (notBlank : isBlank first = false)
    (rest : List Char) : (scanFrom first rest).1.WellFormed := by
  rw [scanFrom]
  split
  · next isDigit =>
      exact .int isDigit (fun char char_mem => List.all_eq_true.1 List.all_takeWhile char char_mem)
  · next notDigit =>
      split
      · next isStart =>
          exact .word isStart
            (fun char char_mem => List.all_eq_true.1 List.all_takeWhile char char_mem)
      · next notStart =>
          split
          · next kind found => exact .mark (List.mem_of_find?_eq_some found)
          · next missing =>
              refine .illegal notBlank (by simpa using notDigit) (by simpa using notStart) ?_
              intro kind isMark head
              exact mark?_ne_none_of_head isMark head missing

/-- Every token of a text is spelled by its text. -/
theorem wellFormed_of_mem_all {input : List Char} {token : Token} (token_mem : token ∈ all input) :
    token.WellFormed := by
  cases scanned : scan? input with
  | none =>
      rw [all_of_scan?_eq_none scanned] at token_mem
      cases token_mem
  | some found =>
      rcases found with ⟨first, rest⟩
      have shorter := length_lt_of_scan? scanned
      rw [all_of_scan?_eq_some scanned] at token_mem
      cases token_mem with
      | head =>
          unfold scan? at scanned
          split at scanned
          · cases scanned
          · next char chars dropped =>
              have spelled := wellFormed_scanFrom (head_not_blank dropped) chars
              rw [Option.some.inj scanned] at spelled
              exact spelled
      | tail _ others => exact wellFormed_of_mem_all others
termination_by input.length

theorem WellFormed.isDigit_of_int {token : Token} (wellFormed : token.WellFormed)
    (isInt : token.kind = .int) :
    token.literal ≠ "" ∧ ∀ char ∈ token.literal.toList, char.isDigit = true := by
  cases wellFormed with
  | int starts goesOn => simpa using ⟨starts, goesOn⟩
  | word =>
      have notWord : Kind.int ∉ [Kind.ident, .kwFn, .kwLet, .kwTrue, .kwFalse, .kwIf, .kwElse,
          .kwReturn] := by
        decide
      apply absurd _ notWord
      rw [← isInt]
      exact Kind.ofWord_mem _
  | mark isMark =>
      have notMark : Kind.int ∉ Kind.marks := by decide
      apply absurd _ notMark
      rw [← isInt]
      exact isMark
  | illegal => cases isInt

/-- No text spells a string or the end mark. -/
theorem WellFormed.kind_ne {token : Token} (wellFormed : token.WellFormed) {kind : Kind}
    (unspelled : kind ∈ [.string, .eof]) : token.kind ≠ kind := by
  simp only [List.mem_cons, List.not_mem_nil, or_false] at unspelled
  cases wellFormed with
  | int => rcases unspelled with rfl | rfl <;> simp
  | @word first rest =>
      have known := Kind.ofWord_mem (String.ofList (first :: rest))
      intro same
      rw [show Kind.ofWord (String.ofList (first :: rest)) = kind from same] at known
      rcases unspelled with rfl | rfl <;> simp at known
  | mark isMark =>
      rintro rfl
      rcases unspelled with rfl | rfl <;> simp [Kind.marks] at isMark
  | illegal => rcases unspelled with rfl | rfl <;> simp

theorem WellFormed.kind_ne_eof {token : Token} (wellFormed : token.WellFormed) :
    token.kind ≠ .eof :=
  wellFormed.kind_ne (by simp)

theorem not_isBlank_of_isDigit {char : Char} (isDigit : char.isDigit = true) :
    isBlank char = false := by
  simp only [isBlank, Bool.or_eq_false_iff, beq_eq_false_iff_ne]
  refine ⟨⟨⟨?_, ?_⟩, ?_⟩, ?_⟩ <;> rintro rfl <;> exact absurd isDigit (by decide)

theorem not_isBlank_of_isWordStart {char : Char} (isStart : isWordStart char = true) :
    isBlank char = false := by
  simp only [isBlank, Bool.or_eq_false_iff, beq_eq_false_iff_ne]
  refine ⟨⟨⟨?_, ?_⟩, ?_⟩, ?_⟩ <;> rintro rfl <;> exact absurd isStart (by decide)

/-- Letters and the underscore lie between `A` and `z`. -/
theorem toNat_of_isWordStart {char : Char} (isStart : isWordStart char = true) :
    'A'.toNat ≤ char.toNat ∧ char.toNat ≤ 'z'.toNat := by
  rcases Bool.or_eq_true_iff.1 isStart with isAlpha | isUnderscore
  · rcases Bool.or_eq_true_iff.1 isAlpha with isUpper | isLower
    · have between : 'A'.toNat ≤ char.toNat ∧ char.toNat ≤ 'Z'.toNat := of_decide_eq_true isUpper
      exact ⟨between.1, Nat.le_trans between.2 (by decide)⟩
    · have between : 'a'.toNat ≤ char.toNat ∧ char.toNat ≤ 'z'.toNat :=
        (Bool.and_eq_true_iff.1 isLower).imp of_decide_eq_true of_decide_eq_true
      exact ⟨Nat.le_trans (by decide) between.1, between.2⟩
  · rw [beq_iff_eq.1 isUnderscore]
    decide

theorem not_isDigit_of_isWordStart {char : Char} (isStart : isWordStart char = true) :
    char.isDigit = false := by
  rw [Bool.eq_false_iff]
  intro isDigit
  have low := (Char.isDigit_iff_toNat.1 isDigit).2
  have high := (toNat_of_isWordStart isStart).1
  exact absurd (Nat.le_trans high low) (by decide)

/-- A run of characters of a class ends where a character of another class follows. -/
theorem takeWhile_append_of_head {isPart : Char → Bool} {run rest : List Char}
    (goesOn : ∀ char ∈ run, isPart char = true) (stops : ∀ char ∈ rest.head?, isPart char = false) :
    (run ++ rest).takeWhile isPart = run := by
  rw [List.takeWhile_append_of_pos goesOn]
  cases rest with
  | nil => simp
  | cons first others => simp [stops first rfl]

theorem dropWhile_append_of_head {isPart : Char → Bool} {run rest : List Char}
    (goesOn : ∀ char ∈ run, isPart char = true) (stops : ∀ char ∈ rest.head?, isPart char = false) :
    (run ++ rest).dropWhile isPart = rest := by
  rw [List.dropWhile_append_of_pos goesOn]
  cases rest with
  | nil => rfl
  | cons first others => simp [stops first rfl]

theorem scan?_cons {first : Char} (notBlank : isBlank first = false) (rest : List Char) :
    scan? (first :: rest) = some (scanFrom first rest) := by
  simp [scan?, notBlank]

/-- The spelling of a mark is read as this mark, and not as a longer one. -/
theorem mark?_append {kind : Kind} (isMark : kind ∈ Kind.marks) {rest : List Char}
    (apart : kind.Apart rest) : mark? (kind.label.toList ++ rest) = some kind := by
  cases rest with
  | nil => revert isMark; cases kind <;> decide
  | cons first others =>
      have notJoined : kind.joins first = false := apart first rfl
      revert isMark
      cases kind <;> simp [Kind.joins, mark?, Kind.marks, Kind.label] at notJoined ⊢ <;>
        simpa [List.isPrefixOf] using Ne.symm notJoined

theorem head_label_of_mark {kind : Kind} (isMark : kind ∈ Kind.marks) :
    ∃ first rest, kind.label.toList = first :: rest ∧ isBlank first = false ∧
      first.isDigit = false ∧ isWordStart first = false := by
  revert isMark
  cases kind <;> simp [Kind.marks, Kind.label] <;> decide

/-- The text of a well-formed token is read as this token, unless what follows prolongs it. -/
theorem scan?_append {token : Token} (wellFormed : token.WellFormed) {rest : List Char}
    (apart : token.kind.Apart rest) :
    scan? (token.literal.toList ++ rest) = some (token, rest) := by
  cases wellFormed with
  | @int first digits starts goesOn =>
      have stops : ∀ char ∈ rest.head?, char.isDigit = false := apart
      simp only [String.toList_ofList, List.cons_append]
      rw [scan?_cons (not_isBlank_of_isDigit starts), scanFrom, if_pos starts,
        takeWhile_append_of_head goesOn stops, dropWhile_append_of_head goesOn stops]
  | @word first others starts goesOn =>
      have stops : ∀ char ∈ rest.head?, isWordPart char = false := by
        rw [← Kind.joins_ofWord (String.ofList (first :: others))]
        exact apart
      have notDigit : ¬first.isDigit = true := by simp [not_isDigit_of_isWordStart starts]
      simp only [Token.word, String.toList_ofList, List.cons_append]
      rw [scan?_cons (not_isBlank_of_isWordStart starts), scanFrom, if_neg notDigit, if_pos starts,
        takeWhile_append_of_head goesOn stops, dropWhile_append_of_head goesOn stops]
      rfl
  | @mark kind isMark =>
      rcases head_label_of_mark isMark with ⟨first, others, spelled, notBlank, notDigit, notStart⟩
      have found := mark?_append isMark apart
      simp only [Token.mark] at found ⊢
      rw [spelled, List.cons_append] at found ⊢
      rw [scan?_cons notBlank, scanFrom, if_neg (by simp [notDigit]), if_neg (by simp [notStart]),
        found]
      simp [Token.mark, spelled]
  | @illegal char notBlank notDigit notWord notMark =>
      have missing : mark? (char :: rest) = none := by
        refine List.find?_eq_none.2 ?_
        intro kind isMark begins
        rcases List.isPrefixOf_iff_prefix.1 begins with ⟨others, split⟩
        rcases head_label_of_mark isMark with ⟨first, _, spelled, _⟩
        rw [spelled] at split
        apply notMark kind isMark
        rw [spelled, List.head?_cons, (List.cons.inj split).1]
      simp only [Char.toString, String.toList_singleton, List.cons_append, List.nil_append]
      rw [scan?_cons notBlank, scanFrom, if_neg (by simp [notDigit]), if_neg (by simp [notWord]),
        missing]
      rfl

theorem apart_of_mark? {kind : Kind} {rest : List Char}
    (found : mark? (kind.label.toList ++ rest) = some kind) : kind.Apart rest := by
  intro char isNext
  cases joined : kind.joins char with
  | false => rfl
  | true =>
      have isMark := List.mem_of_find?_eq_some found
      rcases Kind.exists_longer_mark isMark joined with ⟨longer, isLonger, spelled, never⟩
      rcases List.head?_eq_some_iff.1 isNext with ⟨others, rfl⟩
      have longerFound : mark? (longer.label.toList ++ others) = some longer :=
        mark?_append isLonger fun next _ => never next
      rw [spelled, List.append_assoc, List.singleton_append, found] at longerFound
      cases longerFound
      simp at spelled

theorem apart_dropWhile {kind : Kind} {isPart : Char → Bool} (joins : kind.joins = isPart)
    (rest : List Char) : kind.Apart (rest.dropWhile isPart) := by
  intro char isFirst
  have head := List.head?_dropWhile_not isPart rest
  rw [Option.mem_def.1 isFirst] at head
  simpa [joins] using head

/-- The token that is taken off the front of a text stands there, and what follows it does not
prolong it. -/
theorem apart_of_scanFrom {first : Char} {rest remaining : List Char} {token : Token}
    (scanned : scanFrom first rest = (token, remaining)) :
    first :: rest = token.literal.toList ++ remaining ∧ token.kind.Apart remaining := by
  unfold scanFrom at scanned
  split at scanned
  · cases scanned
    exact ⟨by simp, apart_dropWhile rfl rest⟩
  · split at scanned
    · cases scanned
      exact ⟨by simp [word], apart_dropWhile (Kind.joins_ofWord _) rest⟩
    · split at scanned
      · next kind found =>
          cases scanned
          have begins : kind.label.toList.isPrefixOf (first :: rest) = true :=
            List.find?_some (p := fun kind : Kind => kind.label.toList.isPrefixOf (first :: rest)) found
          rcases List.isPrefixOf_iff_prefix.1 begins with ⟨others, split⟩
          rw [← split] at found ⊢
          simpa [mark] using apart_of_mark? found
      · cases scanned
        exact ⟨by simp, fun _ _ => rfl⟩

end Token

/-- A text spells some tokens if it is made of their texts in order, with blanks wherever they are
wanted, and no token is prolonged by what follows it. -/
inductive Spells : List Char → List Token → Prop
  | nil : Spells [] []
  | blank {char : Char} {rest : List Char} {tokens : List Token}
      (isBlank : Token.isBlank char = true) (others : Spells rest tokens) :
      Spells (char :: rest) tokens
  | cons {token : Token} {rest : List Char} {tokens : List Token}
      (wellFormed : token.WellFormed) (apart : token.kind.Apart rest)
      (others : Spells rest tokens) : Spells (token.literal.toList ++ rest) (token :: tokens)

theorem Token.scan?_cons_blank {char : Char} (blank : isBlank char = true) (rest : List Char) :
    scan? (char :: rest) = scan? rest := by
  simp [scan?, blank]

/-- The tokens of a text are the ones that it spells. -/
theorem Spells.all_eq {input : List Char} {tokens : List Token} (spells : Spells input tokens) :
    Token.all input = tokens := by
  induction spells with
  | nil => exact Token.all_of_scan?_eq_none rfl
  | @blank char rest tokens isBlank others ih =>
      rw [← ih]
      cases scanned : Token.scan? rest with
      | none =>
          rw [Token.all_of_scan?_eq_none scanned,
            Token.all_of_scan?_eq_none (by rw [Token.scan?_cons_blank isBlank, scanned])]
      | some found =>
          rw [Token.all_of_scan?_eq_some scanned,
            Token.all_of_scan?_eq_some (by rw [Token.scan?_cons_blank isBlank, scanned])]
  | cons wellFormed apart others ih =>
      rw [Token.all_of_scan?_eq_some (Token.scan?_append wellFormed apart), ih]

theorem Spells.blanks {run rest : List Char} {tokens : List Token}
    (blank : ∀ char ∈ run, Token.isBlank char = true) (others : Spells rest tokens) :
    Spells (run ++ rest) tokens := by
  induction run with
  | nil => exact others
  | cons char run ih =>
      rw [List.forall_mem_cons] at blank
      exact .blank blank.1 (ih blank.2)

/-- Every text spells the tokens that it is read as. -/
theorem spells_all (input : List Char) : Spells input (Token.all input) := by
  have blank : ∀ char ∈ input.takeWhile Token.isBlank, Token.isBlank char = true :=
    fun char char_mem => List.all_eq_true.1 List.all_takeWhile char char_mem
  have skipped := List.takeWhile_append_dropWhile (p := Token.isBlank) (l := input)
  cases dropped : input.dropWhile Token.isBlank with
  | nil =>
      have empty : Token.all input = [] := Token.all_of_scan?_eq_none (by simp [Token.scan?, dropped])
      rw [dropped] at skipped
      rw [empty, ← skipped]
      exact .blanks blank .nil
  | cons first rest =>
      rcases found : Token.scanFrom first rest with ⟨token, remaining⟩
      have scanned : Token.scan? input = some (token, remaining) := by
        simp [Token.scan?, dropped, found]
      have shorter := Token.length_lt_of_scan? scanned
      have wellFormed := Token.wellFormed_scanFrom (Token.head_not_blank dropped) rest
      rw [found] at wellFormed
      rcases Token.apart_of_scanFrom found with ⟨split, apart⟩
      rw [Token.all_of_scan?_eq_some scanned]
      rw [← skipped, dropped, split]
      exact .blanks blank (.cons wellFormed apart (spells_all remaining))
termination_by input.length

/-- A text spells certain tokens exactly if these are read. -/
theorem spells_iff {input : List Char} {tokens : List Token} :
    Spells input tokens ↔ tokens = Token.all input := by
  constructor
  · intro spells
    exact spells.all_eq.symm
  · rintro rfl
    exact spells_all input

/-- Texts can be put one behind the other if the last token of the first one cannot be prolonged. -/
theorem Spells.append {input more : List Char} {tokens others : List Token}
    (spells : Spells input tokens) (behind : Spells more others)
    (closed : ∀ last ∈ tokens.getLast?, ∀ char, last.kind.joins char = false) :
    Spells (input ++ more) (tokens ++ others) := by
  induction spells with
  | nil => exact behind
  | blank isBlank spells ih => exact .blank isBlank (ih closed)
  | @cons token rest tokens wellFormed apart spells ih =>
      have closedRest : ∀ last ∈ tokens.getLast?, ∀ char, last.kind.joins char = false := by
        intro last isLast
        apply closed
        simp_all [List.getLast?_cons]
      have apartRest : token.kind.Apart (rest ++ more) := by
        intro char isNext
        cases rest with
        | nil =>
            obtain rfl : tokens = [] := by
              rw [spells_iff.1 spells]
              exact Token.all_of_scan?_eq_none rfl
            exact closed token rfl char
        | cons first rest => exact apart char isNext
      rw [List.append_assoc]
      exact .cons wellFormed apartRest (ih closedRest)

theorem tokenize_append {first second : String}
    (closed : ∀ last ∈ (tokenize first).getLast?, ∀ char, last.kind.joins char = false) :
    tokenize (first ++ second) = tokenize first ++ tokenize second := by
  have spells := (spells_all first.toList).append (spells_all second.toList) closed
  rw [← String.toList_append] at spells
  exact (spells_iff.1 spells).symm

/-! ## Numerals -/

theorem Decimal.value_toString (number : Nat) : Decimal.value (toString number).toList = number := by
  rw [Nat.toString_eq_ofList_toDigits, String.toList_ofList]
  exact Nat.ofDigitChars_toDigits (by decide) (by decide)

theorem Token.wellFormed_numeral (number : Nat) : Token.WellFormed ⟨.int, toString number⟩ := by
  rw [Nat.toString_eq_ofList_toDigits]
  have isDigit : ∀ char ∈ Nat.toDigits 10 number, char.isDigit = true :=
    fun char => Nat.isDigit_of_mem_toDigits (by decide) (by decide)
  cases digits : Nat.toDigits 10 number with
  | nil => exact absurd digits Nat.toDigits_ne_nil
  | cons first rest =>
      rw [digits, List.forall_mem_cons] at isDigit
      exact .int isDigit.1 isDigit.2

end Scriptlet
