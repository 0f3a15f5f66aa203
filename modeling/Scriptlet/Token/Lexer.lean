import Scriptlet.Token.Basic

/-!
# Reading tokens

`scan?` takes one token off the front of a text and `tokenize` takes all of them. Blanks separate
tokens and are dropped. What follows them is a run of digits, a word, or the longest mark that fits;
a character that begins none of these is a token by itself, so nothing but blanks is lost.

A word begins with a letter or an underscore and may go on with letters, underscores and the
characters `!` and `?`; digits end it. Letters and digits are those of ASCII.
-/

namespace Scriptlet

namespace Token

/-- The characters that only separate tokens. -/
def isBlank (char : Char) : Bool :=
  char == ' ' || char == '\t' || char == '\n' || char == '\r'

/-- The characters a word may begin with. -/
def isWordStart (char : Char) : Bool :=
  char.isAlpha || char == '_'

/-- The characters a word may go on with. -/
def isWordPart (char : Char) : Bool :=
  isWordStart char || char == '!' || char == '?'

/-- The longest mark that `input` begins with. -/
def mark? (input : List Char) : Option Kind :=
  Kind.marks.find? fun kind => kind.label.toList.isPrefixOf input

/-- The token that begins with `first`, which is not blank, and what follows that token. -/
def scanFrom (first : Char) (rest : List Char) : Token × List Char :=
  if first.isDigit then
    (⟨.int, String.ofList (first :: rest.takeWhile Char.isDigit)⟩, rest.dropWhile Char.isDigit)
  else if isWordStart first then
    (word (String.ofList (first :: rest.takeWhile isWordPart)), rest.dropWhile isWordPart)
  else
    match mark? (first :: rest) with
    | some kind => (mark kind, (first :: rest).drop kind.label.toList.length)
    | none => (⟨.illegal, first.toString⟩, rest)

/-- The first token of `input` and what follows it, or `none` if only blanks are left. -/
def scan? (input : List Char) : Option (Token × List Char) :=
  match input.dropWhile isBlank with
  | [] => none
  | first :: rest => some (scanFrom first rest)

/-- The first token of `input` and what follows it. At the end of the text this is the end mark,
however often one asks. -/
def next (input : List Char) : Token × List Char :=
  (scan? input).getD (eof, [])

theorem length_label_pos_of_mark? {input : List Char} {kind : Kind}
    (found : mark? input = some kind) : 0 < kind.label.toList.length := by
  have kind_mem := List.mem_of_find?_eq_some found
  revert kind_mem
  cases kind <;> decide

theorem length_scanFrom_le (first : Char) (rest : List Char) :
    (scanFrom first rest).2.length ≤ rest.length := by
  unfold scanFrom
  split
  · exact (List.dropWhile_suffix _).length_le
  · split
    · exact (List.dropWhile_suffix _).length_le
    · split
      · next found =>
          have spelled := length_label_pos_of_mark? found
          simp only [List.length_drop, List.length_cons]
          omega
      · exact Nat.le_refl _

/-- A token takes at least one character. -/
theorem length_lt_of_scan? {input rest : List Char} {token : Token}
    (scanned : scan? input = some (token, rest)) : rest.length < input.length := by
  unfold scan? at scanned
  have dropped := (List.dropWhile_suffix isBlank (l := input)).length_le
  split at scanned
  · cases scanned
  · next first remaining split_eq =>
      have bound := length_scanFrom_le first remaining
      rw [Option.some.inj scanned] at bound
      rw [split_eq, List.length_cons] at dropped
      exact Nat.lt_of_le_of_lt bound dropped

/-- The tokens of `input`, behind those already read. -/
def scanAll (read : Array Token) (input : List Char) : Array Token :=
  match scanned : scan? input with
  | none => read
  | some (token, rest) =>
      have := length_lt_of_scan? scanned
      scanAll (read.push token) rest
termination_by input.length

/-- The tokens of a text, without the end mark. -/
def all (input : List Char) : List Token :=
  (scanAll #[] input).toList

theorem scanAll_of_scan?_eq_none {read : Array Token} {input : List Char}
    (scanned : scan? input = none) : scanAll read input = read := by
  rw [scanAll]
  split
  · rfl
  · next found => rw [scanned] at found; cases found

theorem scanAll_of_scan?_eq_some {read : Array Token} {input rest : List Char} {token : Token}
    (scanned : scan? input = some (token, rest)) :
    scanAll read input = scanAll (read.push token) rest := by
  rw [scanAll]
  split
  · next found => rw [scanned] at found; cases found
  · next found => rw [scanned] at found; cases found; rfl

theorem toList_scanAll (read : Array Token) (input : List Char) :
    (scanAll read input).toList = read.toList ++ all input := by
  cases scanned : scan? input with
  | none => simp [all, scanAll_of_scan?_eq_none scanned]
  | some first =>
      have := length_lt_of_scan? scanned
      rw [all, scanAll_of_scan?_eq_some scanned, scanAll_of_scan?_eq_some scanned,
        toList_scanAll, toList_scanAll (#[].push first.1)]
      simp
termination_by input.length

/-- A text without a first token has no tokens. -/
theorem all_of_scan?_eq_none {input : List Char} (scanned : scan? input = none) :
    all input = [] := by
  rw [all, scanAll_of_scan?_eq_none scanned]

/-- The tokens of a text are the first one and those of what follows it. -/
theorem all_of_scan?_eq_some {input rest : List Char} {token : Token}
    (scanned : scan? input = some (token, rest)) : all input = token :: all rest := by
  rw [all, scanAll_of_scan?_eq_some scanned, toList_scanAll]
  simp

end Token

/-- The tokens of a source, without the end mark. -/
def tokenize (source : String) : List Token :=
  Token.all source.toList

end Scriptlet
