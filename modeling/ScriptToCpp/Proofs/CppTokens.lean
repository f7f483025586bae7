import Mathlib.Data.List.Chain
import ScriptToCpp.Proofs.LexemeEnds

/-! How C++17 cuts a text into tokens. Blanks and comments part tokens, and wherever a token starts,
the longest one counts, whether or not a program could go on behind it. Words are tokens of one form,
also those that stand for operators; header names and the exception that is made for `<::` do not
come into it. -/
namespace ScriptToCpp

namespace Cpp
open Lexical (Longest longest_of_stops)

def blanks : List Char :=
  [' ', '\t', '\n', '\x0b', '\x0c']

/-- What words consist of; characters beyond ASCII count as letters. -/
def isWordPart (c : Char) : Bool :=
  c.isAlphanum || c = '_' || 127 < c.toNat

def IsWord (text : List Char) : Prop :=
  (∀ c ∈ text.head?, isWordPart c ∧ c.isDigit = false) ∧ text ≠ [] ∧ ∀ c ∈ text, isWordPart c

/-- Whatever looks like a number, also where no number is written that way. -/
inductive IsNumber : List Char → Prop where
  | digit {c : Char} : c.isDigit → IsNumber [c]
  | point {c : Char} : c.isDigit → IsNumber ['.', c]
  | more {text : List Char} {c : Char} : IsNumber text → isWordPart c ∨ c = '.' →
      IsNumber (text ++ [c])
  | exponent {text : List Char} {c sign : Char} : IsNumber text → c ∈ ['e', 'E', 'p', 'P'] →
      sign ∈ ['+', '-'] → IsNumber (text ++ [c, sign])
  | separator {text : List Char} {c : Char} : IsNumber text → isWordPart c →
      IsNumber (text ++ ['\x27', c])

/-- The operators and punctuators that are no words. -/
def marks : List (List Char) :=
  ["\x7b", "\x7d", "[", "]", "#", "##", "(", ")", "<:", ":>", "<%", "%>", "%:", "%:%:", ";", ":",
    "...", "?", "::", ".", ".*", "+", "-", "*", "/", "%", "^", "&", "|", "~", "!", "=", "<", ">",
    "+=", "-=", "*=", "/=", "%=", "^=", "&=", "|=", "<<", ">>", ">>=", "<<=", "==", "!=", "<=",
    ">=", "&&", "||", "++", "--", ",", "->*", "->"].map String.toList

/-- What may stand between quotes: a quote only behind a backslash, and no end of a line. -/
inductive Quotable (quote : Char) : List Char → Prop where
  | nil : Quotable quote []
  | plain {c : Char} {text : List Char} : c ∉ [quote, '\\', '\n'] → Quotable quote text →
      Quotable quote (c :: text)
  | escaped {c : Char} {text : List Char} : c ≠ '\n' → Quotable quote text →
      Quotable quote ('\\' :: c :: text)

/-- Characters and strings, with what may stand directly before and behind the quotes. -/
inductive IsLiteral : List Char → Prop where
  | quoted {quote : Char} {before : String} {text behind : List Char} :
      before ∈ ["", "u8", "u", "U", "L"] → quote ∈ ['"', '\x27'] → Quotable quote text →
      behind = [] ∨ IsWord behind →
      IsLiteral (before.toList ++ quote :: (text ++ quote :: behind))
  /-- A raw string ends at the first place where its own delimiter closes it. -/
  | raw {before : String} {delimiter text behind : List Char} :
      before ∈ ["R", "u8R", "uR", "UR", "LR"] →
      (∀ c ∈ delimiter, c ∉ '(' :: ')' :: '\\' :: blanks) →
      ¬ ')' :: (delimiter ++ ['"']) <:+: text ++ ')' :: delimiter →
      behind = [] ∨ IsWord behind →
      IsLiteral (before.toList ++ '"' ::
        (delimiter ++ '(' :: (text ++ ')' :: (delimiter ++ '"' :: behind))))

inductive IsToken : List Char → Prop where
  | word {text : List Char} : IsWord text → IsToken text
  | number {text : List Char} : IsNumber text → IsToken text
  | literal {text : List Char} : IsLiteral text → IsToken text
  | mark {text : List Char} : text ∈ marks → IsToken text
  /-- A character that starts nothing else stands for itself. -/
  | single {c : Char} : c ∉ blanks → IsToken [c]

def StartsComment (text : List Char) : Prop :=
  ['/', '/'] <+: text ∨ ['/', '*'] <+: text

/-- The tokens of a text, as they are spelled. -/
inductive Splits : List Char → List String → Prop where
  | done : Splits [] []
  | blank {c : Char} {rest : List Char} {pieces : List String} :
      c ∈ blanks → Splits rest pieces → Splits (c :: rest) pieces
  | line {text rest : List Char} {pieces : List String} :
      '\n' ∉ text → (∀ c ∈ rest.head?, c = '\n') → Splits rest pieces →
      Splits ('/' :: '/' :: (text ++ rest)) pieces
  | lines {text rest : List Char} {pieces : List String} :
      ¬ ['*', '/'] <:+: text ++ ['*'] → Splits rest pieces →
      Splits ('/' :: '*' :: (text ++ '*' :: '/' :: rest)) pieces
  | token {part rest : List Char} {pieces : List String} :
      ¬ StartsComment (part ++ rest) → Longest IsToken (part ++ rest) part →
      Splits rest pieces → Splits (part ++ rest) (String.ofList part :: pieces)

theorem digit_wordPart {c : Char} (digit : c.isDigit) : isWordPart c := by
  rw [isWordPart, Char.isAlphanum, digit]
  simp

theorem IsNumber.characters {text : List Char} (number : IsNumber text) :
    ∀ c ∈ text, isWordPart c ∨ c ∈ ['.', '\x27', '+', '-'] := by
  induction number with
  | digit single =>
    intro x member
    cases List.mem_singleton.mp member
    exact .inl (digit_wordPart single)
  | point single =>
    intro x member
    simp only [List.mem_cons, List.not_mem_nil, or_false] at member
    rcases member with rfl | rfl
    · exact .inr (by decide)
    · exact .inl (digit_wordPart single)
  | more _ next ih =>
    intro x member
    rcases List.mem_append.mp member with before | last
    · exact ih x before
    · cases List.mem_singleton.mp last
      rcases next with part | rfl
      · exact .inl part
      · exact .inr (by decide)
  | @exponent _ c sign _ mark signs ih =>
    intro x member
    simp only [List.mem_append, List.mem_cons, List.not_mem_nil, or_false] at member mark signs
    rcases member with before | rfl | rfl
    · exact ih x before
    · rcases mark with rfl | rfl | rfl | rfl <;> exact .inl (by decide)
    · rcases signs with rfl | rfl <;> exact .inr (by decide)
  | separator _ part ih =>
    intro x member
    simp only [List.mem_append, List.mem_cons, List.not_mem_nil, or_false] at member
    rcases member with before | rfl | rfl
    · exact ih x before
    · exact .inr (by decide)
    · exact .inl part

theorem IsNumber.head {text : List Char} (number : IsNumber text) :
    ∃ c rest, text = c :: rest ∧ (c.isDigit ∨ c = '.') := by
  induction number with
  | digit digit => exact ⟨_, [], rfl, .inl digit⟩
  | point => exact ⟨'.', _, rfl, .inr rfl⟩
  | more _ _ ih | exponent _ _ _ ih | separator _ _ ih =>
    obtain ⟨c, rest, rfl, start⟩ := ih
    exact ⟨c, _, rfl, start⟩

/-- A literal has a quote, and before it nothing but parts of words. -/
theorem IsLiteral.quote {text : List Char} (literal : IsLiteral text) :
    ∃ before quote behind, text = before ++ quote :: behind ∧ (∀ c ∈ before, isWordPart c) ∧
      quote ∈ ['"', '\x27'] := by
  have parts : ∀ before ∈ ["", "u8", "u", "U", "L"] ++ ["R", "u8R", "uR", "UR", "LR"],
      before.toList.all isWordPart = true := by
    decide
  cases literal with
  | quoted before quote =>
    exact ⟨_, _, _, rfl, List.all_eq_true.mp (parts _ (List.mem_append_left _ before)), quote⟩
  | raw before =>
    exact ⟨_, _, _, rfl, List.all_eq_true.mp (parts _ (List.mem_append_right _ before)),
      List.mem_cons_self⟩

theorem quote_outside {quote : Char} (member : quote ∈ ['"', '\x27']) :
    quote ∉ blanks ∧ isWordPart quote = false ∧ quote ≠ '.' := by
  simp only [List.mem_cons, List.not_mem_nil, or_false] at member
  rcases member with rfl | rfl <;> decide

/-- A literal does not start with a text that has no quote and a character behind it that cannot
stand before a quote: the quote would have to be in the text, or in the place of that character. -/
theorem IsLiteral.not_behind {text more : List Char} {c : Char}
    (plain : ∀ x ∈ text, isWordPart x ∨ x = '.') (stop : isWordPart c = false)
    (other : c ∉ ['"', '\x27']) : ¬ IsLiteral (text ++ c :: more) := by
  intro literal
  obtain ⟨before, quote, behind, whole, parts, quotes⟩ := literal.quote
  obtain ⟨_, notPart, notPoint⟩ := quote_outside quotes
  rcases append_split whole with ⟨middle, inside, _⟩ | ⟨middle, same, rest⟩
  · rcases plain quote (by simp [inside]) with part | point
    · rw [notPart] at part
      contradiction
    · exact notPoint point
  · cases middle with
    | nil =>
      cases rest
      contradiction
    | cons x middle =>
      cases rest
      have part := parts c (by simp [same])
      rw [stop] at part
      contradiction

theorem blank_notWordPart {c : Char} (blank : c ∈ blanks) : isWordPart c = false := by
  simp only [blanks, List.mem_cons, List.not_mem_nil, or_false] at blank
  rcases blank with rfl | rfl | rfl | rfl | rfl <;> decide

/-- No mark holds a blank, or a part of a word. -/
theorem mark_characters {mark : List Char} (member : mark ∈ marks) :
    mark ≠ [] ∧ ∀ c ∈ mark, c ∉ blanks ∧ isWordPart c = false := by
  have checked : ∀ mark ∈ marks, mark ≠ [] ∧
      mark.all (fun c => c ∉ blanks ∧ isWordPart c = false) = true := by
    decide +kernel
  refine ⟨(checked mark member).1, fun c inside => ?_⟩
  exact of_decide_eq_true (List.all_eq_true.mp (checked mark member).2 c inside)

theorem IsToken.head {text : List Char} (token : IsToken text) :
    ∃ c rest, text = c :: rest ∧ c ∉ blanks := by
  have notBlank : ∀ {c}, isWordPart c → c ∉ blanks := by
    intro c part blank
    rw [blank_notWordPart blank] at part
    contradiction
  cases token with
  | word word =>
    obtain ⟨start, full, _⟩ := word
    obtain ⟨c, rest, rfl⟩ := List.exists_cons_of_ne_nil full
    exact ⟨c, rest, rfl, notBlank (start c rfl).1⟩
  | number number =>
    obtain ⟨c, rest, rfl, digit | rfl⟩ := number.head
    · exact ⟨c, rest, rfl, notBlank (digit_wordPart digit)⟩
    · exact ⟨'.', rest, rfl, by decide⟩
  | literal literal =>
    obtain ⟨before, quote, behind, rfl, parts, quotes⟩ := literal.quote
    cases before with
    | nil => exact ⟨quote, behind, rfl, (quote_outside quotes).1⟩
    | cons c before => exact ⟨c, _, rfl, notBlank (parts c (by simp))⟩
  | mark mark =>
    obtain ⟨full, outside⟩ := mark_characters mark
    obtain ⟨c, rest, rfl⟩ := List.exists_cons_of_ne_nil full
    exact ⟨c, rest, rfl, (outside c List.mem_cons_self).1⟩
  | @single c notBlank => exact ⟨c, [], rfl, notBlank⟩

/-- A blank before the tokens makes no difference. -/
theorem splits_blank {c : Char} {rest : List Char} {pieces : List String} (blank : c ∈ blanks) :
    Splits (c :: rest) pieces ↔ Splits rest pieces := by
  refine ⟨fun splits => ?_, .blank blank⟩
  generalize whole : c :: rest = text at splits
  cases splits with
  | done => contradiction
  | blank _ others =>
    cases whole
    exact others
  | line | lines =>
    cases whole
    exact absurd blank (by decide)
  | token _ longest =>
    obtain ⟨first, more, rfl, notBlank⟩ := longest.formed.head
    cases whole
    contradiction

/-- The longest token is the first piece. -/
theorem splits_token {part rest : List Char} {pieces : List String}
    (code : ¬ StartsComment (part ++ rest)) (longest : Longest IsToken (part ++ rest) part) :
    Splits (part ++ rest) pieces ↔
      ∃ more, pieces = String.ofList part :: more ∧ Splits rest more := by
  constructor
  · intro splits
    generalize whole : part ++ rest = text at splits
    cases splits with
    | done =>
      obtain ⟨_, _, rfl, _⟩ := longest.formed.head
      contradiction
    | blank blank =>
      obtain ⟨first, more, rfl, notBlank⟩ := longest.formed.head
      cases whole
      contradiction
    | line =>
      rw [whole] at code
      exact absurd (.inl ⟨_, rfl⟩) code
    | lines =>
      rw [whole] at code
      exact absurd (.inr ⟨_, rfl⟩) code
    | token _ longest' others =>
      rw [whole] at longest
      cases longest.unique longest'
      cases List.append_cancel_left whole
      exact ⟨_, rfl, others⟩
  · rintro ⟨more, rfl, splits⟩
    exact .token code longest splits

/-- What may stand directly behind an operand. -/
def Delimited (rest : List Char) : Prop :=
  ∀ c ∈ rest.head?, c ∈ [' ', ')', ';']

theorem delimited_nil : Delimited [] :=
  nofun

/-- A word or a number ends where it is delimited. -/
theorem longest_operand {text rest : List Char} (formed : IsToken text)
    (start : ∀ c ∈ text.head?, isWordPart c) (plain : ∀ c ∈ text, isWordPart c ∨ c = '.')
    (delimited : Delimited rest) : Longest IsToken (text ++ rest) text := by
  apply longest_of_stops formed
  intro c more next longer
  have stop : isWordPart c = false ∧ c ∉ ['.', '\x27', '+', '-'] ∧ c ∉ ['"', '\x27'] := by
    have delimiter := delimited c next
    simp only [List.mem_cons, List.not_mem_nil, or_false] at delimiter
    rcases delimiter with rfl | rfl | rfl <;> decide
  obtain ⟨notPart, notNumber, notQuote⟩ := stop
  obtain ⟨first, others, rfl, _⟩ := formed.head
  generalize whole : first :: others ++ c :: more = long at longer
  have within : c ∈ long := by simp [← whole]
  cases longer with
  | word word =>
    have part := word.2.2 c within
    rw [notPart] at part
    contradiction
  | number number =>
    rcases number.characters c within with part | mark
    · rw [notPart] at part
      contradiction
    · contradiction
  | literal literal =>
    rw [← whole] at literal
    exact IsLiteral.not_behind plain notPart notQuote literal
  | mark mark =>
    have outside := ((mark_characters mark).2 first (by simp [← whole])).2
    rw [start first rfl] at outside
    contradiction
  | single => simp at whole

/-- The marks that stand for arithmetic are followed by a blank, or as signs by an operand. -/
theorem longest_operator {operator next : Char} {rest : List Char}
    (arithmetic : operator ∈ ['+', '-', '*', '/']) (follows : next = ' ' ∨ isWordPart next) :
    Longest IsToken (operator :: next :: rest) [operator] ∧
      ¬ StartsComment (operator :: next :: rest) := by
  have other : operator ∉ blanks ∧ isWordPart operator = false ∧ operator ≠ '.' ∧
      operator ∉ ['"', '\x27'] := by
    simp only [List.mem_cons, List.not_mem_nil, or_false] at arithmetic
    rcases arithmetic with rfl | rfl | rfl | rfl <;> decide
  obtain ⟨notBlank, notPart, notPoint, notQuote⟩ := other
  constructor
  · change Longest IsToken ([operator] ++ next :: rest) [operator]
    apply longest_of_stops (.single notBlank)
    rintro c more ⟨⟩ longer
    cases longer with
    | word word =>
      have part := (word.1 operator rfl).1
      rw [notPart] at part
      contradiction
    | number number =>
      obtain ⟨_, _, same, digit | rfl⟩ := number.head
      · cases same
        rw [digit_wordPart digit] at notPart
        contradiction
      · cases same
        contradiction
    | literal literal =>
      obtain ⟨before, quote, behind, same, parts, quotes⟩ := literal.quote
      cases before with
      | nil =>
        cases same
        contradiction
      | cons x before =>
        obtain ⟨rfl, _⟩ := List.cons.inj same
        have part := parts operator (by simp)
        rw [notPart] at part
        contradiction
    | mark mark =>
      obtain ⟨notBlank, notPart⟩ := (mark_characters mark).2 next (by simp)
      rcases follows with rfl | part
      · exact notBlank (by decide)
      · rw [notPart] at part
        contradiction
  · have plain : next ≠ '/' ∧ next ≠ '*' := by
      rcases follows with rfl | part
      · decide
      · constructor <;> (rintro rfl; exact absurd part (by decide))
    rintro (⟨_, same⟩ | ⟨_, same⟩)
    · cases same
      exact plain.1 rfl
    · cases same
      exact plain.2 rfl

/-- Before `rest`, the text is cut into the tokens, and in no other way. -/
def Yields (text : List Char) (tokens : List String) (rest : List Char) : Prop :=
  ∀ pieces, Splits (text ++ rest) pieces ↔ ∃ more, pieces = tokens ++ more ∧ Splits rest more

namespace Yields
variable {text next rest : List Char} {tokens others : List String}

theorem append (first : Yields text tokens (next ++ rest)) (second : Yields next others rest) :
    Yields (text ++ next) (tokens ++ others) rest := by
  intro pieces
  rw [List.append_assoc, first]
  constructor
  · rintro ⟨more, rfl, splits⟩
    obtain ⟨last, rfl, others⟩ := (second more).mp splits
    exact ⟨last, (List.append_assoc _ _ _).symm, others⟩
  · rintro ⟨last, rfl, splits⟩
    exact ⟨others ++ last, List.append_assoc _ _ _, (second _).mpr ⟨last, rfl, splits⟩⟩

theorem nil (rest : List Char) : Yields [] [] rest :=
  fun pieces => ⟨fun splits => ⟨pieces, rfl, splits⟩, fun ⟨_, same, splits⟩ => same ▸ splits⟩

theorem blank (rest : List Char) : Yields [' '] [] rest := by
  intro pieces
  rw [List.singleton_append, splits_blank (by decide)]
  exact nil rest pieces

theorem token (code : ¬ StartsComment (text ++ rest))
    (longest : Longest IsToken (text ++ rest) text) : Yields text [String.ofList text] rest :=
  fun _ => splits_token code longest

theorem whole (yields : Yields text tokens []) (pieces : List String) :
    Splits text pieces ↔ pieces = tokens := by
  have cut := yields pieces
  rw [List.append_nil] at cut
  rw [cut]
  constructor
  · rintro ⟨more, rfl, splits⟩
    generalize none : [] = rest at splits
    cases splits with
    | done => exact List.append_nil _
    | token _ longest =>
      obtain ⟨_, _, rfl, _⟩ := longest.formed.head
      contradiction
    | _ => contradiction
  · rintro rfl
    exact ⟨[], (List.append_nil _).symm, .done⟩

end Yields

/-- Every slash has a blank behind it. -/
def SlashesParted (text : List Char) : Prop :=
  text.IsChain (fun c next => c = '/' → next = ' ') ∧ text.getLast? ≠ some '/'

instance (text : List Char) : Decidable (SlashesParted text) :=
  inferInstanceAs (Decidable (_ ∧ _))

namespace SlashesParted
variable {text more : List Char}

theorem of_notMem (free : '/' ∉ text) : SlashesParted text := by
  constructor
  · apply List.Pairwise.isChain
    apply List.pairwise_of_forall_mem_list
    rintro c inside _ _ rfl
    contradiction
  · exact fun last => free (List.mem_of_getLast? last)

theorem append (first : SlashesParted text) (second : SlashesParted more) :
    SlashesParted (text ++ more) := by
  constructor
  · refine List.isChain_append.mpr ⟨first.1, second.1, ?_⟩
    rintro c last _ _ rfl
    exact absurd last first.2
  · intro last
    rw [List.getLast?_append, Option.or_eq_some_iff] at last
    rcases last with behind | ⟨_, before⟩
    · exact second.2 behind
    · exact first.2 before

/-- No comment starts where slashes have a blank behind them. -/
theorem noComment (parted : SlashesParted text) :
    ¬ ['/', '/'] <:+: text ∧ ¬ ['/', '*'] <:+: text := by
  constructor <;>
  · rintro ⟨before, behind, rfl⟩
    have front := (List.isChain_append.mp parted.1).1
    have pair := (List.isChain_append.mp front).2.1
    revert pair
    decide

end SlashesParted

end Cpp
end ScriptToCpp
