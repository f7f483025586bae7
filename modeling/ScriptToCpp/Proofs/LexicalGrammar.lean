import ScriptToCpp.Location
import ScriptToCpp.Proofs.Spelling
import ScriptToCpp.Token

/-! The lexical grammar, said without the reader: which runs of characters are gaps, which are
lexemes and of which kind, and how a text is cut into both. Wherever a gap or a lexeme starts, the
longest one counts, so that a text is cut in one way at most. -/
namespace ScriptToCpp

namespace Lexical

/-- What may stand before a lexeme: blanks, and behind them perhaps a comment. -/
inductive Gap : List Char → Prop where
  | blanks {blanks : List Char} : (∀ c ∈ blanks, c ∈ [' ', '\t', '\r']) → Gap blanks
  | comment {blanks text : List Char} :
      (∀ c ∈ blanks, c ∈ [' ', '\t', '\r']) → (∀ c ∈ text, c ≠ '\n') →
      Gap (blanks ++ '#' :: text)

/-- The kind and the text of a lexeme, and how it is spelled. Digits and letters are those of
ASCII. -/
inductive Spells : Kind → String → List Char → Prop where
  /-- Operators, braces, line breaks and reserved words. -/
  | fixed {kind : Kind} {spelling : List Char} :
      kind ≠ .eof → kind.spelling? = some (String.ofList spelling) →
      Spells kind (String.ofList spelling) spelling
  | whole {digits : List Char} :
      digits ≠ [] → (∀ c ∈ digits, c.isDigit) → Spells .number (String.ofList digits) digits
  | fraction {digits decimals : List Char} :
      digits ≠ [] → (∀ c ∈ digits, c.isDigit) → decimals ≠ [] → (∀ c ∈ decimals, c.isDigit) →
      Spells .number (String.ofList (digits ++ '.' :: decimals)) (digits ++ '.' :: decimals)
  /-- A word that is not reserved. -/
  | name {first : Char} {rest : List Char} :
      first.isAlpha → (∀ c ∈ rest, c.isAlphanum) →
      (∀ kind : Kind, kind.spelling? ≠ some (String.ofList (first :: rest))) →
      Spells .identifier (String.ofList (first :: rest)) (first :: rest)
  | string {content : List Char} :
      (∀ c ∈ content, c ∉ ['"', '\n', '\r', '\t', '\\', '%']) →
      Spells .string (String.ofList content) ('"' :: (content ++ ['"']))

def IsLexeme (spelling : List Char) : Prop :=
  ∃ kind text, Spells kind text spelling

/-- Of the runs with which a text starts and that have some form, the longest one. -/
structure Longest (form : List Char → Prop) (text part : List Char) : Prop where
  starts : part <+: text
  formed : form part
  longest : ∀ other, form other → other <+: text → other.length ≤ part.length

/-- A lexeme, and the gap before it. -/
structure Piece where
  gap : List Char
  spelling : List Char
  kind : Kind
  text : String

/-- The text consists of the pieces, one after the other. -/
inductive Cuts : List Char → List Piece → Prop where
  | done : Cuts [] []
  | piece {gap spelling rest : List Char} {kind : Kind} {text : String} {pieces : List Piece} :
      Longest Gap (gap ++ (spelling ++ rest)) gap →
      Longest IsLexeme (spelling ++ rest) spelling → Spells kind text spelling →
      Cuts rest pieces →
      Cuts (gap ++ (spelling ++ rest)) (⟨gap, spelling, kind, text⟩ :: pieces)

/-- A token for each piece, and the end token behind them. The first gap starts `here`. -/
def tokens (here : Location) : List Piece → List Token
  | [] => [⟨.eof, "", here⟩]
  | piece :: rest =>
    ⟨piece.kind, piece.text, here.afterAll piece.gap⟩ ::
      tokens (here.afterAll (piece.gap ++ piece.spelling)) rest

theorem Longest.unique {form : List Char → Prop} {text part other : List Char}
    (first : Longest form text part) (second : Longest form text other) : part = other := by
  have shorter := second.longest part first.formed first.starts
  have longer := first.longest other second.formed second.starts
  exact (List.prefix_of_prefix_length_le first.starts second.starts shorter).eq_of_length_le longer

/-- A run of characters of one class reaches at most as far as the class does. -/
theorem length_le_takeWhile {p : Char → Bool} {run text : List Char} (inside : ∀ c ∈ run, p c)
    (starts : run <+: text) : run.length ≤ (text.takeWhile p).length := by
  obtain ⟨rest, rfl⟩ := starts
  rw [List.takeWhile_append_of_pos inside, List.length_append]
  exact Nat.le_add_right _ _

/-- The null character, and all that ASCII does not have. -/
def Foreign (c : Char) : Prop :=
  c = '\x00' ∨ 127 < c.toNat

instance (c : Char) : Decidable (Foreign c) :=
  inferInstanceAs (Decidable (_ ∨ _))

theorem isDigit_iff {c : Char} : c.isDigit ↔ 48 ≤ c.toNat ∧ c.toNat ≤ 57 := by
  simp only [Char.isDigit, Bool.and_eq_true, decide_eq_true_eq, ge_iff_le, UInt32.le_iff_toNat_le]
  rfl

theorem isAlpha_iff {c : Char} :
    c.isAlpha ↔ (65 ≤ c.toNat ∧ c.toNat ≤ 90) ∨ (97 ≤ c.toNat ∧ c.toNat ≤ 122) := by
  change (decide ('A'.val ≤ c.val ∧ c.val ≤ 'Z'.val) ||
    (decide ('a'.val ≤ c.val) && decide (c.val ≤ 'z'.val))) = true ↔ _
  simp only [Bool.or_eq_true, Bool.and_eq_true, decide_eq_true_eq, UInt32.le_iff_toNat_le]
  rfl

theorem alphanum_notForeign {c : Char} (inside : c.isAlphanum) : ¬ Foreign c := by
  rw [Char.isAlphanum, Bool.or_eq_true, isAlpha_iff, isDigit_iff] at inside
  rintro (rfl | foreign)
  · simp at inside
  · omega

theorem letter_start {c : Char} (letter : c.isAlpha) : c.isDigit = false ∧ c ≠ '"' := by
  rw [isAlpha_iff] at letter
  constructor
  · rw [Bool.eq_false_iff, ne_eq, isDigit_iff]
    omega
  · rintro rfl
    simp at letter

/-- The lexemes that are made of neither letters nor digits, strings apart. -/
def marks : List (List Char) :=
  [['\n'], ['='], ['+'], ['-'], ['*'], ['/'], ['=', '='], ['!', '='], ['<'], ['<', '='], ['>'],
    ['>', '='], ['\x7b'], ['\x7d']]

/-- The spellings that belong to one kind each: words, and marks. -/
theorem fixed_cases {kind : Kind} {spelling : List Char} (more : kind ≠ .eof)
    (same : kind.spelling? = some (String.ofList spelling)) :
    (spelling ≠ [] ∧ ∀ c ∈ spelling, c.isAlpha) ∨ spelling ∈ marks := by
  have chars : spelling = (kind.spelling?.getD "").toList := by
    rw [same]
    exact String.toList_ofList.symm
  rw [chars, ← List.all_eq_true]
  cases kind with
  | eof => contradiction
  | number | identifier | string => contradiction
  | _ => decide

theorem mark_start {c : Char} {rest : List Char} (mark : c :: rest ∈ marks) :
    c.isAlpha = false ∧ c.isDigit = false ∧ c ≠ '"' := by
  have starts : ∀ mark ∈ marks, (mark.headD ' ').isAlpha = false ∧
      (mark.headD ' ').isDigit = false ∧ mark.headD ' ' ≠ '"' := by
    decide
  exact starts _ mark

/-- A spelling that belongs to one kind starts neither as a number nor as a string. -/
theorem fixed_start {kind : Kind} {c : Char} {rest : List Char} (more : kind ≠ .eof)
    (same : kind.spelling? = some (String.ofList (c :: rest))) : c.isDigit = false ∧ c ≠ '"' := by
  rcases fixed_cases more same with ⟨_, letters⟩ | mark
  · exact letter_start (letters c (by simp))
  · exact (mark_start mark).2

theorem spelling_injective {kind other : Kind} {text : String} (first : kind.spelling? = some text)
    (second : other.spelling? = some text) : kind = other := by
  have distinct : ∀ one ∈ Kind.all, ∀ two ∈ Kind.all, one.spelling? = two.spelling? →
      one.spelling? = none ∨ one = two := by
    decide
  rcases distinct kind kind.mem_all other other.mem_all (first.trans second.symm) with free | same
  · rw [first] at free
    contradiction
  · exact same

namespace Spells
variable {kind other : Kind} {text : String} {spelling : List Char}

theorem nonempty (spelled : Spells kind text spelling) : spelling ≠ [] := by
  cases spelled with
  | fixed more same =>
    rcases fixed_cases more same with ⟨some, _⟩ | mark
    · exact some
    · rintro rfl
      contradiction
  | whole some _ => exact some
  | fraction => simp
  | name => simp
  | string => simp

theorem notEnd (spelled : Spells kind text spelling) : kind ≠ .eof := by
  cases spelled with
  | fixed more _ => exact more
  | _ => decide

/-- Only a string differs from its spelling, by the quotes. -/
theorem text_eq (spelled : Spells kind text spelling) :
    text = String.ofList (if kind = .string then spelling.tail.dropLast else spelling) := by
  cases spelled with
  | fixed _ same =>
    have free : kind ≠ .string := by
      rintro rfl
      contradiction
    rw [if_neg free]
  | whole => rfl
  | fraction => rfl
  | name => rfl
  | string => simp

/-- The first character tells numbers and strings from all else. -/
theorem kind_cases {c : Char} {rest : List Char} (spelled : Spells kind text (c :: rest)) :
    (c.isDigit ∧ kind = .number) ∨ (c = '"' ∧ kind = .string) ∨
      ((c.isDigit = false ∧ c ≠ '"') ∧
        (kind.spelling? = some (String.ofList (c :: rest)) ∨
          kind = .identifier ∧
            ∀ any : Kind, any.spelling? ≠ some (String.ofList (c :: rest)))) := by
  generalize whole : c :: rest = spelling at spelled
  cases spelled with
  | fixed more same =>
    subst whole
    exact .inr (.inr ⟨fixed_start more same, .inl same⟩)
  | whole _ digits =>
    subst whole
    exact .inl ⟨digits c (by simp), rfl⟩
  | @fraction digits _ some all =>
    obtain ⟨first, others, rfl⟩ := List.exists_cons_of_ne_nil some
    cases whole
    exact .inl ⟨all c (by simp), rfl⟩
  | name letter _ free =>
    cases whole
    exact .inr (.inr ⟨letter_start letter, .inr ⟨rfl, free⟩⟩)
  | string =>
    cases whole
    exact .inr (.inl ⟨rfl, rfl⟩)

theorem kind_unique (first : Spells kind text spelling) {lexeme : String}
    (second : Spells other lexeme spelling) : kind = other := by
  obtain ⟨c, rest, rfl⟩ := List.exists_cons_of_ne_nil first.nonempty
  rcases first.kind_cases with ⟨digit, rfl⟩ | ⟨rfl, rfl⟩ | ⟨⟨notDigit, notQuote⟩, word⟩
  · rcases second.kind_cases with ⟨_, rfl⟩ | ⟨rfl, _⟩ | ⟨⟨notDigit, _⟩, _⟩
    · rfl
    · contradiction
    · rw [notDigit] at digit
      contradiction
  · rcases second.kind_cases with ⟨digit, _⟩ | ⟨_, rfl⟩ | ⟨⟨_, notQuote⟩, _⟩
    · contradiction
    · rfl
    · contradiction
  · rcases second.kind_cases with ⟨digit, _⟩ | ⟨quote, _⟩ | ⟨_, again⟩
    · rw [notDigit] at digit
      contradiction
    · contradiction
    · rcases word with same | ⟨rfl, free⟩
      · rcases again with alike | ⟨_, free⟩
        · exact spelling_injective same alike
        · exact absurd same (free kind)
      · rcases again with alike | ⟨rfl, _⟩
        · exact absurd alike (free other)
        · rfl

theorem unique (first : Spells kind text spelling) {lexeme : String}
    (second : Spells other lexeme spelling) : kind = other ∧ text = lexeme := by
  have same := first.kind_unique second
  refine ⟨same, ?_⟩
  rw [first.text_eq, second.text_eq, same]

/-- Strings hold characters that no other lexeme does. -/
theorem foreign (spelled : Spells kind text spelling) {c : Char} (member : c ∈ spelling)
    (foreign : Foreign c) : kind = .string := by
  have digitsPlain : ∀ digits : List Char, (∀ x ∈ digits, x.isDigit) → c ∉ digits := by
    intro digits all member
    exact alphanum_notForeign (by rw [Char.isAlphanum, all c member, Bool.or_true]) foreign
  cases spelled with
  | fixed more same =>
    rcases fixed_cases more same with ⟨_, letters⟩ | mark
    · exact absurd foreign
        (alphanum_notForeign (by rw [Char.isAlphanum, letters c member, Bool.true_or]))
    · have plain : ∀ mark ∈ marks, ∀ x ∈ mark, ¬ Foreign x := by simp [marks, Foreign]
      exact absurd foreign (plain spelling mark c member)
  | whole _ digits => exact absurd member (digitsPlain spelling digits)
  | fraction _ digits _ decimals =>
    rcases List.mem_append.mp member with before | behind
    · exact absurd before (digitsPlain _ digits)
    · rcases List.mem_cons.mp behind with rfl | behind
      · exact absurd foreign (by decide)
      · exact absurd behind (digitsPlain _ decimals)
  | name letter others _ =>
    rcases List.mem_cons.mp member with rfl | member
    · exact absurd foreign (alphanum_notForeign (by rw [Char.isAlphanum, letter, Bool.true_or]))
    · exact absurd foreign (alphanum_notForeign (others c member))
  | string => rfl

end Spells

/-- In a gap such characters stand in a comment. -/
theorem Gap.foreign {gap : List Char} (formed : Gap gap) {c : Char} (member : c ∈ gap)
    (foreign : Foreign c) :
    ∃ blanks comment, gap = blanks ++ '#' :: comment ∧
      (∀ x ∈ blanks, x ∈ [' ', '\t', '\r']) ∧ c ∈ comment := by
  have plain : ∀ x ∈ [' ', '\t', '\r'], ¬ Foreign x := by simp [Foreign]
  cases formed with
  | blanks blanks => exact absurd foreign (plain c (blanks c member))
  | @comment front text blanks _ =>
    refine ⟨front, text, rfl, blanks, ?_⟩
    rcases List.mem_append.mp member with before | behind
    · exact absurd foreign (plain c (blanks c before))
    · rcases List.mem_cons.mp behind with rfl | inside
      · exact absurd foreign (by decide)
      · exact inside

/-- Digits, and perhaps a point with digits behind it. -/
def IsNumeral (spelling : List Char) : Prop :=
  (∀ c ∈ spelling, c.isDigit) ∨ ∃ digits decimals, spelling = digits ++ '.' :: decimals ∧
    (∀ c ∈ digits, c.isDigit) ∧ decimals ≠ [] ∧ ∀ c ∈ decimals, c.isDigit

/-- What a lexeme looks like, by its first character. -/
theorem IsLexeme.forms {c : Char} {rest : List Char} (lexeme : IsLexeme (c :: rest)) :
    (c.isAlpha ∧ ∀ x ∈ c :: rest, x.isAlphanum) ∨ (c.isDigit ∧ IsNumeral (c :: rest)) ∨
      (c = '"' ∧ ∃ content, rest = content ++ ['"'] ∧
        ∀ x ∈ content, x ∉ ['"', '\n', '\r', '\t', '\\', '%']) ∨ c :: rest ∈ marks := by
  obtain ⟨kind, text, spelled⟩ := lexeme
  generalize whole : c :: rest = spelling at spelled
  cases spelled with
  | fixed more same =>
    subst whole
    rcases fixed_cases more same with ⟨_, letters⟩ | mark
    · refine .inl ⟨letters c (by simp), fun x member => ?_⟩
      rw [Char.isAlphanum, letters x member]
      rfl
    · exact .inr (.inr (.inr mark))
  | whole _ digits =>
    subst whole
    exact .inr (.inl ⟨digits c (by simp), .inl digits⟩)
  | @fraction digits decimals some all fractional others =>
    obtain ⟨first, tail, rfl⟩ := List.exists_cons_of_ne_nil some
    cases whole
    exact .inr (.inl ⟨all c (by simp), .inr ⟨_, decimals, rfl, all, fractional, others⟩⟩)
  | name letter others _ =>
    cases whole
    refine .inl ⟨letter, fun x member => ?_⟩
    rcases List.mem_cons.mp member with rfl | member
    · rw [Char.isAlphanum, letter]
      rfl
    · exact others x member
  | @string content plain =>
    cases whole
    exact .inr (.inr (.inl ⟨rfl, content, rfl, plain⟩))

end Lexical
end ScriptToCpp
