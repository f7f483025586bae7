import ScriptToCpp.Proofs.LexicalGrammar
import Mathlib.Data.List.TakeWhile

/-! The reader of lexemes follows the lexical grammar: what it finds is the longest lexeme that
stands there, and where it finds a fault there is none. There is one exception. A number with a
dangling point is a fault at once, although its digits are a lexeme. -/
namespace ScriptToCpp
open Lexical

namespace Lexeme

/-- The reading of a text is what the lexical grammar says about it. -/
structure Reading.Faithful (reading : Reading) (text : List Char) : Prop where
  found : ∀ kind lexeme, reading.result = .ok (kind, lexeme) →
    Spells kind lexeme reading.passed ∧
      ∀ other, IsLexeme other → other <+: text → other.length ≤ reading.passed.length
  fault : ∀ cause, reading.result = .error cause → ∀ spelling rest, text = spelling ++ rest →
    Longest IsLexeme text spelling → ∃ more, rest = '.' :: more

theorem found_faithful {kind : Kind} {lexeme : String} {spelling rest text : List Char}
    (spelled : Spells kind lexeme spelling)
    (longest : ∀ other, IsLexeme other → other <+: text → other.length ≤ spelling.length) :
    (found kind lexeme spelling rest).Faithful text := by
  constructor
  · intro kind' lexeme' result
    simp only [found, Except.ok.injEq, Prod.mk.injEq] at result
    obtain ⟨rfl, rfl⟩ := result
    exact ⟨spelled, longest⟩
  · intro cause result
    contradiction

/-- A fault where no lexeme stands at all. -/
theorem fault_faithful {cause : LexError.Cause} {passed rest text : List Char}
    (none : ∀ other, IsLexeme other → ¬ other <+: text) :
    (fault cause passed rest).Faithful text := by
  constructor
  · intro kind lexeme result
    contradiction
  · intro _ _ spelling more _ longest
    exact absurd longest.starts (none spelling longest.formed)

/-- It is enough to look at lexemes that start with the first character. -/
theorem lexeme_cons {c : Char} {text other : List Char} (lexeme : IsLexeme other)
    (starts : other <+: c :: text) :
    ∃ rest, other = c :: rest ∧ rest <+: text ∧ IsLexeme (c :: rest) := by
  obtain ⟨kind, lexed, spelled⟩ := lexeme
  obtain ⟨first, rest, rfl⟩ := List.exists_cons_of_ne_nil spelled.nonempty
  obtain ⟨rfl, within⟩ := List.cons_prefix_cons.mp starts
  exact ⟨rest, rfl, within, kind, lexed, spelled⟩

/-- A character that starts neither a word nor a number nor a string starts marks only. -/
theorem lexeme_mark {c : Char} {text other : List Char}
    (bare : c.isAlpha = false ∧ c.isDigit = false ∧ c ≠ '"') (lexeme : IsLexeme other)
    (starts : other <+: c :: text) :
    ∃ rest, other = c :: rest ∧ rest <+: text ∧ c :: rest ∈ marks := by
  obtain ⟨rest, rfl, within, lexeme⟩ := lexeme_cons lexeme starts
  refine ⟨rest, rfl, within, ?_⟩
  rcases lexeme.forms with ⟨letter, _⟩ | ⟨digit, _⟩ | ⟨quote, _⟩ | mark
  · simp [bare] at letter
  · simp [bare] at digit
  · simp [bare] at quote
  · exact mark

/-- A mark that no other mark extends. -/
theorem single_faithful {c : Char} {kind : Kind} {text : List Char}
    (bare : c.isAlpha = false ∧ c.isDigit = false ∧ c ≠ '"')
    (spelled : Spells kind (String.ofList [c]) [c])
    (alone : ∀ rest, c :: rest ∈ marks → rest = []) :
    (plain kind [c] text).Faithful (c :: text) := by
  apply found_faithful spelled
  intro other lexeme starts
  obtain ⟨rest, rfl, _, mark⟩ := lexeme_mark bare lexeme starts
  rw [alone rest mark]

theorem extensible_faithful {c : Char} {short long : Kind} {text : List Char}
    (bare : c.isAlpha = false ∧ c.isDigit = false ∧ c ≠ '"')
    (single : Spells short (String.ofList [c]) [c])
    (double : Spells long (String.ofList [c, '=']) [c, '='])
    (most : ∀ rest, c :: rest ∈ marks → rest = [] ∨ rest = ['=']) :
    (extensible c short long text).Faithful (c :: text) := by
  unfold extensible
  split
  next text =>
    apply found_faithful double
    intro other lexeme starts
    obtain ⟨rest, rfl, _, mark⟩ := lexeme_mark bare lexeme starts
    rcases most rest mark with rfl | rfl <;> simp
  next different =>
    apply found_faithful single
    intro other lexeme starts
    obtain ⟨rest, rfl, within, mark⟩ := lexeme_mark bare lexeme starts
    rcases most rest mark with rfl | rfl
    · simp
    · obtain ⟨more, rfl⟩ := within
      exact absurd rfl (different more)

theorem bang_faithful {text : List Char} : (bang text).Faithful ('!' :: text) := by
  have most : ∀ rest, '!' :: rest ∈ marks → rest = ['='] := by
    intro rest mark
    simpa [marks] using mark
  unfold bang
  split
  next text =>
    apply found_faithful (.fixed (by decide) rfl)
    intro other lexeme starts
    obtain ⟨rest, rfl, _, mark⟩ := lexeme_mark (by decide) lexeme starts
    rw [most rest mark]
  next different =>
    apply fault_faithful
    intro other lexeme starts
    obtain ⟨rest, rfl, within, mark⟩ := lexeme_mark (by decide) lexeme starts
    rw [most rest mark] at within
    obtain ⟨more, rfl⟩ := within
    exact different more rfl

theorem isStringChar_iff {c : Char} :
    isStringChar c ↔ c ∉ ['"', '\n', '\r', '\t', '\\', '%'] := by
  simp [isStringChar, and_assoc]

/-- What may stand behind an opening quote for the quote to start a lexeme. -/
theorem lexeme_quoted {text other : List Char} (lexeme : IsLexeme other)
    (starts : other <+: '"' :: text) :
    ∃ content rest, other = '"' :: (content ++ ['"']) ∧ text = content ++ '"' :: rest ∧
      ∀ c ∈ content, isStringChar c := by
  obtain ⟨tail, rfl, ⟨rest, rfl⟩, lexeme⟩ := lexeme_cons lexeme starts
  rcases lexeme.forms with ⟨letter, _⟩ | ⟨digit, _⟩ | ⟨_, content, rfl, plain⟩ | mark
  · contradiction
  · contradiction
  · exact ⟨content, rest, rfl, by simp, fun c member => isStringChar_iff.mpr (plain c member)⟩
  · exact absurd rfl (mark_start mark).2.2

theorem quoted_faithful {text : List Char} : (quoted text).Faithful ('"' :: text) := by
  -- A lexeme that starts here decides how far the characters of a string go.
  have decided : ∀ content rest, text = content ++ '"' :: rest → (∀ c ∈ content, isStringChar c) →
      text.takeWhile isStringChar = content ∧ text.dropWhile isStringChar = '"' :: rest := by
    rintro content rest rfl plain
    rw [List.takeWhile_append_of_pos plain, List.dropWhile_append_of_pos plain]
    exact ⟨List.append_nil _, rfl⟩
  unfold quoted
  split
  next ended =>
    apply fault_faithful
    intro other lexeme starts
    obtain ⟨content, rest, _, same, plain⟩ := lexeme_quoted lexeme starts
    rw [(decided content rest same plain).2] at ended
    contradiction
  next c rest stopped =>
    split
    next closing =>
      have inside : ∀ c ∈ text.takeWhile isStringChar, c ∉ ['"', '\n', '\r', '\t', '\\', '%'] :=
        fun c member => isStringChar_iff.mp (List.mem_takeWhile_imp member)
      apply found_faithful (.string inside)
      intro other lexeme starts
      obtain ⟨content, rest, rfl, same, plain⟩ := lexeme_quoted lexeme starts
      rw [(decided content rest same plain).1]
    next closing =>
      apply fault_faithful
      intro other lexeme starts
      obtain ⟨content, rest, _, same, plain⟩ := lexeme_quoted lexeme starts
      rw [(decided content rest same plain).2] at stopped
      cases stopped
      contradiction

/-- A word that some kind is spelled with is reserved. -/
theorem keyword_of_spelling {kind : Kind} {c : Char} {rest : List Char} (letter : c.isAlpha)
    (same : kind.spelling? = some (String.ofList (c :: rest))) :
    Kind.keyword? (String.ofList (c :: rest)) = some kind := by
  have reserved : ∀ kind ∈ Kind.all, ((kind.spelling?.getD "").toList.headD ' ').isAlpha →
      Kind.keyword? (kind.spelling?.getD "") = some kind := by
    decide
  have here := reserved kind kind.mem_all
  rw [same, Option.getD_some, String.toList_ofList] at here
  exact here letter

theorem word_faithful {c : Char} {text : List Char} (letter : c.isAlpha) :
    (word (c :: text)).Faithful (c :: text) := by
  have first : c.isAlphanum := by
    rw [Char.isAlphanum, letter]
    rfl
  have spelling : (c :: text).takeWhile Char.isAlphanum = c :: text.takeWhile Char.isAlphanum := by
    rw [List.takeWhile_cons, if_pos first]
  have spelled : Spells
      ((Kind.keyword? (String.ofList (c :: text.takeWhile Char.isAlphanum))).getD .identifier)
      (String.ofList (c :: text.takeWhile Char.isAlphanum))
      (c :: text.takeWhile Char.isAlphanum) := by
    cases keyword : Kind.keyword? (String.ofList (c :: text.takeWhile Char.isAlphanum)) with
    | none =>
      refine .name letter (fun x member => List.mem_takeWhile_imp member) fun kind same => ?_
      rw [keyword_of_spelling letter same] at keyword
      contradiction
    | some kind =>
      obtain ⟨same, more⟩ := Kind.spelling_keyword keyword
      exact .fixed more same
  unfold word
  rw [spelling]
  apply found_faithful spelled
  intro other lexeme starts
  obtain ⟨rest, rfl, within, lexeme⟩ := lexeme_cons lexeme starts
  rcases lexeme.forms with ⟨_, inside⟩ | ⟨digit, _⟩ | ⟨rfl, _⟩ | mark
  · rw [← spelling]
    exact length_le_takeWhile inside starts
  · rw [(letter_start letter).1] at digit
    contradiction
  · contradiction
  · rw [(mark_start mark).1] at letter
    contradiction

/-- What the digits at the front of a text are, where a lexeme starts it. -/
theorem lexeme_numeral {c : Char} {text other : List Char} (digit : c.isDigit)
    (lexeme : IsLexeme other) (starts : other <+: c :: text) : IsNumeral other := by
  obtain ⟨rest, rfl, _, lexeme⟩ := lexeme_cons lexeme starts
  rcases lexeme.forms with ⟨letter, _⟩ | ⟨_, numeral⟩ | ⟨rfl, _⟩ | mark
  · rw [(letter_start letter).1] at digit
    contradiction
  · exact numeral
  · contradiction
  · rw [(mark_start mark).2.1] at digit
    contradiction

/-- A fraction in the text is what stands behind its digits. -/
theorem decimal_split {digits decimals text : List Char} (whole : ∀ c ∈ digits, c.isDigit)
    (starts : digits ++ '.' :: decimals <+: text) :
    text.takeWhile Char.isDigit = digits ∧
      ∃ more, text.dropWhile Char.isDigit = '.' :: more ∧ decimals <+: more := by
  obtain ⟨rest, rfl⟩ := starts
  rw [List.append_assoc, List.takeWhile_append_of_pos whole, List.dropWhile_append_of_pos whole]
  exact ⟨List.append_nil _, decimals ++ rest, rfl, List.prefix_append _ _⟩

theorem number_faithful {c : Char} {text : List Char} (digit : c.isDigit) :
    (number (c :: text)).Faithful (c :: text) := by
  have digits : ∀ x ∈ (c :: text).takeWhile Char.isDigit, x.isDigit :=
    fun x member => List.mem_takeWhile_imp member
  have some : (c :: text).takeWhile Char.isDigit ≠ [] := by simp [digit]
  unfold number
  split
  next more behind =>
    dsimp only
    split
    next dangling =>
      refine ⟨nofun, fun _ _ spelling rest same longest => ⟨more, ?_⟩⟩
      -- No fraction can be read, so that the digits are the longest lexeme.
      have whole : Longest IsLexeme (c :: text) ((c :: text).takeWhile Char.isDigit) := by
        refine ⟨List.takeWhile_prefix _, ⟨_, _, .whole some digits⟩, fun other lexeme starts => ?_⟩
        rcases lexeme_numeral digit lexeme starts with inside | ⟨front, decimals, rfl, rest⟩
        · exact length_le_takeWhile inside starts
        · obtain ⟨_, tail, stopped, within⟩ := decimal_split rest.1 starts
          rw [behind] at stopped
          cases stopped
          have none := length_le_takeWhile rest.2.2 within
          rw [dangling, List.length_nil, Nat.le_zero, List.length_eq_zero_iff] at none
          exact absurd none rest.2.1
      have split := List.takeWhile_append_dropWhile (p := Char.isDigit) (l := c :: text)
      rw [behind, ← longest.unique whole, same] at split
      exact (List.append_cancel_left split).symm
    next fractional =>
      have decimals : ∀ x ∈ more.takeWhile Char.isDigit, x.isDigit :=
        fun x member => List.mem_takeWhile_imp member
      apply found_faithful (.fraction some digits fractional decimals)
      intro other lexeme starts
      rcases lexeme_numeral digit lexeme starts with inside | ⟨front, others, rfl, rest⟩
      · have bound := length_le_takeWhile inside starts
        rw [List.length_append]
        omega
      · obtain ⟨same, tail, stopped, within⟩ := decimal_split rest.1 starts
        rw [behind] at stopped
        cases stopped
        have bound := length_le_takeWhile rest.2.2 within
        rw [same, List.length_append, List.length_append, List.length_cons, List.length_cons]
        omega
  next noPoint =>
    apply found_faithful (.whole some digits)
    intro other lexeme starts
    rcases lexeme_numeral digit lexeme starts with inside | ⟨front, others, rfl, rest⟩
    · exact length_le_takeWhile inside starts
    · obtain ⟨_, tail, stopped, _⟩ := decimal_split rest.1 starts
      exact absurd stopped (noPoint tail)

/-- The reader follows the lexical grammar, whatever a text starts with. -/
theorem read_faithful (c : Char) (text : List Char) : (read c text).Faithful (c :: text) := by
  unfold read
  split
  case h_8 | h_9 | h_10 =>
    refine extensible_faithful (by decide) (.fixed (by decide) rfl) (.fixed (by decide) rfl) ?_
    intro rest mark
    simpa [marks] using mark
  case h_11 => exact bang_faithful
  case h_12 => exact quoted_faithful
  case h_13 =>
    split
    next digit => exact number_faithful digit
    next notDigit =>
      split
      next letter => exact word_faithful letter
      next notLetter =>
        apply fault_faithful
        intro other lexeme starts
        have bare : c.isAlpha = false ∧ c.isDigit = false ∧ c ≠ '"' := by
          refine ⟨by simpa using notLetter, by simpa using notDigit, by assumption⟩
        obtain ⟨rest, rfl, _, mark⟩ := lexeme_mark bare lexeme starts
        simp_all [marks]
  all_goals
    refine single_faithful (by decide) (.fixed (by decide) rfl) ?_
    intro rest mark
    simpa [marks] using mark

end Lexeme
end ScriptToCpp
