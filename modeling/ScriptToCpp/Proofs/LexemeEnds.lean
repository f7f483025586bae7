import ScriptToCpp.Proofs.LexicalGrammar
import ScriptToCpp.Proofs.Scope

/-! Where gaps and lexemes end. Whether one is the longest that can stand at some place is seen from
the character behind it: the longest one is what that character does not go on with. A point is the
exception, since digits go on behind it only if a digit follows. -/
namespace ScriptToCpp.Lexical

/-- A run is the longest of its form where the next character goes on with it in no way. -/
theorem longest_of_stops {form : List Char → Prop} {part rest : List Char} (formed : form part)
    (stops : ∀ c more, rest.head? = some c → ¬ form (part ++ c :: more)) :
    Longest form (part ++ rest) part := by
  refine ⟨List.prefix_append _ _, formed, fun other formed' starts => ?_⟩
  by_contra longer
  obtain ⟨more, rfl⟩ := List.prefix_of_prefix_length_le (List.prefix_append part rest) starts
    (by omega)
  obtain ⟨behind, rfl⟩ := (List.prefix_append_right_inj part).mp starts
  cases more with
  | nil => simp at longer
  | cons c more => exact stops c more rfl formed'

/-- Where every longer run of some form has one that is longer by a character, it is enough to look
at the next character. -/
theorem longest_iff_stops {form : List Char → Prop} {part rest : List Char} (formed : form part)
    (shorten : ∀ c more, rest.head? = some c → form (part ++ c :: more) → form (part ++ [c])) :
    Longest form (part ++ rest) part ↔ ∀ c, rest.head? = some c → ¬ form (part ++ [c]) := by
  constructor
  · intro longest c next goesOn
    obtain ⟨behind, rfl⟩ := List.head?_eq_some_iff.mp next
    have starts : part ++ [c] <+: part ++ c :: behind := ⟨behind, by simp⟩
    have shorter := longest.longest _ goesOn starts
    rw [List.length_append, List.length_singleton] at shorter
    omega
  · intro stops
    exact longest_of_stops formed fun c more next longer => stops c next (shorten c more next longer)

theorem Gap.start {first second : List Char} (gap : Gap (first ++ second)) : Gap first := by
  generalize same : first ++ second = whole at gap
  cases gap with
  | blanks blanks =>
    subst same
    exact .blanks fun c member => blanks c (List.mem_append_left _ member)
  | @comment front text blanks line =>
    rcases append_split same with ⟨middle, rfl, rfl⟩ | ⟨middle, rfl, _⟩
    · exact .comment blanks fun c member => line c (List.mem_append_left _ member)
    · exact .blanks fun c member => blanks c (List.mem_append_left _ member)

theorem longest_gap_iff {gap rest : List Char} (formed : Gap gap) :
    Longest Gap (gap ++ rest) gap ↔ ∀ c, rest.head? = some c → ¬ Gap (gap ++ [c]) :=
  longest_iff_stops formed fun c more _ longer => by
    rw [List.append_cons] at longer
    exact longer.start

/-- A gap is the longest one whatever stands behind the next character. -/
theorem Longest.gap_before {gap rest other : List Char} (longest : Longest Gap (gap ++ rest) gap)
    (same : other.head? = rest.head?) : Longest Gap (gap ++ other) gap := by
  rw [longest_gap_iff longest.formed, same]
  exact (longest_gap_iff longest.formed).mp longest

/-- Blanks go on with a blank, or with a comment. -/
theorem Gap.next {blanks : List Char} {c : Char} (all : ∀ x ∈ blanks, x ∈ [' ', '\t', '\r'])
    (gap : Gap (blanks ++ [c])) : c ∈ [' ', '\t', '\r', '#'] := by
  generalize whole : blanks ++ [c] = text at gap
  cases gap with
  | blanks more =>
    subst whole
    have blank := more c (by simp)
    simp only [List.mem_cons, List.not_mem_nil, or_false] at blank ⊢
    tauto
  | comment =>
    rcases append_split whole with ⟨middle, rfl, _⟩ | ⟨middle, _, behind⟩
    · exact absurd (all '#' (by simp)) (by decide)
    · cases middle with
      | nil =>
        cases behind
        simp
      | cons x middle => simp at behind

theorem longest_blanks {blanks rest : List Char} {c : Char}
    (all : ∀ x ∈ blanks, x ∈ [' ', '\t', '\r']) (stops : c ∉ [' ', '\t', '\r', '#']) :
    Longest Gap (blanks ++ c :: rest) blanks := by
  rw [longest_gap_iff (.blanks all)]
  rintro c ⟨rfl⟩ goesOn
  exact stops (goesOn.next all)

/-- Letters and digits behind a letter, reserved or not. -/
theorem isLexeme_word {c : Char} {rest : List Char} (letter : c.isAlpha)
    (others : ∀ x ∈ rest, x.isAlphanum) : IsLexeme (c :: rest) := by
  by_cases reserved : ∃ kind : Kind, kind.spelling? = some (String.ofList (c :: rest))
  · obtain ⟨kind, spelled⟩ := reserved
    have more : kind ≠ .eof := by
      rintro rfl
      have chars := congrArg String.toList (Option.some.inj spelled)
      simp at chars
    exact ⟨kind, _, .fixed more spelled⟩
  · exact ⟨.identifier, _, .name letter others (not_exists.mp reserved)⟩

/-- A lexeme starts with neither a blank nor a comment. -/
theorem IsLexeme.start {c : Char} {rest : List Char} (lexeme : IsLexeme (c :: rest)) :
    c ∉ [' ', '\t', '\r', '#'] := by
  intro member
  have outside : c.isAlpha = false ∧ c.isDigit = false ∧ c ≠ '"' ∧
      ∀ mark ∈ marks, mark.head? ≠ some c := by
    simp only [List.mem_cons, List.not_mem_nil, or_false] at member
    rcases member with rfl | rfl | rfl | rfl <;> decide
  obtain ⟨notLetter, notDigit, notQuote, noMark⟩ := outside
  rcases lexeme.forms with ⟨letter, _⟩ | ⟨digit, _⟩ | ⟨quote, _⟩ | mark
  · rw [letter] at notLetter
    contradiction
  · rw [digit] at notDigit
    contradiction
  · exact notQuote quote
  · exact noMark _ mark rfl

theorem marks_short : ∀ mark ∈ marks, mark.length ≤ 2 := by
  decide

/-- A numeral that goes on with no point goes on with a digit. -/
theorem IsNumeral.shorten {first c : Char} {part more : List Char} (digit : first.isDigit)
    (notPoint : c ≠ '.') (numeral : IsNumeral (first :: part ++ c :: more)) :
    IsLexeme (first :: part ++ [c]) := by
  have within : ∀ x ∈ first :: part ++ [c], x ∈ first :: part ++ c :: more := by
    intro x member
    rw [List.append_cons]
    exact List.mem_append_left _ member
  rcases numeral with digits | ⟨digits, decimals, same, whole, _, fraction⟩
  · exact ⟨.number, _, .whole (by simp) fun x member => digits x (within x member)⟩
  rcases append_split same.symm with ⟨middle, rfl, _⟩ | ⟨middle, front, behind⟩
  · refine ⟨.number, _, .whole (by simp) fun x member => whole x ?_⟩
    rw [List.append_cons]
    exact List.mem_append_left _ member
  cases middle with
  | nil => exact absurd (List.cons.inj behind).1.symm notPoint
  | cons point middle =>
    rw [List.cons_append] at behind
    obtain ⟨rfl, rfl⟩ := List.cons.inj behind
    have some : digits ≠ [] := by
      rintro rfl
      cases front
      exact absurd digit (by decide)
    have decimals : ∀ x ∈ middle ++ [c], x.isDigit := by
      intro x member
      apply fraction x
      rw [List.append_cons]
      exact List.mem_append_left _ member
    rw [front, List.append_assoc, List.cons_append]
    exact ⟨.number, _, .fraction some whole (by simp) decimals⟩

/-- A lexeme that some longer one starts with goes on by a single character, unless by a point. -/
theorem IsLexeme.shorten {part more : List Char} {c : Char} (lexeme : IsLexeme part)
    (notPoint : c ≠ '.') (longer : IsLexeme (part ++ c :: more)) : IsLexeme (part ++ [c]) := by
  obtain ⟨first, part, rfl⟩ : ∃ first rest, part = first :: rest := by
    obtain ⟨_, _, spelled⟩ := lexeme
    exact List.exists_cons_of_ne_nil spelled.nonempty
  rw [List.cons_append] at longer
  rcases longer.forms with ⟨letter, inside⟩ | ⟨digit, numeral⟩ | ⟨rfl, content, same, plain⟩ | mark
  · refine isLexeme_word letter fun x member => inside x ?_
    rw [List.append_cons]
    exact List.mem_cons_of_mem _ (List.mem_append_left _ member)
  · exact IsNumeral.shorten digit notPoint numeral
  · rcases lexeme.forms with ⟨letter, _⟩ | ⟨digit, _⟩ | ⟨_, inner, rfl, _⟩ | mark
    · contradiction
    · contradiction
    · -- The closing quote of the shorter string would stand within the longer one.
      rw [List.append_assoc, List.singleton_append] at same
      rcases append_split same.symm with ⟨middle, rfl, _⟩ | ⟨middle, _, behind⟩
      · exact absurd (plain '"' (by simp)) (by simp)
      · have lengths := congrArg List.length behind
        simp only [List.length_append, List.length_cons, List.length_nil] at lengths
        omega
    · exact absurd rfl (mark_start mark).2.2
  · have short := marks_short _ mark
    simp only [List.length_cons, List.length_append] at short
    have none : more = [] := List.length_eq_zero_iff.mp (by omega)
    subst none
    exact longer

/-- A lexeme ends where the next character does not go on with it. -/
theorem longest_lexeme_iff {spelling rest : List Char} (lexeme : IsLexeme spelling)
    (noPoint : ∀ more, rest ≠ '.' :: more) :
    Longest IsLexeme (spelling ++ rest) spelling ↔
      ∀ c, rest.head? = some c → ¬ IsLexeme (spelling ++ [c]) := by
  refine longest_iff_stops lexeme fun c more next longer => lexeme.shorten ?_ longer
  rintro rfl
  obtain ⟨behind, same⟩ := List.head?_eq_some_iff.mp next
  exact noPoint behind same

theorem Longest.lexeme_before {spelling rest other : List Char}
    (longest : Longest IsLexeme (spelling ++ rest) spelling)
    (noPoint : ∀ more, rest ≠ '.' :: more) (same : other.head? = rest.head?) :
    Longest IsLexeme (spelling ++ other) spelling := by
  have noPoint' : ∀ more, other ≠ '.' :: more := by
    rintro more rfl
    obtain ⟨behind, point⟩ := List.head?_eq_some_iff.mp same.symm
    exact noPoint behind point
  rw [longest_lexeme_iff longest.formed noPoint', same]
  exact (longest_lexeme_iff longest.formed noPoint).mp longest

/-- A word ends before a character that is neither letter nor digit. -/
theorem word_ends {first c : Char} {rest : List Char} (letter : first.isAlpha)
    (lexeme : IsLexeme (first :: rest ++ [c])) : c.isAlphanum := by
  rcases lexeme.forms with ⟨_, inside⟩ | ⟨digit, _⟩ | ⟨rfl, _⟩ | mark
  · exact inside c (by simp)
  · rw [(letter_start letter).1] at digit
    contradiction
  · contradiction
  · rw [(mark_start mark).1] at letter
    contradiction

theorem longest_word {first c : Char} {rest behind : List Char} (letter : first.isAlpha)
    (others : ∀ x ∈ rest, x.isAlphanum) (stops : c.isAlphanum = false) (notPoint : c ≠ '.') :
    Longest IsLexeme (first :: rest ++ c :: behind) (first :: rest) := by
  have noPoint : ∀ more, c :: behind ≠ '.' :: more :=
    fun more same => notPoint (List.cons.inj same).1
  rw [longest_lexeme_iff (isLexeme_word letter others) noPoint]
  rintro c ⟨rfl⟩ goesOn
  rw [word_ends letter goesOn] at stops
  contradiction

/-- Nothing but a word goes on with a letter. -/
theorem letter_goesOn {first c : Char} {rest : List Char} (letter : c.isAlpha)
    (lexeme : IsLexeme (first :: rest ++ [c])) :
    first.isAlpha ∧ ∀ x ∈ rest, x.isAlphanum := by
  have notDigit := (letter_start letter).1
  rcases lexeme.forms with ⟨start, inside⟩ | ⟨_, numeral⟩ | ⟨rfl, content, same, _⟩ | mark
  · exact ⟨start, fun x member => inside x (by simp [member])⟩
  · rcases numeral with digits | ⟨digits, decimals, same, _, some, fraction⟩
    · rw [digits c (by simp)] at notDigit
      contradiction
    · obtain ⟨init, last, rfl⟩ := (List.eq_nil_or_concat decimals).resolve_left some
      have ending : (first :: rest) ++ [c] = (digits ++ '.' :: init) ++ [last] := by
        simpa using same
      cases (List.append_inj' ending rfl).2
      rw [fraction c (by simp)] at notDigit
      contradiction
  · have ending := (List.append_inj' same rfl).2
    cases ending
    contradiction
  · have plain : ∀ mark ∈ marks, mark.all fun x => !x.isAlpha := by decide
    have noLetter := List.all_eq_true.mp (plain _ mark) c (by simp)
    rw [letter] at noLetter
    contradiction

end ScriptToCpp.Lexical
