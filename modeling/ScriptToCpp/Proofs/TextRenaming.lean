import ScriptToCpp.Proofs.Concatenation
import ScriptToCpp.Proofs.Rewording

/-! Renaming in a text. Where names are replaced by names and all else is kept, gaps and comments
included, the text is cut at the same places: a letter stands where one stood before, and what ends
before some letter ends before every other. -/
namespace ScriptToCpp

theorem IsName.spelled {name : String} (named : IsName name) :
    Lexical.Spells .identifier name name.toList := by
  obtain ⟨spelling, spelled⟩ := named
  have text := spelled.text_eq
  rw [if_neg (by decide)] at text
  rwa [text, String.toList_ofList, ← text]

namespace Lexical

/-- Both texts start with the same character, or both with a letter. -/
inductive StartAlike : List Char → List Char → Prop where
  | same {text other : List Char} : other.head? = text.head? → StartAlike text other
  | letters {c d : Char} {text other : List Char} :
      c.isAlpha → d.isAlpha → StartAlike (c :: text) (d :: other)

/-- A letter, and letters and digits behind it. -/
inductive IsWord : List Char → Prop where
  | mk {first : Char} {rest : List Char} :
      first.isAlpha → (∀ c ∈ rest, c.isAlphanum) → IsWord (first :: rest)

namespace StartAlike
variable {text other : List Char}

theorem noPoint (alike : StartAlike text other) (free : ∀ more, text ≠ '.' :: more)
    (more : List Char) : other ≠ '.' :: more := by
  rintro rfl
  cases alike with
  | same same =>
    obtain ⟨behind, point⟩ := List.head?_eq_some_iff.mp same.symm
    exact free behind point
  | letters _ letter => contradiction

/-- Alike texts are both empty or neither is. -/
theorem nil_iff (alike : StartAlike text other) : text = [] ↔ other = [] := by
  cases alike with
  | same same => rw [← List.head?_eq_none_iff, ← List.head?_eq_none_iff, same]
  | letters => simp

theorem append (alike : StartAlike text other) (front : List Char) :
    StartAlike (front ++ text) (front ++ other) := by
  cases front with
  | nil => exact alike
  | cons c front => exact .same rfl

theorem words (word : IsWord text) (word' : IsWord other) (rest rest' : List Char) :
    StartAlike (text ++ rest) (other ++ rest') := by
  cases word with
  | mk letter _ => cases word' with
    | mk letter' _ => exact .letters letter letter'

end StartAlike

theorem Spells.isWord {text : String} {spelling : List Char}
    (spelled : Spells .identifier text spelling) : IsWord spelling := by
  cases spelled with
  | fixed _ same => contradiction
  | name letter others _ => exact .mk letter others

theorem IsWord.isLexeme {word : List Char} (isWord : IsWord word) : IsLexeme word := by
  cases isWord with
  | mk letter others => exact isLexeme_word letter others

/-- A word goes on with letters and digits. -/
theorem IsWord.goesOn_iff {word : List Char} (isWord : IsWord word) (c : Char) :
    IsLexeme (word ++ [c]) ↔ c.isAlphanum := by
  cases isWord with
  | mk letter others =>
    refine ⟨word_ends letter, fun inside => ?_⟩
    refine isLexeme_word letter fun x member => ?_
    rcases List.mem_append.mp member with before | last
    · exact others x before
    · rw [List.mem_singleton.mp last]
      exact inside

/-- The gap before a letter holds no comment, which would go on. -/
theorem Longest.blanks {gap rest : List Char} {c : Char}
    (longest : Longest Gap (gap ++ c :: rest) gap) (letter : c.isAlpha) :
    ∀ x ∈ gap, x ∈ [' ', '\t', '\r'] := by
  have stops := (longest_gap_iff longest.formed).mp longest c rfl
  cases longest.formed with
  | blanks blanks => exact blanks
  | comment blanks line =>
    refine absurd ?_ stops
    rw [List.append_assoc, List.cons_append]
    refine .comment blanks fun x member => ?_
    rcases List.mem_append.mp member with before | last
    · exact line x before
    · rw [List.mem_singleton.mp last]
      rintro rfl
      contradiction

theorem Longest.gap_alike {gap text other : List Char} (longest : Longest Gap (gap ++ text) gap)
    (alike : StartAlike text other) : Longest Gap (gap ++ other) gap := by
  cases alike with
  | same same => exact longest.gap_before same
  | letters letter letter' =>
    have start := (isLexeme_word letter' (List.forall_mem_nil _)).start
    exact longest_blanks (longest.blanks letter) start

section
variable {spelling text other : List Char}

theorem Longest.lexeme_alike (longest : Longest IsLexeme (spelling ++ text) spelling)
    (noPoint : ∀ more, text ≠ '.' :: more) (alike : StartAlike text other) :
    Longest IsLexeme (spelling ++ other) spelling := by
  have noPoint' := alike.noPoint noPoint
  cases alike with
  | same same => exact longest.lexeme_before noPoint same
  | @letters c d text other letter letter' =>
    have stops := (longest_lexeme_iff longest.formed noPoint).mp longest c rfl
    rw [longest_lexeme_iff longest.formed noPoint']
    rintro _ ⟨rfl⟩ goesOn
    -- Only a word would go on with the second letter, and it would with the first one, too.
    obtain ⟨first, rest, rfl⟩ : ∃ first rest, spelling = first :: rest := by
      obtain ⟨_, _, spelled⟩ := longest.formed
      exact List.exists_cons_of_ne_nil spelled.nonempty
    obtain ⟨start, inside⟩ := letter_goesOn letter' goesOn
    refine stops (((IsWord.mk start inside).goesOn_iff c).mpr ?_)
    rw [Char.isAlphanum, letter]
    rfl

theorem Longest.word_alike {word : List Char}
    (longest : Longest IsLexeme (spelling ++ text) spelling)
    (noPoint : ∀ more, text ≠ '.' :: more) (isWord : IsWord spelling) (isWord' : IsWord word)
    (alike : StartAlike text other) : Longest IsLexeme (word ++ other) word := by
  have stops := (longest_lexeme_iff longest.formed noPoint).mp longest
  rw [longest_lexeme_iff isWord'.isLexeme (alike.noPoint noPoint)]
  intro d next goesOn
  rw [isWord'.goesOn_iff] at goesOn
  cases alike with
  | same same => exact stops d (same.symm.trans next) ((isWord.goesOn_iff d).mpr goesOn)
  | @letters c _ _ _ letter _ =>
    refine stops c rfl ((isWord.goesOn_iff c).mpr ?_)
    rw [Char.isAlphanum, letter]
    rfl

end

/-- The piece with another name, if it is one. -/
def Piece.rename (naming : String → String) (piece : Piece) : Piece :=
  { piece with
    spelling := if piece.kind = .identifier then (naming piece.text).toList else piece.spelling
    text := piece.kind.reword naming id piece.text }

theorem Ended.preceded {front rest : List Char} (ended : Ended rest) (more : rest ≠ []) :
    Ended (front ++ rest) := by
  intro c last
  rw [List.getLast?_append_of_ne_nil _ more] at last
  exact ended c last

/-- The tokens of pieces with other names. -/
theorem tokens_rename (naming : String → String) (pieces : List Piece) (here there : Location) :
    List.Forall₂ (Token.Reworded naming id) (tokens here pieces)
      (tokens there (pieces.map (.rename naming))) := by
  induction pieces generalizing here there with
  | nil => exact .cons ⟨rfl, rfl⟩ .nil
  | cons piece rest ih => exact .cons ⟨rfl, rfl⟩ (ih _ _)

variable {naming : String → String}

/-- A lexeme that stands before some text stands, with its new name, before a text like that. -/
theorem Piece.renamed (piece : Piece) {rest behind : List Char}
    (names : ∀ name, IsName name → IsName (naming name))
    (found : Longest IsLexeme (piece.spelling ++ rest) piece.spelling)
    (spelled : Spells piece.kind piece.text piece.spelling)
    (noPoint : ∀ more, rest ≠ '.' :: more) (alike : StartAlike rest behind) :
    Spells piece.kind (piece.rename naming).text (piece.rename naming).spelling ∧
      Longest IsLexeme ((piece.rename naming).spelling ++ behind) (piece.rename naming).spelling ∧
      StartAlike (piece.spelling ++ rest) ((piece.rename naming).spelling ++ behind) := by
  by_cases identifier : piece.kind = .identifier
  · have text : (piece.rename naming).text = naming piece.text := by
      rw [rename, identifier]
      rfl
    rw [identifier] at spelled ⊢
    have spelled' := IsName.spelled (names piece.text ⟨_, spelled⟩)
    rw [text, rename, if_pos identifier]
    exact ⟨spelled', found.word_alike noPoint spelled.isWord spelled'.isWord alike,
      .words spelled.isWord spelled'.isWord rest behind⟩
  · have text : (piece.rename naming).text = piece.text := by
      cases kind : piece.kind <;> simp_all [rename, Kind.reword]
    rw [text, rename, if_neg identifier]
    refine ⟨spelled, found.lexeme_alike noPoint alike, .same ?_⟩
    rw [List.head?_append_of_ne_nil _ spelled.nonempty,
      List.head?_append_of_ne_nil _ spelled.nonempty]

/-- A text is cut as before once its names are changed. -/
theorem Cuts.rename {text : List Char} {pieces : List Piece} (cuts : Cuts text pieces)
    (names : ∀ name, IsName name → IsName (naming name)) :
    ∃ renamed, Cuts renamed (pieces.map (.rename naming)) ∧ StartAlike text renamed ∧
      (Ended text → Ended renamed) := by
  induction cuts with
  | done => exact ⟨[], .done, .same rfl, id⟩
  | @piece gap spelling rest kind lexeme pieces skipped found spelled cuts ih =>
    obtain ⟨behind, cuts', alike, ended⟩ := ih
    obtain ⟨spelled', found', start⟩ :=
      Piece.renamed ⟨gap, spelling, kind, lexeme⟩ names found spelled cuts.notPoint alike
    refine ⟨_, .piece (skipped.gap_alike start) found' spelled' cuts', start.append gap, ?_⟩
    intro lines
    by_cases more : rest = []
    · -- The last lexeme is a line break, which no renaming changes.
      rw [alike.nil_iff.mp more]
      subst more
      rw [List.append_nil] at lines ⊢
      obtain ⟨rfl, rfl, rfl⟩ := lines.break spelled
      exact lines
    · have more' : behind ≠ [] := fun empty => more (alike.nil_iff.mpr empty)
      rw [← List.append_assoc]
      exact (ended lines.behind.behind).preceded more'

end Lexical

/-- Names can be changed within a text: it is read as before, but for the names. -/
theorem tokenize_rename {source : String} {tokens : List Token} {naming : String → String}
    (read : tokenize source = .ok tokens) (names : ∀ name, IsName name → IsName (naming name)) :
    ∃ renamed others, tokenize renamed = .ok others ∧
      List.Forall₂ (Token.Reworded naming id) tokens others := by
  obtain ⟨pieces, cuts, rfl⟩ :=
    Lexical.cuts_of_drain _ (Lexical.ended_start source) (tokenize_ok_iff.mp read)
  obtain ⟨text, cuts', alike, ended⟩ := cuts.rename names
  have some : text ≠ [] := by
    intro empty
    have none := alike.nil_iff.mpr empty
    simp [Cursor.start] at none
  obtain ⟨init, last, rfl⟩ := (List.eq_nil_or_concat text).resolve_left some
  obtain rfl : last = '\n' := ended (Lexical.ended_start source) last (by simp)
  refine ⟨String.ofList init, Lexical.tokens .start (pieces.map (.rename naming)), ?_,
    Lexical.tokens_rename naming pieces _ _⟩
  have start : Cursor.start (String.ofList init) = ⟨init ++ ['\n'], .start⟩ := by
    rw [Cursor.start, String.toList_ofList]
  rw [List.concat_eq_append] at cuts'
  rw [tokenize_ok_iff, start]
  exact cuts'.drain .start

end ScriptToCpp
