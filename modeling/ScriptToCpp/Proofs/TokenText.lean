import ScriptToCpp.Proofs.Concatenation
import ScriptToCpp.Proofs.Outcome

/-! Writing lexemes out. With a blank between any two of them none runs into the next one, and no
comment starts outside of a string, so that what is written is read as the same lexemes again. -/
namespace ScriptToCpp

namespace Lexical

theorem IsNumeral.characters {spelling : List Char} (numeral : IsNumeral spelling) :
    ∀ c ∈ spelling, c.isDigit ∨ c = '.' := by
  intro c member
  rcases numeral with digits | ⟨digits, decimals, rfl, whole, _, fraction⟩
  · exact .inl (digits c member)
  · rcases List.mem_append.mp member with before | behind
    · exact .inl (whole c before)
    · rcases List.mem_cons.mp behind with point | inside
      · exact .inr point
      · exact .inl (fraction c inside)

/-- No lexeme goes on with a blank or with a line break. -/
theorem IsLexeme.not_spaced {part : List Char} {c : Char} (some : part ≠ [])
    (space : c ∈ [' ', '\n']) : ¬ IsLexeme (part ++ [c]) := by
  obtain ⟨first, rest, rfl⟩ := List.exists_cons_of_ne_nil some
  have outside : c.isAlphanum = false ∧ c.isDigit = false ∧ c ≠ '.' ∧ c ≠ '"' ∧
      ∀ mark ∈ marks, c ∉ mark.tail := by
    simp only [List.mem_cons, List.not_mem_nil, or_false] at space
    rcases space with rfl | rfl <;> decide
  obtain ⟨notWord, notDigit, notPoint, notQuote, noMark⟩ := outside
  intro lexeme
  rcases lexeme.forms with ⟨_, inside⟩ | ⟨_, numeral⟩ | ⟨_, content, same, _⟩ | mark
  · rw [inside c (by simp)] at notWord
    contradiction
  · rcases numeral.characters c (by simp) with digit | point
    · rw [digit] at notDigit
      contradiction
    · exact notPoint point
  · have ending := (List.append_inj' same rfl).2
    exact notQuote (List.singleton_inj.mp ending)
  · exact noMark _ mark (by simp)

theorem longest_spaced {spelling rest : List Char} {c : Char} (lexeme : IsLexeme spelling)
    (space : c ∈ [' ', '\n']) : Longest IsLexeme (spelling ++ c :: rest) spelling := by
  have some : spelling ≠ [] := by
    obtain ⟨_, _, spelled⟩ := lexeme
    exact spelled.nonempty
  have noPoint : ∀ more, c :: rest ≠ '.' :: more := by
    rintro more ⟨⟩
    contradiction
  rw [longest_lexeme_iff lexeme noPoint]
  rintro c ⟨rfl⟩
  exact IsLexeme.not_spaced some space

theorem Cuts.spaced {gap spelling rest : List Char} {c : Char} {kind : Kind} {text : String}
    {pieces : List Piece} (blanks : ∀ x ∈ gap, x ∈ [' ', '\t', '\r'])
    (spelled : Spells kind text spelling) (space : c ∈ [' ', '\n'])
    (cuts : Cuts (c :: rest) pieces) :
    Cuts (gap ++ (spelling ++ c :: rest)) (⟨gap, spelling, kind, text⟩ :: pieces) := by
  obtain ⟨first, others, rfl⟩ := List.exists_cons_of_ne_nil spelled.nonempty
  have lexeme : IsLexeme (first :: others) := ⟨kind, text, spelled⟩
  exact .piece (longest_blanks blanks lexeme.start) (longest_spaced lexeme space) spelled cuts

theorem tokens_lexemes (here : Location) (pieces : List Piece) :
    (tokens here pieces).map Token.lexeme =
      pieces.map (fun piece => (piece.kind, piece.text)) ++ [(.eof, "")] := by
  induction pieces generalizing here with
  | nil => rfl
  | cons piece rest ih => exact congrArg (_ :: ·) (ih _)

end Lexical

/-- How a lexeme is written: a string stands in quotes, and all else as it is. -/
def spellOut (lexeme : Kind × String) : String :=
  if lexeme.1 = .string then "\"" ++ lexeme.2 ++ "\"" else lexeme.2

theorem Lexical.Spells.spellOut {kind : Kind} {text : String} {spelling : List Char}
    (spelled : Lexical.Spells kind text spelling) :
    (ScriptToCpp.spellOut (kind, text)).toList = spelling := by
  cases spelled with
  | @fixed kind _ _ same =>
    have free : kind ≠ .string := by
      rintro rfl
      contradiction
    rw [ScriptToCpp.spellOut, if_neg free, String.toList_ofList]
  | whole | fraction | name => exact String.toList_ofList
  | string =>
    simp [ScriptToCpp.spellOut]

/-- The lexemes, one behind the other, with a blank between any two. -/
def spaced (lexemes : List (Kind × String)) : String :=
  " ".intercalate (lexemes.map spellOut)

/-- The text can be cut where the blanks are, and the line break that is added to it is cut off. -/
theorem spaced_cuts {lexemes : List (Kind × String)}
    (legal : ∀ lexeme ∈ lexemes, ∃ spelling, Lexical.Spells lexeme.1 lexeme.2 spelling)
    (gap : List Char) (blanks : ∀ x ∈ gap, x ∈ [' ', '\t', '\r']) :
    ∃ pieces, Lexical.Cuts (gap ++ ((spaced lexemes).toList ++ ['\n'])) pieces ∧
      pieces.map (fun piece => (piece.kind, piece.text)) = lexemes ++ [(.newline, "\n")] := by
  induction lexemes generalizing gap with
  | nil =>
    have spelled : Lexical.Spells .newline "\n" ['\n'] := .fixed (by decide) rfl
    have longest : Lexical.Longest Lexical.IsLexeme (['\n'] ++ []) ['\n'] :=
      ⟨List.prefix_append _ _, ⟨_, _, spelled⟩, fun _ _ starts => starts.length_le⟩
    have skipped : Lexical.Longest Lexical.Gap (gap ++ ['\n']) gap :=
      Lexical.longest_blanks blanks (by decide)
    have cuts := Lexical.Cuts.piece skipped longest spelled .done
    exact ⟨_, cuts, rfl⟩
  | cons lexeme rest ih =>
    obtain ⟨spelling, spelled⟩ := legal lexeme (by simp)
    have others := fun other member => legal other (List.mem_cons_of_mem _ member)
    cases rest with
    | nil =>
      obtain ⟨pieces, cuts, same⟩ := ih others [] nofun
      have text : (spaced [lexeme]).toList = spelling := by
        rw [spaced, List.map_singleton, String.intercalate_singleton]
        exact spelled.spellOut
      rw [text]
      exact ⟨_, cuts.spaced blanks spelled (by decide), congrArg (lexeme :: ·) same⟩
    | cons next rest =>
      obtain ⟨pieces, cuts, same⟩ := ih others [' '] (by simp)
      have text : (spaced (lexeme :: next :: rest)).toList =
          spelling ++ ' ' :: (spaced (next :: rest)).toList := by
        rw [spaced, List.map_cons, List.map_cons, String.intercalate_cons_cons,
          String.toList_append, String.toList_append, spelled.spellOut]
        simp [spaced]
      rw [text, List.append_assoc]
      exact ⟨_, cuts.spaced blanks spelled (by decide), congrArg (lexeme :: ·) same⟩

/-- What is written is read back: lexemes of any kinds, with a blank between any two, are read as
these lexemes in their order, with a line break and the end token behind them. -/
theorem tokenize_spaced {lexemes : List (Kind × String)}
    (legal : ∀ lexeme ∈ lexemes, ∃ spelling, Lexical.Spells lexeme.1 lexeme.2 spelling) :
    ∃ tokens, tokenize (spaced lexemes) = .ok tokens ∧
      tokens.map Token.lexeme = lexemes ++ [(.newline, "\n"), (.eof, "")] := by
  obtain ⟨pieces, cuts, same⟩ := spaced_cuts legal [] nofun
  refine ⟨Lexical.tokens .start pieces, tokenize_ok_iff.mpr (cuts.drain .start), ?_⟩
  rw [Lexical.tokens_lexemes, same, List.append_assoc]
  rfl

theorem comment_sign_within_quotes :
    (∀ lexeme ∈ [(Kind.string, "a # b"), (.eq, "="), (.eqEq, "=="), (.newline, "\n"),
        (.number, "1.50"), (.identifier, "iff")],
      ∃ spelling, Lexical.Spells lexeme.1 lexeme.2 spelling) ∧
    ∃ tokens, tokenize "\"a # b\" = == \n 1.50 iff" = .ok tokens ∧
      tokens.map Token.lexeme =
        [(.string, "a # b"), (.eq, "="), (.eqEq, "=="), (.newline, "\n"), (.number, "1.50"),
          (.identifier, "iff"), (.newline, "\n"), (.eof, "")] := by
  have legal : ∀ lexeme ∈ [(Kind.string, "a # b"), (.eq, "="), (.eqEq, "=="), (.newline, "\n"),
      (.number, "1.50"), (.identifier, "iff")],
      ∃ spelling, Lexical.Spells lexeme.1 lexeme.2 spelling := by
    simp only [List.forall_mem_cons]
    refine ⟨⟨_, @Lexical.Spells.string ['a', ' ', '#', ' ', 'b'] (by simp)⟩,
      ⟨_, @Lexical.Spells.fixed .eq ['='] (by decide) rfl⟩,
      ⟨_, @Lexical.Spells.fixed .eqEq ['=', '='] (by decide) rfl⟩,
      ⟨_, @Lexical.Spells.fixed .newline ['\n'] (by decide) rfl⟩,
      ⟨_, @Lexical.Spells.fraction ['1'] ['5', '0'] (by simp) (by simp) (by simp) (by simp)⟩,
      ⟨_, @Lexical.Spells.name 'i' ['f', 'f'] rfl (by simp) ?_⟩, nofun⟩
    intro kind
    cases kind <;> decide
  obtain ⟨tokens, read, same⟩ := tokenize_spaced legal
  have text : spaced [(Kind.string, "a # b"), (.eq, "="), (.eqEq, "=="), (.newline, "\n"),
      (.number, "1.50"), (.identifier, "iff")] = "\"a # b\" = == \n 1.50 iff" := by
    decide
  rw [text] at read
  exact ⟨legal, tokens, read, same⟩

end ScriptToCpp
