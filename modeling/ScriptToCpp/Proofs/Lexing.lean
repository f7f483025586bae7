import ScriptToCpp.Proofs.Lexemes
import ScriptToCpp.Proofs.TokenList

/-! Reading a text is cutting it. The tokens that are read are the lexemes of a cut, and where the
reader comes to a fault the text cannot be cut: either no lexeme stands there, or a point is left
over, with which nothing starts. -/
namespace ScriptToCpp
open Lexical

namespace Cursor
variable {cursor behind : Cursor} {token : Token} {fault : LexError}

theorem isBlank_iff {c : Char} : isBlank c ↔ c ∈ [' ', '\t', '\r'] := by
  simp [isBlank, or_assoc]

theorem gap_formed (text : List Char) : gap text <+: text ∧ Gap (gap text) := by
  have blanks : ∀ c ∈ text.takeWhile isBlank, c ∈ [' ', '\t', '\r'] :=
    fun c member => isBlank_iff.mp (List.mem_takeWhile_imp member)
  have whole := List.takeWhile_append_dropWhile (p := isBlank) (l := text)
  unfold gap comment
  split
  next behind start =>
    have line : ∀ c ∈ behind.takeWhile (· != '\n'), c ≠ '\n' :=
      fun c member => by simpa using List.mem_takeWhile_imp member
    refine ⟨⟨behind.dropWhile (· != '\n'), ?_⟩, .comment blanks line⟩
    rw [List.append_assoc, List.cons_append, List.takeWhile_append_dropWhile, ← start, whole]
  next =>
    rw [List.append_nil]
    exact ⟨List.takeWhile_prefix _, .blanks blanks⟩

/-- What the reader skips is all that can be skipped. -/
theorem gap_longest (text : List Char) : Longest Gap text (gap text) := by
  refine ⟨(gap_formed text).1, (gap_formed text).2, fun other formed starts => ?_⟩
  unfold gap
  cases formed with
  | blanks blanks =>
    have inside : ∀ c ∈ other, isBlank c := fun c member => isBlank_iff.mpr (blanks c member)
    have bound := length_le_takeWhile inside starts
    rw [List.length_append]
    omega
  | @comment front body blanks line =>
    obtain ⟨rest, rfl⟩ := starts
    have front' : ∀ c ∈ front, isBlank c := fun c member => isBlank_iff.mpr (blanks c member)
    have body' : ∀ c ∈ body, c != '\n' := by simpa using line
    have bound := length_le_takeWhile body' (List.prefix_append body rest)
    rw [List.append_assoc, List.takeWhile_append_of_pos front', List.dropWhile_append_of_pos front']
    have behind : comment (('#' :: body ++ rest).dropWhile isBlank) =
        '#' :: (body ++ rest).takeWhile (· != '\n') := rfl
    rw [behind]
    simp only [List.length_append, List.length_cons]
    omega

theorem rest_eq (cursor : Cursor) : cursor.rest = gap cursor.rest ++ cursor.skipGap.rest := by
  exact (List.prefix_iff_eq_append.mp (gap_formed cursor.rest).1).symm

/-- A token other than the last one is the longest lexeme behind the gap. -/
theorem next_found (read : cursor.next = (.ok token, behind)) (more : token.kind ≠ .eof) :
    ∃ spelling, cursor.skipGap.rest = spelling ++ behind.rest ∧
      Longest IsLexeme (spelling ++ behind.rest) spelling ∧
      Spells token.kind token.text spelling ∧
      token.location = cursor.location.afterAll (gap cursor.rest) ∧
      behind.location = cursor.location.afterAll (gap cursor.rest ++ spelling) := by
  unfold next lex at read
  split at read
  next =>
    cases read
    contradiction
  next c text start =>
    dsimp only at read
    split at read
    next kind lexeme result =>
      cases read
      have split := (Lexeme.read_splits c text).append
      obtain ⟨spelled, longest⟩ := (Lexeme.read_faithful c text).found kind lexeme result
      refine ⟨(Lexeme.read c text).passed, start.trans split.symm, ?_, spelled, rfl, ?_⟩
      · rw [split]
        exact ⟨⟨_, split⟩, ⟨_, _, spelled⟩, longest⟩
      · rw [Location.afterAll_append]
        rfl
    next => simp at read

/-- The end token comes where nothing is left behind the gap. -/
theorem next_ended (read : cursor.next = (.ok token, behind)) (last : token.kind = .eof) :
    cursor.rest = gap cursor.rest ∧
      token = ⟨.eof, "", cursor.location.afterAll (gap cursor.rest)⟩ := by
  have whole := cursor.rest_eq
  unfold next lex at read
  split at read
  next empty =>
    cases read
    rw [empty, List.append_nil] at whole
    exact ⟨whole, rfl⟩
  next c text start =>
    dsimp only at read
    split at read
    next kind lexeme result =>
      cases read
      exact absurd last (Lexeme.read_regular c text kind lexeme result).2
    next => simp at read

theorem next_fault (read : cursor.next = (.error fault, behind)) {spelling rest : List Char}
    (start : cursor.skipGap.rest = spelling ++ rest)
    (longest : Longest IsLexeme (spelling ++ rest) spelling) : ∃ more, rest = '.' :: more := by
  unfold next lex at read
  split at read
  next => simp at read
  next c text first =>
    dsimp only at read
    split at read
    next => simp at read
    next cause result =>
      have whole := first.symm.trans start
      rw [← whole] at longest
      exact (Lexeme.read_faithful c text).fault cause result spelling rest whole longest

end Cursor

namespace Lexical
variable {text : List Char} {pieces : List Piece}

theorem Gap.notBreak {gap : List Char} (formed : Gap gap) : ∀ c ∈ gap, c ≠ '\n' := by
  have blank : ∀ c ∈ [' ', '\t', '\r'], c ≠ '\n' := by simp
  cases formed with
  | blanks blanks => exact fun c member => blank c (blanks c member)
  | comment blanks line =>
    intro c member
    rcases List.mem_append.mp member with before | behind
    · exact blank c (blanks c before)
    · rcases List.mem_cons.mp behind with rfl | inside
      · decide
      · exact line c inside

/-- Neither a gap nor a lexeme starts with a point. -/
theorem Cuts.notPoint (cuts : Cuts text pieces) (more : List Char) : text ≠ '.' :: more := by
  intro point
  cases cuts with
  | done => contradiction
  | @piece gap spelling _ _ _ _ skipped found spelled =>
    have none : gap = [] := by
      have formed := skipped.formed
      cases formed with
      | blanks blanks =>
        cases gap with
        | nil => rfl
        | cons c rest =>
          cases point
          exact absurd (blanks '.' (by simp)) (by decide)
      | @comment blanks _ all =>
        cases blanks with
        | nil => cases point
        | cons c rest =>
          cases point
          exact absurd (all '.' (by simp)) (by decide)
    obtain ⟨c, rest, rfl⟩ := List.exists_cons_of_ne_nil spelled.nonempty
    rw [none] at point
    cases point
    rcases found.formed.forms with ⟨letter, _⟩ | ⟨digit, _⟩ | ⟨quote, _⟩ | mark
    · contradiction
    · contradiction
    · contradiction
    · simp [marks] at mark

/-- The last line of a text is ended. -/
def Ended (text : List Char) : Prop :=
  ∀ c, text.getLast? = some c → c = '\n'

theorem Ended.behind {front rest : List Char} (ended : Ended (front ++ rest)) : Ended rest := by
  intro c last
  exact ended c (by rw [List.getLast?_append, last]; rfl)

/-- A script is read with its last line ended. -/
theorem ended_start (source : String) : Ended (Cursor.start source).rest := by
  intro c last
  rw [Cursor.start, List.getLast?_concat, Option.some.injEq] at last
  exact last.symm

theorem Ended.gap (ended : Ended text) (gap : Gap text) : text = [] := by
  cases last : text.getLast? with
  | none => exact List.getLast?_eq_none_iff.mp last
  | some c => exact absurd (ended c last) (gap.notBreak c (List.mem_of_getLast? last))

/-- The tokens that are read are those of a cut. -/
theorem cuts_of_drain (cursor : Cursor) (ended : Ended cursor.rest) {found : List Token}
    (read : cursor.drain.1 = found.map .ok) :
    ∃ pieces, Cuts cursor.rest pieces ∧ found = tokens cursor.location pieces := by
  induction cursor using Cursor.drain.induct generalizing found with
  | case1 cursor fault behind next =>
    rw [Cursor.drain_fault next] at read
    have fault : Except.error fault ∈ found.map (Except.ok : Token → Except LexError Token) := by
      simp [← read]
    simp at fault
  | case2 cursor token behind next last =>
    obtain ⟨whole, rfl⟩ := Cursor.next_ended next last
    have empty : cursor.rest = [] := ended.gap (whole ▸ (Cursor.gap_formed cursor.rest).2)
    rw [Cursor.drain_last next last] at read
    obtain ⟨token, rfl, same⟩ := List.map_eq_singleton_iff.mp read.symm
    cases same
    refine ⟨[], by rw [empty]; exact .done, ?_⟩
    rw [empty]
    rfl
  | case3 cursor token behind next more _ _ _ _ ih =>
    obtain ⟨spelling, start, longest, spelled, here, there⟩ := Cursor.next_found next more
    have whole := cursor.rest_eq
    rw [start] at whole
    rw [Cursor.drain_more next more] at read
    obtain ⟨first, rest, rfl, same, others⟩ := List.map_eq_cons_iff.mp read.symm
    cases same
    have behindEnded : Ended behind.rest := by
      rw [whole] at ended
      exact ended.behind.behind
    obtain ⟨pieces, cuts, rfl⟩ := ih behindEnded others.symm
    have skipped := Cursor.gap_longest cursor.rest
    generalize Cursor.gap cursor.rest = gap at whole here there skipped
    refine ⟨⟨gap, spelling, token.kind, token.text⟩ :: pieces, ?_, ?_⟩
    · rw [whole] at skipped ⊢
      exact .piece skipped longest spelled cuts
    · rw [tokens, ← here, ← there]

/-- The reader finds the longest lexeme behind the longest gap, unless a point is left over. -/
theorem next_of_piece (cursor : Cursor) {gap spelling rest : List Char} {kind : Kind}
    {lexeme : String} (whole : cursor.rest = gap ++ (spelling ++ rest))
    (skipped : Longest Gap cursor.rest gap) (found : Longest IsLexeme (spelling ++ rest) spelling)
    (spelled : Spells kind lexeme spelling) (noPoint : ∀ more, rest ≠ '.' :: more) :
    cursor.next = (.ok ⟨kind, lexeme, cursor.location.afterAll gap⟩,
      ⟨rest, cursor.location.afterAll (gap ++ spelling)⟩) := by
  have same : Cursor.gap cursor.rest = gap := (Cursor.gap_longest cursor.rest).unique skipped
  have start : cursor.skipGap.rest = spelling ++ rest := by
    have split := cursor.rest_eq
    rw [same, whole] at split
    exact (List.append_cancel_left split).symm
  rcases read : cursor.next with ⟨_ | token, behind⟩
  · obtain ⟨more, point⟩ := Cursor.next_fault read start found
    exact absurd point (noPoint more)
  · have more : token.kind ≠ .eof := by
      intro last
      have all := (Cursor.next_ended read last).1
      rw [same, whole, List.append_right_eq_self, List.append_eq_nil_iff] at all
      exact spelled.nonempty all.1
    obtain ⟨other, split, longest, spelledOther, here, there⟩ := Cursor.next_found read more
    have parts := split.symm.trans start
    rw [parts] at longest
    obtain rfl := longest.unique found
    obtain rfl := List.append_cancel_left parts
    obtain ⟨rfl, rfl⟩ := spelledOther.unique spelled
    rw [same] at here there
    rw [← here, ← there]

theorem Cuts.drain (cuts : Cuts text pieces) (here : Location) :
    (Cursor.drain ⟨text, here⟩).1 = (tokens here pieces).map .ok := by
  induction cuts generalizing here with
  | done =>
    have read : (⟨[], here⟩ : Cursor).next = (.ok ⟨.eof, "", here⟩, ⟨[], here⟩) := rfl
    rw [Cursor.drain_last read rfl]
    rfl
  | piece skipped found spelled cuts ih =>
    have read := next_of_piece ⟨_, here⟩ rfl skipped found spelled cuts.notPoint
    rw [Cursor.drain_more read spelled.notEnd, ih]
    rfl

theorem Cuts.foreign (cuts : Cuts text pieces) {piece : Piece} (member : piece ∈ pieces)
    {c : Char} (foreign : Foreign c) :
    (c ∈ piece.spelling → piece.kind = .string) ∧
      (c ∈ piece.gap → ∃ blanks comment, piece.gap = blanks ++ '#' :: comment ∧
        (∀ x ∈ blanks, x ∈ [' ', '\t', '\r']) ∧ c ∈ comment) := by
  induction cuts with
  | done => contradiction
  | piece skipped _ spelled _ ih =>
    rcases List.mem_cons.mp member with rfl | later
    · exact ⟨fun inside => spelled.foreign inside foreign,
        fun inside => skipped.formed.foreign inside foreign⟩
    · exact ih later

end Lexical

/-- A text is read as some tokens if and only if it can be cut, together with the line break that is
added to it, into gaps and lexemes, each the longest that can stand there, so that nothing of the
text is left over; and the tokens are the lexemes of the cut, with the end token behind them. The
null character and those outside ASCII are found in strings and comments only. -/
theorem tokenize_ok_iff_cuts (source : String) :
    (∀ tokens, tokenize source = .ok tokens ↔
      ∃ pieces, Cuts (source.toList ++ ['\n']) pieces ∧
        tokens = Lexical.tokens .start pieces) ∧
    ∀ pieces, Cuts (source.toList ++ ['\n']) pieces → ∀ piece ∈ pieces, ∀ c, Foreign c →
      (c ∈ piece.spelling → piece.kind = .string) ∧
        (c ∈ piece.gap → ∃ blanks comment, piece.gap = blanks ++ '#' :: comment ∧
          (∀ x ∈ blanks, x ∈ [' ', '\t', '\r']) ∧ c ∈ comment) := by
  constructor
  · intro tokens
    rw [tokenize_ok_iff]
    constructor
    · intro read
      exact cuts_of_drain _ (ended_start source) read
    · rintro ⟨pieces, cuts, rfl⟩
      exact cuts.drain .start
  · intro pieces cuts piece member c foreign
    exact cuts.foreign member foreign

end ScriptToCpp
