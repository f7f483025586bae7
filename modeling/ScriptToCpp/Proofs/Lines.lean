import ScriptToCpp.Proofs.Lexing

/-! Reading stops at line breaks. Neither a gap nor a lexeme goes on behind the end of its line, and
to find a fault nothing behind that end is looked at. So where a line break is still to come, what
is read next does not depend on the lines that follow. -/
namespace ScriptToCpp

section
variable {p : Char → Bool} {text : List Char}

/-- A run of characters among which there is no line break ends with the line. -/
theorem takeWhile_line (stops : p '\n' = false) (broken : '\n' ∈ text) (more : List Char) :
    (text ++ more).takeWhile p = text.takeWhile p := by
  rw [List.takeWhile_append, if_neg]
  intro whole
  have all := List.takeWhile_eq_self_iff.mp ((List.takeWhile_prefix p).eq_of_length whole)
  rw [all '\n' broken] at stops
  contradiction

theorem dropWhile_line (stops : p '\n' = false) (broken : '\n' ∈ text) (more : List Char) :
    (text ++ more).dropWhile p = text.dropWhile p ++ more := by
  rw [List.dropWhile_append, if_neg]
  intro empty
  have all := List.dropWhile_eq_nil_iff.mp (List.isEmpty_iff.mp empty)
  rw [all '\n' broken] at stops
  contradiction

/-- The line break is left over. -/
theorem mem_dropWhile_line (stops : p '\n' = false) (broken : '\n' ∈ text) :
    '\n' ∈ text.dropWhile p := by
  rw [← List.takeWhile_append_dropWhile (p := p) (l := text), List.mem_append] at broken
  refine broken.resolve_left fun inside => ?_
  rw [List.mem_takeWhile_imp inside] at stops
  contradiction

end

namespace Lexeme
variable {text : List Char}

/-- The same reading, with more text behind what is left. -/
def Reading.followedBy (reading : Reading) (more : List Char) : Reading :=
  { reading with rest := reading.rest ++ more }

theorem extensible_line (c : Char) (short long : Kind) (some : text ≠ []) (more : List Char) :
    extensible c short long (text ++ more) = (extensible c short long text).followedBy more := by
  cases text with
  | nil => contradiction
  | cons next rest =>
    by_cases equals : next = '='
    · subst equals
      rfl
    · simp [extensible, plain, found, Reading.followedBy, equals]

theorem bang_line (some : text ≠ []) (more : List Char) :
    bang (text ++ more) = (bang text).followedBy more := by
  cases text with
  | nil => contradiction
  | cons next rest =>
    by_cases equals : next = '='
    · subst equals
      rfl
    · simp [bang, fault, Reading.followedBy, equals]

theorem quoted_line (broken : '\n' ∈ text) (more : List Char) :
    quoted (text ++ more) = (quoted text).followedBy more := by
  have left := mem_dropWhile_line (p := isStringChar) (by decide) broken
  unfold quoted
  rw [takeWhile_line (by decide) broken, dropWhile_line (by decide) broken]
  cases behind : text.dropWhile isStringChar with
  | nil =>
    rw [behind] at left
    contradiction
  | cons c rest =>
    dsimp only [List.cons_append]
    split <;> rfl

theorem number_line (broken : '\n' ∈ text) (more : List Char) :
    number (text ++ more) = (number text).followedBy more := by
  have left := mem_dropWhile_line (p := Char.isDigit) (by decide) broken
  unfold number
  rw [takeWhile_line (by decide) broken, dropWhile_line (by decide) broken]
  cases behind : text.dropWhile Char.isDigit with
  | nil =>
    rw [behind] at left
    contradiction
  | cons c rest =>
    rw [behind] at left
    by_cases point : c = '.'
    · subst point
      have decimals : '\n' ∈ rest := by simpa using left
      simp only [List.cons_append, takeWhile_line (p := Char.isDigit) (by decide) decimals,
        dropWhile_line (p := Char.isDigit) (by decide) decimals]
      split <;> rfl
    · simp [plain, found, Reading.followedBy, point]

theorem word_line (broken : '\n' ∈ text) (more : List Char) :
    word (text ++ more) = (word text).followedBy more := by
  unfold word
  rw [takeWhile_line (by decide) broken, dropWhile_line (by decide) broken]
  rfl

/-- What is read up to the end of a line is read whatever the next lines are. -/
theorem read_line {c : Char} (broken : '\n' ∈ c :: text) (more : List Char) :
    read c (text ++ more) = (read c text).followedBy more := by
  have behind : c ≠ '\n' → '\n' ∈ text := by
    intro different
    exact (List.mem_cons.mp broken).resolve_left fun same => different same.symm
  unfold read
  split
  case h_8 | h_9 | h_10 => exact extensible_line _ _ _ (List.ne_nil_of_mem (behind (by decide))) more
  case h_11 => exact bang_line (List.ne_nil_of_mem (behind (by decide))) more
  case h_12 => exact quoted_line (behind (by decide)) more
  case h_13 =>
    split
    · exact number_line broken more
    · split
      · exact word_line broken more
      · rfl
  all_goals rfl

end Lexeme

theorem Lexical.Ended.broken {text : List Char} (ended : Ended text) (some : text ≠ []) :
    '\n' ∈ text := by
  obtain ⟨front, last, rfl⟩ := (List.eq_nil_or_concat text).resolve_left some
  obtain rfl : last = '\n' := ended last (by simp)
  simp

namespace Cursor
variable {text : List Char}

theorem comment_line (broken : '\n' ∈ text) (more : List Char) :
    comment (text ++ more) = comment text := by
  cases text with
  | nil => contradiction
  | cons c rest =>
    by_cases hash : c = '#'
    · subst hash
      have line : '\n' ∈ rest := by simpa using broken
      simp only [comment, List.cons_append, takeWhile_line (p := (· != '\n')) rfl line]
    · simp [comment, hash]

theorem gap_line (broken : '\n' ∈ text) (more : List Char) : gap (text ++ more) = gap text := by
  unfold gap
  rw [takeWhile_line rfl broken, dropWhile_line rfl broken,
    comment_line (mem_dropWhile_line rfl broken)]

/-- The same cursor, with more text behind what is left. -/
def followedBy (cursor : Cursor) (more : List Char) : Cursor :=
  { cursor with rest := cursor.rest ++ more }

variable {cursor : Cursor}

theorem skipGap_line (broken : '\n' ∈ cursor.rest) (more : List Char) :
    (cursor.followedBy more).skipGap = cursor.skipGap.followedBy more := by
  have within := (gap_formed cursor.rest).1.length_le
  simp only [skipGap, followedBy, gap_line broken, List.drop_append_of_le_length within]

/-- The line break is no part of the gap before a token. -/
theorem skipGap_broken (broken : '\n' ∈ cursor.rest) : '\n' ∈ cursor.skipGap.rest := by
  rw [cursor.rest_eq, List.mem_append] at broken
  refine broken.resolve_left fun inside => ?_
  exact (gap_formed cursor.rest).2.notBreak '\n' inside rfl

theorem lex_line {here : Cursor} (broken : '\n' ∈ here.rest) (more : List Char) :
    (here.followedBy more).lex = (here.lex.1, here.lex.2.followedBy more) := by
  obtain ⟨rest, location⟩ := here
  cases rest with
  | nil => contradiction
  | cons c text =>
    simp only [lex, followedBy, List.cons_append, Lexeme.read_line broken,
      Lexeme.Reading.followedBy]
    split <;> rfl

/-- The next token, or the next fault, is found whatever the next lines are. -/
theorem next_line (broken : '\n' ∈ cursor.rest) (more : List Char) :
    (cursor.followedBy more).next = (cursor.next.1, cursor.next.2.followedBy more) := by
  unfold next
  rw [skipGap_line broken]
  exact lex_line (skipGap_broken broken) more

/-- Where anything but the end token is read, there is a line break to come. -/
theorem next_followed {item : Except LexError Token} {behind : Cursor}
    (ended : Lexical.Ended cursor.rest) (read : cursor.next = (item, behind))
    (other : ∀ token, item = .ok token → token.kind ≠ .eof) (more : List Char) :
    (cursor.followedBy more).next = (item, behind.followedBy more) := by
  have some : cursor.rest ≠ [] := by
    intro empty
    obtain ⟨token, _, again, last, _⟩ := next_empty empty
    rw [read] at again
    cases again
    exact other token rfl last
  rw [next_line (ended.broken some), read]

/-- Lines that are added behind a text whose last line is ended are read where the end token was, as
if the text had not been there; but where there is a fault in the text nothing else is read. -/
theorem drain_line (cursor : Cursor) (ended : Lexical.Ended cursor.rest) (more : List Char) :
    (∃ front last, cursor.drain.1 = (front ++ [last]).map .ok ∧ last.kind = .eof ∧
      (cursor.followedBy more).drain.1 =
        front.map .ok ++ (drain ⟨more, cursor.location.afterAll cursor.rest⟩).1) ∨
    ∃ (tokens : List Token) (fault : LexError),
      cursor.drain.1 = tokens.map .ok ++ [.error fault] ∧
      (cursor.followedBy more).drain.1 = tokens.map .ok ++ [.error fault] := by
  induction cursor using Cursor.drain.induct with
  | case1 cursor fault behind read =>
    right
    refine ⟨[], fault, by rw [drain_fault read]; rfl, ?_⟩
    rw [drain_fault (next_followed ended read (fun _ same => by cases same) more)]
    rfl
  | case2 cursor token behind read last =>
    left
    obtain ⟨whole, _⟩ := next_ended read last
    have empty : cursor.rest = [] := ended.gap (whole ▸ (gap_formed cursor.rest).2)
    refine ⟨[], token, by rw [drain_last read last]; rfl, last, ?_⟩
    simp [followedBy, empty]
  | case3 cursor token behind read other _ _ _ _ ih =>
    obtain ⟨spelling, start, _, _, _, there⟩ := next_found read other
    have whole := cursor.rest_eq
    rw [start] at whole
    have place : behind.location.afterAll behind.rest =
        cursor.location.afterAll cursor.rest := by
      rw [there, ← Location.afterAll_append, List.append_assoc, ← whole]
    have ended' : Lexical.Ended behind.rest := by
      rw [whole] at ended
      exact ended.behind.behind
    have read' := next_followed ended read (fun _ same => by cases same; exact other) more
    rw [drain_more read other, drain_more read' other, ← place]
    rcases ih ended' with ⟨front, last, same, kind, further⟩ | ⟨tokens, fault, same, further⟩
    · left
      exact ⟨token :: front, last, by rw [same]; rfl, kind, by rw [further]; rfl⟩
    · right
      exact ⟨token :: tokens, fault, by rw [same]; rfl, by rw [further]; rfl⟩

end Cursor
end ScriptToCpp
