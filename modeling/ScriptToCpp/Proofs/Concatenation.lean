import ScriptToCpp.Proofs.LexemeEnds
import ScriptToCpp.Proofs.Lines
import Mathlib

/-! Reading texts one behind the other. Nothing that is read goes beyond the end of a line, so that
behind a text with its last line ended reading starts anew, on a line further down. -/
namespace ScriptToCpp

namespace Location

/-- The same column, on a line further down. -/
def lower (lines : Nat) (here : Location) : Location :=
  ⟨here.line + lines, here.column⟩

theorem after_lower (lines : Nat) (here : Location) (c : Char) :
    (here.lower lines).after c = (here.after c).lower lines := by
  unfold after lower
  split
  · rw [Nat.add_right_comm]
  · rfl

theorem afterAll_lower (lines : Nat) (here : Location) (passed : List Char) :
    (here.lower lines).afterAll passed = (here.afterAll passed).lower lines := by
  induction passed generalizing here with
  | nil => rfl
  | cons c rest ih => rw [afterAll_cons, afterAll_cons, after_lower, ih]

theorem afterAll_line (here : Location) (passed : List Char) :
    (here.afterAll passed).line = here.line + passed.count '\n' := by
  induction passed generalizing here with
  | nil => rfl
  | cons c rest ih =>
    rw [afterAll_cons, ih, after, List.count_cons]
    split
    next same => simp [same]; omega
    next different => simp [different]

/-- Behind a line that is ended the next one starts. -/
theorem afterAll_ended (passed : List Char) (ended : Lexical.Ended passed) :
    start.afterAll passed = start.lower (passed.count '\n') := by
  have column : (start.afterAll passed).column = 1 := by
    rcases List.eq_nil_or_concat passed with rfl | ⟨front, last, rfl⟩
    · rfl
    · obtain rfl : last = '\n' := ended last (by simp)
      rw [List.concat_eq_append, afterAll_append]
      rfl
  have line := afterAll_line start passed
  cases whole : start.afterAll passed with
  | mk line' column' =>
    rw [whole] at line column
    cases line
    cases column
    rfl

end Location

def Token.lower (lines : Nat) (token : Token) : Token :=
  { token with location := token.location.lower lines }

def LexError.lower (lines : Nat) (fault : LexError) : LexError :=
  { fault with location := fault.location.lower lines }

namespace Cursor

def lower (lines : Nat) (cursor : Cursor) : Cursor :=
  { cursor with location := cursor.location.lower lines }

/-- What is read, found on a line further down. -/
def lowered (lines : Nat) : Except LexError Token → Except LexError Token
  | .ok token => .ok (token.lower lines)
  | .error fault => .error (fault.lower lines)

theorem next_lower (lines : Nat) (cursor : Cursor) :
    (cursor.lower lines).next = (lowered lines cursor.next.1, cursor.next.2.lower lines) := by
  have skipped : (cursor.lower lines).skipGap = cursor.skipGap.lower lines := by
    rw [skipGap, skipGap, lower, lower, ← Location.afterAll_lower]
  unfold next
  rw [skipped]
  obtain ⟨rest, here⟩ := cursor.skipGap
  cases rest with
  | nil => rfl
  | cons c text =>
    simp only [lex, lower, Location.afterAll_lower]
    split <;> rfl

theorem drain_lower (lines : Nat) (cursor : Cursor) :
    (cursor.lower lines).drain.1 = cursor.drain.1.map (lowered lines) := by
  induction cursor using Cursor.drain.induct with
  | case1 cursor fault behind read =>
    have moved := next_lower lines cursor
    rw [read] at moved
    rw [drain_fault read, drain_fault moved]
    rfl
  | case2 cursor token behind read last =>
    have moved := next_lower lines cursor
    rw [read] at moved
    rw [drain_last read last, drain_last moved last]
    rfl
  | case3 cursor token behind read more _ _ _ _ ih =>
    have moved := next_lower lines cursor
    rw [read] at moved
    rw [drain_more read more, drain_more moved more, ih]
    rfl

end Cursor

namespace Lexical
variable {text : List Char} {pieces : List Piece}

theorem tokens_ne_nil (here : Location) (pieces : List Piece) : tokens here pieces ≠ [] := by
  cases pieces <;> exact List.cons_ne_nil _ _

/-- A line break is a lexeme of its own. -/
theorem Spells.break {kind : Kind} {lexeme : String} {spelling : List Char}
    (spelled : Spells kind lexeme spelling) (member : '\n' ∈ spelling) :
    kind = .newline ∧ lexeme = "\n" ∧ spelling = ['\n'] := by
  cases spelled with
  | fixed more same =>
    rcases fixed_cases more same with ⟨_, letters⟩ | mark
    · exact absurd (letters _ member) (by decide)
    · have alone : ∀ mark ∈ marks, '\n' ∈ mark → mark = ['\n'] := by decide
      cases alone spelling mark member
      exact ⟨spelling_injective same rfl, rfl, rfl⟩
  | whole _ digits => exact absurd (digits _ member) (by decide)
  | fraction _ digits _ decimals =>
    rcases List.mem_append.mp member with before | behind
    · exact absurd (digits _ before) (by decide)
    · rcases List.mem_cons.mp behind with point | behind
      · contradiction
      · exact absurd (decimals _ behind) (by decide)
  | name letter others _ =>
    rcases List.mem_cons.mp member with rfl | behind
    · contradiction
    · exact absurd (others _ behind) (by decide)
  | string plain =>
    simp only [List.mem_cons, List.mem_append, List.not_mem_nil, or_false] at member
    rcases member with quote | inside | quote
    · contradiction
    · exact absurd (plain _ inside) (by simp)
    · contradiction

/-- The last lexeme of a text with its last line ended is a line break. -/
theorem Ended.break {front spelling : List Char} {kind : Kind} {lexeme : String}
    (ended : Ended (front ++ spelling)) (spelled : Spells kind lexeme spelling) :
    kind = .newline ∧ lexeme = "\n" ∧ spelling = ['\n'] := by
  apply spelled.break
  obtain ⟨init, last, rfl⟩ := (List.eq_nil_or_concat spelling).resolve_left spelled.nonempty
  obtain rfl : last = '\n' := ended.behind last (by simp)
  simp

/-- Behind a text that can be cut and whose last line is ended, reading goes on as if that text had
not been there, but for the places. -/
theorem Cuts.drain_append (cuts : Cuts text pieces) (ended : Ended text) (here : Location)
    (more : List Char) :
    (Cursor.drain ⟨text ++ more, here⟩).1 =
      (tokens here pieces).dropLast.map .ok ++
        (Cursor.drain ⟨more, here.afterAll text⟩).1 := by
  have read := cuts.drain here
  rcases Cursor.drain_line ⟨text, here⟩ ended more with
    ⟨front, last, same, _, further⟩ | ⟨found, fault, same, _⟩
  · rw [read, List.map_inj_right fun _ _ => Except.ok.inj] at same
    rw [same, List.dropLast_concat]
    exact further
  · exact absurd (read.symm.trans same) Items.map_ne_fault

/-- The end token comes last. -/
theorem tokens_concat (here : Location) (pieces : List Piece) :
    ∃ front last, tokens here pieces = front ++ [⟨.eof, "", last⟩] := by
  induction pieces generalizing here with
  | nil => exact ⟨[], here, rfl⟩
  | cons piece rest ih =>
    obtain ⟨front, last, same⟩ := ih (here.afterAll (piece.gap ++ piece.spelling))
    exact ⟨_ :: front, last, by rw [tokens, same]; rfl⟩

end Lexical

/-- Reading a text with something before it: the tokens of what stands before come first, and all
that is read in the text is found on lines further down. -/
theorem tokenize_append {head : String} {pieces : List Lexical.Piece}
    (cuts : Lexical.Cuts head.toList pieces) (ended : Lexical.Ended head.toList)
    (source : String) :
    tokenize (head ++ source) =
      ((tokenize source).mapError (LexError.lower (head.toList.count '\n'))).map fun tokens =>
        (Lexical.tokens .start pieces).dropLast ++
          tokens.map (Token.lower (head.toList.count '\n')) := by
  generalize counted : head.toList.count '\n' = lines
  have items : (Cursor.start (head ++ source)).drain.1 =
      (Lexical.tokens .start pieces).dropLast.map .ok ++
        (Cursor.start source).drain.1.map (Cursor.lowered lines) := by
    have read := cuts.drain_append ended .start (source.toList ++ ['\n'])
    rw [Location.afterAll_ended _ ended, counted] at read
    rw [← Cursor.drain_lower, Cursor.start, String.toList_append, List.append_assoc]
    exact read
  have found : ∀ tokens : List Token,
      (tokens.map .ok : List (Except LexError Token)).map (Cursor.lowered lines) =
        (tokens.map (Token.lower lines)).map .ok := by
    intro tokens
    rw [List.map_map, List.map_map]
    rfl
  cases read : tokenize source with
  | ok tokens =>
    rw [tokenize_ok_iff] at read
    rw [read, found, ← List.map_append] at items
    exact tokenize_ok_iff.mpr items
  | error fault =>
    obtain ⟨tokens, read⟩ := tokenize_error_iff.mp read
    rw [read, List.map_append, found, ← List.append_assoc, ← List.map_append] at items
    exact tokenize_error_iff.mpr ⟨_, items⟩

/-- Reading goes line by line. A fault in a text stays the same whatever lines are put behind it.
And where the text can be read, its tokens are followed, in place of the end token, by what is read
in those lines alone, fault or tokens, with as many lines added to each place as the text has. -/
theorem tokenize_line_append (first second : String) :
    (∀ fault, tokenize first = .error fault →
      tokenize (first ++ "\n" ++ second) = .error fault) ∧
    ∀ tokens, tokenize first = .ok tokens → ∃ front last, tokens = front ++ [⟨.eof, "", last⟩] ∧
      tokenize (first ++ "\n" ++ second) =
        ((tokenize second).mapError (LexError.lower (1 + first.toList.count '\n'))).map
          fun others => front ++ others.map (Token.lower (1 + first.toList.count '\n')) := by
  have text : (first ++ "\n").toList = (Cursor.start first).rest := String.toList_append
  have ended := Lexical.ended_start first
  constructor
  · intro fault failed
    obtain ⟨tokens, read⟩ := tokenize_error_iff.mp failed
    have start : Cursor.start (first ++ "\n" ++ second) =
        (Cursor.start first).followedBy (second.toList ++ ['\n']) := by
      rw [Cursor.start, String.toList_append, text, List.append_assoc]
      rfl
    rcases (Cursor.start first).drain_line ended (second.toList ++ ['\n']) with
      ⟨_, _, same, _⟩ | ⟨others, other, same, further⟩
    · exact absurd (same.symm.trans read) Items.map_ne_fault
    · obtain ⟨rfl, rfl⟩ := Items.fault_inj (same.symm.trans read)
      exact tokenize_error_iff.mpr ⟨others, by rw [start, further]⟩
  · intro tokens read
    obtain ⟨pieces, cuts, rfl⟩ := Lexical.cuts_of_drain _ ended (tokenize_ok_iff.mp read)
    obtain ⟨front, last, same⟩ := Lexical.tokens_concat (Cursor.start first).location pieces
    have lines : (first ++ "\n").toList.count '\n' = 1 + first.toList.count '\n' := by
      rw [text, Cursor.start, List.count_append, Nat.add_comm]
      rfl
    rw [← text] at cuts ended
    have whole := tokenize_append cuts ended second
    rw [lines] at whole
    refine ⟨front, last, same, whole.trans ?_⟩
    rw [show Lexical.tokens .start pieces = _ from same, List.dropLast_concat]

theorem open_string_before_quote :
    (tokenize "print \"a" = .error ⟨.strayInString '\n', ⟨1, 9⟩⟩ ∧
      tokenize ("print \"a" ++ "\n" ++ "\"") = .error ⟨.strayInString '\n', ⟨1, 9⟩⟩) ∧
    tokenize "\nx # y" =
        .ok [⟨.newline, "\n", ⟨1, 1⟩⟩, ⟨.identifier, "x", ⟨2, 1⟩⟩, ⟨.newline, "\n", ⟨2, 6⟩⟩,
          ⟨.eof, "", ⟨3, 1⟩⟩] ∧
      tokenize ("\nx # y" ++ "\n" ++ " 1.") = .error ⟨.danglingPoint "1", ⟨3, 3⟩⟩ := by
  have faulty : tokenize "print \"a" = .error ⟨.strayInString '\n', ⟨1, 9⟩⟩ := by cbv
  have found : tokenize "\nx # y" =
      .ok [⟨.newline, "\n", ⟨1, 1⟩⟩, ⟨.identifier, "x", ⟨2, 1⟩⟩, ⟨.newline, "\n", ⟨2, 6⟩⟩,
        ⟨.eof, "", ⟨3, 1⟩⟩] := by
    cbv
  have alone : tokenize " 1." = .error ⟨.danglingPoint "1", ⟨1, 3⟩⟩ := by cbv
  refine ⟨⟨faulty, (tokenize_line_append _ _).1 _ faulty⟩, found, ?_⟩
  obtain ⟨front, last, _, behind⟩ := (tokenize_line_append "\nx # y" " 1.").2 _ found
  rw [behind, alone]
  rfl

end ScriptToCpp
