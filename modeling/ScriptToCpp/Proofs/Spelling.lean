import ScriptToCpp.Token.Cursor

/-! The texts of tokens. All kinds but those of numbers, names and strings have one spelling, and
every token that is read has the spelling of its kind. -/
namespace ScriptToCpp

namespace Kind

/-- The text of all tokens of a kind, where there is but one. -/
def spelling? : Kind → Option String
  | eof => some ""
  | newline => some "\n"
  | number | identifier | string => none
  | print => some "print"
  | input => some "input"
  | declare => some "declare"
  | ifWord => some "if"
  | thenWord => some "then"
  | endIf => some "endif"
  | whileWord => some "while"
  | repeatWord => some "repeat"
  | endWhile => some "endwhile"
  | eq => some "="
  | plus => some "+"
  | minus => some "-"
  | asterisk => some "*"
  | slash => some "/"
  | eqEq => some "=="
  | notEq => some "!="
  | lt => some "<"
  | ltEq => some "<="
  | gt => some ">"
  | gtEq => some ">="
  | lBrace => some "\x7b"
  | rBrace => some "\x7d"

theorem spelling_keyword {text : String} {kind : Kind} (word : keyword? text = some kind) :
    kind.spelling? = some text ∧ kind ≠ .eof := by
  unfold keyword? at word
  split at word
  case h_10 => contradiction
  all_goals
    cases word
    exact ⟨rfl, by decide⟩

end Kind

/-- The text is the spelling of the kind, where that has one. -/
def Regular (kind : Kind) (text : String) : Prop :=
  ∀ spelling, kind.spelling? = some spelling → text = spelling

theorem Regular.of_eq {kind : Kind} {text : String} (same : kind.spelling? = some text) :
    Regular kind text := by
  intro spelling spelled
  exact Option.some.inj (same.symm.trans spelled)

theorem Regular.of_none {kind : Kind} {text : String} (free : kind.spelling? = none) :
    Regular kind text := by
  intro spelling spelled
  rw [free] at spelled
  contradiction

namespace Lexeme

/-- What is found, if anything, has the spelling of its kind, and is not the end of the text. -/
def Reading.IsRegular (reading : Reading) : Prop :=
  ∀ kind text, reading.result = .ok (kind, text) → Regular kind text ∧ kind ≠ .eof

theorem found_regular {kind : Kind} {text : String} {spelling rest : List Char}
    (regular : Regular kind text) (more : kind ≠ .eof) :
    (found kind text spelling rest).IsRegular := by
  intro kind' text' result
  simp only [found, Except.ok.injEq, Prod.mk.injEq] at result
  obtain ⟨rfl, rfl⟩ := result
  exact ⟨regular, more⟩

theorem fault_regular {cause : LexError.Cause} {passed rest : List Char} :
    (fault cause passed rest).IsRegular := by
  intro kind text result
  simp [fault] at result

theorem extensible_regular {c : Char} {short long : Kind} {rest : List Char}
    (single : short.spelling? = some (String.ofList [c]))
    (double : long.spelling? = some (String.ofList [c, '=']))
    (more : short ≠ .eof ∧ long ≠ .eof) :
    (extensible c short long rest).IsRegular := by
  unfold extensible
  split
  · exact found_regular (.of_eq double) more.2
  · exact found_regular (.of_eq single) more.1

theorem bang_regular {rest : List Char} : (bang rest).IsRegular := by
  unfold bang
  split
  · exact found_regular (.of_eq rfl) (by decide)
  · exact fault_regular

theorem quoted_regular {text : List Char} : (quoted text).IsRegular := by
  unfold quoted
  split
  · exact fault_regular
  · split
    · exact found_regular (.of_none rfl) (by decide)
    · exact fault_regular

theorem number_regular {text : List Char} : (number text).IsRegular := by
  unfold number
  split
  · dsimp only
    split
    · exact fault_regular
    · exact found_regular (.of_none rfl) (by decide)
  · exact found_regular (.of_none rfl) (by decide)

theorem word_regular {text : List Char} : (word text).IsRegular := by
  unfold word
  dsimp only
  cases keyword : Kind.keyword? (String.ofList (text.takeWhile Char.isAlphanum)) with
  | none => exact found_regular (.of_none rfl) (by decide)
  | some kind =>
    obtain ⟨spelled, more⟩ := Kind.spelling_keyword keyword
    exact found_regular (.of_eq spelled) more

theorem read_regular (c : Char) (rest : List Char) : (read c rest).IsRegular := by
  unfold read
  split
  case h_8 | h_9 | h_10 => exact extensible_regular rfl rfl (by decide)
  case h_11 => exact bang_regular
  case h_12 => exact quoted_regular
  case h_13 =>
    split
    · exact number_regular
    · split
      · exact word_regular
      · exact fault_regular
  all_goals exact found_regular (.of_eq rfl) (by decide)

end Lexeme

namespace Cursor
variable {cursor behind : Cursor} {token : Token}

/-- A token has the spelling of its kind, and the end token comes only when nothing is left. -/
theorem next_regular (read : cursor.next = (.ok token, behind)) :
    Regular token.kind token.text ∧ (token.kind = .eof → behind.rest = []) := by
  unfold next lex at read
  split at read
  next empty =>
    simp only [Prod.mk.injEq, Except.ok.injEq] at read
    obtain ⟨rfl, rfl⟩ := read
    exact ⟨.of_eq rfl, fun _ => empty⟩
  next c text _ =>
    dsimp only at read
    split at read
    next kind lexeme result =>
      simp only [Prod.mk.injEq, Except.ok.injEq] at read
      obtain ⟨rfl, rfl⟩ := read
      obtain ⟨regular, more⟩ := Lexeme.read_regular c text kind lexeme result
      exact ⟨regular, fun last => absurd last more⟩
    next => simp at read

/-- Where nothing is left, the end token comes again. -/
theorem next_empty (empty : cursor.rest = []) :
    ∃ token behind, cursor.next = (.ok token, behind) ∧ token.kind = .eof ∧ behind.rest = [] := by
  have rest : cursor.skipGap.rest = [] := by simp [skipGap, empty]
  refine ⟨⟨.eof, "", cursor.skipGap.location⟩, cursor.skipGap, ?_, rfl, rest⟩
  unfold next lex
  rw [rest]

end Cursor
end ScriptToCpp
