import ScriptToCpp.Token.Kind

/-! Reading one lexeme from the front of a text: the longest one that stands there, or the reason
why there is none. Nothing is lost: what was passed and what is left make up the text. -/
namespace ScriptToCpp

/-- Why no lexeme stands at some place. -/
inductive LexError.Cause where
  /-- An exclamation mark that no equals sign follows. -/
  | loneBang (next : Char)
  /-- A character that a string must not hold. -/
  | strayInString (c : Char)
  /-- A decimal point that no digit follows. -/
  | danglingPoint (digits : String)
  /-- A character that starts no lexeme. -/
  | unknown (c : Char)
  deriving DecidableEq

namespace Lexeme

/-- What reading did: the kind and text found, or why there are none; the characters passed; and
those left. A fault leaves the offending character unread. -/
structure Reading where
  result : Except LexError.Cause (Kind × String)
  passed : List Char
  rest : List Char

def found (kind : Kind) (text : String) (spelling rest : List Char) : Reading :=
  ⟨.ok (kind, text), spelling, rest⟩

def fault (cause : LexError.Cause) (passed rest : List Char) : Reading :=
  ⟨.error cause, passed, rest⟩

/-- A lexeme whose text is its spelling. -/
def plain (kind : Kind) (spelling rest : List Char) : Reading :=
  found kind (String.ofList spelling) spelling rest

/-- A string goes on until its closing quote; it has no escapes and stays on its line. -/
def isStringChar (c : Char) : Bool :=
  !(c == '"' || c == '\n' || c == '\r' || c == '\t' || c == '\\' || c == '%')

/-- An operator that an equals sign extends. -/
def extensible (c : Char) (short long : Kind) : List Char → Reading
  | '=' :: rest => plain long [c, '='] rest
  | rest => plain short [c] rest

def bang : List Char → Reading
  | '=' :: rest => plain .notEq ['!', '='] rest
  | rest => fault (.loneBang (rest.headD '\n')) [] ('!' :: rest)

/-- The text behind an opening quote. A text that ends inside the string counts as broken off by
the end of its line. -/
def quoted (text : List Char) : Reading :=
  let content := text.takeWhile isStringChar
  match text.dropWhile isStringChar with
  | [] => fault (.strayInString '\n') ('"' :: content) []
  | c :: rest =>
    if c = '"' then found .string (String.ofList content) ('"' :: content ++ ['"']) rest
    else fault (.strayInString c) ('"' :: content) (c :: rest)

/-- Digits, and a fraction if a point follows them. -/
def number (text : List Char) : Reading :=
  let digits := text.takeWhile Char.isDigit
  match text.dropWhile Char.isDigit with
  | '.' :: more =>
    let fraction := more.takeWhile Char.isDigit
    if fraction = [] then fault (.danglingPoint (String.ofList digits)) digits ('.' :: more)
    else plain .number (digits ++ '.' :: fraction) (more.dropWhile Char.isDigit)
  | rest => plain .number digits rest

/-- Letters and digits: a reserved word, or an identifier. -/
def word (text : List Char) : Reading :=
  let letters := text.takeWhile Char.isAlphanum
  let kind := (Kind.keyword? (String.ofList letters)).getD .identifier
  plain kind letters (text.dropWhile Char.isAlphanum)

/-- Reads the lexeme that `c` starts, where `rest` follows. -/
def read (c : Char) (rest : List Char) : Reading :=
  match c with
  | '+' => plain .plus ['+'] rest
  | '-' => plain .minus ['-'] rest
  | '*' => plain .asterisk ['*'] rest
  | '/' => plain .slash ['/'] rest
  | '\x7b' => plain .lBrace ['\x7b'] rest
  | '\x7d' => plain .rBrace ['\x7d'] rest
  | '\n' => plain .newline ['\n'] rest
  | '=' => extensible '=' .eq .eqEq rest
  | '<' => extensible '<' .lt .ltEq rest
  | '>' => extensible '>' .gt .gtEq rest
  | '!' => bang rest
  | '"' => quoted rest
  | c =>
    if c.isDigit then number (c :: rest)
    else if c.isAlpha then word (c :: rest)
    else fault (.unknown c) [] (c :: rest)

/-- The text splits into what was passed and what is left, and a lexeme has a first character. -/
structure Reading.Splits (reading : Reading) (text : List Char) : Prop where
  append : reading.passed ++ reading.rest = text
  nonempty : reading.result.isOk → reading.passed ≠ []

theorem Reading.Splits.rest_lt {reading : Reading} {text : List Char} (splits : reading.Splits text)
    (ok : reading.result.isOk) : reading.rest.length < text.length := by
  have lengths := congrArg List.length splits.append
  have positive := List.length_pos_iff.mpr (splits.nonempty ok)
  simp only [List.length_append] at lengths
  omega

theorem Reading.Splits.rest_le {reading : Reading} {text : List Char}
    (splits : reading.Splits text) : reading.rest.length ≤ text.length := by
  simp [← splits.append]

theorem extensible_splits (c : Char) (short long : Kind) (rest : List Char) :
    (extensible c short long rest).Splits (c :: rest) := by
  unfold extensible
  split <;> exact ⟨rfl, fun _ => by simp [plain, found]⟩

theorem bang_splits (rest : List Char) : (bang rest).Splits ('!' :: rest) := by
  unfold bang
  split
  · exact ⟨rfl, fun _ => by simp [plain, found]⟩
  · exact ⟨rfl, fun ok => absurd ok Bool.false_ne_true⟩

theorem quoted_splits (text : List Char) : (quoted text).Splits ('"' :: text) := by
  have whole := List.takeWhile_append_dropWhile (p := isStringChar) (l := text)
  unfold quoted
  split
  next h => exact ⟨by simp_all [fault], fun ok => absurd ok Bool.false_ne_true⟩
  next c rest h =>
    rw [h] at whole
    split
    next closing => exact ⟨by simp_all [found], fun _ => by simp [found]⟩
    next => exact ⟨by simp_all [fault], fun ok => absurd ok Bool.false_ne_true⟩

theorem number_splits {c : Char} (rest : List Char) (digit : c.isDigit) :
    (number (c :: rest)).Splits (c :: rest) := by
  have whole := List.takeWhile_append_dropWhile (p := Char.isDigit) (l := c :: rest)
  have first : (c :: rest).takeWhile Char.isDigit ≠ [] := by simp [digit]
  unfold number
  split
  next more h =>
    rw [h] at whole
    dsimp only
    split
    · exact ⟨whole, fun ok => absurd ok Bool.false_ne_true⟩
    · refine ⟨?_, fun _ => by simp [plain, found]⟩
      simp only [plain, found, List.append_assoc, List.cons_append,
        List.takeWhile_append_dropWhile]
      exact whole
  next => exact ⟨whole, fun _ => first⟩

theorem word_splits {c : Char} (rest : List Char) (letter : c.isAlpha) :
    (word (c :: rest)).Splits (c :: rest) :=
  ⟨List.takeWhile_append_dropWhile, fun _ => by simp [word, plain, found, Char.isAlphanum, letter]⟩

theorem read_splits (c : Char) (rest : List Char) : (read c rest).Splits (c :: rest) := by
  unfold read
  split
  case h_8 => exact extensible_splits _ _ _ _
  case h_9 => exact extensible_splits _ _ _ _
  case h_10 => exact extensible_splits _ _ _ _
  case h_11 => exact bang_splits rest
  case h_12 => exact quoted_splits rest
  case h_13 =>
    split
    next digit => exact number_splits rest digit
    next =>
      split
      next letter => exact word_splits rest letter
      next => exact ⟨rfl, fun ok => absurd ok Bool.false_ne_true⟩
  all_goals exact ⟨rfl, fun _ => by simp [plain, found]⟩

end Lexeme
end ScriptToCpp
