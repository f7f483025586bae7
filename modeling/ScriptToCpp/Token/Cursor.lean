import ScriptToCpp.Token
import ScriptToCpp.Token.Lexeme

/-! Reading tokens one after the other. A cursor never moves back, and each token but the last moves
it on, so that reading a text to its end always comes to an end. -/
namespace ScriptToCpp

/-- No token can be read at `location`, where the character that `cause` names stands. -/
structure LexError where
  cause : LexError.Cause
  location : Location
  deriving DecidableEq

/-- What is still to be read, and where it starts. -/
structure Cursor where
  rest : List Char
  location : Location
  deriving DecidableEq

namespace Cursor

/-- The start of a script. A line break is added, so that the last statement ends its line too. -/
def start (source : String) : Cursor :=
  ⟨source.toList ++ ['\n'], .start⟩

/-- A line break is no blank: it is a token. -/
def isBlank (c : Char) : Bool :=
  c == ' ' || c == '\t' || c == '\r'

/-- The characters of a comment at the front of a text, its line break not among them. -/
def comment : List Char → List Char
  | '#' :: text => '#' :: text.takeWhile (· != '\n')
  | _ => []

/-- What stands before the next token: blanks, and then perhaps a comment. -/
def gap (text : List Char) : List Char :=
  text.takeWhile isBlank ++ comment (text.dropWhile isBlank)

def skipGap (cursor : Cursor) : Cursor :=
  let passed := gap cursor.rest
  ⟨cursor.rest.drop passed.length, cursor.location.afterAll passed⟩

/-- Reads the token that stands right at the cursor. At the end of the text there is an end token,
as often as it is asked for; a fault leaves the cursor on the offending character. -/
def lex (here : Cursor) : Except LexError Token × Cursor :=
  match here.rest with
  | [] => (.ok ⟨.eof, "", here.location⟩, here)
  | c :: text =>
    let reading := Lexeme.read c text
    let behind : Cursor := ⟨reading.rest, here.location.afterAll reading.passed⟩
    match reading.result with
    | .ok (kind, text) => (.ok ⟨kind, text, here.location⟩, behind)
    | .error cause => (.error ⟨cause, behind.location⟩, behind)

/-- Reads the next token. -/
def next (cursor : Cursor) : Except LexError Token × Cursor :=
  cursor.skipGap.lex

theorem skipGap_rest_le (cursor : Cursor) : cursor.skipGap.rest.length ≤ cursor.rest.length := by
  simp [skipGap]

theorem lex_rest_le (here : Cursor) : here.lex.2.rest.length ≤ here.rest.length := by
  unfold lex
  split
  next => exact Nat.le_refl _
  next c text h =>
    rw [h]
    dsimp only
    split <;> exact (Lexeme.read_splits c text).rest_le

theorem lex_rest_lt {here behind : Cursor} {token : Token}
    (read : here.lex = (.ok token, behind)) (more : token.kind ≠ .eof) :
    behind.rest.length < here.rest.length := by
  unfold lex at read
  split at read
  next =>
    simp only [Prod.mk.injEq, Except.ok.injEq] at read
    exact absurd (congrArg Token.kind read.1).symm more
  next c text h =>
    rw [h]
    dsimp only at read
    split at read
    next kind lexeme result =>
      simp only [Prod.mk.injEq] at read
      rw [← read.2]
      exact (Lexeme.read_splits c text).rest_lt (by rw [result]; rfl)
    next => simp at read

theorem next_rest_le (cursor : Cursor) : cursor.next.2.rest.length ≤ cursor.rest.length :=
  Nat.le_trans (lex_rest_le _) cursor.skipGap_rest_le

/-- A token that is not the end of the text takes at least one character. -/
theorem next_rest_lt {cursor behind : Cursor} {token : Token}
    (read : cursor.next = (.ok token, behind)) (more : token.kind ≠ .eof) :
    behind.rest.length < cursor.rest.length :=
  Nat.lt_of_lt_of_le (lex_rest_lt read more) cursor.skipGap_rest_le

/-- All that can be read, up to the end of the text or the first fault, and the cursor behind it. -/
def drain (cursor : Cursor) : List (Except LexError Token) × Cursor :=
  match read : cursor.next with
  | (.error fault, behind) => ([.error fault], behind)
  | (.ok token, behind) =>
    if last : token.kind = .eof then ([.ok token], behind)
    else
      have : behind.rest.length < cursor.rest.length := next_rest_lt read last
      let (more, final) := behind.drain
      (.ok token :: more, final)
termination_by cursor.rest.length

end Cursor

/-- The tokens of a script, the end token last, or the first fault in it. -/
def tokenize (source : String) : Except LexError (List Token) :=
  (Cursor.start source).drain.1.mapM id

/-- A cursor for one pass over a text, which is over with the end token or the first fault. -/
structure TokenStream where
  cursor : Cursor
  finished : Bool := false

namespace TokenStream

def ofSource (source : String) : TokenStream :=
  ⟨.start source, false⟩

/-- Reads a token whether or not the pass is over, and without ending it. -/
def read (stream : TokenStream) : Except LexError Token × TokenStream :=
  let (result, behind) := stream.cursor.next
  (result, { stream with cursor := behind })

def endsPass : Except LexError Token → Bool
  | .ok token => token.kind = .eof
  | .error _ => true

/-- The next item of the pass, if it is not over. -/
def next? (stream : TokenStream) : Option (Except LexError Token × TokenStream) :=
  if stream.finished then none
  else
    let (result, behind) := stream.cursor.next
    some (result, ⟨behind, endsPass result⟩)

/-- The remaining items of the pass. -/
def drain (stream : TokenStream) : List (Except LexError Token) × TokenStream :=
  if stream.finished then ([], stream)
  else
    let (items, final) := stream.cursor.drain
    (items, ⟨final, true⟩)

end TokenStream
end ScriptToCpp
