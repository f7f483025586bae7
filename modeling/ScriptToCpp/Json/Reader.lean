import ScriptToCpp.Json

/-! Reading JSON. The text is cut into marks first; the marks then drive a machine that keeps the
arrays and objects still open on a stack. -/
namespace ScriptToCpp.Json

/-- The parts that a text consists of, apart from white space. -/
inductive Mark where
  | beginArray
  | endArray
  | beginObject
  | endObject
  | comma
  | colon
  | text (pieces : List Piece)
  /-- A number, a truth value or null. -/
  | plain (value : Json)

def isSpace (c : Char) : Bool :=
  c == ' ' || c == '\t' || c == '\n' || c == '\r'

def hexDigit? (c : Char) : Option Nat :=
  if c.isDigit then some (c.toNat - '0'.toNat)
  else if 'a' ≤ c && c ≤ 'f' then some (c.toNat - 'a'.toNat + 10)
  else if 'A' ≤ c && c ≤ 'F' then some (c.toNat - 'A'.toNat + 10)
  else none

def code? (a b c d : Char) : Option Nat := do
  let a ← hexDigit? a
  let b ← hexDigit? b
  let c ← hexDigit? c
  let d ← hexDigit? d
  return ((a * 16 + b) * 16 + c) * 16 + d

def isLead (code : Nat) : Bool := 0xd800 ≤ code && code < 0xdc00

def isTrail (code : Nat) : Bool := 0xdc00 ≤ code && code < 0xe000

/-- Puts a character, given by its code, before other elements. Two halves that meet in the right
order become one character. -/
def consCode (code : Nat) : List Piece → List Piece
  | .half trail :: pieces =>
    if isLead code && isTrail trail then
      .char (Char.ofNat (0x10000 + (code - 0xd800) * 0x400 + (trail - 0xdc00))) :: pieces
    else cons (.half trail :: pieces)
  | pieces => cons pieces
where
  cons (pieces : List Piece) : List Piece :=
    if isLead code || isTrail code then .half code :: pieces
    else .char (Char.ofNat code) :: pieces

/-- What a backslash and a letter stand for. -/
def escaped? : Char → Option Char
  | '"' => some '"'
  | '\\' => some '\\'
  | '/' => some '/'
  | 'b' => some '\x08'
  | 'f' => some '\x0c'
  | 'n' => some '\n'
  | 'r' => some '\r'
  | 't' => some '\t'
  | _ => none

/-- The elements up to the closing quote, and what follows it. -/
def readString : List Char → Option (List Piece × List Char)
  | [] => none
  | '"' :: rest => some ([], rest)
  | '\\' :: 'u' :: a :: b :: c :: d :: rest => do
    let code ← code? a b c d
    let (pieces, rest) ← readString rest
    return (consCode code pieces, rest)
  | '\\' :: c :: rest => do
    let c ← escaped? c
    let (pieces, rest) ← readString rest
    return (.char c :: pieces, rest)
  | c :: rest =>
    if c < ' ' || c = '\\' then none
    else do
      let (pieces, rest) ← readString rest
      return (.char c :: pieces, rest)

/-- The characters that numbers and words are made of. -/
def isPlainChar (c : Char) : Bool :=
  c.isAlphanum || c == '+' || c == '-' || c == '.'

def isDigits (text : List Char) : Bool :=
  text != [] && text.all Char.isDigit

def isExponent : List Char → Bool
  | [] => true
  | mark :: sign :: digits =>
    (mark == 'e' || mark == 'E')
      && (if sign == '+' || sign == '-' then isDigits digits else isDigits (sign :: digits))
  | _ => false

def isFraction : List Char → Bool
  | '.' :: text =>
    isDigits (text.takeWhile Char.isDigit) && isExponent (text.dropWhile Char.isDigit)
  | text => isExponent text

/-- A zero starts no longer number. -/
def isUnsigned : List Char → Bool
  | '0' :: text => isFraction text
  | text => isDigits (text.takeWhile Char.isDigit) && isFraction (text.dropWhile Char.isDigit)

def isNumber : List Char → Bool
  | '-' :: text => isUnsigned text
  | text => isUnsigned text

def plain? (spelling : List Char) : Option Json :=
  if spelling = "null".toList then some .null
  else if spelling = "true".toList then some (.bool true)
  else if spelling = "false".toList then some (.bool false)
  else if isNumber spelling then some (.number (String.ofList spelling))
  else none

/-- The mark that `c` starts, and what follows it. -/
def readMark (c : Char) (rest : List Char) : Option (Mark × List Char) :=
  match c with
  | '[' => some (.beginArray, rest)
  | ']' => some (.endArray, rest)
  | '\x7b' => some (.beginObject, rest)
  | '\x7d' => some (.endObject, rest)
  | ',' => some (.comma, rest)
  | ':' => some (.colon, rest)
  | '"' => (readString rest).map fun (pieces, rest) => (.text pieces, rest)
  | c =>
    if isPlainChar c then
      (plain? (c :: rest.takeWhile isPlainChar)).map fun value =>
        (.plain value, rest.dropWhile isPlainChar)
    else none

theorem readString_length_lt {text rest : List Char} {pieces : List Piece}
    (read : readString text = some (pieces, rest)) : rest.length < text.length := by
  fun_induction readString text generalizing pieces rest with
  | case1 => simp at read
  | case2 => simp_all
  | case3 a b c d text ih =>
    simp only [Option.bind_eq_bind, Option.bind_eq_some_iff] at read
    obtain ⟨_, _, ⟨_, _⟩, more, same⟩ := read
    have shorter := ih more
    simp_all
    omega
  | case4 c text _ ih =>
    simp only [Option.bind_eq_bind, Option.bind_eq_some_iff] at read
    obtain ⟨_, _, ⟨_, _⟩, more, same⟩ := read
    have shorter := ih more
    simp_all
    omega
  | case5 => simp at read
  | case6 c text _ _ _ _ ih =>
    simp only [Option.bind_eq_bind, Option.bind_eq_some_iff] at read
    obtain ⟨⟨_, _⟩, more, same⟩ := read
    have shorter := ih more
    simp_all
    omega

theorem readMark_length_le {c : Char} {text rest : List Char} {mark : Mark}
    (read : readMark c text = some (mark, rest)) : rest.length ≤ text.length := by
  unfold readMark at read
  split at read
  case h_7 =>
    obtain ⟨⟨pieces, more⟩, inside, same⟩ := Option.map_eq_some_iff.mp read
    have shorter := readString_length_lt inside
    simp_all
    omega
  case h_8 =>
    split at read
    · obtain ⟨value, _, same⟩ := Option.map_eq_some_iff.mp read
      simp only [Prod.mk.injEq] at same
      rw [← same.2]
      exact (List.dropWhile_suffix _).length_le
    · simp at read
  all_goals simp_all

/-- All marks of a text. -/
def marks : List Char → Option (List Mark)
  | [] => some []
  | c :: text =>
    if isSpace c then marks text
    else
      match read : readMark c text with
      | none => none
      | some (mark, rest) =>
        have : rest.length ≤ text.length := readMark_length_le read
        (marks rest).map (mark :: ·)
termination_by text => text.length

/-- An array or object that is still open, with what it holds so far, the latest first. -/
inductive Frame where
  | array (items : List Json)
  | object (members : List (List Piece × Json)) (key : List Piece)

/-- What may come next, inside the containers that are open. -/
inductive State where
  | anyValue (frames : List Frame)
  /-- A value or the end of an empty array. -/
  | firstItem (frames : List Frame)
  | behindItem (items : List Json) (frames : List Frame)
  /-- A key or the end of an empty object. -/
  | firstKey (frames : List Frame)
  | nextKey (members : List (List Piece × Json)) (frames : List Frame)
  | colon (members : List (List Piece × Json)) (key : List Piece) (frames : List Frame)
  | behindMember (members : List (List Piece × Json)) (frames : List Frame)
  /-- Nothing. -/
  | complete (value : Json)

namespace State

/-- A value ends, inside what is open around it. -/
def behind (value : Json) : List Frame → State
  | [] => .complete value
  | .array items :: frames => .behindItem (value :: items) frames
  | .object members key :: frames => .behindMember ((key, value) :: members) frames

/-- A value starts. -/
def enter (frames : List Frame) : Mark → Option State
  | .beginArray => some (.firstItem frames)
  | .beginObject => some (.firstKey frames)
  | .text pieces => some (behind (.string pieces) frames)
  | .plain value => some (behind value frames)
  | _ => none

def step : State → Mark → Option State
  | .anyValue frames, mark => enter frames mark
  | .firstItem frames, .endArray => some (behind (.array []) frames)
  | .firstItem frames, mark => enter (.array [] :: frames) mark
  | .behindItem items frames, .comma => some (.anyValue (.array items :: frames))
  | .behindItem items frames, .endArray => some (behind (.array items.reverse) frames)
  | .firstKey frames, .endObject => some (behind (.object []) frames)
  | .firstKey frames, .text key => some (.colon [] key frames)
  | .nextKey members frames, .text key => some (.colon members key frames)
  | .colon members key frames, .colon => some (.anyValue (.object members key :: frames))
  | .behindMember members frames, .comma => some (.nextKey members frames)
  | .behindMember members frames, .endObject =>
    some (behind (.object members.reverse) frames)
  | _, _ => none

def value? : State → Option Json
  | .complete value => some value
  | _ => none

end State

/-- The value that a text stands for. -/
def parse? (text : String) : Option Json := do
  let marks ← marks text.toList
  let final ← marks.foldlM State.step (.anyValue [])
  final.value?

end ScriptToCpp.Json
