/-! Showing bytes that need not be a text. Every maximal part of an ill-formed sequence that could
have started a character becomes one replacement character. -/
namespace ScriptToCpp.Text.Utf8

/-- The stand-in for what is no character. -/
def replacement : Char := '\ufffd'

/-- What may follow a leading byte: the bounds of the second byte, and how many bytes come after it.
The narrow bounds keep out overlong forms, surrogates, and what lies beyond the last code point. -/
structure Shape where
  low : UInt8 := 0x80
  high : UInt8 := 0xbf
  tail : Nat

def shape? (lead : UInt8) : Option Shape :=
  if 0xc2 ≤ lead && lead ≤ 0xdf then some { tail := 0 }
  else if lead = 0xe0 then some { low := 0xa0, tail := 1 }
  else if lead = 0xed then some { high := 0x9f, tail := 1 }
  else if 0xe1 ≤ lead && lead ≤ 0xef then some { tail := 1 }
  else if lead = 0xf0 then some { low := 0x90, tail := 2 }
  else if lead = 0xf4 then some { high := 0x8f, tail := 2 }
  else if 0xf1 ≤ lead && lead ≤ 0xf3 then some { tail := 2 }
  else none

/-- The bits that a leading byte contributes to its code point. -/
def leadBits (lead : UInt8) (tail : Nat) : Nat :=
  lead.toNat % Nat.pow 2 (5 - tail)

/-- A character of which some bytes have been read: its bits so far, the bounds of the next byte,
and how many bytes come after that one. -/
structure Open where
  bits : Nat
  shape : Shape

inductive Step where
  | done (c : Char)
  | more (unfinished : Open)
  | broken

def Open.step (unfinished : Open) (byte : UInt8) : Step :=
  if unfinished.shape.low ≤ byte && byte ≤ unfinished.shape.high then
    let bits := unfinished.bits * 64 + byte.toNat % 64
    match unfinished.shape.tail with
    | 0 => .done (Char.ofNat bits)
    | tail + 1 => .more ⟨bits, { tail }⟩
  else .broken

/-- What a byte does where no character is under way. -/
def enter (byte : UInt8) : Step :=
  if byte < 0x80 then .done (Char.ofNat byte.toNat)
  else
    match shape? byte with
    | some shape => .more ⟨leadBits byte shape.tail, shape⟩
    | none => .broken

/-- The characters of a byte sequence, given the character that is under way. -/
def decodeFrom : Option Open → List UInt8 → List Char
  | none, [] => []
  | some _, [] => [replacement]
  | none, byte :: bytes => fresh byte fun state => decodeFrom state bytes
  | some unfinished, byte :: bytes =>
    match unfinished.step byte with
    | .done c => c :: decodeFrom none bytes
    | .more unfinished => decodeFrom (some unfinished) bytes
    | .broken => replacement :: fresh byte fun state => decodeFrom state bytes
where
  fresh (byte : UInt8) (go : Option Open → List Char) : List Char :=
    match enter byte with
    | .done c => c :: go none
    | .more unfinished => go (some unfinished)
    | .broken => replacement :: go none

/-- The text that bytes stand for, with replacement characters where they stand for none. -/
def decode (bytes : List UInt8) : String :=
  String.ofList (decodeFrom none bytes)

end ScriptToCpp.Text.Utf8
