import ScriptToCpp.Json

/-! Writing JSON: one item or member on a line, two blanks of indentation for each level, and no
line break at the end. -/
namespace ScriptToCpp.Json

/-- Four digits of a code, in lower case. -/
def codeDigits (code : Nat) : List Char :=
  let digits := Nat.toDigits 16 code
  List.replicate (4 - digits.length) '0' ++ digits

def codeEscape (code : Nat) : List Char :=
  '\\' :: 'u' :: codeDigits code

/-- Quotes, backslashes and control characters are escaped, the latter by a letter if they have
one. -/
def escape : Char → List Char
  | '"' => ['\\', '"']
  | '\\' => ['\\', '\\']
  | '\x08' => ['\\', 'b']
  | '\x0c' => ['\\', 'f']
  | '\n' => ['\\', 'n']
  | '\r' => ['\\', 'r']
  | '\t' => ['\\', 't']
  | c => if c < ' ' then codeEscape c.toNat else [c]

def Piece.render : Piece → List Char
  | .char c => escape c
  | .half code => codeEscape code

def renderString (pieces : List Piece) : String :=
  String.ofList ('"' :: pieces.flatMap Piece.render ++ ['"'])

def indentation (depth : Nat) : String :=
  String.ofList (List.replicate (2 * depth) ' ')

/-- Lines between brackets, with commas between them; the brackets stand at `depth`. -/
def enclose (opening closing : String) (depth : Nat) : List String → String
  | [] => opening ++ closing
  | line :: lines =>
    let indent := "\n" ++ indentation (depth + 1)
    opening ++ indent ++ line ++ String.join (lines.map fun next => "," ++ indent ++ next)
      ++ "\n" ++ indentation depth ++ closing

mutual

def renderAt (depth : Nat) : Json → String
  | .null => "null"
  | .bool value => if value then "true" else "false"
  | .number spelling => spelling
  | .string pieces => renderString pieces
  | .array items => enclose "[" "]" depth (renderItems (depth + 1) items)
  | .object members => enclose "\x7b" "\x7d" depth (renderMembers (depth + 1) members)

def renderItems (depth : Nat) : List Json → List String
  | [] => []
  | item :: items => renderAt depth item :: renderItems depth items

def renderMembers (depth : Nat) : List (List Piece × Json) → List String
  | [] => []
  | member :: members => renderMember depth member :: renderMembers depth members

def renderMember (depth : Nat) : List Piece × Json → String
  | (key, value) => renderString key ++ ": " ++ renderAt depth value

end

/-- The text of a value. -/
def render (value : Json) : String :=
  renderAt 0 value

end ScriptToCpp.Json
