import ScriptToCpp.Text.Unprintable

/-! Texts as they appear in messages and listings: between quotes, on one line, with escapes for all
that could not be told apart otherwise. -/
namespace ScriptToCpp.Text

/-- A character by its code. -/
def codeEscape (c : Char) : List Char :=
  ['\\', 'u', '\x7b'] ++ Nat.toDigits 16 c.toNat ++ ['\x7d']

/-- How a character is written between quotes. -/
def escape : Char → List Char
  | '\x00' => ['\\', '0']
  | '\t' => ['\\', 't']
  | '\r' => ['\\', 'r']
  | '\n' => ['\\', 'n']
  | '"' => ['\\', '"']
  | '\\' => ['\\', '\\']
  | c => if isUnprintable c then codeEscape c else [c]

def quote (text : String) : String :=
  String.ofList ('"' :: text.toList.flatMap escape ++ ['"'])

end ScriptToCpp.Text
