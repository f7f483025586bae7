/-! White space, as the property of that name in the Unicode character database. -/
namespace ScriptToCpp.Text

def isBlank (c : Char) : Bool :=
  let code := c.toNat
  (0x9 ≤ code && code ≤ 0xd) || code == 0x20 || code == 0x85 || code == 0xa0 || code == 0x1680
    || (0x2000 ≤ code && code ≤ 0x200a) || code == 0x2028 || code == 0x2029 || code == 0x202f
    || code == 0x205f || code == 0x3000

/-- The text without the white space around it. -/
def trim (text : String) : String :=
  let rest := text.toList.dropWhile isBlank
  String.ofList (rest.reverse.dropWhile isBlank).reverse

end ScriptToCpp.Text
