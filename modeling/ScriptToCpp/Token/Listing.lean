import ScriptToCpp.Json.Printer
import ScriptToCpp.Text.Aligned
import ScriptToCpp.Text.Quoted
import ScriptToCpp.Token

/-! Listings of tokens: one line for each, or a JSON document. -/
namespace ScriptToCpp

namespace Kind

/-- The name of a kind in a column. -/
def column (kind : Kind) (align : Text.Align) (width : Nat) (most : Option Nat) : String :=
  Text.pad align width (Text.cut most kind.name)

end Kind

namespace Token

/-- Line and column, kind, and text of a token. -/
def listingLine (token : Token) : String :=
  Text.pad .right 4 (toString token.location.line) ++ ":"
    ++ Text.pad .left 3 (toString token.location.column) ++ " "
    ++ token.kind.column .left 10 none ++ " " ++ Text.quote token.text

def listing (tokens : List Token) : String :=
  String.join (tokens.map fun token => token.listingLine ++ "\n")

def toJson (token : Token) : Json :=
  .object [(Json.pieces "kind", .ofString token.kind.tag),
    (Json.pieces "text", .ofString token.text),
    (Json.pieces "line", .ofNat token.location.line),
    (Json.pieces "position", .ofNat token.location.column)]

def jsonListing (tokens : List Token) : String :=
  (Json.array (tokens.map toJson)).render ++ "\n"

end Token
end ScriptToCpp
