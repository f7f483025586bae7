/-! How script names and numbers are spelled in the generated program. -/
namespace ScriptToCpp.Cpp

/-- Names that have a meaning of their own in the generated program. -/
def reservedNames : List String :=
  ["auto", "bool", "break", "case", "catch", "char", "cin", "class", "const",
    "continue", "cout", "default", "delete", "do", "double", "else", "endl",
    "enum", "explicit", "export", "extern", "false", "float", "for", "friend",
    "goto", "inline", "int", "long", "main", "mutable", "namespace", "new",
    "not", "nullptr", "operator", "or", "and", "private", "protected", "public",
    "register", "return", "short", "signed", "sizeof", "static", "std", "struct",
    "switch", "template", "this", "throw", "true", "try", "typedef", "typename",
    "union", "unsigned", "using", "virtual", "void", "volatile", "xor"]

/-- A reserved name gets an underscore behind it, which no name of a script contains. -/
def variableName (name : String) : String :=
  if name ∈ reservedNames then name ++ "_" else name

/-- Every number is written with a fraction, so that no division is one of integers. -/
def numberLiteral (text : String) : String :=
  if '.' ∈ text.toList then text else text ++ ".0"

end ScriptToCpp.Cpp
