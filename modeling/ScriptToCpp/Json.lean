/-! JSON values. Numbers keep their spelling and objects the order and the repetitions of their
members, so that a reader can decide what to make of them. -/
namespace ScriptToCpp

/-- An element of a string: a character, or half of a surrogate pair that was written by its code
and without the other half. -/
inductive Json.Piece where
  | char (c : Char)
  | half (code : Nat)
  deriving DecidableEq

inductive Json where
  | null
  | bool (value : Bool)
  | number (spelling : String)
  | string (pieces : List Json.Piece)
  | array (items : List Json)
  | object (members : List (List Json.Piece × Json))

namespace Json

def Piece.char? : Piece → Option Char
  | .char c => some c
  | .half _ => none

def pieces (text : String) : List Piece :=
  text.toList.map .char

/-- The text of a string, unless halves of surrogate pairs are among its elements. -/
def textOf? (pieces : List Piece) : Option String :=
  (pieces.mapM Piece.char?).map String.ofList

theorem textOf?_pieces (text : String) : textOf? (pieces text) = some text := by
  have characters : ∀ cs : List Char, (cs.map Piece.char).mapM Piece.char? = some cs := by
    intro cs
    induction cs with
    | nil => rfl
    | cons c cs ih => simp [Piece.char?, ih]
  simp [textOf?, pieces, characters]

def ofString (text : String) : Json :=
  .string (pieces text)

def ofNat (value : Nat) : Json :=
  .number (toString value)

def text? : Json → Option String
  | .string pieces => textOf? pieces
  | _ => none

def bool? : Json → Option Bool
  | .bool value => some value
  | _ => none

end Json
end ScriptToCpp
