/-! Columns of a listing: a text is cut to a greatest length and then filled up with blanks to a
least width. -/
namespace ScriptToCpp.Text

/-- Which side of its column a text keeps to. -/
inductive Align where
  | left
  | right
  | center
  deriving DecidableEq

/-- How many blanks stand before a text that leaves `room` of its column unused. A centred text has
the odd blank behind it. -/
def Align.before : Align → Nat → Nat
  | .left, _ => 0
  | .right, room => room
  | .center, room => room / 2

def blanks (count : Nat) : String :=
  String.ofList (List.replicate count ' ')

/-- The text in a column of `width` characters; a longer text is not cut. -/
def pad (align : Align) (width : Nat) (text : String) : String :=
  let room := width - text.length
  let before := align.before room
  blanks before ++ text ++ blanks (room - before)

/-- The first `most` characters of a text, or all of it where there is no bound. -/
def cut (most : Option Nat) (text : String) : String :=
  match most with
  | none => text
  | some count => String.ofList (text.toList.take count)

end ScriptToCpp.Text
