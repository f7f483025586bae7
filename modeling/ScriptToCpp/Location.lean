/-! Places in a text. Lines and columns are counted from one, in characters; a line break belongs to
the line that it ends. -/
namespace ScriptToCpp

structure Location where
  line : Nat
  column : Nat
  deriving DecidableEq

namespace Location

/-- Where every text starts. -/
def start : Location := ⟨1, 1⟩

/-- The place behind a character that stands at `here`. -/
def after (here : Location) (c : Char) : Location :=
  if c = '\n' then ⟨here.line + 1, 1⟩ else ⟨here.line, here.column + 1⟩

/-- The place behind a run of characters that starts at `here`. -/
def afterAll (here : Location) (passed : List Char) : Location :=
  passed.foldl after here

@[simp] theorem afterAll_nil (here : Location) : here.afterAll [] = here := rfl

@[simp] theorem afterAll_cons (here : Location) (c : Char) (cs : List Char) :
    here.afterAll (c :: cs) = (here.after c).afterAll cs := rfl

theorem afterAll_append (here : Location) (first second : List Char) :
    here.afterAll (first ++ second) = (here.afterAll first).afterAll second :=
  List.foldl_append

end Location
end ScriptToCpp
