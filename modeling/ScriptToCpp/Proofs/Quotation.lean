import Mathlib.Data.List.Basic

/-! Literals and brackets of a program, as a pass over its characters finds them. The pass knows
nothing of the language but quotes: each one starts a literal or ends it. -/
namespace ScriptToCpp.Cpp

/-- What a pass has found so far: the characters outside of literals, the literals, and the one that
is not ended yet. -/
structure Quotation where
  outside : List Char
  literals : List String
  unfinished : Option (List Char)
  deriving DecidableEq

def Quotation.step (found : Quotation) (c : Char) : Quotation :=
  match found.unfinished with
  | none =>
    if c = '"' then { found with unfinished := some [] }
    else { found with outside := found.outside ++ [c] }
  | some content =>
    if c = '"' then
      { found with literals := found.literals ++ [String.ofList content], unfinished := none }
    else { found with unfinished := some (content ++ [c]) }

/-- What a pass over a whole text finds. -/
def quotation (text : String) : Quotation :=
  text.toList.foldl Quotation.step ⟨[], [], none⟩

/-- The brackets that are due after a character, the next one first. There are none if one is
closed that is not open. -/
def closing (due : Option (List Char)) (c : Char) : Option (List Char) :=
  match due with
  | none => none
  | some due =>
    if c = '(' then some (')' :: due)
    else if c = '\x7b' then some ('\x7d' :: due)
    else if c = ')' ∨ c = '\x7d' then
      match due with
      | [] => none
      | next :: outer => if c = next then some outer else none
    else some due

/-- Parentheses and braces are closed in the order that their nesting demands, and all of them. -/
def WellBracketed (text : List Char) : Prop :=
  text.foldl closing (some []) = some []

instance (text : List Char) : Decidable (WellBracketed text) :=
  inferInstanceAs (Decidable (_ = _))

/-- A pass that is outside of literals before the text is so behind it, and has found these. -/
def Quotes (text outside : List Char) (literals : List String) : Prop :=
  ∀ before known, text.foldl Quotation.step ⟨before, known, none⟩ =
    ⟨before ++ outside, known ++ literals, none⟩

namespace Quotes
variable {text more outside further : List Char} {literals others : List String}

theorem append (first : Quotes text outside literals) (second : Quotes more further others) :
    Quotes (text ++ more) (outside ++ further) (literals ++ others) := by
  intro before known
  rw [List.foldl_append, first, second, List.append_assoc, List.append_assoc]

theorem plain (noQuote : '"' ∉ text) : Quotes text text [] := by
  induction text with
  | nil =>
    intro before known
    simp
  | cons c rest ih =>
    rw [List.mem_cons, not_or] at noQuote
    intro before known
    have here : Quotation.step ⟨before, known, none⟩ c = ⟨before ++ [c], known, none⟩ :=
      if_neg (Ne.symm noQuote.1)
    rw [List.foldl_cons, here, ih noQuote.2, List.append_assoc, List.singleton_append]

theorem unfinished {content : List Char} (noQuote : '"' ∉ content) (found : Quotation)
    {start : List Char} (opened : found.unfinished = some start) :
    content.foldl Quotation.step found = { found with unfinished := some (start ++ content) } := by
  induction content generalizing found start with
  | nil => simp [← opened]
  | cons c rest ih =>
    rw [List.mem_cons, not_or] at noQuote
    have here : found.step c = { found with unfinished := some (start ++ [c]) } := by
      rw [Quotation.step, opened]
      exact if_neg (Ne.symm noQuote.1)
    rw [List.foldl_cons, here, ih noQuote.2 _ rfl, List.append_assoc, List.singleton_append]

theorem literal {content : List Char} (noQuote : '"' ∉ content) :
    Quotes ('"' :: (content ++ ['"'])) [] [String.ofList content] := by
  intro before known
  have opened : Quotation.step ⟨before, known, none⟩ '"' = ⟨before, known, some []⟩ := rfl
  rw [List.foldl_cons, opened, List.foldl_append, unfinished noQuote _ rfl, List.append_nil]
  rfl

end Quotes

/-- The text closes the brackets that are due before it and leaves others due, whatever is due
behind these. -/
def Closes (text due later : List Char) : Prop :=
  ∀ outer, text.foldl closing (some (due ++ outer)) = some (later ++ outer)

namespace Closes
variable {text more due middle later : List Char}

theorem append (first : Closes text due middle) (second : Closes more middle later) :
    Closes (text ++ more) due later := by
  intro outer
  rw [List.foldl_append, first, second]

theorem plain (noBracket : ∀ c ∈ text, c ∉ ['(', ')', '\x7b', '\x7d']) (due : List Char) :
    Closes text due due := by
  induction text with
  | nil => exact fun _ => rfl
  | cons c rest ih =>
    obtain ⟨here, later⟩ := List.forall_mem_cons.mp noBracket
    simp only [List.mem_cons, List.not_mem_nil, or_false, not_or] at here
    intro outer
    have same : closing (some (due ++ outer)) c = some (due ++ outer) := by
      simp [closing, here]
    rw [List.foldl_cons, same, ih later]

end Closes

/-- Text that is neither a bracket nor part of a literal. -/
def Harmless (text : String) : Prop :=
  ∀ c ∈ text.toList, c ∉ ['"', '\\', '(', ')', '\x7b', '\x7d']

instance (text : String) : Decidable (Harmless text) :=
  List.decidableBAll (fun c => c ∉ ['"', '\\', '(', ')', '\x7b', '\x7d']) text.toList

theorem Harmless.empty : Harmless "" := by
  decide

theorem Harmless.append {first second : String} (left : Harmless first) (right : Harmless second) :
    Harmless (first ++ second) := by
  intro c member
  rw [String.toList_append] at member
  rcases List.mem_append.mp member with before | behind
  · exact left c before
  · exact right c behind

/-- The characters of a text that are no quotes. -/
def unquoted (text : String) : List Char :=
  text.toList.filter (· ≠ '"')

theorem unquoted_append (first second : String) :
    unquoted (first ++ second) = unquoted first ++ unquoted second := by
  rw [unquoted, String.toList_append, List.filter_append]
  rfl

theorem unquoted_plain {text : String} (noQuote : '"' ∉ text.toList) :
    unquoted text = text.toList := by
  rw [unquoted, List.filter_eq_self]
  rintro c member
  exact decide_eq_true fun quote => noQuote (quote ▸ member)

/-- The text has these literals, and outside of them it is the frame, in which the literals are
empty. Its brackets close those that are due, and leave others due. -/
structure Frames (text frame : String) (literals : List String) (due later : List Char) :
    Prop where
  quotes : Quotes text.toList (unquoted frame) literals
  brackets : Closes (unquoted frame) due later
  noEscape : '\\' ∉ text.toList

namespace Frames
variable {text frame more further : String} {literals others : List String}
  {due middle later : List Char}

theorem append (first : Frames text frame literals due middle)
    (second : Frames more further others middle later) :
    Frames (text ++ more) (frame ++ further) (literals ++ others) due later := by
  constructor
  · rw [String.toList_append, unquoted_append]
    exact first.quotes.append second.quotes
  · rw [unquoted_append]
    exact first.brackets.append second.brackets
  · rw [String.toList_append, List.mem_append, not_or]
    exact ⟨first.noEscape, second.noEscape⟩

theorem code (plain : '"' ∉ text.toList ∧ '\\' ∉ text.toList)
    (closes : Closes text.toList due later) : Frames text text [] due later := by
  have outside := unquoted_plain plain.1
  constructor
  · rw [outside]
    exact .plain plain.1
  · rw [outside]
    exact closes
  · exact plain.2

theorem harmless (harmless : Harmless text) (due : List Char) : Frames text text [] due due := by
  refine code ⟨fun quote => ?_, fun escape => ?_⟩ (.plain (fun c member => ?_) due)
  · exact harmless _ quote (by simp)
  · exact harmless _ escape (by simp)
  · have free := harmless c member
    simp only [List.mem_cons, List.not_mem_nil, or_false, not_or] at free ⊢
    exact free.2.2

/-- A literal can be any text without quotes and escapes. -/
theorem literal {content : String} (plain : '"' ∉ content.toList ∧ '\\' ∉ content.toList)
    (due : List Char) :
    Frames ("\"" ++ content ++ "\"") ("\"" ++ "" ++ "\"") [content] due due := by
  have chars : ("\"" ++ content ++ "\"").toList = '"' :: (content.toList ++ ['"']) := by
    simp
  have outside : unquoted ("\"" ++ "" ++ "\"") = [] := by decide
  constructor
  · rw [chars, outside]
    have quotes := Quotes.literal plain.1
    rwa [String.ofList_toList] at quotes
  · rw [outside]
    exact fun _ => rfl
  · rw [chars]
    simp [plain.2]

theorem quotation (frames : Frames text frame literals due later) :
    quotation text = ⟨unquoted frame, literals, none⟩ :=
  frames.quotes [] []

theorem wellBracketed (frames : Frames text frame literals [] []) :
    WellBracketed (unquoted frame) :=
  frames.brackets []

end Frames

end ScriptToCpp.Cpp
