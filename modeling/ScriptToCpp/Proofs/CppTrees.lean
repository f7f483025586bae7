import Mathlib.Data.List.Chain
import ScriptToCpp.Proofs.CppTokens
import ScriptToCpp.Proofs.Keywords

/-! Arithmetic in C++17 as trees. Operators before a value bind tighter than those that join two
values, these are ranked, and those of one rank group to the left. Some operators are written as
words. That each list of tokens has one tree at most is seen from where operators stand: what joins
two values follows an operand, and what is applied to one value does not. Parentheses, members,
increments, conditions, assignments and the forms that are led by a keyword do not come into it. -/
namespace ScriptToCpp.Cpp

inductive Arithmetic where
  | operand (token : String)
  | unary (operator : String) (value : Arithmetic)
  | binary (operator : String) (left right : Arithmetic)
  deriving DecidableEq

/-- The operators that stand before a value. -/
def unaryOperators : List String :=
  ["+", "-", "*", "&", "bitand", "!", "not", "~", "compl"]

/-- The operators that join two values, those that bind tightest first. -/
def binaryOperators : List (List String) :=
  [["*", "/", "%"], ["+", "-"], ["<<", ">>"], ["<", ">", "<=", ">="], ["==", "!=", "not_eq"],
    ["&", "bitand"], ["^", "xor"], ["|", "bitor"], ["&&", "and"], ["||", "or"]]

/-- A number, or a word that C++ does not keep for itself. Keywords that are values, as those for
the truth values are, do not come into it. -/
def IsOperand (token : String) : Prop :=
  IsNumber token.toList ∨ IsWord token.toList ∧ token ∉ keywords ++ operatorWords

inductive Unary : List String → Arithmetic → Prop where
  | operand {token : String} : IsOperand token → Unary [token] (.operand token)
  | applied {operator : String} {tokens : List String} {value : Arithmetic} :
      operator ∈ unaryOperators → Unary tokens value →
      Unary (operator :: tokens) (.unary operator value)

/-- Items that are joined from left to right. -/
inductive LeftJoined (operators : List String) (item : List String → Arithmetic → Prop) :
    List String → Arithmetic → Prop where
  | single {tokens : List String} {value : Arithmetic} :
      item tokens value → LeftJoined operators item tokens value
  | join {operator : String} {before behind : List String} {left right : Arithmetic} :
      LeftJoined operators item before left → operator ∈ operators → item behind right →
      LeftJoined operators item (before ++ operator :: behind) (.binary operator left right)

/-- Items that are joined by operators of several ranks. -/
def Ranked (item : List String → Arithmetic → Prop) :
    List (List String) → List String → Arithmetic → Prop
  | [] => item
  | operators :: looser => Ranked (LeftJoined operators item) looser

/-- The tree of an arithmetic text. -/
def Parses (text : List Char) (value : Arithmetic) : Prop :=
  ∃ pieces, Splits text pieces ∧ Ranked Unary binaryOperators pieces value

/-- Neither an operator is an operand, nor a claimed word that scripts can spell. -/
theorem notOperand : ∀ token ∈ unaryOperators ++ binaryOperators.flatten ++ overlooked,
    ¬ IsOperand token := by
  have claimed : ∀ token ∈ unaryOperators ++ binaryOperators.flatten ++ overlooked,
      token.toList.all isWordPart → token ∈ keywords ++ operatorWords := by
    decide +kernel
  have started : ∀ token ∈ unaryOperators ++ binaryOperators.flatten ++ overlooked,
      token.toList.head?.all (fun c => c.isDigit = false ∧ c ≠ '.') := by
    decide +kernel
  rintro token member (number | ⟨word, free⟩)
  · obtain ⟨c, rest, same, start⟩ := number.head
    have other := started token member
    rw [same] at other
    obtain ⟨notDigit, notPoint⟩ := of_decide_eq_true other
    rcases start with digit | point
    · exact absurd digit (Bool.eq_false_iff.mp notDigit)
    · exact notPoint point
  · exact free (claimed token member (List.all_eq_true.mpr word.2.2))

theorem unary_notOperand {operator : String} (applied : operator ∈ unaryOperators) :
    ¬ IsOperand operator :=
  notOperand operator (List.mem_append_left _ (List.mem_append_left _ applied))

/-- The operands of a tree, as they stand in the text. -/
def Arithmetic.operands : Arithmetic → List String
  | operand token => [token]
  | unary _ value => value.operands
  | binary _ left right => left.operands ++ right.operands

/-- The second token does not join values, where the first is one. -/
def Apart (operators : List String) (token next : String) : Prop :=
  IsOperand token → next ∉ operators

theorem Apart.weaken {operators fewer : List String} {token next : String}
    (apart : Apart operators token next) (subset : fewer ⊆ operators) : Apart fewer token next :=
  fun operand within => apart operand (subset within)

def EndsInOperand (tokens : List String) : Prop :=
  ∃ token ∈ tokens.getLast?, IsOperand token

/-- Items whose joining is unambiguous: each has one tree, which is made of operands, ends in an
operand, and has no operator of the joining sort behind an operand. -/
structure Joinable (operators : List String) (item : List String → Arithmetic → Prop) : Prop where
  unique : ∀ {tokens value other}, item tokens value → item tokens other → value = other
  operands : ∀ {tokens value}, item tokens value → ∀ token ∈ value.operands, IsOperand token
  ends : ∀ {tokens value}, item tokens value → EndsInOperand tokens
  inner : ∀ {tokens value}, item tokens value → tokens.IsChain (Apart operators)

section
variable {operators : List String} {item : List String → Arithmetic → Prop}

theorem Joinable.weaken {fewer : List String} (items : Joinable operators item)
    (subset : fewer ⊆ operators) : Joinable fewer item :=
  ⟨items.unique, items.operands, items.ends,
    fun single => (items.inner single).imp fun _ _ apart => apart.weaken subset⟩

/-- Behind an operator, an item is passed as a whole: no other operator of the sort follows on an
operand of the item. -/
theorem EndsInOperand.not_inside {before middle rest : List String} {first second : String}
    (ends : EndsInOperand (before ++ first :: middle)) (mark : ¬ IsOperand first)
    (inner : (middle ++ second :: rest).IsChain (Apart operators)) : second ∉ operators := by
  obtain ⟨token, last, operand⟩ := ends
  cases middle with
  | nil =>
    rw [List.getLast?_concat] at last
    cases last
    contradiction
  | cons x middle =>
    rw [List.getLast?_append_of_ne_nil _ (List.cons_ne_nil _ _),
      List.getLast?_cons_cons] at last
    exact (List.isChain_append.mp inner).2.2 token last second rfl operand

theorem operator_unique (marks : ∀ operator ∈ operators, ¬ IsOperand operator)
    {before behind before' behind' : List String} {operator operator' : String}
    (joins : operator ∈ operators) (joins' : operator' ∈ operators)
    (ends : EndsInOperand before) (ends' : EndsInOperand before')
    (inner : behind.IsChain (Apart operators)) (inner' : behind'.IsChain (Apart operators))
    (same : before ++ operator :: behind = before' ++ operator' :: behind') :
    before = before' ∧ operator = operator' ∧ behind = behind' := by
  rcases append_split same with ⟨middle, rfl, rfl⟩ | ⟨middle, rfl, rest⟩
  · exact absurd joins (ends.not_inside (marks operator' joins') inner')
  · cases middle with
    | nil =>
      cases rest
      exact ⟨(List.append_nil _).symm, rfl, rfl⟩
    | cons x middle =>
      obtain ⟨rfl, rfl⟩ := List.cons.inj rest
      exact absurd joins' (ends'.not_inside (marks operator joins) inner)

theorem LeftJoined.ends (items : Joinable operators item) {tokens : List String}
    {value : Arithmetic} (joined : LeftJoined operators item tokens value) :
    EndsInOperand tokens := by
  cases joined with
  | single single => exact items.ends single
  | @join _ _ behind _ _ _ _ right =>
    obtain ⟨token, last, operand⟩ := items.ends right
    have more : behind ≠ [] := by
      rintro rfl
      contradiction
    refine ⟨token, ?_, operand⟩
    rw [List.getLast?_append_of_ne_nil _ (List.cons_ne_nil _ _),
      List.getLast?_cons_of_ne_nil more]
    exact last

theorem LeftJoined.unique (marks : ∀ operator ∈ operators, ¬ IsOperand operator)
    (items : Joinable operators item) {tokens : List String} {value other : Arithmetic}
    (joined : LeftJoined operators item tokens value)
    (joined' : LeftJoined operators item tokens other) : value = other := by
  -- A single item cannot be cut, and items that are joined can be cut before the last one alone.
  have single : ∀ {operator before behind left value}, LeftJoined operators item before left →
      operator ∈ operators → ¬ item (before ++ operator :: behind) value := by
    intro operator before behind left value joined joins whole
    obtain ⟨token, last, operand⟩ := joined.ends items
    exact (List.isChain_append.mp (items.inner whole)).2.2 token last operator rfl operand joins
  induction joined generalizing other with
  | single item =>
    cases joined' with
    | single item' => exact items.unique item item'
    | join before joins behind => exact absurd item (single before joins)
  | @join operator before behind left right first joins last ih =>
    generalize same : before ++ operator :: behind = tokens at joined'
    cases joined' with
    | single item' => exact absurd (same ▸ item') (single first joins)
    | join first' joins' last' =>
      obtain ⟨rfl, rfl, rfl⟩ := operator_unique marks joins joins' (first.ends items)
        (first'.ends items) (items.inner last) (items.inner last') same
      rw [ih first', items.unique last last']

/-- Joining adds no operators but its own behind operands. -/
theorem LeftJoined.inner {others : List String}
    (marks : ∀ operator ∈ operators, ¬ IsOperand operator)
    (different : operators.Disjoint others)
    (inner : ∀ {tokens value}, item tokens value → tokens.IsChain (Apart others))
    {tokens : List String} {value : Arithmetic}
    (joined : LeftJoined operators item tokens value) : tokens.IsChain (Apart others) := by
  induction joined with
  | single single => exact inner single
  | join _ joins right ih =>
    refine List.isChain_append.mpr ⟨ih, ?_, ?_⟩
    · exact List.isChain_cons.mpr
        ⟨fun _ _ operand => absurd operand (marks _ joins), inner right⟩
    · rintro token _ _ ⟨⟩ _
      exact different joins

/-- Items that are joined can be joined further, by other operators. -/
theorem Joinable.join {others : List String} (marks : ∀ operator ∈ operators, ¬ IsOperand operator)
    (different : operators.Disjoint others) (items : Joinable (operators ++ others) item) :
    Joinable others (LeftJoined operators item) := by
  have own : Joinable operators item := items.weaken (List.subset_append_left _ _)
  have further : Joinable others item := items.weaken (List.subset_append_right _ _)
  constructor
  · exact fun joined => joined.unique marks own
  · intro tokens value joined
    induction joined with
    | single single => exact items.operands single
    | join _ _ right ih => exact List.forall_mem_append.mpr ⟨ih, items.operands right⟩
  · exact fun joined => joined.ends own
  · exact fun joined => joined.inner marks different further.inner

/-- With operators of several ranks, an operator must not be in two of them. -/
theorem Joinable.ranked {levels : List (List String)} (different : levels.flatten.Nodup)
    (marks : ∀ operator ∈ levels.flatten, ¬ IsOperand operator)
    (items : Joinable levels.flatten item) : Joinable [] (Ranked item levels) := by
  induction levels generalizing item with
  | nil => exact items
  | cons operators looser ih =>
    rw [List.flatten_cons] at different marks items
    obtain ⟨here, later⟩ := List.forall_mem_append.mp marks
    exact ih different.of_append_right later
      (items.join here (List.disjoint_of_nodup_append different))

theorem Ranked.of_item {tokens : List String} {value : Arithmetic} (single : item tokens value)
    (levels : List (List String)) : Ranked item levels tokens value := by
  induction levels generalizing item with
  | nil => exact single
  | cons operators looser ih => exact ih (.single single)

end

theorem Unary.nonempty {tokens : List String} {value : Arithmetic} (unary : Unary tokens value) :
    tokens ≠ [] := by
  cases unary <;> exact List.cons_ne_nil _ _

/-- Before a value stand operators, and no operands. -/
theorem unary_joinable (operators : List String) : Joinable operators Unary where
  unique {tokens value other} unary unary' := by
    induction unary generalizing other with
    | operand operand =>
      cases unary' with
      | operand => rfl
      | applied applied => exact absurd operand (unary_notOperand applied)
    | applied applied _ ih =>
      cases unary' with
      | operand operand => exact absurd operand (unary_notOperand applied)
      | applied _ unary => rw [ih unary]
  operands {tokens value} unary := by
    induction unary with
    | operand operand => exact List.forall_mem_singleton.mpr operand
    | applied _ _ ih => exact ih
  ends {tokens value} unary := by
    induction unary with
    | operand operand => exact ⟨_, rfl, operand⟩
    | applied _ unary ih =>
      obtain ⟨token, last, operand⟩ := ih
      refine ⟨token, ?_, operand⟩
      rw [List.getLast?_cons_of_ne_nil unary.nonempty]
      exact last
  inner {tokens value} unary := by
    induction unary with
    | operand => exact .singleton _
    | applied applied _ ih =>
      exact List.isChain_cons.mpr
        ⟨fun _ _ operand => absurd operand (unary_notOperand applied), ih⟩

theorem binary_joinable : Joinable [] (Ranked Unary binaryOperators) := by
  have marks : ∀ operator ∈ binaryOperators.flatten, ¬ IsOperand operator := fun operator member =>
    notOperand operator (List.mem_append_left _ (List.mem_append_right _ member))
  exact (unary_joinable _).ranked (by decide) marks

/-- A text has one tree at most, where it is cut in one way. -/
theorem Parses.unique {text : List Char} {pieces : List String}
    (splits : ∀ other, Splits text other ↔ other = pieces) {value other : Arithmetic}
    (parses : Parses text value) (parses' : Parses text other) : value = other := by
  obtain ⟨_, cut, ranked⟩ := parses
  obtain ⟨_, cut', ranked'⟩ := parses'
  cases (splits _).mp cut
  cases (splits _).mp cut'
  exact binary_joinable.unique ranked ranked'

/-- An overlooked word is no value in a tree. -/
theorem Parses.notOverlooked {text : List Char} {value : Arithmetic} (parses : Parses text value) :
    ∀ token ∈ value.operands, token ∉ overlooked := by
  obtain ⟨_, _, ranked⟩ := parses
  exact fun token member missed =>
    notOperand token (List.mem_append_right _ missed) (binary_joinable.operands ranked token member)

end ScriptToCpp.Cpp
