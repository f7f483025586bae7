import ScriptToCpp.Proofs.Rendering

/-! The expressions of a script, at whatever depth: each is spelled somewhere among its tokens, and
written somewhere in its program. -/
namespace ScriptToCpp.Script

def Condition.expressions (condition : Condition) : List Expression :=
  condition.first :: condition.rest.map Prod.snd

mutual

/-- The expressions of a statement, those of its condition and its body included. -/
def Statement.expressions : Statement → List Expression
  | .print value | .declare _ value | .assign _ value => [value]
  | .block _ condition body => condition.expressions ++ Statement.expressionsAll body
  | .printText _ | .input _ => []

def Statement.expressionsAll : List Statement → List Expression
  | [] => []
  | statement :: rest => statement.expressions ++ Statement.expressionsAll rest

end

/-- The expression is spelled somewhere among the tokens. -/
def Expression.SpelledIn (value : Expression) (tokens : List Token) : Prop :=
  ∃ word, word <:+: tokens ∧ Expression.Spells value word

namespace Expression.SpelledIn
variable {value : Expression} {tokens : List Token}

theorem behind (spelled : SpelledIn value tokens) (before : List Token) :
    SpelledIn value (before ++ tokens) := by
  obtain ⟨word, ⟨front, rest, rfl⟩, spells⟩ := spelled
  exact ⟨word, ⟨before ++ front, rest, by simp only [List.append_assoc]⟩, spells⟩

theorem before (spelled : SpelledIn value tokens) (behind : List Token) :
    SpelledIn value (tokens ++ behind) := by
  obtain ⟨word, ⟨front, rest, rfl⟩, spells⟩ := spelled
  exact ⟨word, ⟨front, rest ++ behind, by simp only [List.append_assoc]⟩, spells⟩

end Expression.SpelledIn

theorem Expression.Spells.within {value : Expression} {tokens : List Token}
    (spelled : Expression.Spells value tokens) (before behind : List Token) :
    Expression.SpelledIn value (before ++ (tokens ++ behind)) :=
  ⟨tokens, ⟨before, behind, List.append_assoc _ _ _⟩, spelled⟩

theorem Chain.spelledIn {joins : Kind → Bool} {chain : Chain joins Expression} {tokens : List Token}
    (spelled : Chain.Spells Expression.Spells chain tokens) :
    ∀ value ∈ chain.first :: chain.rest.map Prod.snd, Expression.SpelledIn value tokens := by
  cases spelled with
  | mk first continues =>
    refine List.forall_mem_cons.mpr ⟨Expression.Spells.within first [] _, fun value member =>
      .behind ?_ _⟩
    induction continues with
    | nil => contradiction
    | @cons _ _ _ token word _ _ spelled _ ih =>
      rcases List.mem_cons.mp member with rfl | later
      · exact Expression.Spells.within spelled [token] _
      · exact (ih later).behind (token :: word)

theorem Statement.spelledIn_alone {statement : Statement} {tokens : List Token}
    (spelled : statement.SpellsAlone tokens) :
    ∀ value ∈ statement.expressions, Expression.SpelledIn value tokens := by
  cases spelled with
  | printText | input => exact nofun
  | @print word _ _ _ _ spelled =>
    exact List.forall_mem_singleton.mpr (Expression.Spells.within spelled [word] _)
  | @declare word name equals _ _ _ _ _ _ spelled =>
    exact List.forall_mem_singleton.mpr (Expression.Spells.within spelled [word, name, equals] _)
  | @assign name equals _ _ _ _ _ spelled =>
    exact List.forall_mem_singleton.mpr (Expression.Spells.within spelled [name, equals] _)

theorem Statement.spelledIn {statements : List Statement} {tokens : List Token}
    (spelled : Statement.Spell statements tokens) :
    ∀ value ∈ Statement.expressionsAll statements, Expression.SpelledIn value tokens := by
  induction spelled with
  | nil => exact nofun
  | alone alone _ ih =>
    intro value member
    rcases List.mem_append.mp member with here | later
    · exact (Statement.spelledIn_alone alone value here).before _
    · exact (ih value later).behind _
  | @block _ _ _ _ word opening closing _ inner _ outer _ _ condition _ _ _ _ _ _ ihBody ih =>
    intro value member
    rcases List.mem_append.mp member with here | later
    · rcases List.mem_append.mp here with compared | within
      · exact ((Chain.spelledIn condition value compared).before _).behind [word]
      · exact ((((((ihBody value within).before _).behind inner).behind [opening]).behind _).behind
          [word])
    · exact (((((((ih value later).behind outer).behind [closing]).behind _).behind inner).behind
        [opening]).behind _).behind [word]

theorem Spells.spelledIn {statements : List Statement} {tokens : List Token}
    (spelled : Spells statements tokens) :
    ∀ value ∈ Statement.expressionsAll statements, Expression.SpelledIn value tokens := by
  cases spelled with
  | mk _ spelled _ =>
    exact fun value member => ((Statement.spelledIn spelled value member).before _).behind _

/-- The expression is written somewhere in the text. -/
def Expression.WrittenIn (value : Expression) (text : String) : Prop :=
  ∃ before behind, text = before ++ Expression.render value ++ behind

namespace Expression.WrittenIn
variable {value : Expression} {text : String}

theorem behind (written : WrittenIn value text) (before : String) :
    WrittenIn value (before ++ text) := by
  obtain ⟨front, rest, rfl⟩ := written
  exact ⟨before ++ front, rest, by simp only [String.append_assoc]⟩

theorem before (written : WrittenIn value text) (behind : String) :
    WrittenIn value (text ++ behind) := by
  obtain ⟨front, rest, rfl⟩ := written
  exact ⟨front, rest ++ behind, by simp only [String.append_assoc]⟩

end Expression.WrittenIn

theorem Chain.writtenIn {joins : Kind → Bool} (chain : Chain joins Expression) :
    ∀ value ∈ chain.first :: chain.rest.map Prod.snd,
      Expression.WrittenIn value (chain.render Expression.render) := by
  obtain ⟨first, rest⟩ := chain
  refine List.forall_mem_cons.mpr ⟨⟨"", _, by rw [String.empty_append]; rfl⟩, fun value member =>
    .behind ?_ _⟩
  induction rest with
  | nil => contradiction
  | cons next rest ih =>
    rw [List.map_cons, String.join_cons]
    rcases List.mem_cons.mp member with rfl | later
    · exact ⟨_, _, rfl⟩
    · exact (ih later).behind _

mutual

theorem Statement.writtenIn (statement : Statement) (seen : List String) (level : Nat) :
    ∀ value ∈ statement.expressions, Expression.WrittenIn value (statement.render seen level) := by
  cases statement with
  | printText | input => exact nofun
  | print | declare | assign => exact List.forall_mem_singleton.mpr ⟨_, _, rfl⟩
  | block form condition body =>
    intro value member
    rw [render]
    rcases List.mem_append.mp member with compared | within
    · exact (((((Chain.writtenIn condition.toChain value compared).behind _).before _).before
        _).before _).before _
    · exact (((Statement.writtenIn_all body seen (level + 1) value within).behind _).before
        _).before _

theorem Statement.writtenIn_all (statements : List Statement) (seen : List String) (level : Nat) :
    ∀ value ∈ Statement.expressionsAll statements,
      Expression.WrittenIn value (Statement.renderAll seen level statements) := by
  cases statements with
  | nil => exact nofun
  | cons statement rest =>
    intro value member
    rw [renderAll]
    rcases List.mem_append.mp member with here | later
    · exact (Statement.writtenIn statement seen level value here).before _
    · exact (Statement.writtenIn_all rest _ level value later).behind _

end

theorem writtenIn_render (statements : List Statement) :
    ∀ value ∈ Statement.expressionsAll statements, Expression.WrittenIn value (render statements) :=
  fun value member => ((Statement.writtenIn_all statements [] 1 value member).behind _).before _

end ScriptToCpp.Script
