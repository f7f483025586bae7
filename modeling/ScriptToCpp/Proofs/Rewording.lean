import ScriptToCpp.Proofs.Generated

/-! Scripts with other names, or with other contents of strings. The grammar looks at neither, so
that tokens with changed texts spell the tree in which the same texts are changed. -/
namespace ScriptToCpp

/-- The text of a token of some kind, once names and the contents of strings are changed. -/
def Kind.reword (naming wording : String → String) : Kind → String → String
  | identifier => naming
  | string => wording
  | _ => id

/-- The same token at some place, with another text if it is a name or a string. -/
structure Token.Reworded (naming wording : String → String) (token other : Token) : Prop where
  kind : other.kind = token.kind
  text : other.text = token.kind.reword naming wording token.text

instance (naming wording : String → String) : DecidableRel (Token.Reworded naming wording) :=
  fun token other =>
    decidable_of_iff
      (other.kind = token.kind ∧ other.text = token.kind.reword naming wording token.text)
      ⟨fun ⟨kind, text⟩ => ⟨kind, text⟩, fun ⟨kind, text⟩ => ⟨kind, text⟩⟩

/-- Neither a name nor a string. -/
def Kind.isFixed : Kind → Bool
  | identifier | string => false
  | _ => true

theorem Kind.reword_fixed {kind : Kind} (fixed : kind.isFixed) (naming wording : String → String)
    (text : String) : kind.reword naming wording text = text := by
  cases kind with
  | identifier | string => contradiction
  | _ => rfl

theorem Kind.operator_fixed {kind : Kind}
    (operator : kind.isAdditive ∨ kind.isMultiplicative ∨ kind.isComparison) : kind.isFixed := by
  cases kind <;> simp_all [isAdditive, isMultiplicative, isComparison, isFixed]

/-- Lists that are related item by item are related on both sides of a cut. -/
theorem forall₂_append_split {α β : Type} {related : α → β → Prop} {first second : List α}
    {others : List β} (all : List.Forall₂ related (first ++ second) others) :
    ∃ front back, others = front ++ back ∧ List.Forall₂ related first front ∧
      List.Forall₂ related second back := by
  have flipped := all.flip
  exact ⟨others.take first.length, others.drop first.length, (List.take_append_drop _ _).symm,
    (List.forall₂_take_append _ _ _ flipped).flip, (List.forall₂_drop_append _ _ _ flipped).flip⟩

section
variable {naming wording : String → String}

theorem Token.Reworded.fixed {token other : Token} (reworded : token.Reworded naming wording other)
    (fixed : token.kind.isFixed) : other.text = token.text :=
  reworded.text.trans (Kind.reword_fixed fixed _ _ _)

theorem Token.Reworded.name {token other : Token} (reworded : token.Reworded naming wording other)
    (identifier : token.kind = .identifier) : other.text = naming token.text := by
  rw [reworded.text, identifier]
  rfl

theorem Token.Reworded.content {token other : Token}
    (reworded : token.Reworded naming wording other) (string : token.kind = .string) :
    other.text = wording token.text := by
  rw [reworded.text, string]
  rfl

theorem reworded_kinds {tokens others : List Token}
    (reworded : List.Forall₂ (Token.Reworded naming wording) tokens others) :
    others.map Token.kind = tokens.map Token.kind := by
  induction reworded with
  | nil => rfl
  | cons first _ ih => rw [List.map_cons, List.map_cons, first.kind, ih]

def Mention.rename (naming : String → String) : Mention → Mention
  | introduces name => introduces (naming name)
  | uses name => uses (naming name)

theorem scan_reworded {tokens others : List Token}
    (reworded : List.Forall₂ (Token.Reworded naming wording) tokens others) (awaited : Bool) :
    scan awaited others = (scan awaited tokens).map (.rename naming) := by
  induction reworded generalizing awaited with
  | nil => rfl
  | @cons token other _ _ first _ ih =>
    have here : other.mentions awaited = (token.mentions awaited).map (.rename naming) := by
      unfold Token.mentions
      rw [first.kind]
      split
      next identifier =>
        rw [first.name identifier]
        cases awaited <;> rfl
      next => rfl
    rw [scan, scan, List.map_append, here, first.kind, ih]

end

namespace Script

def Operand.rename (naming : String → String) : Operand → Operand
  | number text => number text
  | named name => named (naming name)

def Factor.rename (naming : String → String) (factor : Factor) : Factor :=
  { factor with operand := factor.operand.rename naming }

/-- The chain with other items. -/
def Chain.map {joins : Kind → Bool} {α : Type} (change : α → α) (chain : Chain joins α) :
    Chain joins α :=
  ⟨change chain.first, chain.rest.map (Prod.map id change)⟩

def Term.rename (naming : String → String) : Term → Term :=
  Chain.map (Factor.rename naming)

def Expression.rename (naming : String → String) : Expression → Expression :=
  Chain.map (Term.rename naming)

def Condition.rename (naming : String → String) (condition : Condition) : Condition :=
  ⟨condition.toChain.map (Expression.rename naming), by
    simpa only [Chain.map, ne_eq, List.map_eq_nil_iff] using condition.compares⟩

mutual

/-- The statement with other names and other texts to print. -/
def Statement.reword (naming wording : String → String) : Statement → Statement
  | .printText text => .printText (wording text)
  | .print value => .print (Expression.rename naming value)
  | .block form condition body =>
    .block form (condition.rename naming) (Statement.rewordAll naming wording body)
  | .declare name value => .declare (naming name) (Expression.rename naming value)
  | .assign name value => .assign (naming name) (Expression.rename naming value)
  | .input name => .input (naming name)

def Statement.rewordAll (naming wording : String → String) : List Statement → List Statement
  | [] => []
  | statement :: rest => statement.reword naming wording :: Statement.rewordAll naming wording rest

end

mutual

theorem Statement.introduced_reword (naming wording : String → String) (statement : Statement) :
    (statement.reword naming wording).introduced = statement.introduced.map naming := by
  cases statement with
  | block form condition body => exact Statement.introducedAll_rewordAll naming wording body
  | _ => rfl

theorem Statement.introducedAll_rewordAll (naming wording : String → String)
    (statements : List Statement) :
    Statement.introducedAll (Statement.rewordAll naming wording statements) =
      (Statement.introducedAll statements).map naming := by
  cases statements with
  | nil => rfl
  | cons statement rest =>
    rw [rewordAll, introducedAll, introducedAll, List.map_append,
      Statement.introduced_reword naming wording statement,
      Statement.introducedAll_rewordAll naming wording rest]

end

section
variable (naming wording : String → String)

/-- What some tokens spell is changed as they are. -/
def Carried {α : Type} (spells : α → List Token → Prop) (change : α → α) : Prop :=
  ∀ x tokens others, spells x tokens → List.Forall₂ (Token.Reworded naming wording) tokens others →
    spells (change x) others

variable {naming wording}

theorem Operand.Spells.reworded {operand : Operand} {token other : Token}
    (spelled : operand.Spells token) (reworded : token.Reworded naming wording other) :
    (operand.rename naming).Spells other := by
  cases spelled with
  | number kind =>
    rw [Operand.rename, ← reworded.fixed (by rw [kind]; rfl)]
    exact .number (reworded.kind.trans kind)
  | named kind =>
    rw [Operand.rename, ← reworded.name kind]
    exact .named (reworded.kind.trans kind)

theorem Operator.Spells.reworded {joins : Kind → Bool} {operator : Operator joins}
    {token other : Token} (fixed : operator.val.isFixed) (spelled : operator.Spells token)
    (reworded : token.Reworded naming wording other) :
    operator.Spells other := by
  refine ⟨reworded.kind.trans spelled.kind, ?_⟩
  rw [reworded.fixed (by rw [spelled.kind]; exact fixed), spelled.text]

theorem Factor.carried : Carried naming wording Factor.Spells (Factor.rename naming) := by
  intro factor tokens others spelled reworded
  cases spelled with
  | plain operand =>
    obtain _ | ⟨first, _ | _⟩ := reworded
    exact .plain (operand.reworded first)
  | @signed _ sign _ _ marked operand =>
    obtain _ | ⟨first, _ | ⟨second, _ | _⟩⟩ := reworded
    have fixed := Kind.operator_fixed (.inl sign.property)
    exact .signed (marked.reworded fixed first) (operand.reworded second)

theorem Chain.carried {joins : Kind → Bool} {α : Type} {spells : α → List Token → Prop}
    {change : α → α} (fixed : ∀ kind, joins kind → kind.isFixed)
    (item : Carried naming wording spells change) :
    Carried naming wording (Chain.Spells spells : Chain joins α → List Token → Prop)
      (Chain.map change) := by
  intro chain tokens others spelled reworded
  cases spelled with
  | mk first continues =>
    obtain ⟨front, back, rfl, before, behind⟩ := forall₂_append_split reworded
    refine .mk (item _ _ _ first before) ?_
    clear before reworded
    induction continues generalizing back with
    | nil =>
      cases behind
      exact .nil
    | @cons operator _ _ _ _ _ marked spelled _ ih =>
      obtain _ | ⟨mark, rest⟩ := behind
      obtain ⟨_, _, rfl, within, later⟩ := forall₂_append_split rest
      exact .cons (marked.reworded (fixed _ operator.property) mark) (item _ _ _ spelled within)
        (ih _ later)

theorem Expression.carried :
    Carried naming wording Expression.Spells (Expression.rename naming) :=
  Chain.carried (fun _ additive => Kind.operator_fixed (.inl additive))
    (Chain.carried (fun _ joins => Kind.operator_fixed (.inr (.inl joins))) Factor.carried)

theorem Condition.carried : Carried naming wording Condition.Spells (Condition.rename naming) :=
  fun condition =>
    Chain.carried (fun _ joins => Kind.operator_fixed (.inr (.inr joins))) Expression.carried
      condition.toChain

theorem Breaks.reworded {breaks others : List Token} (broken : Breaks breaks)
    (reworded : List.Forall₂ (Token.Reworded naming wording) breaks others) : Breaks others := by
  rw [Breaks, reworded_kinds reworded]
  exact broken

theorem Statement.carried_alone :
    Carried naming wording Statement.SpellsAlone (Statement.reword naming wording) := by
  intro statement tokens others spelled reworded
  cases spelled with
  | printText word text broken =>
    obtain _ | ⟨first, _ | ⟨second, rest⟩⟩ := reworded
    rw [reword, ← second.content text]
    exact .printText (first.kind.trans word) (second.kind.trans text) (broken.reworded rest)
  | print word value broken =>
    obtain _ | ⟨first, rest⟩ := reworded
    obtain ⟨_, _, rfl, within, behind⟩ := forall₂_append_split rest
    exact .print (first.kind.trans word) (Expression.carried _ _ _ value within)
      (broken.reworded behind)
  | declare word name equals value broken =>
    obtain _ | ⟨first, _ | ⟨second, _ | ⟨third, rest⟩⟩⟩ := reworded
    obtain ⟨_, _, rfl, within, behind⟩ := forall₂_append_split rest
    rw [reword, ← second.name name]
    exact .declare (first.kind.trans word) (second.kind.trans name) (third.kind.trans equals)
      (Expression.carried _ _ _ value within) (broken.reworded behind)
  | assign name equals value broken =>
    obtain _ | ⟨first, _ | ⟨second, rest⟩⟩ := reworded
    obtain ⟨_, _, rfl, within, behind⟩ := forall₂_append_split rest
    rw [reword, ← first.name name]
    exact .assign (first.kind.trans name) (second.kind.trans equals)
      (Expression.carried _ _ _ value within) (broken.reworded behind)
  | input word name broken =>
    obtain _ | ⟨first, _ | ⟨second, rest⟩⟩ := reworded
    rw [reword, ← second.name name]
    exact .input (first.kind.trans word) (second.kind.trans name) (broken.reworded rest)

theorem Statement.carried :
    Carried naming wording Statement.Spell (Statement.rewordAll naming wording) := by
  intro statements tokens others spelled reworded
  induction spelled generalizing others with
  | nil =>
    cases reworded
    exact .nil
  | alone alone _ ih =>
    obtain ⟨_, _, rfl, within, behind⟩ := forall₂_append_split reworded
    exact .alone (Statement.carried_alone _ _ _ alone within) (ih _ behind)
  | block opens condition opening inner _ closing outer _ ihBody ih =>
    -- The phrases of a block, from its word to its last line break.
    obtain _ | ⟨first, rest⟩ := reworded
    obtain ⟨_, _, rfl, compared, _ | ⟨second, lines⟩⟩ := forall₂_append_split rest
    obtain ⟨_, _, rfl, ended, lines⟩ := forall₂_append_split lines
    obtain ⟨_, _, rfl, within, _ | ⟨third, others⟩⟩ := forall₂_append_split lines
    obtain ⟨_, _, rfl, ended', behind⟩ := forall₂_append_split others
    exact .block (first.kind.trans opens) (Condition.carried _ _ _ condition compared)
      (second.kind.trans opening) (inner.reworded ended) (ihBody _ within)
      (third.kind.trans closing) (outer.reworded ended') (ih _ behind)

/-- Tokens with other names and other contents of strings spell the tree with these. -/
theorem Spells.reworded {statements : List Statement} {tokens others : List Token}
    (spelled : Spells statements tokens)
    (reworded : List.Forall₂ (Token.Reworded naming wording) tokens others) :
    Spells (Statement.rewordAll naming wording statements) others := by
  cases spelled with
  | mk newlines spelled last =>
    obtain ⟨front, _, rfl, before, rest⟩ := forall₂_append_split reworded
    obtain ⟨_, _, rfl, within, _ | ⟨ended, _ | _⟩⟩ := forall₂_append_split rest
    refine .mk ?_ (Statement.carried _ _ _ spelled within) (ended.kind.trans last)
    intro token member
    have kind : token.kind ∈ front.map Token.kind := List.mem_map_of_mem member
    rw [reworded_kinds before] at kind
    obtain ⟨original, inside, same⟩ := List.mem_map.mp kind
    exact same.symm.trans (newlines original inside)

end
end Script

/-- The second list holds the new name just if the first holds the old one. -/
def NamesAgree (naming : String → String) (names others : List String) : Prop :=
  ∀ name, IsName name → (naming name ∈ others ↔ name ∈ names)

section
variable {naming wording : String → String} {names others : List String}

theorem NamesAgree.nil : NamesAgree naming [] [] := by
  simp [NamesAgree]

theorem NamesAgree.insert (agree : NamesAgree naming names others)
    (distinct : Set.InjOn naming {name | IsName name}) {name : String} (isName : IsName name) :
    NamesAgree naming (names.insert name) (others.insert (naming name)) := by
  intro other isName'
  rw [List.mem_insert_iff, List.mem_insert_iff, distinct.eq_iff isName' isName, agree other isName']

theorem NamesAgree.append (agree : NamesAgree naming names others)
    (distinct : Set.InjOn naming {name | IsName name}) {more : List String}
    (areNames : ∀ name ∈ more, IsName name) :
    NamesAgree naming (names ++ more) (others ++ more.map naming) := by
  intro name isName
  rw [List.mem_append, List.mem_append, agree name isName, List.mem_map]
  refine or_congr_right ⟨?_, fun member => ⟨name, member, rfl⟩⟩
  rintro ⟨other, member, same⟩
  rwa [← distinct (areNames other member) isName same]

/-- Declaration before use is kept. -/
theorem Mention.scoped_rename (distinct : Set.InjOn naming {name | IsName name})
    {mentions : List Mention} (named : ∀ mention ∈ mentions, IsName mention.name)
    (agree : NamesAgree naming names others) :
    Scoped others (mentions.map (.rename naming)) ↔ Scoped names mentions := by
  induction mentions generalizing names others with
  | nil => exact Iff.rfl
  | cons mention rest ih =>
    obtain ⟨here, later⟩ := List.forall_mem_cons.mp named
    cases mention with
    | introduces name => exact ih later (agree.insert distinct here)
    | uses name => exact and_congr (agree name here) (ih later agree)

/-- The names that occur among some tokens. -/
def occurring (tokens : List Token) : Set String :=
  {name | ∃ token ∈ tokens, token.kind = .identifier ∧ token.text = name}

theorem tokenize_occurring {source : String} {tokens : List Token}
    (read : tokenize source = .ok tokens) : ∀ name ∈ occurring tokens, IsName name := by
  rintro _ ⟨token, member, identifier, rfl⟩
  exact tokenize_names read token member identifier

theorem isScript_reworded {tokens others : List Token}
    (distinct : Set.InjOn naming {name | IsName name})
    (named : ∀ name ∈ occurring tokens, IsName name)
    (reworded : List.Forall₂ (Token.Reworded naming wording) tokens others) :
    IsScript others ↔ IsScript tokens := by
  have mentioned : ∀ mention ∈ scan false tokens, IsName mention.name := by
    intro mention member
    exact named _ (scan_names member)
  rw [IsScript, IsScript, reworded_kinds reworded, declaredBeforeUse_iff, declaredBeforeUse_iff,
    scan_reworded reworded, Mention.scoped_rename distinct mentioned .nil]

end

theorem Script.Spells.declared {statements : List Script.Statement} {tokens : List Token}
    (spelled : Script.Spells statements tokens) (script : IsScript tokens) :
    Mention.Scoped [] (Script.Statement.mentionsAll statements) := by
  rw [← spelled.scan, ← declaredBeforeUse_iff]
  exact script.2

/-- A text that can be read is compiled just if its tokens make up a script. -/
theorem compiled_iff_isScript {source : String} {tokens : List Token}
    (read : tokenize source = .ok tokens) :
    (∃ output, compile source = .ok output) ↔ IsScript tokens := by
  constructor
  · rintro ⟨output, compiled⟩
    obtain ⟨tokens', statements, read', spelled, declared, _⟩ := compile_tree compiled
    cases Except.ok.inj (read.symm.trans read')
    exact (spelled.accepts declared).isScript
  · intro script
    obtain ⟨statements, spelled, declared⟩ := script.tree (tokenize_regular read)
    exact ⟨_, spelled.compiles declared read⟩

end ScriptToCpp
