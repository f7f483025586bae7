import ScriptToCpp.Proofs.ScriptTree

/-! Every list of tokens that the grammar allows spells a tree. The tree follows the derivation; its
operators are known from the kinds of the tokens, which is enough where each token has the spelling
of its kind. -/
namespace ScriptToCpp.Script

/-- Each token has the spelling of its kind. -/
def Spelled (tokens : List Token) : Prop :=
  ∀ token ∈ tokens, Regular token.kind token.text

/-- All tokens whose kinds make up a phrase spell something. -/
def Parsed {α : Type} (phrase : List Kind → Prop) (spells : α → List Token → Prop) : Prop :=
  ∀ tokens, Spelled tokens → phrase (tokens.map Token.kind) → ∃ x, spells x tokens

theorem Spelled.append {front back : List Token} (spelled : Spelled (front ++ back)) :
    Spelled front ∧ Spelled back := by
  simpa [Spelled, or_imp, forall_and] using spelled

theorem Spelled.cons {token : Token} {rest : List Token} (spelled : Spelled (token :: rest)) :
    Regular token.kind token.text ∧ Spelled rest := by
  simpa [Spelled] using spelled

theorem Operator.spells_of_regular {joins : Kind → Bool} {operator : Operator joins}
    {token : Token} (kind : token.kind = operator.val)
    (single : ∀ kind, joins kind → ∃ text, kind.spelling? = some text)
    (regular : Regular token.kind token.text) : operator.Spells token := by
  obtain ⟨text, spelling⟩ := single operator.val operator.property
  refine ⟨kind, ?_⟩
  rw [Operator.text, spelling, regular text (by rw [kind, spelling])]
  rfl

theorem Operand.parsed {tokens : List Token} (primary : Grammar.Primary (tokens.map Token.kind)) :
    ∃ operand token, tokens = [token] ∧ Operand.Spells operand token := by
  generalize same : tokens.map Token.kind = kinds at primary
  cases primary with
  | number =>
    obtain ⟨token, rfl, kind⟩ := List.map_eq_singleton_iff.mp same
    exact ⟨.number token.text, token, rfl, .number kind⟩
  | identifier =>
    obtain ⟨token, rfl, kind⟩ := List.map_eq_singleton_iff.mp same
    exact ⟨.named token.text, token, rfl, .named kind⟩

/-- Operators have one spelling. -/
theorem operator_spelling {kind : Kind}
    (operator : kind.isAdditive ∨ kind.isMultiplicative ∨ kind.isComparison) :
    ∃ text, kind.spelling? = some text := by
  cases kind <;>
    simp_all [Kind.isAdditive, Kind.isMultiplicative, Kind.isComparison, Kind.spelling?]

theorem Factor.parsed : Parsed Grammar.Unary Factor.Spells := by
  intro tokens spelled unary
  generalize same : tokens.map Token.kind = kinds at unary
  cases unary with
  | plain primary =>
    subst same
    obtain ⟨operand, token, rfl, spells⟩ := Operand.parsed primary
    exact ⟨⟨none, operand⟩, .plain spells⟩
  | @signed sign _ additive primary =>
    obtain ⟨mark, rest, rfl, rfl, rfl⟩ := List.map_eq_cons_iff.mp same
    obtain ⟨operand, token, rfl, spells⟩ := Operand.parsed primary
    have marked : Operator.Spells (⟨mark.kind, additive⟩ : Operator Kind.isAdditive) mark :=
      Operator.spells_of_regular rfl (fun _ joins => operator_spelling (.inl joins)) spelled.cons.1
    exact ⟨⟨some ⟨mark.kind, additive⟩, operand⟩, .signed marked spells⟩

theorem Chain.parsed {joins : Kind → Bool} {α : Type} {phrase : List Kind → Prop}
    {spells : α → List Token → Prop}
    (single : ∀ kind, joins kind → ∃ text, kind.spelling? = some text)
    (item : Parsed phrase spells) :
    Parsed (Grammar.Joined joins phrase)
      (Chain.Spells spells : Chain joins α → List Token → Prop) := by
  intro tokens spelled joined
  generalize same : tokens.map Token.kind = kinds at joined
  induction joined generalizing tokens with
  | one word =>
    subst same
    obtain ⟨x, first⟩ := item tokens spelled word
    exact ⟨⟨x, []⟩, by simpa using Chain.Spells.mk first .nil⟩
  | @more _ _ sign word joined _ ih =>
    obtain ⟨front, back, rfl, rfl, tail⟩ := List.map_eq_append_iff.mp same
    obtain ⟨token, rest, rfl, rfl, others⟩ := List.map_eq_cons_iff.mp tail
    obtain ⟨frontSpelled, backSpelled⟩ := spelled.append
    obtain ⟨regular, restSpelled⟩ := backSpelled.cons
    obtain ⟨x, first⟩ := item front frontSpelled word
    obtain ⟨⟨y, pairs⟩, continues⟩ := ih rest restSpelled others
    cases continues with
    | mk second more =>
      have marked : Operator.Spells (⟨token.kind, joined⟩ : Operator joins) token :=
        Operator.spells_of_regular rfl single regular
      exact ⟨⟨x, (⟨token.kind, joined⟩, y) :: pairs⟩, .mk first (.cons marked second more)⟩

theorem Term.parsed : Parsed Grammar.Term Term.Spells :=
  Chain.parsed (fun _ joins => operator_spelling (.inr (.inl joins))) Factor.parsed

theorem Expression.parsed : Parsed Grammar.Expression Expression.Spells :=
  Chain.parsed (fun _ joins => operator_spelling (.inl joins)) Term.parsed

theorem Condition.parsed : Parsed Grammar.Comparison Condition.Spells := by
  intro tokens spelled comparison
  generalize same : tokens.map Token.kind = kinds at comparison
  cases comparison with
  | @mk _ _ sign left joins right =>
    obtain ⟨front, back, rfl, rfl, tail⟩ := List.map_eq_append_iff.mp same
    obtain ⟨token, rest, rfl, rfl, rfl⟩ := List.map_eq_cons_iff.mp tail
    obtain ⟨frontSpelled, backSpelled⟩ := spelled.append
    obtain ⟨regular, restSpelled⟩ := backSpelled.cons
    have single : ∀ kind : Kind, kind.isComparison → ∃ text, kind.spelling? = some text :=
      fun _ joins => operator_spelling (.inr (.inr joins))
    obtain ⟨x, first⟩ := Expression.parsed front frontSpelled left
    obtain ⟨⟨y, pairs⟩, continues⟩ := Chain.parsed single Expression.parsed rest restSpelled right
    cases continues with
    | mk second more =>
      have marked : Operator.Spells (⟨token.kind, joins⟩ : Operator Kind.isComparison) token :=
        Operator.spells_of_regular rfl single regular
      exact ⟨⟨⟨x, (⟨token.kind, joins⟩, y) :: pairs⟩, by simp⟩,
        .mk first (.cons marked second more)⟩

theorem BlockForm.of_opens {word : Kind} (opens : word.opensBlock) :
    ∃ form : BlockForm, word = form.kind := by
  unfold Kind.opensBlock at opens
  split at opens
  · exact ⟨.ifBlock, rfl⟩
  · exact ⟨.whileBlock, rfl⟩
  · contradiction

mutual

/-- A statement may stand before others. -/
theorem Statement.parsed_one {word : List Kind} : Grammar.Statement word →
    ∀ tokens, Spelled tokens → tokens.map Token.kind = word →
      ∃ statement, ∀ rest more, Statement.Spell rest more →
        Statement.Spell (statement :: rest) (tokens ++ more)
  | .printText broken, tokens, spelled, same => by
    obtain ⟨word, tail, rfl, kind, tailKinds⟩ := List.map_eq_cons_iff.mp same
    obtain ⟨text, breaks, rfl, textKind, rfl⟩ := List.map_eq_cons_iff.mp tailKinds
    exact ⟨.printText text.text, fun rest more others =>
      .alone (.printText kind textKind broken) others⟩
  | .print value broken, tokens, spelled, same => by
    obtain ⟨word, tail, rfl, kind, tailKinds⟩ := List.map_eq_cons_iff.mp same
    obtain ⟨front, breaks, rfl, rfl, rfl⟩ := List.map_eq_append_iff.mp tailKinds
    obtain ⟨expression, spells⟩ := Expression.parsed front spelled.cons.2.append.1 value
    exact ⟨.print expression, fun rest more others => .alone (.print kind spells broken) others⟩
  | .declare value broken, tokens, spelled, same => by
    obtain ⟨word, tail, rfl, kind, tailKinds⟩ := List.map_eq_cons_iff.mp same
    obtain ⟨name, tail, rfl, nameKind, tailKinds⟩ := List.map_eq_cons_iff.mp tailKinds
    obtain ⟨equals, tail, rfl, equalsKind, tailKinds⟩ := List.map_eq_cons_iff.mp tailKinds
    obtain ⟨front, breaks, rfl, rfl, rfl⟩ := List.map_eq_append_iff.mp tailKinds
    obtain ⟨expression, spells⟩ :=
      Expression.parsed front spelled.cons.2.cons.2.cons.2.append.1 value
    exact ⟨.declare name.text expression, fun rest more others =>
      .alone (.declare kind nameKind equalsKind spells broken) others⟩
  | .assign value broken, tokens, spelled, same => by
    obtain ⟨name, tail, rfl, nameKind, tailKinds⟩ := List.map_eq_cons_iff.mp same
    obtain ⟨equals, tail, rfl, equalsKind, tailKinds⟩ := List.map_eq_cons_iff.mp tailKinds
    obtain ⟨front, breaks, rfl, rfl, rfl⟩ := List.map_eq_append_iff.mp tailKinds
    obtain ⟨expression, spells⟩ := Expression.parsed front spelled.cons.2.cons.2.append.1 value
    exact ⟨.assign name.text expression, fun rest more others =>
      .alone (.assign nameKind equalsKind spells broken) others⟩
  | .input broken, tokens, spelled, same => by
    obtain ⟨word, tail, rfl, kind, tailKinds⟩ := List.map_eq_cons_iff.mp same
    obtain ⟨name, breaks, rfl, nameKind, rfl⟩ := List.map_eq_cons_iff.mp tailKinds
    exact ⟨.input name.text, fun rest more others =>
      .alone (.input kind nameKind broken) others⟩
  | .block opens condition inner body outer, tokens, spelled, same => by
    obtain ⟨word, tail, rfl, kind, tailKinds⟩ := List.map_eq_cons_iff.mp same
    obtain ⟨front, tail, rfl, rfl, blockKinds⟩ := List.map_eq_append_iff.mp tailKinds
    obtain ⟨opening, tail, rfl, openingKind, innerKinds⟩ := List.map_eq_cons_iff.mp blockKinds
    obtain ⟨breaks, tail, rfl, rfl, linesKinds⟩ := List.map_eq_append_iff.mp innerKinds
    obtain ⟨within, tail, rfl, bodyKinds, endKinds⟩ := List.map_eq_append_iff.mp linesKinds
    obtain ⟨closing, ending, rfl, closingKind, rfl⟩ := List.map_eq_cons_iff.mp endKinds
    obtain ⟨frontSpelled, tailSpelled⟩ := spelled.cons.2.append
    have withinSpelled := tailSpelled.cons.2.append.2.append.1
    obtain ⟨compared, spells⟩ := Condition.parsed front frontSpelled condition
    obtain ⟨statements, bodySpells⟩ := Statement.parsed_all body within withinSpelled bodyKinds
    obtain ⟨form, formKind⟩ := BlockForm.of_opens opens
    refine ⟨.block form compared statements, fun rest more others => ?_⟩
    simpa using Statement.Spell.block (kind.trans formKind) spells openingKind inner bodySpells
      closingKind outer others

theorem Statement.parsed_all {word : List Kind} : Grammar.Statements word →
    ∀ tokens, Spelled tokens → tokens.map Token.kind = word →
      ∃ statements, Statement.Spell statements tokens
  | .nil, tokens, _, same => by
    rw [List.map_eq_nil_iff.mp same]
    exact ⟨[], .nil⟩
  | .cons first others, tokens, spelled, same => by
    obtain ⟨front, back, rfl, frontKinds, backKinds⟩ := List.map_eq_append_iff.mp same
    obtain ⟨frontSpelled, backSpelled⟩ := spelled.append
    obtain ⟨statement, build⟩ := Statement.parsed_one first front frontSpelled frontKinds
    obtain ⟨rest, spells⟩ := Statement.parsed_all others back backSpelled backKinds
    exact ⟨statement :: rest, build rest back spells⟩

end

theorem parsed : Parsed Grammar.Program Spells := by
  intro tokens spelled program
  generalize same : tokens.map Token.kind = kinds at program
  cases program with
  | mk newlines statements =>
    obtain ⟨breaks, tail, rfl, rfl, tailKinds⟩ := List.map_eq_append_iff.mp same
    obtain ⟨within, ending, rfl, bodyKinds, endKinds⟩ := List.map_eq_append_iff.mp tailKinds
    obtain ⟨last, rfl, lastKind⟩ := List.map_eq_singleton_iff.mp endKinds
    obtain ⟨trees, spells⟩ :=
      Statement.parsed_all statements within spelled.append.2.append.1 bodyKinds
    refine ⟨trees, .mk ?_ spells lastKind⟩
    intro token member
    exact newlines _ (List.mem_map_of_mem member)

end ScriptToCpp.Script
