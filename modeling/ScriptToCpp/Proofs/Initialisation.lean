import ScriptToCpp.Proofs.Generated

/-! Where a script uses a name. In a script that reads no input, a whole declaration of the name
stands before each use, with the end of its line, unless the use stands in the very value that the
name is declared with. -/
namespace ScriptToCpp

/-- Among the tokens stands a whole declaration of the name, with the end of its line. -/
def DeclaredInFull (tokens : List Token) (name : String) : Prop :=
  ∃ front value line back, tokens = front ++ (line ++ back) ∧
    (Script.Statement.declare name value).SpellsAlone line

/-- The tokens end in the line of a declaration of the name, behind the equals sign. -/
def BeingDeclared (tokens : List Token) (name : String) : Prop :=
  ∃ (front : List Token) (word fresh equals : Token) (value : List Token),
    tokens = front ++ word :: fresh :: equals :: value ∧ word.kind = .declare ∧
    fresh.kind = .identifier ∧ fresh.text = name ∧ equals.kind = .eq ∧
    ∀ token ∈ value, token.kind ≠ .newline

/-- The kinds of the tokens in expressions and conditions. -/
def Kind.calculates (kind : Kind) : Bool :=
  kind = .number || kind = .identifier || kind.isAdditive || kind.isMultiplicative ||
    kind.isComparison

theorem Kind.introduces_cases {kind : Kind} (introduces : kind.introduces) :
    kind = .declare ∨ kind = .input := by
  cases kind <;> simp_all [Kind.introduces]

namespace Script

/-- All tokens that spell something are such as are found in expressions and conditions. -/
def Calculated {α : Type} (spells : α → List Token → Prop) : Prop :=
  ∀ x tokens, spells x tokens → ∀ token ∈ tokens, token.kind.calculates

theorem Operand.Spells.calculated {operand : Operand} {token : Token}
    (spelled : operand.Spells token) : token.kind.calculates := by
  cases spelled with
  | number kind => rw [kind]; rfl
  | named kind => rw [kind]; rfl

theorem Factor.calculated : Calculated Factor.Spells := by
  intro factor tokens spelled token member
  cases spelled with
  | plain operand =>
    cases List.mem_singleton.mp member
    exact operand.calculated
  | @signed _ sign mark last marked operand =>
    rcases List.mem_cons.mp member with rfl | later
    · have additive := sign.property
      rw [← marked.kind] at additive
      simp [Kind.calculates, additive]
    · cases List.mem_singleton.mp later
      exact operand.calculated

theorem Chain.calculated {joins : Kind → Bool} {α : Type} {spells : α → List Token → Prop}
    (operators : ∀ kind, joins kind → kind.calculates) (item : Calculated spells) :
    Calculated (Chain.Spells spells : Chain joins α → List Token → Prop) := by
  intro chain tokens spelled token member
  cases spelled with
  | mk first continues =>
    rcases List.mem_append.mp member with within | behind
    · exact item _ _ first token within
    · clear member
      induction continues with
      | nil => contradiction
      | @cons operator x others mark word more marked spelled _ ih =>
        rcases List.mem_cons.mp behind with rfl | later
        · rw [marked.kind]
          exact operators _ operator.property
        · rcases List.mem_append.mp later with within | rest
          · exact item _ _ spelled token within
          · exact ih rest

theorem Expression.calculated : Calculated Expression.Spells :=
  Chain.calculated (fun _ joins => by simp [Kind.calculates, joins])
    (Chain.calculated (fun _ joins => by simp [Kind.calculates, joins]) Factor.calculated)

theorem Condition.calculated : Calculated Condition.Spells :=
  fun condition =>
    Chain.calculated (fun _ joins => by simp [Kind.calculates, joins]) Expression.calculated
      condition.toChain

/-- Each `declare` among the tokens starts a whole declaration. -/
def WholeDeclarations (tokens : List Token) : Prop :=
  ∀ front word rest, tokens = front ++ word :: rest → word.kind = .declare →
    ∃ name value line back, word :: rest = line ++ back ∧
      (Statement.declare name value).SpellsAlone line

namespace WholeDeclarations
variable {first second tokens : List Token}

theorem append (left : WholeDeclarations first) (right : WholeDeclarations second) :
    WholeDeclarations (first ++ second) := by
  intro front word rest same kind
  rcases append_split same with ⟨middle, here, rfl⟩ | ⟨middle, rfl, here⟩
  · obtain ⟨name, value, line, back, whole, spelled⟩ := left front word middle here kind
    refine ⟨name, value, line, back ++ second, ?_, spelled⟩
    rw [← List.append_assoc, ← whole, List.cons_append]
  · exact right middle word rest here kind

theorem without (none : ∀ token ∈ tokens, token.kind ≠ .declare) : WholeDeclarations tokens := by
  rintro front word rest rfl kind
  exact absurd kind (none word (by simp))

theorem word {token : Token} {kind : Kind} (same : token.kind = kind) (other : kind ≠ .declare) :
    WholeDeclarations [token] := by
  apply without
  intro token member
  cases List.mem_singleton.mp member
  rwa [same]

theorem calculated (calculates : ∀ token ∈ tokens, token.kind.calculates) :
    WholeDeclarations tokens := by
  apply without
  intro token member kind
  have calculates := calculates token member
  rw [kind] at calculates
  contradiction

theorem newlines (newlines : ∀ token ∈ tokens, token.kind = .newline) :
    WholeDeclarations tokens := by
  apply without
  intro token member kind
  rw [newlines token member] at kind
  contradiction

/-- A value with the end of its line. -/
theorem valued {value : Expression} {breaks : List Token} (given : Expression.Spells value tokens)
    (broken : Breaks breaks) : WholeDeclarations (tokens ++ breaks) :=
  (calculated (Expression.calculated _ _ given)).append (newlines broken.newlines)

end WholeDeclarations

theorem Breaks.ended {breaks : List Token} (broken : Breaks breaks) :
    ∃ token ∈ breaks, token.kind = .newline := by
  cases breaks with
  | nil => exact absurd rfl broken.1
  | cons token rest => exact ⟨token, List.mem_cons_self, broken.newlines token List.mem_cons_self⟩

/-- A statement ends with its line. -/
theorem Statement.SpellsAlone.ended {statement : Statement} {tokens : List Token}
    (spelled : statement.SpellsAlone tokens) : ∃ token ∈ tokens, token.kind = .newline := by
  cases spelled <;>
  · obtain ⟨token, member, newline⟩ := Breaks.ended ‹_›
    exact ⟨token, by simp [member], newline⟩

theorem Statement.SpellsAlone.wholeDeclarations {statement : Statement} {tokens : List Token}
    (spelled : statement.SpellsAlone tokens) : WholeDeclarations tokens := by
  cases spelled with
  | printText word text broken =>
    exact (WholeDeclarations.word word nofun).append
      ((WholeDeclarations.word text nofun).append (.newlines broken.newlines))
  | print word value broken =>
    exact (WholeDeclarations.word word nofun).append (.valued value broken)
  | @declare word name equals value _ _ kind identifier sign given broken =>
    -- Only the first token is a `declare`, and it starts this very statement.
    have line := (WholeDeclarations.word identifier nofun).append
      ((WholeDeclarations.word sign nofun).append (.valued given broken))
    intro front found rest same declares
    cases front with
    | nil =>
      refine ⟨name.text, value, _, [], ?_, .declare kind identifier sign given broken⟩
      rw [List.append_nil, same]
      rfl
    | cons token front =>
      obtain ⟨_, same⟩ := List.cons.inj same
      exact line front found rest same declares
  | assign name equals value broken =>
    exact (WholeDeclarations.word name nofun).append
      ((WholeDeclarations.word equals nofun).append (.valued value broken))
  | input word name broken =>
    exact (WholeDeclarations.word word nofun).append
      ((WholeDeclarations.word name nofun).append (.newlines broken.newlines))

theorem Statement.Spell.wholeDeclarations {statements : List Statement} {tokens : List Token}
    (spelled : Statement.Spell statements tokens) : WholeDeclarations tokens := by
  induction spelled with
  | nil => exact .without nofun
  | alone alone _ ih => exact alone.wholeDeclarations.append ih
  | @block form _ _ _ word _ _ _ _ _ _ _ opens condition opening inner _ closing outer _ ihBody
      ih =>
    have other : form.kind ≠ .declare := by cases form <;> nofun
    have compared := WholeDeclarations.calculated (Condition.calculated _ _ condition)
    have behind := (WholeDeclarations.word closing nofun).append
      ((WholeDeclarations.newlines outer.newlines).append ih)
    have body := (WholeDeclarations.newlines inner.newlines).append (ihBody.append behind)
    exact (WholeDeclarations.word opens other).append
      (compared.append ((WholeDeclarations.word opening nofun).append body))

theorem Spells.wholeDeclarations {statements : List Statement} {tokens : List Token}
    (spelled : Spells statements tokens) : WholeDeclarations tokens := by
  cases spelled with
  | mk newlines spelled last =>
    exact (WholeDeclarations.newlines newlines).append
      (spelled.wholeDeclarations.append (.word last nofun))

/-- A declaration before a name has ended, or the name stands in the value that is declared. -/
theorem WholeDeclarations.declared {tokens front back after : List Token}
    {word fresh token : Token} (whole : WholeDeclarations tokens)
    (same : tokens = front ++ word :: fresh :: (back ++ token :: after))
    (kind : word.kind = .declare) (identifier : token.kind = .identifier) :
    DeclaredInFull (front ++ word :: fresh :: back) fresh.text ∨
      BeingDeclared (front ++ word :: fresh :: back) fresh.text := by
  obtain ⟨name, value, line, rest, split, spelled⟩ := whole front word _ same kind
  cases spelled with
  | @declare _ _ equals _ given breaks _ fresh' sign calculated broken =>
    rw [List.cons_append, List.cons_append, List.cons_append, List.cons.injEq, List.cons.injEq,
      List.append_assoc] at split
    obtain ⟨rfl, rfl, split⟩ := split
    cases back with
    | nil =>
      obtain ⟨rfl, _⟩ := List.cons.inj split
      rw [sign] at identifier
      contradiction
    | cons mark back =>
      obtain ⟨rfl, behind⟩ := List.cons.inj split
      rcases append_split behind.symm with ⟨middle, rfl, _⟩ | ⟨middle, rfl, later⟩
      · -- The token belongs to the value, of which the tokens before it are the beginning.
        refine .inr ⟨front, word, fresh, mark, back, rfl, kind, fresh', rfl, sign, ?_⟩
        intro other member newline
        have calculates := Expression.calculated _ _ calculated other (by simp [member])
        rw [newline] at calculates
        contradiction
      · rcases append_split later with ⟨ended, rfl, _⟩ | ⟨ended, rfl, _⟩
        · have newline := broken.newlines token (by simp)
          rw [identifier] at newline
          contradiction
        · refine .inl ⟨front, value, _, ended, ?_, .declare kind fresh' sign calculated broken⟩
          simp only [List.cons_append, List.append_assoc]

end Script

/-- In a script that reads no input, a name that is not new has been declared before, in a whole
line, or is being declared: then it stands in the value that it is declared with. -/
theorem declaredInFull_or_beingDeclared {source output : String} {tokens : List Token}
    (compiled : compile source = .ok output) (read : tokenize source = .ok tokens)
    (silent : ∀ token ∈ tokens, token.kind ≠ .input) {before after : List Token} {token : Token}
    (same : tokens = before ++ token :: after) (identifier : token.kind = .identifier)
    (used : ¬ AwaitsName before) :
    DeclaredInFull before token.text ∨ BeingDeclared before token.text := by
  obtain ⟨tokens', statements, read', spelled, declared, _⟩ := compile_generates compiled
  cases Except.ok.inj (read.symm.trans read')
  rw [← spelled.scan, ← declaredBeforeUse_iff] at declared
  obtain ⟨front, word, fresh, back, rfl, introduces, _, name⟩ :=
    declared before token after same identifier used
  have kind : word.kind = .declare := by
    refine (Kind.introduces_cases introduces).resolve_right ?_
    exact silent word (by simp [same])
  have place : tokens = front ++ word :: fresh :: (back ++ token :: after) := by
    simpa using same
  rw [← name]
  exact spelled.wholeDeclarations.declared place kind identifier

theorem own_value_used :
    compile "declare x=x" = .ok
      ("#include<iostream>\nusing namespace std;\n\nint main() \x7b\n\n" ++
        "    double x = x;\n\n    return 0;\n\x7d\n") ∧
    ∃ (before : List Token) (token : Token) (after : List Token),
      tokenize "declare x=x" = .ok (before ++ token :: after) ∧
      token.kind = .identifier ∧ ¬ AwaitsName before ∧ ¬ DeclaredInFull before token.text ∧
      BeingDeclared before token.text := by
  have compiled : compile "declare x=x" = .ok
      ("#include<iostream>\nusing namespace std;\n\nint main() \x7b\n\n" ++
        "    double x = x;\n\n    return 0;\n\x7d\n") := by
    cbv
  have read : tokenize "declare x=x" = .ok
      [⟨.declare, "declare", ⟨1, 1⟩⟩, ⟨.identifier, "x", ⟨1, 9⟩⟩, ⟨.eq, "=", ⟨1, 10⟩⟩,
        ⟨.identifier, "x", ⟨1, 11⟩⟩, ⟨.newline, "\n", ⟨1, 12⟩⟩, ⟨.eof, "", ⟨2, 1⟩⟩] := by
    cbv
  have used : ¬ AwaitsName
      [⟨.declare, "declare", ⟨1, 1⟩⟩, ⟨.identifier, "x", ⟨1, 9⟩⟩, ⟨.eq, "=", ⟨1, 10⟩⟩] := by
    have split := @awaitsName_concat
      [⟨.declare, "declare", ⟨1, 1⟩⟩, ⟨.identifier, "x", ⟨1, 9⟩⟩] ⟨.eq, "=", ⟨1, 10⟩⟩
    exact fun awaits => absurd (split.mp awaits) (by decide)
  have unfinished : ¬ DeclaredInFull
      [⟨.declare, "declare", ⟨1, 1⟩⟩, ⟨.identifier, "x", ⟨1, 9⟩⟩, ⟨.eq, "=", ⟨1, 10⟩⟩] "x" := by
    rintro ⟨front, value, line, back, same, spelled⟩
    obtain ⟨token, member, newline⟩ := spelled.ended
    have within : token ∈ front ++ (line ++ back) := by simp [member]
    rw [← same] at within
    simp only [List.mem_cons, List.not_mem_nil, or_false] at within
    rcases within with rfl | rfl | rfl <;> contradiction
  have cases := declaredInFull_or_beingDeclared compiled read (by decide) rfl rfl used
  exact ⟨compiled, _, _, _, read, rfl, used, unfinished, cases.resolve_left unfinished⟩

end ScriptToCpp
