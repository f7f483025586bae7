import ScriptToCpp.Proofs.TextRenaming

/-! Names matter only up to renaming. A script whose names are replaced, different ones by different
ones, is compiled if it was before, to the program in which the variables are replaced; and the
variables of both programs correspond one to one, however many of the names are reserved. -/
namespace ScriptToCpp

namespace Script
variable {naming : String → String}

theorem Operand.fragments_rename (operand : Operand) :
    (operand.rename naming).fragments = operand.fragments.map (.rename naming) := by
  cases operand <;> rfl

theorem Factor.fragments_rename (factor : Factor) :
    (factor.rename naming).fragments = factor.fragments.map (.rename naming) := by
  obtain ⟨sign, operand⟩ := factor
  cases sign with
  | none => exact operand.fragments_rename
  | some sign => exact congrArg (_ :: ·) operand.fragments_rename

theorem Chain.fragments_map {joins : Kind → Bool} {α : Type} {item : α → List Cpp.Fragment}
    {change : α → α} (each : ∀ x, item (change x) = (item x).map (.rename naming))
    (chain : Chain joins α) :
    (chain.map change).fragments item = (chain.fragments item).map (.rename naming) := by
  rw [Chain.fragments, Chain.fragments, List.map_append, List.map_flatMap, Chain.map, each,
    List.flatMap_map]
  congr 2
  funext joined
  exact congrArg (_ :: ·) (each joined.2)

theorem Expression.fragments_rename (value : Expression) :
    Expression.fragments (Expression.rename naming value) =
      (Expression.fragments value).map (.rename naming) :=
  Chain.fragments_map (Chain.fragments_map Factor.fragments_rename) value

theorem Condition.fragments_rename (condition : Condition) :
    (condition.rename naming).fragments = condition.fragments.map (.rename naming) :=
  Chain.fragments_map Expression.fragments_rename condition.toChain

mutual

/-- The program of a statement with other names is its program with other names. Whether a variable
is declared there does not change, since different names stay different. -/
theorem Statement.fragments_reword (distinct : Set.InjOn naming {name | IsName name})
    (statement : Statement) (named : ∀ mention ∈ statement.mentions, IsName mention.name)
    {seen others : List String} (agree : NamesAgree naming seen others) (level : Nat) :
    (statement.reword naming id).fragments others level =
      (statement.fragments seen level).map (.rename naming) := by
  cases statement with
  | printText text => rfl
  | print value =>
    rw [reword, fragments, fragments, Expression.fragments_rename, List.map_cons, List.map_append]
    rfl
  | block form condition body =>
    have within : ∀ mention ∈ Statement.mentionsAll body, IsName mention.name :=
      fun mention member => named mention (List.mem_append_right _ member)
    rw [reword, fragments, fragments, condition.fragments_rename,
      Statement.fragmentsAll_rewordAll distinct body within agree]
    simp only [List.map_cons, List.map_append, List.map_nil, Cpp.Fragment.rename]
  | declare name value =>
    have known : naming name ∈ others ↔ name ∈ seen :=
      agree name (named (.introduces name) List.mem_cons_self)
    rw [reword, fragments, fragments, Expression.fragments_rename]
    simp only [known, List.map_cons, List.map_append, List.map_nil, Cpp.Fragment.rename]
    split <;> rfl
  | assign name value =>
    rw [reword, fragments, fragments, Expression.fragments_rename]
    simp only [List.map_cons, List.map_append, List.map_nil, Cpp.Fragment.rename]
  | input name => rfl

theorem Statement.fragmentsAll_rewordAll (distinct : Set.InjOn naming {name | IsName name})
    (statements : List Statement)
    (named : ∀ mention ∈ Statement.mentionsAll statements, IsName mention.name)
    {seen others : List String} (agree : NamesAgree naming seen others) (level : Nat) :
    Statement.fragmentsAll others level (Statement.rewordAll naming id statements) =
      (Statement.fragmentsAll seen level statements).map (.rename naming) := by
  cases statements with
  | nil => rfl
  | cons statement rest =>
    obtain ⟨here, later⟩ := List.forall_mem_append.mp named
    have introduced : ∀ name ∈ statement.introduced, IsName name :=
      fun name member => here (.introduces name) ((statement.introduces_iff name).mpr member)
    rw [rewordAll, fragmentsAll, fragmentsAll, List.map_append, Statement.introduced_reword,
      Statement.fragments_reword distinct statement here agree,
      Statement.fragmentsAll_rewordAll distinct rest later (agree.append distinct introduced)]

end

theorem fragments_rewordAll (distinct : Set.InjOn naming {name | IsName name})
    {statements : List Statement}
    (named : ∀ mention ∈ Statement.mentionsAll statements, IsName mention.name) :
    fragments (Statement.rewordAll naming id statements) =
      (fragments statements).map (.rename naming) := by
  rw [fragments, fragments, Statement.fragmentsAll_rewordAll distinct statements named .nil]
  simp only [List.map_cons, List.map_append, List.map_nil, Cpp.Fragment.rename]

end Script

namespace Cpp

/-- No variable of a program has a reserved name. -/
theorem variableName_notReserved (name : String) : variableName name ∉ reservedNames := by
  have plain : ∀ word ∈ reservedNames, '_' ∉ word.toList := by decide +kernel
  intro reserved
  rcases variableName_cases name with ⟨_, renamed⟩ | ⟨free, kept⟩
  · rw [renamed] at reserved
    exact plain _ reserved (underscore_mem name)
  · rw [kept] at reserved
    exact free reserved

/-- The variable that takes the place of another one once the names of a script are changed: a one
to one correspondence of the variables, where different names have different variables. -/
structure Counterparts (naming : String → String) (names : Set String)
    (counterpart : String → String) : Prop where
  distinct : Set.InjOn variableName names
  agree : ∀ name ∈ names, counterpart (variableName name) = variableName (naming name)
  oneToOne : Set.BijOn counterpart (variableName '' names) (variableName '' (naming '' names))

theorem variableName_injOn : Set.InjOn variableName {name | IsName name} :=
  fun _ first _ second => variableName_injective first second

theorem exists_counterparts {naming : String → String} {names : Set String}
    (distinct : Set.InjOn naming {name | IsName name})
    (areNames : ∀ name, IsName name → IsName (naming name)) (named : ∀ name ∈ names, IsName name) :
    ∃ counterpart, Counterparts naming names counterpart := by
  let counterpart := variableName ∘ naming ∘ Function.invFunOn variableName {name | IsName name}
  have agree : ∀ name ∈ names, counterpart (variableName name) = variableName (naming name) := by
    intro name member
    have original := variableName_injOn.leftInvOn_invFunOn (named name member)
    simp only [counterpart, Function.comp_apply, original]
  -- The counterpart is one to one since the way from a name to its new variable is.
  have apart : Set.InjOn (variableName ∘ naming) names :=
    variableName_injOn.comp (distinct.mono named) fun name member =>
      areNames name (named name member)
  have image : counterpart '' (variableName '' names) = variableName '' (naming '' names) := by
    rw [Set.image_image, Set.image_image]
    exact Set.image_congr agree
  refine ⟨counterpart, variableName_injOn.mono named, agree, ?_⟩
  rw [← image]
  apply Set.InjOn.bijOn_image
  apply Set.InjOn.image_of_comp
  exact apart.congr fun name member => (agree name member).symm

theorem Fragment.rename_rename (naming counterpart : String → String) (fragment : Fragment) :
    (fragment.rename naming).rename counterpart = fragment.rename (counterpart ∘ naming) := by
  cases fragment <;> rfl

theorem Fragment.rename_congr {naming other : String → String} {fragment : Fragment}
    (same : ∀ name, fragment.name? = some name → naming name = other name) :
    fragment.rename naming = fragment.rename other := by
  cases fragment with
  | declares name => exact congrArg declares (same name rfl)
  | mentions name => exact congrArg mentions (same name rfl)
  | _ => rfl

end Cpp

namespace Script
variable {statements : List Statement} {tokens : List Token}

theorem Spells.occurring (spelled : Spells statements tokens) :
    ∀ mention ∈ Statement.mentionsAll statements, mention.name ∈ occurring tokens := by
  intro mention member
  rw [← spelled.scan] at member
  exact scan_names member

/-- The program of a tree with other names is its program with the counterparts of its variables. -/
theorem generated_rewordAll {naming counterpart : String → String}
    (distinct : Set.InjOn naming {name | IsName name})
    (named : ∀ name ∈ ScriptToCpp.occurring tokens, IsName name)
    (counterparts : Cpp.Counterparts naming (ScriptToCpp.occurring tokens) counterpart)
    (spelled : Spells statements tokens) :
    generated (Statement.rewordAll naming id statements) =
      (generated statements).map (.rename counterpart) := by
  have areNames : ∀ mention ∈ Statement.mentionsAll statements, IsName mention.name :=
    fun mention member => named _ (spelled.occurring mention member)
  rw [generated, generated, fragments_rewordAll distinct areNames, List.map_map, List.map_map]
  refine List.map_congr_left fun fragment member => ?_
  rw [Function.comp_apply, Function.comp_apply, Cpp.Fragment.rename_rename,
    Cpp.Fragment.rename_rename]
  refine Cpp.Fragment.rename_congr fun name about => ?_
  obtain ⟨mention, inside, rfl⟩ := named_fragments member about
  exact (counterparts.agree _ (spelled.occurring mention inside)).symm

/-- The variables of the generated program stand for names that occur in the script. -/
theorem generated_variables (spelled : Spells statements tokens) {fragment : Cpp.Fragment}
    (member : fragment ∈ generated statements) {emitted : String}
    (about : fragment.name? = some emitted) :
    ∃ name ∈ ScriptToCpp.occurring tokens, Cpp.variableName name = emitted := by
  obtain ⟨original, within, rfl⟩ := List.mem_map.mp member
  rw [Cpp.Fragment.name?_rename] at about
  obtain ⟨name, mentioned, rfl⟩ := Option.map_eq_some_iff.mp about
  obtain ⟨mention, inside, rfl⟩ := named_fragments within mentioned
  exact ⟨_, spelled.occurring mention inside, rfl⟩

end Script

/-- Names can be replaced throughout a text that can be read, different ones by different ones. A
text that differs in this way only is compiled just if the first one is; then both programs differ
in their variables only, which correspond one to one, and none of them has a reserved name. -/
theorem compile_renaming {source : String} {tokens : List Token} {naming : String → String}
    (read : tokenize source = .ok tokens)
    (areNames : ∀ name, IsName name → IsName (naming name))
    (distinct : Set.InjOn naming {name | IsName name}) :
    (∃ renamed others, tokenize renamed = .ok others ∧
      List.Forall₂ (Token.Reworded naming id) tokens others) ∧
    ∀ renamed others, tokenize renamed = .ok others →
      List.Forall₂ (Token.Reworded naming id) tokens others →
      ((∃ output, compile renamed = .ok output) ↔ ∃ output, compile source = .ok output) ∧
      ∀ output, compile source = .ok output →
        ∃ statements counterpart, Script.Spells statements tokens ∧
          output = Cpp.text (Script.generated statements) ∧
          Cpp.Counterparts naming (occurring tokens) counterpart ∧
          compile renamed =
            .ok (Cpp.text ((Script.generated statements).map (.rename counterpart))) ∧
          ∀ fragment ∈ Script.generated statements, ∀ emitted, fragment.name? = some emitted →
            emitted ∈ Cpp.variableName '' occurring tokens ∧
              emitted ∉ Cpp.reservedNames ∧ counterpart emitted ∉ Cpp.reservedNames := by
  have named := tokenize_occurring read
  refine ⟨tokenize_rename read areNames, fun renamed others read' reworded => ?_⟩
  have accepted : (∃ output, compile renamed = .ok output) ↔
      ∃ output, compile source = .ok output := by
    rw [compiled_iff_isScript read, compiled_iff_isScript read']
    exact isScript_reworded distinct named reworded
  refine ⟨accepted, fun output compiled => ?_⟩
  have script := (compiled_iff_isScript read').mp (accepted.mpr ⟨output, compiled⟩)
  obtain ⟨tokens', statements, read'', spelled, declared, rfl⟩ := compile_generates compiled
  cases Except.ok.inj (read.symm.trans read'')
  obtain ⟨counterpart, counterparts⟩ := Cpp.exists_counterparts distinct areNames named
  refine ⟨statements, counterpart, spelled, rfl, counterparts, ?_, ?_⟩
  · rw [← Script.generated_rewordAll distinct named counterparts spelled]
    have spelled' := spelled.reworded reworded
    exact spelled'.compiles (spelled'.declared script) read'
  · intro fragment member emitted about
    obtain ⟨name, occurs, rfl⟩ := Script.generated_variables spelled member about
    refine ⟨⟨name, occurs, rfl⟩, Cpp.variableName_notReserved name, ?_⟩
    rw [counterparts.agree name occurs]
    exact Cpp.variableName_notReserved (naming name)

theorem swapped_with_reserved :
    (∀ name, IsName name → IsName (Equiv.swap "x" "cout" name)) ∧
    Set.InjOn (Equiv.swap "x" "cout") {name | IsName name} ∧
    ∃ tokens others, tokenize "declare x=1\nprint x" = .ok tokens ∧
      tokenize "declare cout=1\nprint cout" = .ok others ∧
      List.Forall₂ (Token.Reworded (Equiv.swap "x" "cout") id) tokens others ∧
      ∃ statements counterpart, Script.Spells statements tokens ∧
        compile "declare x=1\nprint x" = .ok (Cpp.text (Script.generated statements)) ∧
        counterpart "x" = "cout_" ∧ compile "declare cout=1\nprint cout" =
          .ok (Cpp.text ((Script.generated statements).map (.rename counterpart))) := by
  have read : tokenize "declare x=1\nprint x" = .ok
      [⟨.declare, "declare", ⟨1, 1⟩⟩, ⟨.identifier, "x", ⟨1, 9⟩⟩, ⟨.eq, "=", ⟨1, 10⟩⟩,
        ⟨.number, "1", ⟨1, 11⟩⟩, ⟨.newline, "\n", ⟨1, 12⟩⟩, ⟨.print, "print", ⟨2, 1⟩⟩,
        ⟨.identifier, "x", ⟨2, 7⟩⟩, ⟨.newline, "\n", ⟨2, 8⟩⟩, ⟨.eof, "", ⟨3, 1⟩⟩] := by
    cbv
  have read' : tokenize "declare cout=1\nprint cout" = .ok
      [⟨.declare, "declare", ⟨1, 1⟩⟩, ⟨.identifier, "cout", ⟨1, 9⟩⟩, ⟨.eq, "=", ⟨1, 13⟩⟩,
        ⟨.number, "1", ⟨1, 14⟩⟩, ⟨.newline, "\n", ⟨1, 15⟩⟩, ⟨.print, "print", ⟨2, 1⟩⟩,
        ⟨.identifier, "cout", ⟨2, 7⟩⟩, ⟨.newline, "\n", ⟨2, 11⟩⟩, ⟨.eof, "", ⟨3, 1⟩⟩] := by
    cbv
  have areNames : ∀ name, IsName name → IsName (Equiv.swap "x" "cout" name) := by
    intro name isName
    rw [Equiv.swap_apply_def]
    split
    · exact tokenize_names read' ⟨.identifier, "cout", ⟨1, 9⟩⟩ (by simp) rfl
    · split
      · exact tokenize_names read ⟨.identifier, "x", ⟨1, 9⟩⟩ (by simp) rfl
      · exact isName
  have distinct : Set.InjOn (Equiv.swap "x" "cout") {name | IsName name} :=
    (Equiv.swap "x" "cout").injective.injOn
  obtain ⟨output, compiled⟩ : ∃ output, compile "declare x=1\nprint x" = .ok output := ⟨_, by cbv⟩
  obtain ⟨statements, counterpart, spelled, rfl, counterparts, compiled', _⟩ :=
    ((compile_renaming read areNames distinct).2 _ _ read' (by decide +kernel)).2 output compiled
  have reserved : counterpart (Cpp.variableName "x") = Cpp.variableName "cout" := by
    have agree := counterparts.agree "x" ⟨⟨.identifier, "x", ⟨1, 9⟩⟩, by simp, rfl, rfl⟩
    rwa [Equiv.swap_apply_left] at agree
  have plain : Cpp.variableName "x" = "x" := by decide +kernel
  have marked : Cpp.variableName "cout" = "cout_" := by decide +kernel
  rw [plain, marked] at reserved
  exact ⟨areNames, distinct, _, _, read, read', by decide +kernel, statements, counterpart, spelled,
    compiled, reserved, compiled'⟩

end ScriptToCpp
