import ScriptToCpp.Proofs.Generated

/-! Words that have a meaning in every C++ program. A variable of the generated program must not be
called by one of them. The reserved names keep all such words away but ten, which a script may use
as a name and which are written as they are. -/
namespace ScriptToCpp

namespace Cpp

/-- The keywords of C++17. -/
def keywords : List String :=
  ["alignas", "alignof", "asm", "auto", "bool", "break", "case", "catch", "char", "char16_t",
    "char32_t", "class", "const", "constexpr", "const_cast", "continue", "decltype", "default",
    "delete", "do", "double", "dynamic_cast", "else", "enum", "explicit", "export", "extern",
    "false", "float", "for", "friend", "goto", "if", "inline", "int", "long", "mutable",
    "namespace", "new", "noexcept", "nullptr", "operator", "private", "protected", "public",
    "register", "reinterpret_cast", "return", "short", "signed", "sizeof", "static",
    "static_assert", "static_cast", "struct", "switch", "template", "this", "thread_local",
    "throw", "true", "try", "typedef", "typeid", "typename", "union", "unsigned", "using",
    "virtual", "void", "volatile", "wchar_t", "while"]

/-- The words of C++17 that stand for operators. -/
def operatorWords : List String :=
  ["and", "and_eq", "bitand", "bitor", "compl", "not", "not_eq", "or", "or_eq", "xor", "xor_eq"]

/-- The names on which every generated program relies. -/
def programNames : List String :=
  ["cout", "cin", "endl", "main", "std"]

/-- A name that a variable must not have. -/
def Claimed (name : String) : Prop :=
  name ∈ keywords ++ operatorWords ++ programNames

instance (name : String) : Decidable (Claimed name) :=
  inferInstanceAs (Decidable (_ ∈ _))

/-- The claimed names that scripts can spell and that are not reserved. -/
def overlooked : List String :=
  ["alignas", "alignof", "asm", "bitand", "bitor", "compl", "constexpr", "decltype", "noexcept",
    "typeid"]

theorem claimed_iff_overlooked {name : String} (named : IsName name) :
    Claimed (variableName name) ↔ variableName name ∈ overlooked := by
  rcases variableName_cases name with ⟨reserved, renamed⟩ | ⟨free, kept⟩
  · -- No claimed name ends with an underscore.
    have apart : ∀ word ∈ keywords ++ operatorWords ++ programNames ++ overlooked,
        word.toList.getLast? ≠ some '_' := by
      decide +kernel
    have last : (name ++ "_").toList.getLast? = some '_' := by
      rw [String.toList_append]
      exact List.getLast?_concat
    rw [renamed]
    constructor
    · intro claimed
      exact absurd last (apart _ (List.mem_append_left _ claimed))
    · intro missed
      exact absurd last (apart _ (List.mem_append_right _ missed))
  · -- A claimed name that is left either has an underscore, or is reserved in scripts as well.
    have covered : ∀ word ∈ keywords ++ operatorWords ++ programNames, '_' ∈ word.toList ∨
        word ∈ reservedNames ∨ (Kind.keyword? word).isSome ∨ word ∈ overlooked := by
      decide +kernel
    have known : ∀ word ∈ overlooked, Claimed word := by decide +kernel
    rw [kept]
    refine ⟨fun claimed => ?_, known name⟩
    rcases covered name claimed with underscore | reserved | keyword | missed
    · exact absurd underscore named.noUnderscore
    · exact absurd reserved free
    · obtain ⟨kind, word⟩ := Option.isSome_iff_exists.mp keyword
      exact absurd (Kind.spelling_keyword word).1 (named.word.2 kind)
    · exact missed

end Cpp

/-- A generated program calls a variable by a name that a variable must not have only where that is
one of the ten overlooked words. -/
theorem generated_claimed_iff_overlooked {source output : String}
    (compiled : compile source = .ok output) :
    ∃ tokens statements, tokenize source = .ok tokens ∧ Script.Spells statements tokens ∧
      output = Cpp.text (Script.generated statements) ∧
      ∀ fragment ∈ Script.generated statements, ∀ name, fragment.name? = some name →
        (Cpp.Claimed name ↔ name ∈ Cpp.overlooked) := by
  obtain ⟨tokens, statements, read, spells, _, same⟩ := compile_generates compiled
  refine ⟨tokens, statements, read, spells, same, fun fragment member name named => ?_⟩
  obtain ⟨original, within, rfl⟩ := List.mem_map.mp member
  rw [Cpp.Fragment.name?_rename] at named
  obtain ⟨source, mentioned, rfl⟩ := Option.map_eq_some_iff.mp named
  obtain ⟨mention, inside, rfl⟩ := Script.named_fragments within mentioned
  exact Cpp.claimed_iff_overlooked (spells.names read mention inside)

theorem keyword_kept :
    compile "declare asm=1" = .ok
      ("#include<iostream>\nusing namespace std;\n\nint main() \x7b\n\n" ++
        "    double asm = 1.0;\n\n    return 0;\n\x7d\n") ∧
    ∃ tokens statements, tokenize "declare asm=1" = .ok tokens ∧
      Script.Spells statements tokens ∧
      compile "declare asm=1" = .ok (Cpp.text (Script.generated statements)) ∧
      .declares "asm" ∈ Script.generated statements ∧ Cpp.Claimed "asm" := by
  have declares := @Script.Statement.SpellsAlone.declare ⟨.declare, "declare", ⟨1, 1⟩⟩
    ⟨.identifier, "asm", ⟨1, 9⟩⟩ ⟨.eq, "=", ⟨1, 12⟩⟩ _ _ _ rfl rfl rfl
    (@Script.Operand.Spells.number ⟨.number, "1", ⟨1, 13⟩⟩ rfl).single
    (Script.Breaks.single ⟨.newline, "\n", ⟨1, 14⟩⟩ rfl)
  obtain ⟨tokens, read, spelled⟩ : ∃ tokens, tokenize "declare asm=1" = .ok tokens ∧
      Script.Spells [.declare "asm" (.single (.number "1"))] tokens :=
    ⟨_, by cbv, @Script.Spells.mk _ [] _ ⟨.eof, "", ⟨2, 1⟩⟩ nofun (.alone declares .nil) rfl⟩
  have compiled := spelled.compiles trivial read
  have written : .declares "asm" ∈ Script.generated [.declare "asm" (.single (.number "1"))] := by
    decide +kernel
  obtain ⟨_, statements, read', spelled', _, kept⟩ := generated_claimed_iff_overlooked compiled
  cases Except.ok.inj (read.symm.trans read')
  cases spelled.unique spelled'
  refine ⟨by cbv, tokens, _, read, spelled, compiled, written, ?_⟩
  exact (kept _ written "asm" rfl).mpr (by decide)

end ScriptToCpp
