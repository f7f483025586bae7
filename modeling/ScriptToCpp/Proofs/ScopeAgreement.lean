import ScriptToCpp.Proofs.BlockScope

/-! Names of a script in the blocks of the generated program. A script knows a name everywhere
behind its first declaration, whatever blocks end in between. The generated program knows it only up
to the end of the block that holds the declaration. The two agree just where no name is written
behind a block in which it was declared first. -/
namespace ScriptToCpp

namespace Mention
variable {names others : List String} {mentions : List Mention}

theorem Scoped.used (declared : Scoped names mentions) {name : String}
    (member : .uses name ∈ mentions) : name ∈ known names mentions := by
  obtain ⟨before, behind, rfl⟩ := List.append_of_mem member
  have here := (scoped_append.mp declared).2.1
  rw [known_append, mem_known]
  exact .inl here

theorem Scoped.congr (same : ∀ name, name ∈ names ↔ name ∈ others)
    (declared : Scoped names mentions) : Scoped others mentions := by
  induction mentions generalizing names others with
  | nil => trivial
  | cons mention rest ih =>
    cases mention with
    | introduces name =>
      apply ih _ declared
      intro other
      rw [List.mem_insert_iff, List.mem_insert_iff, same]
    | uses name => exact ⟨(same name).mp declared.1, ih same declared.2⟩

end Mention

namespace Script
open Cpp (Fragment Balanced Declares ScopedIn)

mutual

/-- The names that the code of a statement holds. -/
def Statement.written : Statement → List String
  | .printText _ | .input _ => []
  | .print value => (Expression.mentions value).map Mention.name
  | .block _ condition body =>
    condition.mentions.map Mention.name ++ Statement.writtenAll body
  | .declare name value | .assign name value =>
    name :: (Expression.mentions value).map Mention.name

def Statement.writtenAll : List Statement → List String
  | [] => []
  | statement :: rest => statement.written ++ Statement.writtenAll rest

end

/-- The names that are introduced by a statement, but not in the block that it stands in. -/
def Statement.withheld : Statement → List String
  | .block _ _ body => Statement.introducedAll body
  | .input name => [name]
  | .printText _ | .print _ | .declare _ _ | .assign _ _ => []

mutual

/-- Inside the statement no new name is written where the block that introduces it has ended. -/
def Statement.Contained (seen : List String) : Statement → Prop
  | .block _ _ body => Statement.ContainedAll seen body
  | .printText _ | .print _ | .declare _ _ | .assign _ _ | .input _ => True

def Statement.ContainedAll (seen : List String) : List Statement → Prop
  | [] => True
  | statement :: rest =>
    statement.Contained seen ∧
      (∀ name ∈ statement.withheld, name ∉ seen → name ∉ Statement.writtenAll rest) ∧
      Statement.ContainedAll (seen ++ statement.introduced) rest

end

namespace Calculates
variable {first : List Fragment} {mentions : List Mention}

theorem nil : Calculates [] [] :=
  ⟨by simp, by simp⟩

theorem mention (calculates : Calculates first mentions) (name : String) :
    Calculates (.mentions name :: first) (.uses name :: mentions) := by
  constructor
  · intro fragment member
    rcases List.mem_cons.mp member with rfl | later
    · exact .inr ⟨name, rfl⟩
    · exact calculates.flat fragment later
  · intro other
    rw [List.mem_cons, List.mem_cons, calculates.uses other, Fragment.mentions.injEq,
      Mention.uses.injEq]

theorem ended (calculates : Calculates first mentions) (text : String) :
    Calculates (first ++ [Fragment.code text]) mentions := by
  have whole := calculates.append (nil.code text)
  rwa [List.append_nil] at whole

theorem balanced (calculates : Calculates first mentions) : Balanced first := by
  apply Balanced.flat
  intro fragment member
  rcases calculates.flat fragment member with ⟨text, rfl⟩ | ⟨name, rfl⟩ <;> rfl

theorem undeclared (calculates : Calculates first mentions) (name : String) :
    .declares name ∉ first := by
  intro member
  rcases calculates.flat _ member with ⟨text, impossible⟩ | ⟨other, impossible⟩ <;>
    contradiction

theorem scopedIn_iff (calculates : Calculates first mentions) {visible : String → Prop} :
    ScopedIn visible first ↔ ∀ name, .uses name ∈ mentions → visible name := by
  rw [Cpp.scopedIn_flat calculates.undeclared]
  simp only [calculates.uses]

end Calculates

/-- The fragments of a line that gives a value to a variable, behind its name. -/
theorem Expression.given (value : Expression) :
    Calculates (Fragment.code " = " :: (Expression.fragments value ++ [Fragment.code ";\n"]))
      (Expression.mentions value) :=
  ((Expression.calculates value).ended ";\n").code " = "

theorem Expression.printed (value : Expression) (seen : List String) (level : Nat) :
    Calculates ((Statement.print value).fragments seen level) (Expression.mentions value) := by
  rw [Statement.fragments]
  exact ((Expression.calculates value).ended _).code _

/-- What stands between the braces of a block. -/
def Statement.inner (seen : List String) (level : Nat) (body : List Statement) : List Fragment :=
  [Fragment.code "\n"] ++ Statement.fragmentsAll seen (level + 1) body ++
    [Fragment.code (indentation level)]

theorem Statement.fragments_block (form : BlockForm) (condition : Condition)
    (body : List Statement) (seen : List String) (level : Nat) :
    (Statement.block form condition body).fragments seen level =
      Fragment.code (indentation level ++ form.opening) ::
          (condition.fragments ++ [Fragment.code ") "]) ++
        (Cpp.enclosed (Statement.inner seen level body) ++ [Fragment.code "\n"]) := by
  simp [fragments, inner, Cpp.enclosed]

theorem Condition.opened (condition : Condition) (before : String) :
    Calculates (Fragment.code before :: (condition.fragments ++ [Fragment.code ") "]))
      condition.mentions :=
  (condition.calculates.ended ") ").code before

theorem Calculates.line (text : String) : Calculates [.code text] [] :=
  nil.code text

theorem Statement.balanced_inner {body : List Statement} {seen : List String} {level : Nat}
    (balanced : Balanced (Statement.fragmentsAll seen (level + 1) body)) :
    Balanced (Statement.inner seen level body) :=
  ((Calculates.line "\n").balanced.append balanced).append (Calculates.line _).balanced

mutual

theorem Statement.balanced (statement : Statement) (seen : List String) (level : Nat) :
    Balanced (statement.fragments seen level) := by
  cases statement with
  | printText text => exact (Calculates.line _).balanced
  | print value => exact (Expression.printed value seen level).balanced
  | block form condition body =>
    have inner := Statement.balanced_inner (Statement.balanced_all body seen (level + 1))
    rw [fragments_block]
    exact (condition.opened _).balanced.append
      (inner.enclosed.append (Calculates.line "\n").balanced)
  | declare name value =>
    have target : Balanced [.code (indentation level),
        if name ∈ seen then .mentions name else .declares name] := by
      apply Balanced.flat
      split <;> simp [Fragment.depth]
    exact target.append (Expression.given value).balanced
  | assign name value => exact (((Expression.given value).mention name).code _).balanced
  | input name => exact Calculates.nil.balanced

theorem Statement.balanced_all (statements : List Statement) (seen : List String) (level : Nat) :
    Balanced (Statement.fragmentsAll seen level statements) := by
  cases statements with
  | nil => exact Calculates.nil.balanced
  | cons statement rest =>
    exact (Statement.balanced statement seen level).append
      (Statement.balanced_all rest (seen ++ statement.introduced) level)

end

theorem Statement.known_calculates {name : String} {seen : List String} (known : name ∈ seen)
    (value : Expression) (level : Nat) :
    Calculates ((Statement.declare name value).fragments seen level)
      (.uses name :: Expression.mentions value) := by
  rw [fragments, if_pos known]
  exact ((Expression.given value).mention name).code _

theorem Statement.fresh_fragments {name : String} {seen : List String} (fresh : name ∉ seen)
    (value : Expression) (level : Nat) :
    (Statement.declare name value).fragments seen level =
      [Fragment.code (indentation level), Fragment.declares name] ++
        Fragment.code " = " :: (Expression.fragments value ++ [Fragment.code ";\n"]) := by
  rw [fragments, if_neg fresh]
  rfl

theorem Statement.withheld_introduced (statement : Statement) {name : String}
    (member : name ∈ statement.withheld) : name ∈ statement.introduced := by
  cases statement with
  | block form condition body => exact member
  | input other => exact member
  | _ => contradiction

/-- Behind a statement a name is declared that it introduces where it stands, if it is new. -/
theorem Statement.declares_iff (statement : Statement) (seen : List String) (level : Nat)
    (name : String) :
    Declares (statement.fragments seen level) name ↔
      name ∉ seen ∧ name ∈ statement.introduced ∧ name ∉ statement.withheld := by
  have calculated : ∀ {mentions : List Mention},
      Calculates (statement.fragments seen level) mentions →
        ¬ Declares (statement.fragments seen level) name :=
    fun calculates => Cpp.not_declares calculates.undeclared name
  cases statement with
  | printText text => simp [calculated (Calculates.line _), introduced]
  | print value => simp [calculated (Expression.printed value seen level), introduced]
  | block form condition body =>
    have inner := Statement.balanced_inner (Statement.balanced_all body seen (level + 1))
    have last := (Calculates.line "\n").balanced
    have ended : ¬ Declares ((block form condition body).fragments seen level) name := by
      rw [fragments_block, Cpp.declares_append (inner.enclosed.append last).inside,
        Cpp.declares_append last.inside]
      rintro (before | within | behind)
      · exact Cpp.not_declares (condition.opened _).undeclared name before
      · exact Cpp.not_declares_enclosed inner name within
      · exact Cpp.not_declares (Calculates.line _).undeclared name behind
    simp [ended, introduced, withheld]
  | declare other value =>
    by_cases known : other ∈ seen
    · have again := calculated (known_calculates known value level)
      constructor
      · exact fun declared => absurd declared again
      · rintro ⟨fresh, same, _⟩
        cases List.mem_singleton.mp same
        exact absurd known fresh
    · have unchanged := Cpp.not_declares (Expression.given value).undeclared name
      rw [fresh_fragments known, Cpp.declares_append (Expression.given value).balanced.inside,
        Cpp.declares_target, introduced, withheld, List.mem_singleton]
      constructor
      · rintro (rfl | behind)
        · exact ⟨known, rfl, List.not_mem_nil⟩
        · exact absurd behind unchanged
      · rintro ⟨_, same, _⟩
        exact .inl same
  | assign other value =>
    simp [calculated (((Expression.given value).mention other).code _), introduced]
  | input other => simp [calculated Calculates.nil, introduced, withheld]

section
variable {seen : List String} {visible : String → Prop}

/-- Fragments that only use variables hold those of the mentions. -/
theorem Calculates.scopedIn_iff_written {fragments : List Fragment} {mentions : List Mention}
    (calculates : Calculates fragments mentions) (silent : Silent mentions)
    (declared : Mention.Scoped seen mentions) :
    ScopedIn visible fragments ↔
      ∀ name ∈ mentions.map Mention.name, name ∈ seen → visible name := by
  rw [calculates.scopedIn_iff]
  constructor
  · intro all name member _
    obtain ⟨mention, inside, rfl⟩ := List.mem_map.mp member
    cases mention with
    | introduces name => exact absurd inside (silent.introduces_notMem name)
    | uses name => exact all name inside
  · intro all name member
    apply all name (List.mem_map.mpr ⟨_, member, rfl⟩)
    have known := declared.used member
    rwa [silent] at known

theorem Statement.scopedIn_declare {name : String} {value : Expression}
    (declared : Mention.Scoped seen (Statement.declare name value).mentions) (level : Nat) :
    ScopedIn visible ((Statement.declare name value).fragments seen level) ↔
      ∀ other ∈ (Statement.declare name value).written, other ∈ seen → visible other := by
  by_cases known : name ∈ seen
  · have again : Mention.Scoped seen (.uses name :: Expression.mentions value) := by
      refine ⟨known, ?_⟩
      rwa [mentions, Mention.Scoped, List.insert_of_mem known] at declared
    exact (known_calculates known value level).scopedIn_iff_written
      (Expression.silent value) again
  · have given := (Expression.given value).balanced.inside
    have target : ScopedIn visible [.code (indentation level), .declares name] ↔ True := by
      simp [Cpp.scopedIn_unused]
    rw [fresh_fragments known, Cpp.scopedIn_append given, target, true_and,
      (Expression.given value).scopedIn_iff_written (Expression.silent value) declared, written,
      List.forall_mem_cons]
    simp only [List.mem_insert_iff, Cpp.declares_target, known, false_imp_iff, true_and]
    constructor
    · intro all other member earlier
      refine (all other member (.inr earlier)).resolve_right ?_
      rintro rfl
      exact known earlier
    · rintro all other member (rfl | earlier)
      · exact .inr rfl
      · exact .inl (all other member earlier)

end

mutual

/-- The variables of a statement are in scope just where those are visible that were known before,
and blocks keep what they declare. -/
theorem Statement.scopedIn_iff (statement : Statement) {seen : List String}
    {visible : String → Prop} (within : ∀ name, visible name → name ∈ seen)
    (declared : Mention.Scoped seen statement.mentions) (level : Nat) :
    ScopedIn visible (statement.fragments seen level) ↔
      (∀ name ∈ statement.written, name ∈ seen → visible name) ∧ statement.Contained seen := by
  cases statement with
  | printText text =>
    rw [Contained, and_true]
    exact (Calculates.line _).scopedIn_iff_written (fun _ => rfl) declared
  | print value =>
    rw [Contained, and_true]
    exact (Expression.printed value seen level).scopedIn_iff_written (Expression.silent value)
      declared
  | block form condition body =>
    obtain ⟨compared, rest⟩ := Mention.scoped_append.mp declared
    rw [condition.silent] at rest
    have inner := Statement.balanced_inner (Statement.balanced_all body seen (level + 1))
    have last := (Calculates.line "\n").balanced
    have head := condition.opened (indentation level ++ form.opening)
    have undeclared := Cpp.not_declares head.undeclared
    -- The condition declares nothing, so that the body sees what the block sees.
    rw [fragments_block, Cpp.scopedIn_append (inner.enclosed.append last).inside,
      head.scopedIn_iff_written condition.silent compared,
      Cpp.scopedIn_before (by simp [Fragment.name?]), Cpp.scopedIn_enclosed inner,
      Statement.inner, Cpp.scopedIn_before (by simp [Fragment.name?]),
      Cpp.scopedIn_behind (by simp [Fragment.name?])
        (Statement.balanced_all body seen (level + 1)).inside]
    simp only [undeclared, or_false]
    rw [Statement.scopedIn_all_iff body within rest, written, Contained, List.forall_mem_append,
      and_assoc]
  | declare name value =>
    rw [Contained, and_true]
    exact scopedIn_declare declared level
  | assign name value =>
    rw [Contained, and_true]
    exact (((Expression.given value).mention name).code _).scopedIn_iff_written
      (Expression.silent value) declared
  | input name =>
    rw [Contained, and_true]
    exact Calculates.nil.scopedIn_iff_written (fun _ => rfl) trivial

theorem Statement.scopedIn_all_iff (statements : List Statement) {seen : List String}
    {visible : String → Prop} (within : ∀ name, visible name → name ∈ seen)
    (declared : Mention.Scoped seen (Statement.mentionsAll statements)) (level : Nat) :
    ScopedIn visible (Statement.fragmentsAll seen level statements) ↔
      (∀ name ∈ Statement.writtenAll statements, name ∈ seen → visible name) ∧
        Statement.ContainedAll seen statements := by
  cases statements with
  | nil =>
    rw [ContainedAll, and_true]
    exact Calculates.nil.scopedIn_iff_written (fun _ => rfl) trivial
  | cons statement rest =>
    obtain ⟨here, behind⟩ := Mention.scoped_append.mp declared
    have later : Mention.Scoped (seen ++ statement.introduced) (Statement.mentionsAll rest) := by
      apply behind.congr
      intro name
      rw [Mention.mem_known, Statement.introduces_iff, List.mem_append]
    have within' : ∀ name, visible name ∨ Declares (statement.fragments seen level) name →
        name ∈ seen ++ statement.introduced := by
      rintro name (outside | declared)
      · exact List.mem_append_left _ (within name outside)
      · exact List.mem_append_right _ ((statement.declares_iff seen level name).mp declared).2.1
    rw [fragmentsAll, Cpp.scopedIn_append (Statement.balanced_all rest _ level).inside,
      Statement.scopedIn_iff statement within here, Statement.scopedIn_all_iff rest within' later,
      writtenAll, ContainedAll, List.forall_mem_append]
    -- Behind the statement its new names are known, but only those that it does not withhold are
    -- visible.
    constructor
    · rintro ⟨⟨first, contained⟩, second, containedAll⟩
      refine ⟨⟨first, fun name member known => ?_⟩, contained, fun name member fresh used => ?_,
        containedAll⟩
      · have visible := second name member (List.mem_append_left _ known)
        refine visible.resolve_right fun declared => ?_
        exact ((statement.declares_iff seen level name).mp declared).1 known
      · have introduced := List.mem_append_right seen (statement.withheld_introduced member)
        rcases second name used introduced with outside | declared
        · exact fresh (within name outside)
        · exact ((statement.declares_iff seen level name).mp declared).2.2 member
    · rintro ⟨⟨first, second⟩, contained, kept, containedAll⟩
      refine ⟨⟨first, contained⟩, fun name member known => ?_, containedAll⟩
      by_cases earlier : name ∈ seen
      · exact .inl (second name member earlier)
      · have introduced := (List.mem_append.mp known).resolve_left earlier
        have declared := (statement.declares_iff seen level name).mpr
          ⟨earlier, introduced, fun withheld => kept name withheld earlier member⟩
        exact .inr declared

end

theorem wellScoped_fragments {statements : List Statement}
    (declared : Mention.Scoped [] (Statement.mentionsAll statements)) :
    Cpp.WellScoped (fragments statements) ↔ Statement.ContainedAll [] statements := by
  have body := Statement.balanced_all statements [] 1
  have first := (Calculates.line "\n\n").balanced
  have last := (Calculates.line "\n    return 0;\n").balanced
  have inner := (first.append body).append last
  have pieces : fragments statements =
      [Fragment.code "#include<iostream>\nusing namespace std;\n\nint main() "] ++
        (Cpp.enclosed ([Fragment.code "\n\n"] ++ Statement.fragmentsAll [] 1 statements ++
          [Fragment.code "\n    return 0;\n"]) ++ [Fragment.code "\n"]) := by
    simp [fragments, Cpp.enclosed]
  rw [Cpp.wellScoped_iff, pieces,
    Cpp.scopedIn_behind (by simp [Fragment.name?])
      (inner.enclosed.append (Calculates.line "\n").balanced).inside,
    Cpp.scopedIn_before (by simp [Fragment.name?]), Cpp.scopedIn_enclosed inner,
    Cpp.scopedIn_before (by simp [Fragment.name?]),
    Cpp.scopedIn_behind (by simp [Fragment.name?]) body.inside,
    Statement.scopedIn_all_iff statements (fun _ => False.elim) declared]
  simp only [List.not_mem_nil, false_imp_iff, implies_true, true_and]

end Script

/-- The variables of a generated program are in scope wherever they are written, just if the script
writes no name behind a block, or an input, that introduces it first. -/
theorem generated_wellScoped_iff {source output : String}
    (compiled : compile source = .ok output) :
    ∃ tokens statements, tokenize source = .ok tokens ∧ Script.Spells statements tokens ∧
      output = Cpp.text (Script.generated statements) ∧
      (Cpp.WellScoped (Script.generated statements) ↔
        Script.Statement.ContainedAll [] statements) := by
  obtain ⟨tokens, statements, read, spells, declared, same⟩ := compile_generates compiled
  refine ⟨tokens, statements, read, spells, same, ?_⟩
  rw [Script.generated, ← Script.wellScoped_fragments declared]
  apply Cpp.wellScoped_rename fun _ _ => Cpp.variableName_injective
  intro fragment member name named
  obtain ⟨mention, inside, rfl⟩ := Script.named_fragments member named
  exact spells.names read mention inside

theorem block_declaration_leaks :
    ∃ tokens statements,
      tokenize "if 1<2\x7b\ndeclare x=1\n\x7d\nprint x" = .ok tokens ∧
      Script.Spells statements tokens ∧
      compile "if 1<2\x7b\ndeclare x=1\n\x7d\nprint x" =
        .ok (Cpp.text (Script.generated statements)) ∧
      Cpp.text (Script.generated statements) =
        "#include<iostream>\nusing namespace std;\n\nint main() \x7b\n\n" ++
          "    if(1.0 < 2.0) \x7b\n        double x = 1.0;\n    \x7d\n" ++
          "    cout << (double)(x) << endl;\n\n    return 0;\n\x7d\n" ∧
      ¬ Cpp.WellScoped (Script.generated statements) := by
  have compared : Script.Condition.Spells
      ⟨⟨.single (.number "1"), [(⟨.lt, rfl⟩, .single (.number "2"))]⟩, nofun⟩
      [⟨.number, "1", ⟨1, 4⟩⟩, ⟨.lt, "<", ⟨1, 5⟩⟩, ⟨.number, "2", ⟨1, 6⟩⟩] :=
    Script.Chain.Spells.mk (@Script.Operand.Spells.number ⟨.number, "1", ⟨1, 4⟩⟩ rfl).single
      (@Script.Chain.Continues.cons _ _ _ _ _ _ ⟨.lt, "<", ⟨1, 5⟩⟩ _ _ ⟨rfl, rfl⟩
        (@Script.Operand.Spells.number ⟨.number, "2", ⟨1, 6⟩⟩ rfl).single .nil)
  have declares := @Script.Statement.SpellsAlone.declare ⟨.declare, "declare", ⟨2, 1⟩⟩
    ⟨.identifier, "x", ⟨2, 9⟩⟩ ⟨.eq, "=", ⟨2, 10⟩⟩ _ _ _ rfl rfl rfl
    (@Script.Operand.Spells.number ⟨.number, "1", ⟨2, 11⟩⟩ rfl).single
    (Script.Breaks.single ⟨.newline, "\n", ⟨2, 12⟩⟩ rfl)
  have prints := @Script.Statement.SpellsAlone.print ⟨.print, "print", ⟨4, 1⟩⟩ _ _ _ rfl
    (@Script.Operand.Spells.named ⟨.identifier, "x", ⟨4, 7⟩⟩ rfl).single
    (Script.Breaks.single ⟨.newline, "\n", ⟨4, 8⟩⟩ rfl)
  have whole := @Script.Statement.Spell.block .ifBlock _ _ _ ⟨.ifWord, "if", ⟨1, 1⟩⟩
    ⟨.lBrace, "\x7b", ⟨1, 7⟩⟩ ⟨.rBrace, "\x7d", ⟨3, 1⟩⟩ _ _ _ _ _ rfl compared rfl
    (Script.Breaks.single ⟨.newline, "\n", ⟨1, 8⟩⟩ rfl) (.alone declares .nil) rfl
    (Script.Breaks.single ⟨.newline, "\n", ⟨3, 2⟩⟩ rfl) (.alone prints .nil)
  obtain ⟨tokens, read, spelled⟩ : ∃ tokens,
      tokenize "if 1<2\x7b\ndeclare x=1\n\x7d\nprint x" = .ok tokens ∧
        Script.Spells
          [.block .ifBlock ⟨⟨.single (.number "1"), [(⟨.lt, rfl⟩, .single (.number "2"))]⟩, nofun⟩
            [.declare "x" (.single (.number "1"))], .print (.single (.named "x"))] tokens :=
    ⟨_, by cbv, @Script.Spells.mk _ [] _ ⟨.eof, "", ⟨5, 1⟩⟩ nofun whole rfl⟩
  have compiled := spelled.compiles ⟨List.mem_singleton_self "x", trivial⟩ read
  refine ⟨tokens, _, read, spelled, compiled, by decide +kernel, fun held => ?_⟩
  obtain ⟨_, statements, read', spelled', _, scope⟩ := generated_wellScoped_iff compiled
  cases Except.ok.inj (read.symm.trans read')
  cases spelled.unique spelled'
  -- The name is introduced in the block, is new there, and is written behind it.
  have hidden := (scope.mp held).2.1 "x" (List.mem_singleton_self "x") List.not_mem_nil
  exact hidden (List.mem_singleton_self "x")

end ScriptToCpp
