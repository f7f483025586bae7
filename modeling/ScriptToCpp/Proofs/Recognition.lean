import ScriptToCpp.Proofs.Parsing
import ScriptToCpp.Proofs.Simulation
import ScriptToCpp.Proofs.Soundness
import Mathlib.Data.List.Forall2

/-! The lists of tokens that are accepted are the scripts. One half is soundness. For the other one
a script is parsed, and its tree is run. A tree is spelled in one way while the grammar asks for no
spelling, so that the tokens of the script are first given the spellings of their kinds. -/
namespace ScriptToCpp

namespace Token

/-- Tokens that differ in their places at most, and in texts that are no names. -/
structure Alike (token other : Token) : Prop where
  kind : other.kind = token.kind
  name : token.kind = .identifier → other.text = token.text

/-- The token with the spelling of its kind. -/
def canonical (token : Token) : Token :=
  { token with text := token.kind.spelling?.getD token.text }

theorem canonical_regular (token : Token) : Regular token.canonical.kind token.canonical.text := by
  intro spelling spelled
  change token.kind.spelling?.getD token.text = spelling
  rw [show token.kind.spelling? = some spelling from spelled]
  rfl

theorem canonical_text (token : Token) (kind : token.kind = .identifier) :
    token.canonical.text = token.text := by
  simp [canonical, kind, Kind.spelling?]

theorem canonical_alike (token : Token) : token.canonical.Alike token :=
  ⟨rfl, fun kind => (canonical_text token kind).symm⟩

theorem canonical_mentions (token : Token) (awaited : Bool) :
    token.canonical.mentions awaited = token.mentions awaited := by
  unfold mentions
  by_cases kind : token.kind = .identifier
  · rw [canonical_text token kind]
    rfl
  · simp [canonical, kind]

end Token

theorem scan_canonical (awaited : Bool) (tokens : List Token) :
    scan awaited (tokens.map Token.canonical) = scan awaited tokens := by
  induction tokens generalizing awaited with
  | nil => rfl
  | cons token rest ih =>
    rw [List.map_cons, scan, scan, Token.canonical_mentions, ih]
    rfl

namespace Control
variable {names : List String} {token other : Token} {control next : Control} {clause : Clause}
  {blocks : Nat} {before after : List Action}

theorem LineMoves.alike (moves : LineMoves names token blocks before after next)
    (alike : token.Alike other) : LineMoves names other blocks before after next := by
  obtain ⟨same, name⟩ := alike
  cases moves with
  | close kind => exact .close (same.trans kind)
  | print kind => exact .print (same.trans kind)
  | ifBlock kind => exact .ifBlock (same.trans kind)
  | whileBlock kind => exact .whileBlock (same.trans kind)
  | declare kind => exact .declare (same.trans kind)
  | input kind => exact .input (same.trans kind)
  | assign kind known =>
    rw [← name kind] at known ⊢
    exact .assign (same.trans kind) known

/-- Texts that are no names are written, and decide nothing. -/
theorem OperandMoves.alike {signed : Bool}
    (moves : OperandMoves names token clause blocks signed before after next)
    (alike : token.Alike other) :
    ∃ before' after', OperandMoves names other clause blocks signed before' after' next ∧
      Action.enrolledAll names (before' ++ after') =
        Action.enrolledAll names (before ++ after) := by
  obtain ⟨same, name⟩ := alike
  cases moves with
  | sign kind => exact ⟨_, _, .sign (by rw [same]; exact kind), rfl⟩
  | number kind => exact ⟨_, _, .number (same.trans kind), rfl⟩
  | name kind known => exact ⟨_, _, .name (same.trans kind) (by rw [name kind]; exact known), rfl⟩

theorem OperatorMoves.alike (moves : OperatorMoves token blocks clause before after next)
    (alike : token.Alike other) :
    ∃ before' after', OperatorMoves other blocks clause before' after' next ∧
      Action.enrolledAll names (before' ++ after') =
        Action.enrolledAll names (before ++ after) := by
  obtain ⟨same, _⟩ := alike
  cases moves with
  | scale kind => exact ⟨_, _, .scale (by rw [same]; exact kind), rfl⟩
  | add kind => exact ⟨_, _, .add (by rw [same]; exact kind), rfl⟩
  | compare kind => exact ⟨_, _, .compare (by rw [same]; exact kind), rfl⟩
  | endPrint kind => exact ⟨_, _, .endPrint (same.trans kind), rfl⟩
  | endValue kind => exact ⟨_, _, .endValue (same.trans kind), rfl⟩
  | endCondition kind => exact ⟨_, _, .endCondition (same.trans kind), rfl⟩

theorem Moves.alike (moves : Moves names token control before after next)
    (alike : token.Alike other) :
    ∃ before' after', Moves names other control before' after' next ∧
      Action.enrolledAll names (before' ++ after') =
        Action.enrolledAll names (before ++ after) := by
  cases moves with
  | skip kind => exact ⟨_, _, .skip (alike.kind.trans kind), rfl⟩
  | line moves => exact ⟨_, _, .line (moves.alike alike), rfl⟩
  | enter moves => exact ⟨_, _, .enter (moves.alike alike), rfl⟩
  | lineEnd kind => exact ⟨_, _, .lineEnd (alike.kind.trans kind), rfl⟩
  | printText kind => exact ⟨_, _, .printText (alike.kind.trans kind), rfl⟩
  | printValue moves =>
    obtain ⟨_, _, moves, enrolled⟩ := moves.alike alike
    exact ⟨_, _, .printValue moves, enrolled⟩
  | declared kind =>
    rw [← alike.name kind]
    exact ⟨_, _, .declared (alike.kind.trans kind), rfl⟩
  | read kind =>
    rw [← alike.name kind]
    exact ⟨_, _, .read (alike.kind.trans kind), rfl⟩
  | equals kind => exact ⟨_, _, .equals (alike.kind.trans kind), rfl⟩
  | operand moves =>
    obtain ⟨_, _, moves, enrolled⟩ := moves.alike alike
    exact ⟨_, _, .operand moves, enrolled⟩
  | operator moves =>
    obtain ⟨_, _, moves, enrolled⟩ := moves.alike alike
    exact ⟨_, _, .operator moves, enrolled⟩

end Control

namespace Stage
variable {stage last : Stage} {tokens : List Token} {actions : List Action}

theorem Reads.alike (read : Reads stage tokens actions last) {others : List Token}
    (alike : List.Forall₂ Token.Alike tokens others) :
    ∃ further, Reads stage others further last := by
  induction read generalizing others with
  | nil =>
    cases alike
    exact ⟨[], .nil _⟩
  | cons reaction _ ih =>
    cases alike with
    | cons first rest =>
      obtain ⟨before, after, moves, enrolled⟩ := (Control.Moves.of_react reaction).alike first
      obtain ⟨further, read⟩ := ih rest
      rw [← enrolled] at read
      exact ⟨_, .cons moves.react read⟩

/-- A list of tokens is accepted as it is with the spellings of its kinds. -/
theorem Accepts.of_canonical (accepted : stage.Accepts (tokens.map Token.canonical)) :
    stage.Accepts tokens := by
  obtain ⟨front, last, actions, final, before, same, read, reaction⟩ := accepted
  obtain ⟨first, rest, rfl, rfl, single⟩ := List.map_eq_append_iff.mp same
  obtain ⟨token, rfl, rfl⟩ := List.map_eq_singleton_iff.mp single
  have alike : List.Forall₂ Token.Alike (first.map Token.canonical) first := by
    rw [List.forall₂_map_left_iff, List.forall₂_same]
    exact fun token _ => token.canonical_alike
  obtain ⟨further, read⟩ := read.alike alike
  obtain ⟨control, kind, _⟩ := Control.accept_iff.mp reaction
  exact ⟨first, token, further, final, [], rfl, read, Control.accept_iff.mpr ⟨control, kind, rfl⟩⟩

end Stage

/-- The tokens of a tree are accepted, if it declares its names before it uses them. -/
theorem Script.Spells.accepts {statements : List Script.Statement} {tokens : List Token}
    (spelled : Script.Spells statements tokens)
    (declared : Mention.Scoped [] (Script.Statement.mentionsAll statements)) :
    Stage.start.Accepts tokens := by
  obtain ⟨front, last, names, rfl, kind, read⟩ := spelled.runs declared
  exact ⟨front, last, _, _, [], rfl, read, Control.accept_iff.mpr ⟨rfl, kind, rfl⟩⟩

namespace IsScript
variable {tokens : List Token}

theorem canonical (script : IsScript tokens) : IsScript (tokens.map Token.canonical) := by
  obtain ⟨program, declared⟩ := script
  constructor
  · rw [List.map_map]
    exact program
  · rw [declaredBeforeUse_iff, scan_canonical, ← declaredBeforeUse_iff]
    exact declared

/-- A script whose tokens have the spellings of their kinds is that of a tree. -/
theorem tree (script : IsScript tokens) (spelled : Script.Spelled tokens) :
    ∃ statements, Script.Spells statements tokens ∧
      Mention.Scoped [] (Script.Statement.mentionsAll statements) := by
  obtain ⟨program, declared⟩ := script
  obtain ⟨statements, spells⟩ := Script.parsed tokens spelled program
  refine ⟨statements, spells, ?_⟩
  rw [← spells.scan, ← declaredBeforeUse_iff]
  exact declared

theorem accepts (script : IsScript tokens) : Stage.start.Accepts tokens := by
  have spelled : Script.Spelled (tokens.map Token.canonical) := by
    intro token member
    obtain ⟨token, _, rfl⟩ := List.mem_map.mp member
    exact token.canonical_regular
  obtain ⟨statements, spells, declared⟩ := script.canonical.tree spelled
  exact (spells.accepts declared).of_canonical

end IsScript

theorem accepts_iff_isScript {tokens : List Token} :
    Stage.start.Accepts tokens ↔ IsScript tokens :=
  ⟨Stage.Accepts.isScript, IsScript.accepts⟩

end ScriptToCpp
