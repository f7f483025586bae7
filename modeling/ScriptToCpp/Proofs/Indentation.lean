import ScriptToCpp.Proofs.DeclaredNames
import ScriptToCpp.Proofs.Rendering
import Mathlib

/-! How far lines are indented while a program is compiled. The indentation follows the number of
blocks that the grammar's machine counts, and it never gets below the one that the program started
with. -/
namespace ScriptToCpp

namespace Action

/-- How far lines are indented after some actions. -/
def levelAll (depth : Nat) (actions : List Action) : Nat :=
  actions.foldl level depth

/-- While the actions are taken, the depth does not get below the given one. -/
def Above (least depth : Nat) (actions : List Action) : Prop :=
  ∀ taken, taken <+: actions → least ≤ levelAll depth taken

variable {least depth : Nat} {action : Action} {first second rest : List Action}

theorem levelAll_append :
    levelAll depth (first ++ second) = levelAll (levelAll depth first) second :=
  List.foldl_append

@[simp] theorem above_nil : Above least depth [] ↔ least ≤ depth := by
  constructor
  · intro above
    exact above [] (List.prefix_refl [])
  · intro bound taken start
    rw [List.prefix_nil.mp start]
    exact bound

@[simp] theorem above_cons :
    Above least depth (action :: rest) ↔ least ≤ depth ∧ Above least (level depth action) rest := by
  constructor
  · intro above
    exact ⟨above [] List.nil_prefix, fun taken start =>
      above (action :: taken) (List.cons_prefix_cons.mpr ⟨rfl, start⟩)⟩
  · rintro ⟨bound, above⟩ taken start
    cases taken with
    | nil => exact bound
    | cons other taken =>
      obtain ⟨rfl, later⟩ := List.cons_prefix_cons.mp start
      exact above taken later

theorem above_append (front : Above least depth first)
    (back : Above least (levelAll depth first) second) : Above least depth (first ++ second) := by
  intro taken start
  rcases List.prefix_or_prefix_of_prefix start (List.prefix_append first second) with
    early | ⟨taken, rfl⟩
  · exact front taken early
  · rw [levelAll_append]
    exact back taken ((List.prefix_append_right_inj first).mp start)

/-- Actions that do not touch the indentation. -/
def isFlat : Action → Bool
  | indent | unindent => false
  | _ => true

theorem levelAll_flat (flat : rest.all isFlat) : levelAll depth rest = depth := by
  induction rest with
  | nil => rfl
  | cons action rest ih =>
    rw [List.all_cons, Bool.and_eq_true] at flat
    have same : level depth action = depth := by
      cases action with
      | indent | unindent => cases flat.1
      | _ => rfl
    change levelAll (level depth action) rest = depth
    rw [same, ih flat.2]

theorem above_flat (bound : least ≤ depth) (flat : rest.all isFlat) : Above least depth rest := by
  rintro taken ⟨further, rfl⟩
  rw [List.all_append, Bool.and_eq_true] at flat
  rw [levelAll_flat flat.1]
  exact bound

end Action

theorem Draft.performAll_depth (draft : Draft) (actions : List Action) :
    (draft.performAll actions).depth = Action.levelAll draft.depth actions := by
  induction actions generalizing draft with
  | nil => rfl
  | cons action rest ih =>
    refine (ih (draft.perform action)).trans ?_
    rw [(draft.perform_writes action).1]
    rfl

@[simp] theorem Draft.opened_depth (draft : Draft) : draft.opened.depth = draft.depth := by
  unfold opened
  rw [perform_note]

namespace Control
variable {names : List String} {token : Token} {control next : Control} {clause : Clause}
  {blocks least : Nat} {before after : List Action}

theorem require_flat {kind : Kind} :
    (Reaction.require kind token after next).before.all Action.isFlat := by
  unfold Reaction.require
  split <;> rfl

theorem statement_flat : (statement names blocks token).before.all Action.isFlat := by
  unfold statement
  split <;> rfl

theorem operand_flat {signed : Bool} :
    (operand names clause signed blocks token).before.all Action.isFlat := by
  unfold operand
  split <;> rfl

theorem finish_flat : (finish clause blocks token).before.all Action.isFlat := by
  unfold finish
  split
  case h_3 => rfl
  all_goals exact require_flat

theorem operator_flat : (operator clause blocks token).before.all Action.isFlat := by
  unfold operator
  split
  case h_5 =>
    split
    · rfl
    · exact finish_flat
  case h_6 => exact finish_flat
  all_goals rfl

/-- At the end of a block its indentation is taken back, and not more. -/
theorem line_above : Action.Above least (least + blocks) (line names blocks token).before := by
  unfold line
  split
  case h_4 => exact Action.above_flat (Nat.le_add_right _ _) statement_flat
  all_goals simp [Action.level]

/-- What is done at once is never below the blocks that are open. -/
theorem react_above (control : Control) :
    Action.Above least (least + control.blocks) (control.react names token).before := by
  obtain ⟨mode, blocks⟩ := control
  have bound : least ≤ least + blocks := Nat.le_add_right _ _
  cases mode with
  | boundary entering =>
    simp only [react, boundary]
    split
    · exact Action.above_nil.mpr bound
    · cases entering with
      | true => exact Action.above_cons.mpr ⟨bound, line_above⟩
      | false => exact line_above
  | printed =>
    simp only [react, printed]
    split
    · exact Action.above_nil.mpr bound
    · exact Action.above_flat bound operand_flat
  | lineEnd | declared | read | equals => exact Action.above_flat bound require_flat
  | operand => exact Action.above_flat bound operand_flat
  | operator => exact Action.above_flat bound operator_flat

/-- The indentation follows the number of open blocks, and never gets below the least one. -/
def Levels (least blocks : Nat) (actions : List Action) (next : Control) : Prop :=
  Action.Above least (least + blocks) actions ∧
    Action.levelAll (least + blocks) actions = least + next.blocks

theorem Levels.flat {actions : List Action} (flat : actions.all Action.isFlat)
    (same : next.blocks = blocks) : Levels least blocks actions next := by
  refine ⟨Action.above_flat (Nat.le_add_right _ _) flat, ?_⟩
  rw [Action.levelAll_flat flat, same]

theorem LineMoves.levels (least : Nat) (moves : LineMoves names token blocks before after next) :
    Levels least blocks (before ++ after) next := by
  cases moves with
  | close => simp [Levels, Action.level, Action.levelAll]
  | _ => exact .flat rfl rfl

theorem Moves.levels (least : Nat) (moves : Moves names token control before after next) :
    Levels least control.blocks (before ++ after) next := by
  cases moves with
  | line moves => exact moves.levels least
  | @enter blocks _ _ _ moves =>
    -- The block is counted from here on, as the line within it finds it.
    obtain ⟨above, behind⟩ := moves.levels least
    exact ⟨Action.above_cons.mpr ⟨Nat.le_add_right least blocks, above⟩, behind⟩
  | printValue moves | operand moves | operator moves => cases moves <;> exact .flat rfl rfl
  | _ => exact .flat rfl rfl

end Control

namespace Stage

theorem Reads.levels {stage last : Stage} {tokens : List Token} {actions : List Action}
    (least : Nat) (read : Reads stage tokens actions last) :
    Control.Levels least stage.control.blocks actions last.control := by
  induction read with
  | nil => exact .flat rfl rfl
  | cons reaction _ ih =>
    obtain ⟨above, behind⟩ := (Control.Moves.of_react reaction).levels least
    obtain ⟨above', behind'⟩ := ih
    rw [← behind] at above' behind'
    exact ⟨Action.above_append above above', Action.levelAll_append.trans behind'⟩

end Stage

namespace Window
variable {window : Window} {draft : Draft} {control : Control} {taken : List Action}

/-- At some time in the course of a run these actions have been taken: all those for the tokens
moved over by then, and some of those that are due at once for the token at hand. -/
def Takes (window : Window) (draft : Draft) (control : Control) (taken : List Action) : Prop :=
  ∃ tokens behind actions stage, window.Shifts tokens behind ∧
    Stage.Reads ⟨draft.names, control⟩ tokens actions stage ∧
    taken <+: actions ++ (stage.react behind.current).before

theorem Takes.above {least : Nat} (takes : window.Takes draft control taken) :
    least ≤ Action.levelAll (least + control.blocks) taken := by
  obtain ⟨tokens, behind, actions, stage, _, reads, start⟩ := takes
  obtain ⟨above, level⟩ := reads.levels least
  refine Action.above_append above ?_ taken start
  rw [level]
  exact stage.control.react_above

/-- At first only what is due for the token at hand is done. -/
theorem Takes.here (start : taken <+: (control.react draft.names window.current).before) :
    window.Takes draft control taken :=
  ⟨[], window, [], _, .nil _, .nil _, start⟩

theorem Takes.behind {further : Window} {before after : List Action} {next : Control}
    (reacts : control.react draft.names window.current = ⟨before, .shift after next⟩)
    (moved : window.shift = (.ok (), further))
    (takes : further.Takes (draft.performAll (before ++ after)) next taken) :
    window.Takes draft control (before ++ after ++ taken) := by
  obtain ⟨tokens, behind, actions, stage, shifts, reads, start⟩ := takes
  rw [Draft.performAll_names] at reads
  refine ⟨_, behind, _, stage, .cons moved shifts, .cons reacts reads, ?_⟩
  rw [List.append_assoc (before ++ after)]
  exact (List.prefix_append_right_inj _).mpr start

/-- When a run has ended, the draft is what the actions taken by then have made of it. -/
theorem run_takes (window : Window) (draft : Draft) (control : Control) :
    ∃ taken, window.Takes draft control taken ∧
      (window.run draft control).2.2 = draft.performAll taken := by
  induction window, draft, control using Window.run.induct with
  | case1 window draft control reaction verdict =>
    have reacts : control.react draft.names window.current = ⟨reaction.before, .accept⟩ :=
      congrArg (Reaction.mk _) verdict
    exact ⟨_, .here (List.prefix_refl _), by rw [run_accept reacts]⟩
  | case2 window draft control reaction cause verdict =>
    have reacts : control.react draft.names window.current = ⟨reaction.before, .refuse cause⟩ :=
      congrArg (Reaction.mk _) verdict
    exact ⟨_, .here (List.prefix_refl _), by rw [run_refuse reacts]⟩
  | case3 window draft control reaction after next verdict fault further moved =>
    have reacts : control.react draft.names window.current =
        ⟨reaction.before, .shift after next⟩ :=
      congrArg (Reaction.mk _) verdict
    exact ⟨_, .here (List.prefix_refl _), by rw [run_fault reacts moved]⟩
  | case4 window draft control reaction _ after next verdict further moved _ ih =>
    have reacts : control.react draft.names window.current =
        ⟨reaction.before, .shift after next⟩ :=
      congrArg (Reaction.mk _) verdict
    obtain ⟨taken, takes, same⟩ := ih
    rw [← Draft.performAll_append] at takes same
    refine ⟨_, takes.behind reacts moved, ?_⟩
    rw [run_shift reacts moved, same, draft.performAll_append _ taken]

end Window

namespace Session
variable {session : Session} {taken : List Action}

/-- At some time while the program is compiled these actions have been taken. -/
def Takes (session : Session) (taken : List Action) : Prop :=
  session.window.Takes session.draft.opened .start taken

/-- What there is of the program once these actions have been taken. -/
def drafted (session : Session) (taken : List Action) : Draft :=
  session.draft.opened.performAll taken

/-- Lines are never less indented than where the program started. -/
theorem Takes.depth_le (takes : session.Takes taken) :
    session.draft.depth ≤ (session.drafted taken).depth := by
  rw [drafted, Draft.performAll_depth, Draft.opened_depth]
  exact Window.Takes.above takes

/-- Less is taken back than was added. -/
theorem Takes.lt_depth (takes : session.Takes (taken ++ [.unindent]))
    (indented : 1 ≤ session.draft.depth) : session.draft.depth < (session.drafted taken).depth := by
  have bound := takes.depth_le
  rw [drafted, Draft.performAll_append] at bound
  change session.draft.depth ≤ (session.drafted taken).depth - 1 at bound
  omega

theorem program_takes (session : Session) : ∃ taken, session.Takes taken ∧
    (session.program.2.draft = session.drafted taken ∨
      session.program.2.draft = (session.drafted taken).closed) := by
  obtain ⟨taken, takes, same⟩ := session.window.run_takes session.draft.opened .start
  refine ⟨taken, takes, ?_⟩
  unfold program
  rcases ran : session.window.run session.draft.opened .start with ⟨result, window, draft⟩
  rw [ran] at same
  cases result with
  | ok _ => exact .inr (congrArg Draft.closed same)
  | error failure => exact .inl same

theorem depth_le_program (session : Session) :
    session.draft.depth ≤ session.program.2.draft.depth := by
  obtain ⟨taken, takes, same | same⟩ := session.program_takes
  · rw [same]
    exact takes.depth_le
  · rw [same]
    exact takes.depth_le

theorem depth_le_programs (session : Session) (count : Nat) :
    session.draft.depth ≤ (session.programs count).2.draft.depth := by
  induction count generalizing session with
  | zero => exact Nat.le_refl _
  | succ count ih => exact session.depth_le_program.trans (ih session.program.2)

end Session
end ScriptToCpp
