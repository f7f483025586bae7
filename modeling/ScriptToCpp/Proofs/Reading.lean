import ScriptToCpp.Draft
import ScriptToCpp.Proofs.Moves

/-! Reading tokens from a list. A stage is what the compiler looks at to decide what may come next:
the names it knows and its control state. Reading moves from stage to stage and collects the actions
on the way, so that what they write can be looked at apart from what may be read. -/
namespace ScriptToCpp

namespace Action

/-- The names known after an action. -/
def enrolled (names : List String) : Action → List String
  | enroll name => names.insert name
  | _ => names

/-- The names known after some actions. -/
def enrolledAll (names : List String) (actions : List Action) : List String :=
  actions.foldl enrolled names

@[simp] theorem enrolledAll_cons (names : List String) (action : Action) (rest : List Action) :
    enrolledAll names (action :: rest) = enrolledAll (enrolled names action) rest := rfl

end Action

theorem Draft.performAll_append (draft : Draft) (first second : List Action) :
    draft.performAll (first ++ second) = (draft.performAll first).performAll second :=
  List.foldl_append

theorem Draft.perform_names (draft : Draft) (action : Action) :
    (draft.perform action).names = action.enrolled draft.names := by
  cases action with
  | note rule =>
    simp only [perform, Action.enrolled]
    split <;> rfl
  | _ => rfl

theorem Draft.performAll_names (draft : Draft) (actions : List Action) :
    (draft.performAll actions).names = Action.enrolledAll draft.names actions := by
  induction actions generalizing draft with
  | nil => rfl
  | cons action rest ih =>
    change ((draft.perform action).performAll rest).names = _
    rw [ih, perform_names, Action.enrolledAll_cons]

structure Stage where
  names : List String
  control : Control

namespace Stage

/-- Where a script starts. -/
def start : Stage := ⟨[], .start⟩

def react (stage : Stage) (token : Token) : Reaction :=
  stage.control.react stage.names token

/-- Tokens are moved over, and some actions are taken. -/
inductive Reads : Stage → List Token → List Action → Stage → Prop where
  | nil (stage : Stage) : Reads stage [] [] stage
  | cons {stage last : Stage} {token : Token} {before after actions : List Action}
      {next : Control} {rest : List Token} :
      stage.react token = ⟨before, .shift after next⟩ →
      Reads ⟨Action.enrolledAll stage.names (before ++ after), next⟩ rest actions last →
      Reads stage (token :: rest) (before ++ after ++ actions) last

/-- The tokens are read up to the last one, at which the script is accepted. -/
def Accepts (stage : Stage) (tokens : List Token) : Prop :=
  ∃ front last actions final before, tokens = front ++ [last] ∧
    Reads stage front actions final ∧ final.react last = ⟨before, .accept⟩

namespace Reads
variable {stage middle last : Stage} {first second tokens : List Token}
  {actions further : List Action}

theorem single {names : List String} {token : Token} {control next : Control}
    {before after : List Action} (moves : control.Moves names token before after next) :
    Reads ⟨names, control⟩ [token] (before ++ after)
      ⟨Action.enrolledAll names (before ++ after), next⟩ := by
  have reaction : Stage.react ⟨names, control⟩ token = ⟨before, .shift after next⟩ := moves.react
  simpa using Reads.cons reaction (.nil _)

/-- Where a move enrolls no name. -/
theorem quiet {names : List String} {token : Token} {control next : Control}
    {before after : List Action} (moves : control.Moves names token before after next)
    (same : Action.enrolledAll names (before ++ after) = names) :
    Reads ⟨names, control⟩ [token] (before ++ after) ⟨names, next⟩ := by
  simpa only [same] using Reads.single moves

theorem append (front : Reads stage first actions middle)
    (back : Reads middle second further last) :
    Reads stage (first ++ second) (actions ++ further) last := by
  induction front with
  | nil => exact back
  | cons reaction _ ih =>
    simpa only [List.cons_append, List.append_assoc] using Reads.cons reaction (ih back)

theorem split (read : Reads stage (first ++ second) actions last) :
    ∃ middle before after, Reads stage first before middle ∧ Reads middle second after last ∧
      actions = before ++ after := by
  induction first generalizing stage actions with
  | nil => exact ⟨stage, [], actions, .nil _, read, rfl⟩
  | cons token first ih =>
    cases read with
    | cons reaction rest =>
      obtain ⟨middle, before, after, front, back, rfl⟩ := ih rest
      exact ⟨middle, _, after, .cons reaction front, back, by simp⟩

/-- What is read, and what is done meanwhile, is determined. -/
theorem unique (read : Reads stage tokens actions last) {other : Stage}
    (again : Reads stage tokens further other) : actions = further ∧ last = other := by
  induction read generalizing further with
  | nil =>
    cases again
    exact ⟨rfl, rfl⟩
  | cons reaction _ ih =>
    cases again with
    | cons reaction' rest' =>
      have same := reaction.symm.trans reaction'
      simp only [Reaction.mk.injEq, Verdict.shift.injEq] at same
      obtain ⟨rfl, rfl, rfl⟩ := same
      obtain ⟨rfl, rfl⟩ := ih rest'
      exact ⟨rfl, rfl⟩

end Reads

variable {stage last : Stage} {front rest : List Token} {actions : List Action}

theorem Reads.accepts (read : Reads stage front actions last) (accepted : last.Accepts rest) :
    stage.Accepts (front ++ rest) := by
  obtain ⟨middle, token, further, final, before, rfl, reads, reaction⟩ := accepted
  exact ⟨front ++ middle, token, _, final, before, by simp, read.append reads, reaction⟩

/-- Behind tokens that can be read, the rest is accepted where all of them are. -/
theorem Accepts.behind (read : Reads stage front actions last)
    (accepted : stage.Accepts (front ++ rest)) (more : rest ≠ []) : last.Accepts rest := by
  obtain ⟨whole, token, taken, final, before, same, reads, reaction⟩ := accepted
  obtain ⟨rest, other, rfl⟩ := (List.eq_nil_or_concat rest).resolve_left more
  rw [List.concat_eq_append, ← List.append_assoc] at same
  obtain ⟨rfl, ending⟩ := List.append_inj' same rfl
  cases ending
  obtain ⟨middle, _, after, first, second, rfl⟩ := reads.split
  obtain ⟨rfl, rfl⟩ := read.unique first
  exact ⟨rest, _, after, final, before, List.concat_eq_append .., second, reaction⟩

end Stage
end ScriptToCpp
