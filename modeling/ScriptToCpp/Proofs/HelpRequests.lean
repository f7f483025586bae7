import ScriptToCpp.Command.Run

/-! Asking for help. Wherever a command line could end, the flag for help may follow: then nothing is
run, and what is explained is the command that the words before it ask for. Two dashes alone are the
exception, since no flags follow them. -/
namespace ScriptToCpp

/-- What is explained about a command. -/
def Command.topic : Command → Topic
  | .compile _ => .program
  | .listTokens _ _ => .tokens
  | .showSettings => .showSettings
  | .initSettings => .initSettings

namespace Request

def helpFlag : Argument := bytesOf "--help"

/-- Words behind which flags are flags. -/
def Open (arguments : List Argument) : Prop :=
  [dash, dash] ∉ arguments

theorem shape_separator {argument : Argument} (separator : shape argument = .separator) :
    argument = [dash, dash] := by
  fun_cases shape argument with
  | case3 first second dashed again =>
    rw [Decidable.not_not.mp dashed, Decidable.not_not.mp again]
  | _ => simp_all [shape]

theorem Open.head {argument : Argument} {arguments : List Argument}
    (opens : Open (argument :: arguments)) : shape argument ≠ .separator :=
  fun separator => opens (shape_separator separator ▸ List.mem_cons_self)

theorem Open.tail {argument : Argument} {arguments : List Argument}
    (opens : Open (argument :: arguments)) : Open arguments :=
  fun member => opens (List.mem_cons_of_mem _ member)

theorem bind_ok {α β : Type} {x : Except Stop α} {f : α → Except Stop β} {b : β}
    (whole : x >>= f = .ok b) : ∃ a, x = .ok a ∧ f a = .ok b := by
  cases x with
  | error stop => contradiction
  | ok a => exact ⟨a, rfl, whole⟩

theorem tokens_help {file : Option Path} {json : Bool} {arguments : List Argument}
    {command : Command} (asked : tokens file json arguments = .ok command)
    (opens : Open arguments) :
    tokens file json (arguments ++ [helpFlag]) = .error (.help command.topic) := by
  induction arguments generalizing file json with
  | nil =>
    obtain ⟨named, checked, made⟩ := bind_ok asked
    change checkFile file >>= _ = _
    rw [checked]
    cases named with
    | none => contradiction
    | some file =>
      cases made
      rfl
  | cons argument arguments ih =>
    rw [List.cons_append]
    rw [tokens] at asked ⊢
    cases shaped : shape argument with
    | separator => exact absurd shaped opens.head
    | longFlag name =>
      rw [shaped] at asked
      obtain ⟨_, checked, further⟩ := bind_ok asked
      simp only [checked, bind, Except.bind]
      split at further
      next first =>
        rw [if_pos first]
        exact ih further opens.tail
      · contradiction
    | shortFlags letters =>
      rw [shaped] at asked
      obtain ⟨_, _, stopped⟩ := bind_ok asked
      contradiction
    | word =>
      rw [shaped] at asked
      obtain ⟨_, added, further⟩ := bind_ok asked
      simp only [added, bind, Except.bind]
      exact ih further opens.tail

theorem nothing_help {topic : Topic} {command asked : Command} {arguments : List Argument}
    (accepted : nothing topic command arguments = .ok asked) (opens : Open arguments) :
    asked = command ∧ nothing topic command (arguments ++ [helpFlag]) = .error (.help topic) := by
  cases arguments with
  | nil =>
    cases accepted
    exact ⟨rfl, rfl⟩
  | cons argument arguments =>
    rw [nothing] at accepted
    cases shaped : shape argument with
    | separator => exact absurd shaped opens.head
    | longFlag | shortFlags | word =>
      rw [shaped] at accepted
      contradiction

theorem settings_help {arguments : List Argument} {command : Command}
    (asked : settings arguments = .ok command) (opens : Open arguments) :
    settings (arguments ++ [helpFlag]) = .error (.help command.topic) := by
  cases arguments with
  | nil => contradiction
  | cons argument arguments =>
    rw [List.cons_append]
    rw [settings] at asked ⊢
    cases shaped : shape argument with
    | separator => exact absurd shaped opens.head
    | longFlag | shortFlags =>
      rw [shaped] at asked
      contradiction
    | word =>
      rw [shaped] at asked
      simp only at asked ⊢
      split at asked
      · obtain ⟨rfl, explained⟩ := nothing_help asked opens.tail
        exact explained
      · obtain ⟨rfl, explained⟩ := nothing_help asked opens.tail
        exact explained
      · contradiction
      · contradiction

theorem read_help {verbose : Bool} {file : Option Path} {arguments : List Argument}
    {request : Request} (asked : read verbose file arguments = .ok request)
    (opens : Open arguments) :
    read verbose file (arguments ++ [helpFlag]) = .error (.help request.command.topic) := by
  induction arguments generalizing verbose file with
  | nil =>
    obtain ⟨_, checked, made⟩ := bind_ok asked
    cases made
    change checkFile file >>= _ = _
    rw [checked]
    rfl
  | cons argument arguments ih =>
    rw [List.cons_append]
    rw [read] at asked ⊢
    cases shaped : shape argument with
    | separator => exact absurd shaped opens.head
    | longFlag name | shortFlags letters =>
      rw [shaped] at asked
      obtain ⟨_, checked, flagged⟩ := bind_ok asked
      obtain ⟨_, known, further⟩ := bind_ok flagged
      simp only [checked, known, bind, Except.bind]
      exact ih further opens.tail
    | word =>
      rw [shaped] at asked
      simp only at asked ⊢
      split at asked
      · obtain ⟨command, listed, rest⟩ := bind_ok asked
        obtain ⟨_, _, made⟩ := bind_ok rest
        cases made
        simp only [tokens_help listed opens.tail, bind, Except.bind]
      · obtain ⟨command, kept, rest⟩ := bind_ok asked
        obtain ⟨_, _, made⟩ := bind_ok rest
        cases made
        simp only [settings_help kept opens.tail, bind, Except.bind]
      · contradiction
      · obtain ⟨_, added, further⟩ := bind_ok asked
        simp only [added, bind, Except.bind]
        exact ih further opens.tail

end Request

/-- Behind a command line that could be run, the flag for help keeps it from being run. -/
theorem runArguments_help {arguments : List Request.Argument} {request : Request}
    (asked : Request.ofArguments arguments = .ok request) (opens : Request.Open arguments)
    {m : Type → Type} [Monad m] [FileAccess m] (environment : Environment) :
    runArguments (m := m) (arguments ++ [Request.helpFlag]) environment =
      pure (Outcome.help request.command.topic) := by
  have stopped : Request.ofArguments (arguments ++ [Request.helpFlag]) =
      .error (.help request.command.topic) :=
    Request.read_help asked opens
  rw [runArguments, stopped]

end ScriptToCpp
