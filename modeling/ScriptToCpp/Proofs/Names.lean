import ScriptToCpp.Cpp.Spelling
import ScriptToCpp.Proofs.Lexing
import ScriptToCpp.Proofs.ScriptTree

/-! The names of scripts. They hold letters and digits only, so that the underscore behind a
reserved name sets it apart from all others: two variables of a script are never one variable of
the generated program. -/
namespace ScriptToCpp

/-- What scripts may call a variable. -/
def IsName (text : String) : Prop :=
  ∃ spelling, Lexical.Spells .identifier text spelling

namespace IsName
variable {name other : String}

theorem word (named : IsName name) :
    (∀ c ∈ name.toList, c.isAlphanum) ∧ ∀ kind : Kind, kind.spelling? ≠ some name := by
  obtain ⟨spelling, spelled⟩ := named
  cases spelled with
  | fixed _ same => contradiction
  | name letter others free =>
    refine ⟨?_, free⟩
    intro c member
    rw [String.toList_ofList] at member
    rcases List.mem_cons.mp member with rfl | later
    · rw [Char.isAlphanum, letter, Bool.true_or]
    · exact others c later

theorem noUnderscore (named : IsName name) : '_' ∉ name.toList := by
  intro member
  exact absurd (named.word.1 '_' member) (by decide)

end IsName

namespace Lexical

theorem Cuts.token_spelled {text : List Char} {pieces : List Piece} (cuts : Cuts text pieces)
    {here : Location} {token : Token} (member : token ∈ tokens here pieces) :
    token.kind = .eof ∨ ∃ spelling, Spells token.kind token.text spelling := by
  induction cuts generalizing here with
  | done =>
    cases List.mem_singleton.mp member
    exact .inl rfl
  | @piece _ spelling _ _ _ _ _ _ spelled _ ih =>
    rcases List.mem_cons.mp member with rfl | later
    · exact .inr ⟨spelling, spelled⟩
    · exact ih later

end Lexical

theorem tokenize_names {source : String} {tokens : List Token}
    (read : tokenize source = .ok tokens) :
    ∀ token ∈ tokens, token.kind = .identifier → IsName token.text := by
  intro token member identifier
  obtain ⟨pieces, cuts, rfl⟩ :=
    Lexical.cuts_of_drain _ (Lexical.ended_start source) (tokenize_ok_iff.mp read)
  rcases cuts.token_spelled member with ended | ⟨spelling, spelled⟩
  · rw [identifier] at ended
    contradiction
  · rw [identifier] at spelled
    exact ⟨spelling, spelled⟩

def Mention.name : Mention → String
  | introduces name | uses name => name

theorem scan_names {awaited : Bool} {tokens : List Token} {mention : Mention}
    (member : mention ∈ scan awaited tokens) :
    ∃ token ∈ tokens, token.kind = .identifier ∧ token.text = mention.name := by
  induction tokens generalizing awaited with
  | nil => contradiction
  | cons token rest ih =>
    rcases List.mem_append.mp member with here | later
    · unfold Token.mentions at here
      split at here
      next identifier =>
        refine ⟨token, by simp, identifier, ?_⟩
        rw [List.mem_singleton.mp here]
        cases awaited <;> rfl
      next => contradiction
    · obtain ⟨other, within, rest⟩ := ih later
      exact ⟨other, List.mem_cons_of_mem _ within, rest⟩

/-- The names in the tree of a text are names that scripts may use. -/
theorem Script.Spells.names {source : String} {tokens : List Token}
    {statements : List Script.Statement} (spelled : Script.Spells statements tokens)
    (read : tokenize source = .ok tokens) :
    ∀ mention ∈ Script.Statement.mentionsAll statements, IsName mention.name := by
  intro mention member
  rw [← spelled.scan] at member
  obtain ⟨token, within, identifier, same⟩ := scan_names member
  rw [← same]
  exact tokenize_names read token within identifier

namespace Cpp

theorem variableName_cases (name : String) :
    name ∈ reservedNames ∧ variableName name = name ++ "_" ∨
      name ∉ reservedNames ∧ variableName name = name := by
  unfold variableName
  split
  next reserved => exact .inl ⟨reserved, rfl⟩
  next free => exact .inr ⟨free, rfl⟩

theorem underscore_mem (name : String) : '_' ∈ (name ++ "_").toList := by
  rw [String.toList_append]
  exact List.mem_append_right _ (by decide)

/-- Two variables of a script have different names in the generated program. -/
theorem variableName_injective {name other : String} (first : IsName name) (second : IsName other)
    (same : variableName name = variableName other) : name = other := by
  rcases variableName_cases name with ⟨_, renamed⟩ | ⟨_, kept⟩
  · rcases variableName_cases other with ⟨_, again⟩ | ⟨_, kept⟩
    · rw [renamed, again] at same
      have chars := congrArg String.toList same
      rw [String.toList_append, String.toList_append] at chars
      exact String.toList_injective (List.append_cancel_right chars)
    · rw [renamed, kept] at same
      exact absurd (same ▸ underscore_mem name) second.noUnderscore
  · rcases variableName_cases other with ⟨_, renamed⟩ | ⟨_, again⟩
    · rw [kept, renamed] at same
      exact absurd (same ▸ underscore_mem other) first.noUnderscore
    · rw [kept, again] at same
      exact same

end Cpp
end ScriptToCpp
