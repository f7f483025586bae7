import ScriptToCpp.Proofs.Language
import Mathlib.Data.List.Basic

/-! Names in the order in which a script mentions them. Declaration before use is a condition on
this order alone, and one pass from left to right decides it. -/
namespace ScriptToCpp

/-- What an identifier does with its name. -/
inductive Mention where
  | introduces (name : String)
  | uses (name : String)
  deriving DecidableEq

namespace Mention

/-- The names known after some mentions. -/
def known (names : List String) : List Mention → List String
  | [] => names
  | introduces name :: rest => known (names.insert name) rest
  | uses _ :: rest => known names rest

/-- No name is used before it is known. -/
def Scoped (names : List String) : List Mention → Prop
  | [] => True
  | introduces name :: rest => Scoped (names.insert name) rest
  | uses name :: rest => name ∈ names ∧ Scoped names rest

@[simp] theorem known_append (names : List String) (first second : List Mention) :
    known names (first ++ second) = known (known names first) second := by
  induction first generalizing names with
  | nil => rfl
  | cons mention rest ih => cases mention <;> exact ih _

@[simp] theorem scoped_append {names : List String} {first second : List Mention} :
    Scoped names (first ++ second) ↔ Scoped names first ∧ Scoped (known names first) second := by
  induction first generalizing names with
  | nil => simp [Scoped, known]
  | cons mention rest ih =>
    cases mention with
    | introduces name => exact ih
    | uses name => simp only [List.cons_append, Scoped, known, ih, and_assoc]

theorem mem_known {names : List String} {mentions : List Mention} {name : String} :
    name ∈ known names mentions ↔ name ∈ names ∨ introduces name ∈ mentions := by
  induction mentions generalizing names with
  | nil => simp [known]
  | cons mention rest ih =>
    cases mention with
    | introduces other =>
      simp only [known, ih, List.mem_insert_iff, List.mem_cons, introduces.injEq]
      tauto
    | uses other => simp [known, ih]

end Mention

/-- Where an item stands in two lists, one behind the other. -/
theorem append_split {α : Type} {first second before behind : List α} {x : α}
    (same : first ++ second = before ++ x :: behind) :
    (∃ middle, first = before ++ x :: middle ∧ behind = middle ++ second) ∨
      ∃ middle, before = first ++ middle ∧ second = middle ++ x :: behind := by
  rcases List.append_eq_append_iff.mp same with ⟨middle, rfl, rest⟩ | ⟨middle, rfl, rest⟩
  · exact .inr ⟨middle, rfl, rest⟩
  · cases middle with
    | nil => exact .inr ⟨[], by simp, rest.symm⟩
    | cons y middle =>
      obtain ⟨rfl, rfl⟩ := List.cons.inj rest
      exact .inl ⟨middle, rfl, rfl⟩

/-- What a token mentions, where `awaited` says whether a new name is due. -/
def Token.mentions (token : Token) (awaited : Bool) : List Mention :=
  if token.kind = .identifier then
    [if awaited then .introduces token.text else .uses token.text]
  else []

/-- What a pass over a run of tokens meets. -/
def scan (awaited : Bool) : List Token → List Mention
  | [] => []
  | token :: rest => token.mentions awaited ++ scan token.kind.introduces rest

theorem scan_concat {awaited : Bool} {tokens : List Token} {token : Token}
    (kind : token.kind ≠ .identifier) :
    scan awaited (tokens ++ [token]) = scan awaited tokens := by
  induction tokens generalizing awaited with
  | nil => simp [scan, Token.mentions, kind]
  | cons first rest ih => simp only [List.cons_append, scan, ih]

theorem awaitsName_concat {tokens : List Token} {token : Token} :
    AwaitsName (tokens ++ [token]) ↔ token.kind.introduces := by
  constructor
  · rintro ⟨front, word, same, introduces⟩
    obtain ⟨_, same⟩ := List.append_inj' same rfl
    cases same
    exact introduces
  · exact fun introduces => ⟨tokens, token, rfl, introduces⟩

theorem introduces_concat {tokens : List Token} {token : Token} {name : String} :
    Introduces (tokens ++ [token]) name ↔ Introduces tokens name ∨
      AwaitsName tokens ∧ token.kind = .identifier ∧ token.text = name := by
  constructor
  · rintro ⟨front, word, fresh, back, same, introduces, identifier, text⟩
    rcases List.eq_nil_or_concat back with rfl | ⟨back, last, rfl⟩
    · have split : tokens ++ [token] = (front ++ [word]) ++ [fresh] := by simpa using same
      obtain ⟨rfl, last⟩ := List.append_inj' split rfl
      cases last
      exact .inr ⟨⟨front, word, rfl, introduces⟩, identifier, text⟩
    · have split : tokens ++ [token] = (front ++ word :: fresh :: back) ++ [last] := by
        simpa using same
      obtain ⟨rfl, _⟩ := List.append_inj' split rfl
      exact .inl ⟨front, word, fresh, back, rfl, introduces, identifier, text⟩
  · rintro (⟨front, word, fresh, back, rfl, rest⟩ | ⟨⟨front, word, rfl, introduces⟩, rest⟩)
    · exact ⟨front, word, fresh, back ++ [token], by simp, rest⟩
    · exact ⟨front, word, token, [], by simp, introduces, rest⟩

/-- The pass over the tokens behind `before`, in the state that the pass over `before` ends in. -/
theorem scoped_scan_iff {before tokens : List Token} {names : List String} {awaited : Bool}
    (known : ∀ name, name ∈ names ↔ Introduces before name)
    (due : awaited = true ↔ AwaitsName before) :
    Mention.Scoped names (scan awaited tokens) ↔
      ∀ middle token after, tokens = middle ++ token :: after → token.kind = .identifier →
        ¬ AwaitsName (before ++ middle) → Introduces (before ++ middle) token.text := by
  induction tokens generalizing before names awaited with
  | nil => simp [scan, Mention.Scoped]
  | cons token rest ih =>
    have due' : token.kind.introduces = true ↔ AwaitsName (before ++ [token]) :=
      awaitsName_concat.symm
    -- The first token is looked at here; all others are those of the pass behind it.
    have split : (∀ middle other after, token :: rest = middle ++ other :: after →
          other.kind = .identifier → ¬ AwaitsName (before ++ middle) →
          Introduces (before ++ middle) other.text) ↔
        (token.kind = .identifier → ¬ AwaitsName before → Introduces before token.text) ∧
        ∀ middle other after, rest = middle ++ other :: after → other.kind = .identifier →
          ¬ AwaitsName (before ++ [token] ++ middle) →
          Introduces (before ++ [token] ++ middle) other.text := by
      constructor
      · intro all
        refine ⟨fun identifier new => ?_, fun middle other after same => ?_⟩
        · simpa using all [] token rest rfl identifier (by simpa using new)
        · simpa using all (token :: middle) other after (by simp [same])
      · rintro ⟨first, others⟩ middle other after same
        cases middle with
        | nil =>
          cases same
          simpa using first
        | cons head middle =>
          rw [List.cons_append, List.cons.injEq] at same
          obtain ⟨rfl, same⟩ := same
          simpa using others middle other after same
    rw [split]
    by_cases identifier : token.kind = .identifier
    · have plain : token.kind.introduces = false := by rw [identifier]; rfl
      cases awaited with
      | true =>
        have awaits := due.mp rfl
        have known' : ∀ name, name ∈ names.insert token.text ↔
            Introduces (before ++ [token]) name := by
          intro name
          rw [introduces_concat, List.mem_insert_iff, known]
          constructor
          · rintro (rfl | earlier)
            · exact .inr ⟨awaits, identifier, rfl⟩
            · exact .inl earlier
          · rintro (earlier | ⟨_, _, rfl⟩)
            · exact .inr earlier
            · exact .inl rfl
        simpa [scan, Token.mentions, identifier, Mention.Scoped, awaits] using
          ih known' due'
      | false =>
        have idle : ¬ AwaitsName before := by simpa using due
        have known' : ∀ name, name ∈ names ↔ Introduces (before ++ [token]) name := by
          intro name
          simp [introduces_concat, idle, known]
        simpa [scan, Token.mentions, identifier, Mention.Scoped, idle, known] using
          fun _ => ih known' due'
    · have known' : ∀ name, name ∈ names ↔ Introduces (before ++ [token]) name := by
        intro name
        simp [introduces_concat, identifier, known]
      simpa [scan, Token.mentions, identifier] using ih known' due'

theorem declaredBeforeUse_iff {tokens : List Token} :
    DeclaredBeforeUse tokens ↔ Mention.Scoped [] (scan false tokens) := by
  have known : ∀ name, name ∈ ([] : List String) ↔ Introduces [] name := by
    intro name
    simp [Introduces]
  have due : false = true ↔ AwaitsName [] := by simp [AwaitsName]
  exact (scoped_scan_iff known due).symm

end ScriptToCpp
