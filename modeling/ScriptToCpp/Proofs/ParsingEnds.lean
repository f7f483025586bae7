import ScriptToCpp.Proofs.DescentRuns
import ScriptToCpp.Proofs.Sessions
import Mathlib

/-! Parsing ends. Recursive descent has an answer for every session, and for every further program
that the session is asked for, also behind a fault; it is the answer that the session gives. -/
namespace ScriptToCpp

namespace Parser
variable {parser next : Parser} {rounds : Nat}

/-- No token has been moved over. -/
def ofSession (session : Session) : Parser :=
  ⟨session.window, session.draft, 0⟩

def session (parser : Parser) : Session :=
  ⟨parser.window, parser.draft⟩

/-- What a procedure comes to, and the parser that it leaves. -/
def settle : Except (Failure × Parser) Parser → Except Failure Unit × Parser
  | .ok parser => (.ok (), parser)
  | .error (failure, parser) => (.error failure, parser)

/-- Asks for the program so many times. Each time there is a result and a trace, if there is an
answer at all. -/
def programs (rounds : Nat) (parser : Parser) :
    Nat → Option (List (Except Failure Unit × String) × Parser)
  | 0 => some ([], parser)
  | count + 1 => do
    let (result, next) := settle (← (parser.program rounds).run)
    let (answers, last) ← next.programs rounds count
    return ((result, next.draft.trace) :: answers, last)

theorem shift_none_iff : parser.shift.run = none ↔ parser.token.kind = .eof := by
  rw [shift]
  split
  next last => exact iff_of_true rfl last
  next more =>
    rcases parser.window.shift with ⟨fault | _, window⟩
    all_goals exact iff_of_false (Option.some_ne_none _) more

theorem shift_ok (moved : parser.shift.run = some (.ok next)) :
    next.moved = parser.moved + 1 ∧ next.window.size < parser.window.size := by
  have more : parser.token.kind ≠ .eof := by
    intro last
    rw [shift_none_iff.mpr last] at moved
    contradiction
  rw [shift, if_neg more] at moved
  rcases shifted : parser.window.shift with ⟨fault | _, window⟩
  · rw [shifted] at moved
    cases moved
  · rw [shifted] at moved
    cases moved
    exact ⟨rfl, Window.shift_size_lt shifted more⟩

/-- A statement has an answer, whatever stands there. Two tokens at least belong to it. -/
theorem statement_answers (enough : parser.window.size < rounds) :
    ∃ outcome, (parser.statement rounds).run = some outcome ∧
      ∀ next, outcome = .ok next → parser.moved + 2 ≤ next.moved := by
  by_cases line : parser.token.kind = .newline ∨ parser.token.kind = .eof
  · refine ⟨.error (.grammatical ⟨.invalidStatement, parser.token⟩, parser), ?_, fun _ same => ?_⟩
    · rw [statement, Parser.line, form]
      rcases line with kind | kind <;> simp only [kind] <;> rfl
    · cases same
  · rw [not_or] at line
    rcases statement_follows line.1 line.2 enough with
      ⟨next, parsed, _, _, moved, _⟩ | ⟨failure, next, parsed, _⟩
    · rw [parsed]
      refine ⟨.ok next, rfl, fun _ same => ?_⟩
      cases same
      omega
    · rw [parsed]
      refine ⟨.error (failure, next), rfl, fun _ same => ?_⟩
      cases same

theorem program_answers (enough : parser.window.size < rounds) :
    ∃ result next, settle <$> (parser.program rounds).run = some (result, next) ∧
      parser.session.program = (result, next.session) ∧ next.total ≤ parser.total := by
  have script : Follows { parser with draft := parser.draft.opened } 0 .start _ _ _ :=
    script_follows enough
  rw [program, Session.program]
  rcases script with ⟨next, parsed, run, last, _, less⟩ | ⟨failure, next, parsed, run, less⟩
  · have accepts : next.machine .start = (.ok (), next.window, next.draft) :=
      Window.run_accept (Control.accept_iff.mpr ⟨rfl, last, rfl⟩)
    have ran : parser.session.window.run parser.session.draft.opened .start =
        (.ok (), next.window, next.draft) := run.trans accepts
    rw [parsed, ran]
    exact ⟨.ok (), { next with draft := next.draft.closed }, rfl, rfl, less⟩
  · have ran : parser.session.window.run parser.session.draft.opened .start =
        (.error failure, next.window, next.draft) := run
    rw [parsed, ran]
    exact ⟨.error failure, next, rfl, rfl, less⟩

/-- Program after program there is an answer, and it is that of the session. -/
theorem programs_answer (count : Nat) (enough : parser.total < rounds) :
    ∃ last, parser.programs rounds count = some ((parser.session.programs count).1, last) ∧
      last.session = (parser.session.programs count).2 ∧ last.total ≤ parser.total := by
  induction count generalizing parser with
  | zero => exact ⟨parser, rfl, rfl, le_refl _⟩
  | succ count ih =>
    have some : parser.window.size < rounds := (Nat.le_add_right _ _).trans_lt enough
    obtain ⟨result, next, answered, same, less⟩ := program_answers some
    obtain ⟨last, answers, final, less'⟩ := ih (less.trans_lt enough)
    obtain ⟨outcome, parsed, settled⟩ := Option.map_eq_some_iff.mp answered
    refine ⟨last, ?_, ?_, less'.trans less⟩
    · simp only [programs, Session.programs, parsed, settled, same, answers, bind, Option.bind]
      rfl
    · simp only [Session.programs, same, final]

end Parser

/-- Parsing ends, whatever a session holds, also where a fault has left it. Every program that it is
asked for has an answer by recursive descent, the one that the session gives, once there are more
rounds than there is still to come; there would be none if a rule ran for ever or moved on from the
end token. Every statement has an answer, and two tokens or more have been moved over behind one
that is complete. Each token that is moved over leaves less to come: all programs together move over
no more of them than there are characters not yet read and tokens in the window. -/
theorem parsing_ends (session : Session) (count : Nat) :
    (∀ rounds, session.window.size < rounds → ∃ last,
      (Parser.ofSession session).programs rounds count =
        some ((session.programs count).1, last) ∧
      last.session = (session.programs count).2 ∧
      last.window.size + last.moved ≤ session.window.size) ∧
    (∀ (parser : Parser) (rounds : Nat), parser.window.size < rounds →
      ∃ outcome, (parser.statement rounds).run = some outcome ∧
        ∀ next, outcome = .ok next → parser.moved + 2 ≤ next.moved) ∧
    ∀ parser : Parser, (parser.shift.run = none ↔ parser.token.kind = .eof) ∧
      ∀ next, parser.shift.run = some (.ok next) →
        next.moved = parser.moved + 1 ∧ next.window.size < parser.window.size :=
  ⟨fun _ enough => Parser.programs_answer count enough,
    fun _ _ enough => Parser.statement_answers enough,
    fun _ => ⟨Parser.shift_none_iff, fun _ => Parser.shift_ok⟩⟩

end ScriptToCpp
