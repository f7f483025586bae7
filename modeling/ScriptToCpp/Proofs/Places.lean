import ScriptToCpp.Failure
import ScriptToCpp.Proofs.Lines
import Mathlib

/-! The places of tokens and faults. Whatever is asked of a stream, and in whatever order, also
behind a fault: an item is found at the place that counting the line breaks and the characters
before it gives, and later tokens stand further on. -/
namespace ScriptToCpp
open Lexical (Ended Gap Spells)

namespace Location

/-- The place behind the first characters of a text: one line for each line break among them, and
one column for each character behind the last line break. -/
def behind (passed : List Char) : Location :=
  ⟨1 + passed.count '\n', 1 + (passed.reverse.takeWhile (· != '\n')).length⟩

/-- Going along a text keeps lines and columns right. -/
theorem behind_concat (passed : List Char) (c : Char) :
    (behind passed).after c = behind (passed ++ [c]) := by
  unfold behind after
  rw [List.count_append, List.reverse_append]
  by_cases newline : c = '\n'
  · subst newline
    rfl
  · rw [if_neg newline]
    simp [newline]
    omega

theorem behind_append (passed more : List Char) :
    (behind passed).afterAll more = behind (passed ++ more) := by
  induction more generalizing passed with
  | nil => rw [List.append_nil, afterAll_nil]
  | cons c rest ih => rw [afterAll_cons, behind_concat, ih, List.append_assoc, List.singleton_append]

/-- Places are compared by their lines, and on one line by their columns. -/
def order (here : Location) : ℕ ×ₗ ℕ :=
  toLex (here.line, here.column)

theorem order_after (here : Location) (c : Char) : here.order < (here.after c).order := by
  unfold after order
  rw [Prod.Lex.toLex_lt_toLex]
  split
  · exact .inl (Nat.lt_succ_self _)
  · exact .inr ⟨rfl, Nat.lt_succ_self _⟩

theorem order_afterAll (here : Location) (passed : List Char) :
    here.order ≤ (here.afterAll passed).order := by
  induction passed generalizing here with
  | nil => exact le_refl _
  | cons c rest ih => exact (here.order_after c).le.trans (ih _)

theorem order_afterAll_lt (here : Location) {passed : List Char} (some : passed ≠ []) :
    here.order < (here.afterAll passed).order := by
  obtain ⟨c, rest, rfl⟩ := List.exists_cons_of_ne_nil some
  exact (here.order_after c).trans_le (order_afterAll _ rest)

end Location

namespace Lexeme
variable {text : List Char}

/-- A fault is found right before the character that it names. -/
def Reading.Stops (reading : Reading) : Prop :=
  ∀ cause, reading.result = .error cause → reading.rest.head? = some cause.character

theorem found_stops {kind : Kind} {lexeme : String} {spelling rest : List Char} :
    (found kind lexeme spelling rest).Stops := by
  intro cause result
  contradiction

theorem fault_stops {cause : LexError.Cause} {passed rest : List Char} :
    (fault cause passed (cause.character :: rest)).Stops := by
  intro other result
  cases result
  rfl

theorem bang_stops : (bang text).Stops := by
  unfold bang
  split
  · exact found_stops
  · exact fault_stops

/-- A string that is not closed is broken off by the end of its line, at the latest. -/
theorem quoted_stops (broken : '\n' ∈ text) : (quoted text).Stops := by
  have left := mem_dropWhile_line (p := isStringChar) (by decide) broken
  unfold quoted
  split
  next behind =>
    rw [behind] at left
    contradiction
  next =>
    split
    · exact found_stops
    · exact fault_stops

theorem number_stops : (number text).Stops := by
  unfold number
  split
  · dsimp only
    split
    · exact fault_stops
    · exact found_stops
  · exact found_stops

theorem read_stops {c : Char} (broken : '\n' ∈ c :: text) : (read c text).Stops := by
  unfold read
  split
  case h_8 | h_9 | h_10 =>
    unfold extensible
    split <;> exact found_stops
  case h_11 => exact bang_stops
  case h_12 => exact quoted_stops (by simpa using broken)
  case h_13 =>
    split
    · exact number_stops
    · split
      · exact found_stops
      · exact fault_stops
  all_goals exact found_stops

end Lexeme

namespace Cursor
variable {cursor behind : Cursor} {fault : LexError}

/-- A fault is found behind a gap and perhaps a part of a lexeme, and the cursor is left on it. -/
theorem next_stopped (ended : Ended cursor.rest) (read : cursor.next = (.error fault, behind)) :
    ∃ taken more, cursor.rest = gap cursor.rest ++ (taken ++ behind.rest) ∧
      behind.rest = fault.cause.character :: more ∧ fault.location = behind.location ∧
      behind.location = cursor.location.afterAll (gap cursor.rest ++ taken) := by
  have some : cursor.rest ≠ [] := by
    intro empty
    obtain ⟨_, _, again, _⟩ := next_empty empty
    cases read.symm.trans again
  have broken := skipGap_broken (ended.broken some)
  have whole := cursor.rest_eq
  unfold next lex at read
  split at read
  next => simp at read
  next c text start =>
    rw [start] at broken whole
    dsimp only at read
    split at read
    next => simp at read
    next cause result =>
      cases read
      obtain ⟨more, rest⟩ :=
        List.head?_eq_some_iff.mp (Lexeme.read_stops broken cause result)
      refine ⟨(Lexeme.read c text).passed, more, ?_, rest, rfl, ?_⟩
      · rw [(Lexeme.read_splits c text).append]
        exact whole
      · rw [Location.afterAll_append]
        rfl

theorem next_of_empty (empty : cursor.rest = []) :
    cursor.next = (.ok ⟨.eof, "", cursor.location⟩, cursor) := by
  obtain ⟨rest, here⟩ := cursor
  cases empty
  rfl

end Cursor

namespace TokenStream

/-- What can be asked of a stream: a token, whether or not the pass is over, or the next item of the
pass. -/
inductive Call where
  | read
  | next

/-- What a call gives, if anything, and the stream behind it. -/
def answer (stream : TokenStream) : Call → Option (Except LexError Token) × TokenStream
  | .read => (some stream.read.1, stream.read.2)
  | .next =>
    match stream.next? with
    | some (item, behind) => (some item, behind)
    | none => (none, stream)

/-- An item that was read, and the cursor before and behind it. -/
structure Step where
  before : Cursor
  item : Except LexError Token
  behind : Cursor

/-- The items that calls give, one after the other. -/
def steps (stream : TokenStream) : List Call → List Step
  | [] => []
  | call :: calls =>
    match stream.answer call with
    | (some item, behind) => ⟨stream.cursor, item, behind.cursor⟩ :: behind.steps calls
    | (none, behind) => behind.steps calls

namespace Step

/-- The token that was read, unless it is the end token. -/
def token? (step : Step) : Option Token :=
  match step.item with
  | .ok token => if token.kind = .eof then none else some token
  | .error _ => none

/-- An item is where counting in the text puts it. -/
inductive Located (text : List Char) : Step → Prop where
  /-- A token is passed, and a gap before it. Its place is that of the first character of its
  spelling. -/
  | token {passed gap spelling rest : List Char} {kind : Kind} {lexeme : String} :
      text = passed ++ (gap ++ (spelling ++ rest)) → Gap gap → Spells kind lexeme spelling →
      Located text ⟨⟨gap ++ (spelling ++ rest), .behind passed⟩,
        .ok ⟨kind, lexeme, .behind (passed ++ gap)⟩,
        ⟨rest, .behind (passed ++ (gap ++ spelling))⟩⟩
  /-- Behind the whole text there is the end token. -/
  | last : Located text ⟨⟨[], .behind text⟩, .ok ⟨.eof, "", .behind text⟩, ⟨[], .behind text⟩⟩
  /-- The character that a fault names stands at its place, and the cursor is left there. -/
  | fault {passed gap taken rest : List Char} {cause : LexError.Cause} :
      text = passed ++ (gap ++ (taken ++ cause.character :: rest)) → Gap gap →
      Located text ⟨⟨gap ++ (taken ++ cause.character :: rest), .behind passed⟩,
        .error ⟨cause, .behind (passed ++ (gap ++ taken))⟩,
        ⟨cause.character :: rest, .behind (passed ++ (gap ++ taken))⟩⟩

end Step
end TokenStream

namespace Cursor
variable {text : List Char} {cursor behind : Cursor} {item : Except LexError Token}

/-- The cursor stands somewhere in the text, and knows where. -/
def Within (text : List Char) (cursor : Cursor) : Prop :=
  ∃ passed, text = passed ++ cursor.rest ∧ cursor.location = .behind passed

/-- One reading step: what it gives is where the text has it. -/
theorem Within.next (within : cursor.Within text) (ended : Ended text)
    (read : cursor.next = (item, behind)) : TokenStream.Step.Located text ⟨cursor, item, behind⟩ := by
  obtain ⟨passed, same, here⟩ := within
  have endedRest : Ended cursor.rest := by
    rw [same] at ended
    exact ended.behind
  have formed := (gap_formed cursor.rest).2
  cases item with
  | error fault =>
    obtain ⟨taken, more, whole, rest, place, there⟩ := next_stopped endedRest read
    obtain ⟨cause, location⟩ := fault
    obtain ⟨left, location'⟩ := behind
    cases rest
    cases place
    generalize gap cursor.rest = gap at whole there formed
    rw [here, Location.behind_append] at there
    rw [whole] at same
    obtain ⟨all, location⟩ := cursor
    cases here
    cases whole
    cases there
    exact .fault same formed
  | ok token =>
    by_cases last : token.kind = .eof
    · obtain ⟨whole, _⟩ := next_ended read last
      have empty : cursor.rest = [] := endedRest.gap (whole ▸ formed)
      rw [next_of_empty empty] at read
      cases read
      obtain ⟨rest, location⟩ := cursor
      cases empty
      cases here
      rw [List.append_nil] at same
      subst same
      exact .last
    · obtain ⟨spelling, start, _, spelled, place, there⟩ := next_found read last
      have whole := cursor.rest_eq
      rw [start] at whole
      generalize gap cursor.rest = gap at whole place there formed
      rw [here, Location.behind_append] at place there
      rw [whole] at same
      obtain ⟨kind, lexeme, location⟩ := token
      obtain ⟨left, location'⟩ := behind
      obtain ⟨all, location⟩ := cursor
      cases here
      cases whole
      cases place
      cases there
      exact .token same formed spelled

end Cursor

namespace TokenStream
variable {text : List Char} {stream : TokenStream}

namespace Step.Located
variable {step : Step}

/-- Reading goes on within the text. -/
theorem within (located : step.Located text) : step.behind.Within text := by
  cases located with
  | token same => exact ⟨_, by rw [same]; simp, rfl⟩
  | last => exact ⟨text, by simp, rfl⟩
  | fault same => exact ⟨_, by rw [same]; simp, rfl⟩

theorem order_le (located : step.Located text) :
    step.before.location.order ≤ step.behind.location.order := by
  cases located with
  | @token passed gap spelling =>
    have behind := Location.order_afterAll (.behind passed) (gap ++ spelling)
    rwa [Location.behind_append] at behind
  | last => exact le_refl _
  | @fault passed gap taken =>
    have behind := Location.order_afterAll (.behind passed) (gap ++ taken)
    rwa [Location.behind_append] at behind

/-- A token stands between the two cursors, and the second one is behind it. -/
theorem token_order (located : step.Located text) {token : Token} (found : step.token? = some token) :
    step.before.location.order ≤ token.location.order ∧
      token.location.order < step.behind.location.order := by
  cases located with
  | last => contradiction
  | fault => contradiction
  | @token passed gap spelling rest kind lexeme _ _ spelled =>
    simp only [token?, spelled.notEnd, if_false, Option.some.injEq] at found
    subst found
    have before := Location.order_afterAll (.behind passed) gap
    have behind := Location.order_afterAll_lt (.behind (passed ++ gap)) spelled.nonempty
    rw [Location.behind_append] at before behind
    rw [List.append_assoc] at behind
    exact ⟨before, behind⟩

end Step.Located

/-- Items that are found one behind the other, from a cursor on. -/
inductive Follow (text : List Char) : Cursor → List Step → Prop where
  | nil (cursor : Cursor) : Follow text cursor []
  | cons {step : Step} {steps : List Step} :
      step.Located text → Follow text step.behind steps → Follow text step.before (step :: steps)

/-- A call reads on from the cursor, or gives nothing and changes nothing. -/
theorem answer_cases (stream : TokenStream) (call : Call) :
    (∃ behind, stream.answer call = (some stream.cursor.next.1, behind) ∧
      behind.cursor = stream.cursor.next.2) ∨ stream.answer call = (none, stream) := by
  cases call with
  | read => exact .inl ⟨_, rfl, rfl⟩
  | next =>
    unfold answer next?
    cases stream.finished with
    | true => exact .inr rfl
    | false => exact .inl ⟨_, rfl, rfl⟩

theorem steps_follow (within : stream.cursor.Within text) (ended : Ended text)
    (calls : List Call) : Follow text stream.cursor (stream.steps calls) := by
  induction calls generalizing stream with
  | nil => exact .nil _
  | cons call calls ih =>
    rw [steps]
    rcases stream.answer_cases call with ⟨behind, given, cursor⟩ | given
    · rcases read : stream.cursor.next with ⟨item, further⟩
      rw [read] at given cursor
      subst cursor
      have located := within.next ended read
      rw [given]
      exact Follow.cons located (ih located.within)
    · rw [given]
      exact ih within

namespace Follow
variable {cursor : Cursor} {steps : List Step}

theorem located (follow : Follow text cursor steps) : ∀ step ∈ steps, step.Located text := by
  induction follow with
  | nil => nofun
  | cons located _ ih =>
    intro step member
    rcases List.mem_cons.mp member with rfl | member
    · exact located
    · exact ih step member

/-- No token stands before the cursor from which it is found. -/
theorem order_le (follow : Follow text cursor steps) :
    ∀ token ∈ steps.filterMap Step.token?, cursor.location.order ≤ token.location.order := by
  induction follow with
  | nil => nofun
  | @cons first rest located _ ih =>
    intro token member
    obtain ⟨step, member, found⟩ := List.mem_filterMap.mp member
    rcases List.mem_cons.mp member with rfl | member
    · exact (located.token_order found).1
    · exact located.order_le.trans (ih token (List.mem_filterMap.mpr ⟨step, member, found⟩))

theorem increasing (follow : Follow text cursor steps) :
    (steps.filterMap Step.token?).Pairwise
      fun token later => token.location.order < later.location.order := by
  induction follow with
  | nil => exact .nil
  | cons located rest ih =>
    rw [List.filterMap_cons]
    split
    next => exact ih
    next token found =>
      apply List.Pairwise.cons _ ih
      intro later member
      exact (located.token_order found).2.trans_le (rest.order_le later member)

end Follow
end TokenStream

/-- Places are exact on every run. Whatever calls are made on the stream of a script, also behind
faults and behind the end: each item is where counting lines and columns in the text puts it, which
for a token is the first character of its spelling, for the end token the end of the text, and for a
fault the character that it names; and the places of the tokens, the end token apart, increase. -/
theorem stream_places_exact (source : String) (calls : List TokenStream.Call) :
    (∀ step ∈ (TokenStream.ofSource source).steps calls,
      step.Located (source.toList ++ ['\n'])) ∧
    (((TokenStream.ofSource source).steps calls).filterMap TokenStream.Step.token?).Pairwise
      fun token later => token.location.order < later.location.order := by
  have within : (TokenStream.ofSource source).cursor.Within (source.toList ++ ['\n']) :=
    ⟨[], rfl, rfl⟩
  have follow := TokenStream.steps_follow within (Lexical.ended_start source) calls
  exact ⟨follow.located, follow.increasing⟩

theorem place_behind_fault :
    (⟨⟨['\t', 'b', '\n'], ⟨1, 3⟩⟩, .ok ⟨.identifier, "b", ⟨1, 4⟩⟩, ⟨['\n'], ⟨1, 5⟩⟩⟩ :
        TokenStream.Step) ∈ (TokenStream.ofSource "\"a\tb").steps [.next, .next, .read, .read] ∧
      TokenStream.Step.Located ['"', 'a', '\t', 'b', '\n']
        ⟨⟨['\t', 'b', '\n'], ⟨1, 3⟩⟩, .ok ⟨.identifier, "b", ⟨1, 4⟩⟩, ⟨['\n'], ⟨1, 5⟩⟩⟩ ∧
      [⟨.identifier, "b", ⟨1, 4⟩⟩, ⟨.newline, "\n", ⟨1, 5⟩⟩].Pairwise
        fun (token later : Token) => token.location.order < later.location.order := by
  have steps : (TokenStream.ofSource "\"a\tb").steps [.next, .next, .read, .read] =
      [⟨⟨['"', 'a', '\t', 'b', '\n'], ⟨1, 1⟩⟩, .error ⟨.strayInString '\t', ⟨1, 3⟩⟩,
          ⟨['\t', 'b', '\n'], ⟨1, 3⟩⟩⟩,
        ⟨⟨['\t', 'b', '\n'], ⟨1, 3⟩⟩, .ok ⟨.identifier, "b", ⟨1, 4⟩⟩, ⟨['\n'], ⟨1, 5⟩⟩⟩,
        ⟨⟨['\n'], ⟨1, 5⟩⟩, .ok ⟨.newline, "\n", ⟨1, 5⟩⟩, ⟨[], ⟨2, 1⟩⟩⟩] := by
    cbv
  obtain ⟨located, increasing⟩ :=
    stream_places_exact "\"a\tb" [.next, .next, .read, .read]
  rw [steps] at located increasing ⊢
  exact ⟨by simp, located _ (by simp), increasing⟩

end ScriptToCpp
