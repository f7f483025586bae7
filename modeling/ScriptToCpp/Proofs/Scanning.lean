import ScriptToCpp.Proofs.Scanner
import ScriptToCpp.Proofs.TokenList
import Mathlib

/-! Scanning ends. Whatever has been asked of a scanner before, each further call has an answer, and
it is the one that the stream of tokens gives: no loop goes round for ever, and no slice reaches out
of the text. -/
namespace ScriptToCpp

namespace Scanner

/-- What can be asked for: a token, whether or not the pass is over; the next item of the pass; or
all that remain of it. -/
inductive Call where
  | read
  | next
  | drain

/-- The items that a call gives, and the scanner behind it. -/
def answer? (rounds : Nat) (scanner : Scanner) :
    Call → Option (List (Except LexError Token) × Scanner)
  | .read => (scanner.read? rounds).map fun (item, behind) => ([item], behind)
  | .next => (scanner.next? rounds).map fun (item, behind) => (item.toList, behind)
  | .drain => scanner.drain? rounds

/-- The scanner behind calls that are made one after the other. -/
def after? (rounds : Nat) (scanner : Scanner) : List Call → Option Scanner
  | [] => some scanner
  | call :: calls => do
    let (_, behind) ← scanner.answer? rounds call
    behind.after? rounds calls

end Scanner

/-- The end token stands where the text ends, and is left there. -/
theorem Cursor.next_eof {cursor behind : Cursor} {token : Token} (ended : Lexical.Ended cursor.rest)
    (read : cursor.next = (.ok token, behind)) (last : token.kind = .eof) :
    behind.rest = [] ∧ token = ⟨.eof, "", behind.location⟩ := by
  obtain ⟨whole, _⟩ := next_ended read last
  have empty : cursor.rest = [] := ended.gap (whole ▸ (gap_formed cursor.rest).2)
  rw [next_of_empty empty] at read
  cases read
  exact ⟨empty, rfl⟩

namespace TokenStream

def answers (stream : TokenStream) : Scanner.Call → List (Except LexError Token) × TokenStream
  | .read => ([stream.read.1], stream.read.2)
  | .next =>
    match stream.next? with
    | some (item, behind) => ([item], behind)
    | none => ([], stream)
  | .drain => stream.drain

def after (stream : TokenStream) : List Scanner.Call → TokenStream
  | [] => stream
  | call :: calls => (stream.answers call).2.after calls

/-- At the end of the text no call moves the cursor. -/
theorem answers_empty {stream : TokenStream} (empty : stream.cursor.rest = [])
    (call : Scanner.Call) : (stream.answers call).2.cursor = stream.cursor := by
  have last := Cursor.next_of_empty empty
  cases call with
  | read => rw [answers, read, last]
  | next =>
    rw [answers, next?]
    cases stream.finished with
    | true => rfl
    | false => rw [last]; rfl
  | drain =>
    rw [answers, drain]
    cases stream.finished with
    | true => rfl
    | false => rw [Cursor.drain_last last rfl]; rfl

theorem after_empty {stream : TokenStream} (empty : stream.cursor.rest = [])
    (calls : List Scanner.Call) : (stream.after calls).cursor = stream.cursor := by
  induction calls generalizing stream with
  | nil => rfl
  | cons call calls ih =>
    have kept := answers_empty empty call
    rw [after, ih (kept ▸ empty), kept]

end TokenStream

namespace Scanner
variable {scanner behind : Scanner} {rounds : Nat} {item : Except LexError Token}

/-- A token other than the end token. -/
def isToken : Except LexError Token → Bool
  | .ok token => token.kind ≠ .eof
  | .error _ => false

/-- The index is in range, and the text behind it is empty or ends with a line break. -/
structure Sound (scanner : Scanner) : Prop where
  bounded : scanner.current ≤ scanner.chars.length
  ended : Lexical.Ended scanner.rest

/-- What holds behind items that were read: the text is the same, the index has moved on by a
character at least for each token, and it is in range. The end token is where the text ends. -/
structure Passes (scanner : Scanner) (items : List (Except LexError Token)) (behind : Scanner) :
    Prop where
  chars : behind.chars = scanner.chars
  moved : scanner.current + items.countP isToken ≤ behind.current
  sound : behind.Sound
  last : ∀ token, .ok token ∈ items → token.kind = .eof →
    behind.rest = [] ∧ token = ⟨.eof, "", behind.location⟩

theorem Passes.nil (sound : scanner.Sound) : scanner.Passes [] scanner :=
  ⟨rfl, le_refl _, sound, nofun⟩

/-- Whether the pass is over has nothing to do with the index. -/
theorem Passes.mark {items : List (Except LexError Token)} (passes : scanner.Passes items behind)
    (closed : Bool) : scanner.Passes items { behind with finished := closed } :=
  ⟨passes.chars, passes.moved, ⟨passes.sound.bounded, passes.sound.ended⟩, passes.last⟩

/-- The end token is only ever the last item. -/
theorem Passes.cons {middle : Scanner} {items : List (Except LexError Token)}
    (first : scanner.Passes [item] middle) (more : TokenStream.endsPass item = false)
    (others : middle.Passes items behind) : scanner.Passes (item :: items) behind := by
  refine ⟨others.chars.trans first.chars, ?_, others.sound, ?_⟩
  · have moved := first.moved
    have further := others.moved
    rw [List.countP_cons, List.countP_nil] at moved
    rw [List.countP_cons]
    omega
  · intro token given last
    rcases List.mem_cons.mp given with rfl | given
    · simp [TokenStream.endsPass, last] at more
    · exact others.last token given last

theorem Sound.past {passed more : List Char} (sound : scanner.Sound)
    (split : scanner.rest = passed ++ more) : (scanner.past passed).Sound := by
  have length := congrArg List.length split
  have bounded := sound.bounded
  simp only [rest, List.length_drop, List.length_append] at length
  refine ⟨?_, ?_⟩
  · change scanner.current + passed.length ≤ scanner.chars.length
    omega
  · have ended := sound.ended
    rw [split] at ended
    rw [rest_past split]
    exact ended.behind

theorem length_rest_le (scanner : Scanner) : scanner.rest.length ≤ scanner.chars.length := by
  rw [rest, List.length_drop]
  exact Nat.sub_le _ _

theorem read?_passes (sound : scanner.Sound) (enough : scanner.rest.length < rounds)
    {cursor : Cursor} (read : scanner.cursor.next = (item, cursor)) :
    ∃ behind, scanner.read? rounds = some (item, behind) ∧ behind.cursor = cursor ∧
      behind.finished = scanner.finished ∧ scanner.Passes [item] behind := by
  obtain ⟨passed, more, split, answer, reached⟩ := read?_matches sound.ended enough
  rw [read] at answer reached
  subst reached
  refine ⟨_, answer, rfl, rfl, rfl, ?_, sound.past split, ?_⟩
  · have length := congrArg List.length split
    rw [List.length_append] at length
    change scanner.current + _ ≤ scanner.current + passed.length
    cases item with
    | error fault => exact Nat.le_add_right _ _
    | ok token =>
      by_cases last : token.kind = .eof
      · simp [isToken, last]
      · have less := Cursor.next_rest_lt read last
        rw [cursor_past split] at less
        change more.length < scanner.rest.length at less
        have single : [.ok token].countP isToken ≤ 1 := List.countP_le_length
        omega
  · intro token given last
    cases List.mem_singleton.mp given
    exact Cursor.next_eof sound.ended read last

/-- A call has an answer, the one that the stream gives, and moves on accordingly. -/
def Answered (rounds : Nat) (scanner : Scanner) (call : Call)
    (items : List (Except LexError Token)) (behind : Scanner) : Prop :=
  scanner.answer? rounds call = some (items, behind) ∧
    scanner.stream.answers call = (items, behind.stream) ∧ scanner.Passes items behind

theorem read_answered (sound : scanner.Sound) (enough : scanner.rest.length < rounds) :
    ∃ items behind, scanner.Answered rounds .read items behind := by
  rcases read : scanner.cursor.next with ⟨item, cursor⟩
  obtain ⟨behind, answer, rfl, closed, passes⟩ := read?_passes sound enough read
  refine ⟨[item], behind, ?_, ?_, passes⟩
  · rw [answer?, answer]
    rfl
  · rw [TokenStream.answers, TokenStream.read, stream, read, ← closed]
    rfl

theorem next?_passes (sound : scanner.Sound) (going : scanner.finished = false)
    (enough : scanner.rest.length < rounds) {cursor : Cursor}
    (read : scanner.cursor.next = (item, cursor)) :
    ∃ behind, scanner.next? rounds = some (some item, behind) ∧ behind.cursor = cursor ∧
      behind.finished = TokenStream.endsPass item ∧ scanner.Passes [item] behind := by
  obtain ⟨behind, answer, reached, _, passes⟩ := read?_passes sound enough read
  refine ⟨{ behind with finished := TokenStream.endsPass item }, ?_, reached, rfl, passes.mark _⟩
  rw [next?, going, answer]
  rfl

theorem next_answered (sound : scanner.Sound) (enough : scanner.rest.length < rounds) :
    ∃ items behind, scanner.Answered rounds .next items behind := by
  cases going : scanner.finished with
  | true =>
    refine ⟨[], scanner, ?_, ?_, .nil sound⟩
    · rw [answer?, next?, going]
      rfl
    · rw [TokenStream.answers, TokenStream.next?, stream, going]
      rfl
  | false =>
    rcases read : scanner.cursor.next with ⟨item, cursor⟩
    obtain ⟨behind, answer, rfl, closed, passes⟩ := next?_passes sound going enough read
    refine ⟨[item], behind, ?_, ?_, passes⟩
    · rw [answer?, answer]
      rfl
    · rw [TokenStream.answers, TokenStream.next?, stream, going]
      simp only [read, stream, closed]
      rfl

theorem drain?_closed (closed : scanner.finished = true) :
    scanner.drain? (rounds + 1) = some ([], scanner) := by
  rw [drain?, next?, closed]
  rfl

theorem drain?_next (given : scanner.next? (rounds + 1) = some (some item, behind)) :
    scanner.drain? (rounds + 1) =
      (behind.drain? rounds).map fun (items, last) => (item :: items, last) := by
  rw [drain?, given]
  cases drained : behind.drain? rounds <;> simp [drained]

/-- The last item of a pass. -/
theorem drain?_ends (sound : scanner.Sound) (going : scanner.finished = false)
    (enough : scanner.rest.length < rounds + 2) {cursor : Cursor}
    (read : scanner.cursor.next = (item, cursor)) (ends : TokenStream.endsPass item = true) :
    ∃ behind, scanner.drain? (rounds + 2) = some ([item], behind) ∧ behind.cursor = cursor ∧
      behind.finished = true ∧ scanner.Passes [item] behind := by
  obtain ⟨behind, given, reached, closed, passes⟩ := next?_passes sound going enough read
  rw [ends] at closed
  refine ⟨behind, ?_, reached, closed, passes⟩
  rw [drain?_next given, drain?_closed closed]
  rfl

/-- Draining ends, since each token but the last leaves less text. It takes one more round to find
that the pass is over. -/
theorem drain?_passes (cursor : Cursor) (same : scanner.cursor = cursor) (sound : scanner.Sound)
    (going : scanner.finished = false) (enough : scanner.rest.length < rounds + 1) :
    ∃ behind, scanner.drain? (rounds + 2) = some (cursor.drain.1, behind) ∧
      behind.cursor = cursor.drain.2 ∧ behind.finished = true ∧
      scanner.Passes cursor.drain.1 behind := by
  induction cursor using Cursor.drain.induct generalizing scanner rounds with
  | case1 cursor fault behind read =>
    rw [Cursor.drain_fault read]
    exact drain?_ends sound going (Nat.lt_succ_of_lt enough) (same ▸ read) rfl
  | case2 cursor token behind read last =>
    rw [Cursor.drain_last read last]
    exact drain?_ends sound going (Nat.lt_succ_of_lt enough) (same ▸ read)
      (by simp [TokenStream.endsPass, last])
  | case3 cursor token behind read more _ _ _ _ ih =>
    rw [Cursor.drain_more read more]
    have goesOn : TokenStream.endsPass (.ok token) = false := by simp [TokenStream.endsPass, more]
    obtain ⟨middle, given, reached, closed, passes⟩ :=
      next?_passes sound going (Nat.lt_succ_of_lt enough) (same ▸ read)
    have less : middle.rest.length < scanner.rest.length := by
      have less := Cursor.next_rest_lt read more
      rwa [← same, ← reached] at less
    obtain ⟨rounds, rfl⟩ := Nat.exists_eq_add_one_of_ne_zero (n := rounds) (by omega)
    have enough' : middle.rest.length < rounds + 1 := by omega
    obtain ⟨last, answer, final, done', others⟩ :=
      ih reached passes.sound (closed.trans goesOn) enough'
    refine ⟨last, ?_, final, done', passes.cons goesOn others⟩
    rw [drain?_next given, answer]
    rfl

theorem drain_answered (sound : scanner.Sound) (enough : scanner.rest.length < rounds + 1) :
    ∃ items behind, scanner.Answered (rounds + 2) .drain items behind := by
  cases going : scanner.finished with
  | true =>
    refine ⟨[], scanner, ?_, ?_, .nil sound⟩
    · rw [answer?, drain?_closed going]
    · rw [TokenStream.answers, TokenStream.drain, stream, going]
      rfl
  | false =>
    obtain ⟨behind, answer, reached, closed, passes⟩ := drain?_passes _ rfl sound going enough
    refine ⟨_, behind, answer, ?_, passes⟩
    rw [TokenStream.answers, TokenStream.drain, stream, going, stream, reached, closed]
    rfl

theorem answered (sound : scanner.Sound) (enough : scanner.chars.length + 1 < rounds)
    (call : Call) : ∃ items behind, scanner.Answered rounds call items behind := by
  have short := scanner.length_rest_le
  cases call with
  | read => exact read_answered sound (by omega)
  | next => exact next_answered sound (by omega)
  | drain =>
    obtain ⟨rounds, rfl⟩ := Nat.exists_eq_add_of_le' (show 2 ≤ rounds by omega)
    exact drain_answered sound (by omega)

/-- Any calls can be made one after the other. -/
theorem after?_sound (sound : scanner.Sound) (enough : scanner.chars.length + 1 < rounds)
    (calls : List Call) :
    ∃ last, scanner.after? rounds calls = some last ∧ last.Sound ∧ last.chars = scanner.chars ∧
      last.stream = scanner.stream.after calls := by
  induction calls generalizing scanner with
  | nil => exact ⟨scanner, rfl, sound, rfl, rfl⟩
  | cons call calls ih =>
    obtain ⟨items, behind, answer, same, passes⟩ := answered sound enough call
    obtain ⟨last, reached, sound', chars, final⟩ := ih passes.sound (passes.chars ▸ enough)
    refine ⟨last, ?_, sound', chars.trans passes.chars, ?_⟩
    · rw [after?, answer]
      exact reached
    · rw [final, TokenStream.after, same]

/-- At the end of the text there is the end token, whatever else is asked for. -/
theorem after?_empty (sound : scanner.Sound) (enough : scanner.chars.length + 1 < rounds)
    (empty : scanner.rest = []) (calls : List Call) :
    ∃ last, scanner.after? rounds calls = some last ∧
      last.read? rounds = some (.ok ⟨.eof, "", scanner.location⟩, last) := by
  obtain ⟨last, reached, sound', _, final⟩ := after?_sound sound enough calls
  have same : last.cursor = scanner.cursor :=
    (congrArg TokenStream.cursor final).trans (TokenStream.after_empty empty calls)
  have whole : last.rest = [] := (congrArg Cursor.rest same).trans empty
  have some : last.rest.length < rounds := by
    rw [whole]
    exact Nat.zero_lt_of_lt enough
  refine ⟨last, reached, ?_⟩
  obtain ⟨passed, more, split, answer, _⟩ := read?_matches sound'.ended some
  have none : passed = [] := by
    rw [whole] at split
    exact (List.append_eq_nil_iff.mp split.symm).1
  rw [answer, none, same, Cursor.next_of_empty empty]
  rfl

/-- Behind an opening quote the loop over a string ends within the text. -/
theorem string_ends (ended : Lexical.Ended scanner.rest) (quote : scanner.charAt 0 = '"')
    (enough : scanner.chars.length < rounds) :
    ∃ last, scanner.advance.passWhile inString rounds = some last ∧ inString last = false ∧
      scanner.current < last.current ∧ last.current < scanner.chars.length := by
  obtain ⟨c, text, split⟩ : ∃ c text, scanner.rest = c :: text := by
    apply List.exists_cons_of_ne_nil
    intro empty
    rw [charAt_eq, empty] at quote
    contradiction
  rw [charAt_eq, split] at quote
  obtain rfl : c = '"' := quote
  have broken : '\n' ∈ text := by
    have broken := ended.broken (by simp [split])
    simpa [split] using broken
  have opened : (scanner.past ['"']).rest = text := rest_past split
  have few : (scanner.past ['"']).rest.length ≤ scanner.rest.length := length_past_le split
  obtain ⟨stop, more, found, passed, behind⟩ :=
    string_stops broken opened ((few.trans scanner.length_rest_le).trans_lt enough)
  rw [past_append] at passed behind
  rw [advance_eq split]
  refine ⟨_, passed, ?_, ?_, lt_of_rest (behind ▸ List.cons_ne_nil _ _)⟩
  · have stops := List.head_dropWhile_not Lexeme.isStringChar (found ▸ List.cons_ne_nil _ _)
    simp only [found, List.head_cons] at stops
    rw [inString, charAt_eq, behind]
    exact stops
  · simp [past]

/-- Where no character ends the string, the loop has no end. -/
theorem string_endless (inside : ∀ c ∈ scanner.rest, Lexeme.isStringChar c = true) (rounds : Nat) :
    scanner.passWhile inString rounds = none := by
  induction rounds generalizing scanner with
  | zero => rfl
  | succ rounds ih =>
    have goesOn : inString scanner = true ∧
        ∀ c ∈ scanner.advance.rest, Lexeme.isStringChar c = true := by
      rw [inString, charAt_eq]
      cases split : scanner.rest with
      | nil =>
        refine ⟨rfl, ?_⟩
        rw [advance, isEnd_eq, split]
        exact inside
      | cons c text =>
        rw [split] at inside
        rw [advance_eq split, rest_past split]
        exact List.forall_mem_cons.mp inside
    rw [passWhile, if_pos goesOn.1]
    exact ih goesOn.2

end Scanner

/-- Scanning ends and stays in range. Whatever calls have been made on the text of a script, also
behind faults that left the index inside a string or a number: each further call has an answer once
there are enough rounds for the length of the text, so that all its loops end and all its slices are
in range. The index never moves back or out of the text, and moves on for each token but the end
token, which once given is given again by every later reading. The loop over a string, which would
not end otherwise, meets a character that ends it. -/
theorem scanning_ends_in_range (source : String) (calls : List Scanner.Call) {rounds : Nat}
    (enough : source.toList.length + 2 < rounds) :
    ∃ scanner, (Scanner.ofSource source).after? rounds calls = some scanner ∧
      scanner.chars = source.toList ++ ['\n'] ∧
      scanner.stream = (TokenStream.ofSource source).after calls ∧
      (∀ call, ∃ items behind, scanner.answer? rounds call = some (items, behind) ∧
        scanner.stream.answers call = (items, behind.stream) ∧
        scanner.current + items.countP Scanner.isToken ≤ behind.current ∧
        behind.current ≤ scanner.chars.length ∧
        ∀ token, .ok token ∈ items → token.kind = .eof → ∀ later, ∃ last,
          behind.after? rounds later = some last ∧ last.read? rounds = some (.ok token, last)) ∧
      (∀ here : Scanner, here.chars = scanner.chars → here.charAt 0 = '"' →
        ∃ last, here.advance.passWhile Scanner.inString rounds = some last ∧
          Scanner.inString last = false ∧
          here.current < last.current ∧ last.current < here.chars.length) ∧
      ∀ here : Scanner, (∀ c ∈ here.rest, Lexeme.isStringChar c = true) →
        ∀ most, here.passWhile Scanner.inString most = none := by
  have start : (Scanner.ofSource source).Sound := ⟨Nat.zero_le _, Lexical.ended_start source⟩
  have enough' : (Scanner.ofSource source).chars.length + 1 < rounds := by
    simpa [Scanner.ofSource] using enough
  obtain ⟨scanner, reached, sound, chars, same⟩ := Scanner.after?_sound start enough' calls
  rw [← chars] at enough'
  refine ⟨scanner, reached, chars, same, fun call => ?_, fun here whole quote => ?_,
    fun _ inside => Scanner.string_endless inside⟩
  · obtain ⟨items, behind, answer, agrees, passes⟩ := Scanner.answered sound enough' call
    refine ⟨items, behind, answer, agrees, passes.moved, passes.chars ▸ passes.sound.bounded, ?_⟩
    intro token given last later
    obtain ⟨empty, rfl⟩ := passes.last token given last
    exact Scanner.after?_empty passes.sound (passes.chars ▸ enough') empty later
  · have ended : Lexical.Ended here.rest := by
      have ended := Lexical.ended_start source
      rw [Scanner.rest, whole, chars]
      rw [← List.take_append_drop here.current (Cursor.start source).rest] at ended
      exact ended.behind
    exact Scanner.string_ends ended quote (whole ▸ Nat.lt_of_succ_lt enough')

/-- The fault of a string that is not closed leaves the index inside it, and scanning goes on from
there. -/
theorem open_string_scanned :
    ∃ scanner, (Scanner.ofSource "\"a").after? 5 [.read, .drain, .next, .read] = some scanner ∧
      ∀ call, ∃ items behind, scanner.answer? 5 call = some (items, behind) ∧
        behind.current ≤ scanner.chars.length := by
  obtain ⟨scanner, reached, _, _, answers, _⟩ :=
    scanning_ends_in_range "\"a" [.read, .drain, .next, .read] (by decide : 4 < 5)
  refine ⟨scanner, reached, fun call => ?_⟩
  obtain ⟨items, behind, answer, _, _, bounded, _⟩ := answers call
  exact ⟨items, behind, answer, bounded⟩

end ScriptToCpp
