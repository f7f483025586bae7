import ScriptToCpp.Proofs.Places
import Mathlib

/-! Scanning by index. Here the text stays whole and the cursor is an index into it, behind which
there are zero characters and no way on. A loop may go round for ever, so that it is told how many
rounds it may take; and a slice may reach out of the text. There is no answer where the rounds are
used up or a slice is out of range. On a text whose last line is ended neither happens once there
are more rounds than characters, and the answer is that of the cursor: no lexeme but a line break
takes a line break, and every loop stops at one. -/
namespace ScriptToCpp

structure Scanner where
  chars : List Char
  current : Nat
  location : Location
  /-- Whether the pass over the text is over. -/
  finished : Bool

namespace Scanner

def ofSource (source : String) : Scanner :=
  ⟨source.toList ++ ['\n'], 0, .start, false⟩

/-- The character at the index, or at some distance behind it. -/
def charAt (scanner : Scanner) (distance : Nat) : Char :=
  scanner.chars.getD (scanner.current + distance) '\x00'

def isEnd (scanner : Scanner) : Bool :=
  scanner.chars.length ≤ scanner.current

def advance (scanner : Scanner) : Scanner :=
  if scanner.isEnd then scanner
  else { scanner with
    current := scanner.current + 1, location := scanner.location.after (scanner.charAt 0) }

/-- Goes on as long as the test holds. -/
def passWhile (test : Scanner → Bool) : Nat → Scanner → Option Scanner
  | 0, _ => none
  | rounds + 1, scanner =>
    if test scanner then passWhile test rounds scanner.advance else some scanner

/-- The characters from one index up to another, both of them in range and in order. -/
def slice? (scanner : Scanner) (start stop : Nat) : Option (List Char) :=
  if start ≤ stop ∧ stop ≤ scanner.chars.length then some ((scanner.chars.take stop).drop start)
  else none

def skipBlanks? (rounds : Nat) (scanner : Scanner) : Option Scanner :=
  scanner.passWhile (fun here => Cursor.isBlank (here.charAt 0)) rounds

def skipComment? (rounds : Nat) (scanner : Scanner) : Option Scanner :=
  if scanner.charAt 0 = '#' then
    scanner.passWhile (fun here => !here.isEnd && here.charAt 0 != '\n') rounds
  else some scanner

def skipGap? (rounds : Nat) (scanner : Scanner) : Option Scanner := do
  let behind ← scanner.skipBlanks? rounds
  behind.skipComment? rounds

/-- What was found at an index, and the scanner on its last character, or on the fault. -/
abbrev Found := Except LexError.Cause (Kind × String) × Scanner

def operator (scanner : Scanner) (short long : Kind) : Found :=
  if scanner.charAt 1 = '=' then
    (.ok (long, String.ofList [scanner.charAt 0, '=']), scanner.advance)
  else (.ok (short, String.ofList [scanner.charAt 0]), scanner)

def bang (scanner : Scanner) : Found :=
  if scanner.charAt 1 = '=' then (.ok (.notEq, "!="), scanner.advance)
  else (.error (.loneBang (scanner.charAt 1)), scanner)

/-- The test of the loop over a string. It is no test for the end of the text. -/
def inString (here : Scanner) : Bool :=
  Lexeme.isStringChar (here.charAt 0)

def string? (rounds : Nat) (scanner : Scanner) : Option Found := do
  let start := scanner.advance
  let last ← start.passWhile inString rounds
  if last.charAt 0 = '"' then
    let content ← start.slice? start.current last.current
    return (.ok (.string, String.ofList content), last)
  else return (.error (.strayInString (last.charAt 0)), last)

/-- The text from here up to the character on which another scanner stands. -/
def textTo? (scanner last : Scanner) : Option (List Char) :=
  scanner.slice? scanner.current (last.current + 1)

/-- A number, where the digits before its point have been passed. -/
def fraction? (rounds : Nat) (scanner point : Scanner) : Option Found := do
  if (point.charAt 1).isDigit then
    let last ← point.passWhile (fun here => (here.charAt 1).isDigit) rounds
    let text ← scanner.textTo? last
    return (.ok (.number, String.ofList text), last)
  else
    let text ← scanner.textTo? point
    return (.error (.danglingPoint (String.ofList text.dropLast)), point)

def number? (rounds : Nat) (scanner : Scanner) : Option Found := do
  let digits ← scanner.passWhile (fun here => (here.charAt 1).isDigit) rounds
  if digits.charAt 1 = '.' then scanner.fraction? rounds digits.advance
  else
    let text ← scanner.textTo? digits
    return (.ok (.number, String.ofList text), digits)

def word? (rounds : Nat) (scanner : Scanner) : Option Found := do
  let last ← scanner.passWhile (fun here => (here.charAt 1).isAlphanum) rounds
  let text ← scanner.textTo? last
  return (.ok ((Kind.keyword? (String.ofList text)).getD .identifier, String.ofList text), last)

def lexeme? (rounds : Nat) (scanner : Scanner) : Option Found :=
  match scanner.charAt 0 with
  | '+' => some (.ok (.plus, "+"), scanner)
  | '-' => some (.ok (.minus, "-"), scanner)
  | '*' => some (.ok (.asterisk, "*"), scanner)
  | '/' => some (.ok (.slash, "/"), scanner)
  | '\x7b' => some (.ok (.lBrace, "\x7b"), scanner)
  | '\x7d' => some (.ok (.rBrace, "\x7d"), scanner)
  | '\n' => some (.ok (.newline, "\n"), scanner)
  | '=' => some (scanner.operator .eq .eqEq)
  | '<' => some (scanner.operator .lt .ltEq)
  | '>' => some (scanner.operator .gt .gtEq)
  | '!' => some scanner.bang
  | '"' => scanner.string? rounds
  | c =>
    if c.isDigit then scanner.number? rounds
    else if c.isAlpha then scanner.word? rounds
    else some (.error (.unknown c), scanner)

/-- Reads the token that stands right at the index. -/
def lex? (rounds : Nat) (here : Scanner) : Option (Except LexError Token × Scanner) :=
  if here.isEnd then some (.ok ⟨.eof, "", here.location⟩, here)
  else do
    match ← here.lexeme? rounds with
    | (.ok (kind, text), last) => return (.ok ⟨kind, text, here.location⟩, last.advance)
    | (.error cause, last) => return (.error ⟨cause, last.location⟩, last)

/-- Reads a token whether or not the pass is over. -/
def read? (rounds : Nat) (scanner : Scanner) : Option (Except LexError Token × Scanner) := do
  let here ← scanner.skipGap? rounds
  here.lex? rounds

/-- The next item of the pass, if it is not over. -/
def next? (rounds : Nat) (scanner : Scanner) :
    Option (Option (Except LexError Token) × Scanner) :=
  if scanner.finished then some (none, scanner)
  else do
    let (item, behind) ← scanner.read? rounds
    return (some item, { behind with finished := TokenStream.endsPass item })

/-- The remaining items of the pass, as long as there are any. -/
def drain? : Nat → Scanner → Option (List (Except LexError Token) × Scanner)
  | 0, _ => none
  | rounds + 1, scanner => do
    match ← scanner.next? (rounds + 1) with
    | (none, last) => return ([], last)
    | (some item, behind) =>
      let (items, last) ← behind.drain? rounds
      return (item :: items, last)

/-! The scanner as a cursor -/

def rest (scanner : Scanner) : List Char :=
  scanner.chars.drop scanner.current

def cursor (scanner : Scanner) : Cursor :=
  ⟨scanner.rest, scanner.location⟩

def stream (scanner : Scanner) : TokenStream :=
  ⟨scanner.cursor, scanner.finished⟩

/-- The scanner behind characters that come next. -/
def past (scanner : Scanner) (passed : List Char) : Scanner :=
  { scanner with
    current := scanner.current + passed.length, location := scanner.location.afterAll passed }

variable {scanner : Scanner} {rounds : Nat} {c : Char} {text passed more : List Char}

@[simp] theorem past_nil : scanner.past [] = scanner := rfl

theorem past_append : (scanner.past passed).past more = scanner.past (passed ++ more) := by
  simp [past, Location.afterAll_append, Nat.add_assoc]

theorem rest_past (split : scanner.rest = passed ++ more) : (scanner.past passed).rest = more := by
  have behind : (scanner.past passed).rest = scanner.rest.drop passed.length := by
    simp [rest, past, List.drop_drop]
  rw [behind, split, List.drop_left]

theorem length_past_le (split : scanner.rest = passed ++ more) :
    (scanner.past passed).rest.length ≤ scanner.rest.length := by
  rw [rest_past split, split, List.length_append]
  exact Nat.le_add_left _ _

theorem cursor_past (split : scanner.rest = passed ++ more) :
    (scanner.past passed).cursor = ⟨more, scanner.location.afterAll passed⟩ := by
  rw [cursor, rest_past split]
  rfl

theorem charAt_eq (scanner : Scanner) (distance : Nat) :
    scanner.charAt distance = scanner.rest.getD distance '\x00' := by
  simp [charAt, rest, List.getD_eq_getElem?_getD, List.getElem?_drop]

theorem isEnd_eq (scanner : Scanner) : scanner.isEnd = scanner.rest.isEmpty := by
  rw [Bool.eq_iff_iff, isEnd, decide_eq_true_eq, List.isEmpty_iff, rest, List.drop_eq_nil_iff]

theorem advance_eq (split : scanner.rest = c :: text) : scanner.advance = scanner.past [c] := by
  have within : scanner.isEnd = false := by rw [isEnd_eq, split]; rfl
  have here : scanner.charAt 0 = c := by rw [charAt_eq, split]; rfl
  rw [advance, within, here]
  rfl

theorem lt_of_rest (some : scanner.rest ≠ []) : scanner.current < scanner.chars.length := by
  by_contra outside
  exact some (List.drop_eq_nil_iff.mpr (Nat.not_lt.mp outside))

/-- A slice along the text is in range. -/
theorem slice?_past (some : scanner.rest ≠ []) (split : scanner.rest = passed ++ more) :
    scanner.slice? scanner.current (scanner.past passed).current = .some passed := by
  have length := congrArg List.length split
  have within := lt_of_rest some
  simp only [rest, List.length_drop, List.length_append] at length
  have taken : (scanner.chars.take (scanner.current + passed.length)).drop scanner.current =
      passed := by
    change scanner.chars.drop scanner.current = _ at split
    rw [List.drop_take, Nat.add_sub_cancel_left, split, List.take_left]
  have current : (scanner.past passed).current = scanner.current + passed.length := rfl
  rw [slice?, current, if_pos (by omega), taken]

/-! Loops -/

/-- A loop that tests the character at the index passes all characters that it can. At the end of
the text it must stop by itself. -/
theorem passWhile_here {test : Scanner → Bool} {p : Char → Bool}
    (tests : ∀ scanner c text, scanner.rest = c :: text → test scanner = p c)
    (stops : scanner.rest.dropWhile p = [] → ∀ last : Scanner, last.rest = [] → test last = false)
    (enough : scanner.rest.length < rounds) :
    scanner.passWhile test rounds = some (scanner.past (scanner.rest.takeWhile p)) := by
  obtain ⟨rounds, rfl⟩ := Nat.exists_eq_add_one_of_ne_zero (Nat.ne_zero_of_lt enough)
  generalize text : scanner.rest = rest at stops enough
  induction rest generalizing scanner rounds with
  | nil =>
    rw [passWhile, stops rfl scanner text]
    rfl
  | cons c rest ih =>
    rw [passWhile, tests scanner c rest text, List.takeWhile_cons]
    by_cases passes : p c
    · have behind : (scanner.past [c]).rest = rest := rest_past text
      rw [List.length_cons, Nat.add_lt_add_iff_right] at enough
      obtain ⟨rounds, rfl⟩ := Nat.exists_eq_add_one_of_ne_zero (Nat.ne_zero_of_lt enough)
      rw [List.dropWhile_cons_of_pos passes] at stops
      rw [if_pos passes, if_pos passes, advance_eq text, ih rounds behind stops enough, past_append]
      rfl
    · rw [if_neg passes, if_neg passes]
      rfl

/-- A loop that tests the character behind the index stops on the last one that it can reach. -/
theorem passWhile_ahead {p : Char → Bool} (zero : p '\x00' = false)
    (split : scanner.rest = c :: text) (enough : scanner.rest.length < rounds) :
    ∃ front last, c :: text.takeWhile p = front ++ [last] ∧
      scanner.rest = front ++ last :: text.dropWhile p ∧
      scanner.passWhile (fun here => p (here.charAt 1)) rounds = some (scanner.past front) := by
  obtain ⟨rounds, rfl⟩ := Nat.exists_eq_add_one_of_ne_zero (Nat.ne_zero_of_lt enough)
  induction text generalizing scanner c rounds with
  | nil =>
    refine ⟨[], c, rfl, split, ?_⟩
    rw [passWhile, charAt_eq, split]
    simp [zero]
  | cons d text ih =>
    rw [passWhile, charAt_eq, split, List.getD_cons_succ, List.getD_cons_zero]
    by_cases passes : p d
    · have behind : (scanner.past [c]).rest = d :: text := rest_past split
      rw [split, List.length_cons, Nat.add_lt_add_iff_right, ← behind] at enough
      obtain ⟨rounds, rfl⟩ := Nat.exists_eq_add_one_of_ne_zero (Nat.ne_zero_of_lt enough)
      obtain ⟨front, last, whole, rest, passed⟩ := ih behind rounds enough
      rw [if_pos passes, advance_eq split, passed, past_append, List.takeWhile_cons_of_pos passes,
        List.dropWhile_cons_of_pos passes, whole, ← behind, rest]
      exact ⟨c :: front, last, rfl, rfl, rfl⟩
    · rw [if_neg passes, List.takeWhile_cons_of_neg passes, List.dropWhile_cons_of_neg passes]
      exact ⟨[], c, rfl, rfl, rfl⟩

/-! Lexemes -/

/-- The scanner found what reading the rest gives, and stands on the last character of the lexeme,
or on the fault. -/
inductive Agrees (scanner : Scanner) : Option Found → Lexeme.Reading → Prop where
  | found {kind : Kind} {text : String} {front rest : List Char} {last : Char} :
      Agrees scanner (some (.ok (kind, text), scanner.past front))
        (Lexeme.found kind text (front ++ [last]) rest)
  | fault {cause : LexError.Cause} {passed rest : List Char} :
      Agrees scanner (some (.error cause, scanner.past passed)) (Lexeme.fault cause passed rest)

/-- A lexeme of one character. -/
theorem Agrees.single {kind : Kind} {lexeme : String} :
    scanner.Agrees (some (.ok (kind, lexeme), scanner)) (Lexeme.found kind lexeme [c] text) :=
  (.found : scanner.Agrees (some (_, scanner.past [])) (Lexeme.found _ _ ([] ++ [c]) _))

/-- A fault on the first character. -/
theorem Agrees.stuck {cause : LexError.Cause} :
    scanner.Agrees (some (.error cause, scanner)) (Lexeme.fault cause [] text) :=
  (.fault : scanner.Agrees (some (_, scanner.past [])) _)

/-- A lexeme of two characters. -/
theorem Agrees.double {kind : Kind} {lexeme : String} {d : Char} :
    scanner.Agrees (some (.ok (kind, lexeme), scanner.past [c]))
      (Lexeme.found kind lexeme [c, d] text) :=
  (.found : scanner.Agrees _ (Lexeme.found _ _ ([c] ++ [d]) _))

theorem operator_agrees (split : scanner.rest = c :: text) (full : text ≠ []) (short long : Kind) :
    scanner.Agrees (some (scanner.operator short long)) (Lexeme.extensible c short long text) := by
  obtain ⟨d, rest, rfl⟩ := List.exists_cons_of_ne_nil full
  have here : scanner.charAt 0 = c := by rw [charAt_eq, split]; rfl
  have ahead : scanner.charAt 1 = d := by rw [charAt_eq, split]; rfl
  rw [operator, here, ahead, advance_eq split]
  by_cases equals : d = '='
  · subst equals
    exact .double
  · rw [if_neg equals, Lexeme.extensible]
    · exact .single
    · rintro _ ⟨⟩
      exact equals rfl

theorem bang_agrees (split : scanner.rest = '!' :: text) (full : text ≠ []) :
    scanner.Agrees (some scanner.bang) (Lexeme.bang text) := by
  obtain ⟨d, rest, rfl⟩ := List.exists_cons_of_ne_nil full
  have ahead : scanner.charAt 1 = d := by rw [charAt_eq, split]; rfl
  rw [bang, ahead, advance_eq split]
  by_cases equals : d = '='
  · subst equals
    exact .double
  · rw [if_neg equals, Lexeme.bang]
    · exact .stuck
    · rintro _ ⟨⟩
      exact equals rfl

/-- A string that is not closed is broken off before the text ends. -/
theorem string_stops (broken : '\n' ∈ text) (split : scanner.rest = text)
    (enough : scanner.rest.length < rounds) :
    ∃ last rest, text.dropWhile Lexeme.isStringChar = last :: rest ∧
      scanner.passWhile inString rounds =
        some (scanner.past (text.takeWhile Lexeme.isStringChar)) ∧
      (scanner.past (text.takeWhile Lexeme.isStringChar)).rest = last :: rest := by
  subst split
  have left := mem_dropWhile_line (p := Lexeme.isStringChar) (by decide) broken
  obtain ⟨last, rest, stop⟩ := List.exists_cons_of_ne_nil (List.ne_nil_of_mem left)
  refine ⟨last, rest, stop, passWhile_here ?_ ?_ enough, ?_⟩
  · intro here c text split
    rw [inString, charAt_eq, split]
    rfl
  · intro none
    rw [stop] at none
    contradiction
  · apply rest_past
    rw [← stop, List.takeWhile_append_dropWhile]

theorem string_agrees (split : scanner.rest = '"' :: text) (broken : '\n' ∈ text)
    (enough : scanner.rest.length < rounds) :
    scanner.Agrees (scanner.string? rounds) (Lexeme.quoted text) := by
  have opened : (scanner.past ['"']).rest = text := rest_past split
  obtain ⟨last, rest, stop, passed, behind⟩ := string_stops broken opened
    ((length_past_le split).trans_lt enough)
  have here : ((scanner.past ['"']).past (text.takeWhile Lexeme.isStringChar)).charAt 0 = last := by
    rw [charAt_eq, behind]
    rfl
  have content : (scanner.past ['"']).slice? (scanner.past ['"']).current
      ((scanner.past ['"']).past (text.takeWhile Lexeme.isStringChar)).current =
      some (text.takeWhile Lexeme.isStringChar) := by
    have whole := List.takeWhile_append_dropWhile (p := Lexeme.isStringChar) (l := text)
    exact slice?_past (opened ▸ List.ne_nil_of_mem broken) (opened.trans whole.symm)
  unfold string? Lexeme.quoted
  simp only [advance_eq split, passed, stop, content, Option.bind_eq_bind, Option.bind_some, here]
  rw [past_append]
  by_cases closed : last = '"'
  · rw [if_pos closed, if_pos closed]
    exact .found
  · rw [if_neg closed, if_neg closed]
    exact .fault

/-- What a loop over the characters ahead passed is in range. -/
theorem textTo?_eq {front : List Char} {last : Char}
    (split : scanner.rest = front ++ last :: more) :
    scanner.textTo? (scanner.past front) = some (front ++ [last]) := by
  have whole : scanner.rest = (front ++ [last]) ++ more := by rw [split, List.append_assoc]; rfl
  have read := slice?_past (by simp [split]) whole
  rwa [past, List.length_append, List.length_singleton, ← Nat.add_assoc] at read

theorem word_agrees (split : scanner.rest = c :: text) (letter : c.isAlphanum = true)
    (enough : scanner.rest.length < rounds) :
    scanner.Agrees (scanner.word? rounds) (Lexeme.word (c :: text)) := by
  obtain ⟨front, last, whole, rest, passed⟩ :=
    passWhile_ahead (p := Char.isAlphanum) rfl split enough
  unfold word? Lexeme.word
  rw [List.takeWhile_cons_of_pos letter, whole]
  simp only [passed, textTo?_eq rest, Option.bind_eq_bind, Option.bind_some]
  exact .found

/-- A point that follows digits must be followed by one. -/
theorem fraction_agrees {digits : List Char} (split : scanner.rest = digits ++ '.' :: text)
    (enough : scanner.rest.length < rounds) :
    scanner.Agrees (scanner.fraction? rounds (scanner.past digits))
      (if text.takeWhile Char.isDigit = [] then
        Lexeme.fault (.danglingPoint (String.ofList digits)) digits ('.' :: text)
      else Lexeme.plain .number (digits ++ '.' :: text.takeWhile Char.isDigit)
        (text.dropWhile Char.isDigit)) := by
  have point : (scanner.past digits).rest = '.' :: text := rest_past split
  have ahead : (scanner.past digits).charAt 1 = text.getD 0 '\x00' := by rw [charAt_eq, point]; rfl
  have more : ((scanner.past digits).charAt 1).isDigit = true ↔
      text.takeWhile Char.isDigit ≠ [] := by
    rw [ahead]
    cases text with
    | nil => simp
    | cons d text => by_cases digit : d.isDigit <;> simp [digit]
  rw [fraction?]
  by_cases digit : ((scanner.past digits).charAt 1).isDigit = true
  · obtain ⟨front, last, whole, rest, passed⟩ :=
      passWhile_ahead (p := Char.isDigit) rfl point ((length_past_le split).trans_lt enough)
    have reached : scanner.rest = (digits ++ front) ++ last :: text.dropWhile Char.isDigit := by
      rw [split, ← point, rest, List.append_assoc]
    simp only [if_pos digit, if_neg (more.mp digit), passed, past_append, textTo?_eq reached,
      Option.bind_eq_bind, Option.bind_some, whole]
    rw [← List.append_assoc]
    exact .found
  · have none : text.takeWhile Char.isDigit = [] := by
      by_contra some
      exact digit (more.mpr some)
    simp only [if_neg digit, if_pos none, textTo?_eq split, Option.bind_eq_bind, Option.bind_some,
      List.dropLast_concat]
    exact .fault

theorem number_agrees (split : scanner.rest = c :: text) (digit : c.isDigit = true)
    (enough : scanner.rest.length < rounds) :
    scanner.Agrees (scanner.number? rounds) (Lexeme.number (c :: text)) := by
  obtain ⟨front, last, whole, rest, passed⟩ := passWhile_ahead (p := Char.isDigit) rfl split enough
  have reached : (scanner.past front).rest = last :: text.dropWhile Char.isDigit := rest_past rest
  have ahead : (scanner.past front).charAt 1 = (text.dropWhile Char.isDigit).getD 0 '\x00' := by
    rw [charAt_eq, reached]
    rfl
  unfold number? Lexeme.number
  rw [List.takeWhile_cons_of_pos digit, List.dropWhile_cons_of_pos digit, whole]
  simp only [passed, ahead, Option.bind_eq_bind, Option.bind_some, advance_eq reached, past_append,
    textTo?_eq rest]
  cases behind : text.dropWhile Char.isDigit with
  | nil => exact .found
  | cons d more =>
    by_cases point : d = '.'
    · subst point
      rw [behind] at rest
      exact fraction_agrees (by rw [rest, List.append_assoc]; rfl) enough
    · rw [List.getD_cons_zero, if_neg point]
      split
      next same => exact absurd (List.cons.inj same).1 point
      next => exact .found

theorem lexeme_agrees (split : scanner.rest = c :: text) (broken : '\n' ∈ c :: text)
    (enough : scanner.rest.length < rounds) :
    scanner.Agrees (scanner.lexeme? rounds) (Lexeme.read c text) := by
  have here : scanner.charAt 0 = c := by rw [charAt_eq, split]; rfl
  have behind : c ≠ '\n' → '\n' ∈ text := by
    intro different
    exact (List.mem_cons.mp broken).resolve_left fun same => different same.symm
  unfold lexeme?
  rw [here]
  split
  case h_8 | h_9 | h_10 =>
    exact operator_agrees split (List.ne_nil_of_mem (behind (by decide))) _ _
  case h_11 => exact bang_agrees split (List.ne_nil_of_mem (behind (by decide)))
  case h_12 => exact string_agrees split (behind (by decide)) enough
  case h_13 =>
    rw [Lexeme.read]
    · split
      next digit => exact number_agrees split digit enough
      next =>
        split
        next letter => exact word_agrees split (by simp [Char.isAlphanum, letter]) enough
        next => exact .stuck
    all_goals assumption
  all_goals exact .single

/-! Tokens -/

theorem skipBlanks?_eq (enough : scanner.rest.length < rounds) :
    scanner.skipBlanks? rounds = some (scanner.past (scanner.rest.takeWhile Cursor.isBlank)) := by
  refine passWhile_here ?_ ?_ enough
  · intro here c text split
    rw [charAt_eq, split]
    rfl
  · intro _ last empty
    rw [charAt_eq, empty]
    rfl

theorem skipComment?_eq (enough : scanner.rest.length < rounds) :
    scanner.skipComment? rounds = some (scanner.past (Cursor.comment scanner.rest)) := by
  have passed : scanner.passWhile (fun here => !here.isEnd && here.charAt 0 != '\n') rounds =
      some (scanner.past (scanner.rest.takeWhile (· != '\n'))) := by
    refine passWhile_here ?_ ?_ enough
    · intro here c text split
      rw [isEnd_eq, charAt_eq, split]
      rfl
    · intro _ last empty
      rw [isEnd_eq, empty]
      rfl
  rw [skipComment?, passed, charAt_eq]
  cases scanner.rest with
  | nil => rfl
  | cons c text =>
    by_cases comment : c = '#'
    · subst comment
      rfl
    · rw [List.getD_cons_zero, if_neg comment, Cursor.comment, past_nil]
      rintro _ ⟨⟩
      exact comment rfl

theorem skipGap?_eq (enough : scanner.rest.length < rounds) :
    scanner.skipGap? rounds = some (scanner.past (Cursor.gap scanner.rest)) := by
  have split : scanner.rest = scanner.rest.takeWhile Cursor.isBlank ++
      scanner.rest.dropWhile Cursor.isBlank := List.takeWhile_append_dropWhile.symm
  rw [skipGap?, skipBlanks?_eq enough, Option.bind_eq_bind, Option.bind_some,
    skipComment?_eq ((length_past_le split).trans_lt enough), rest_past split, past_append]
  rfl

/-- The scanner gets on as the cursor does: it passes characters of the text, and gives the same. -/
def Matches (scanner : Scanner) (answer : Option (Except LexError Token × Scanner))
    (read : Except LexError Token × Cursor) : Prop :=
  ∃ passed more, scanner.rest = passed ++ more ∧ answer = some (read.1, scanner.past passed) ∧
    read.2 = (scanner.past passed).cursor

theorem lex?_matches (ended : Lexical.Ended scanner.rest) (enough : scanner.rest.length < rounds) :
    scanner.Matches (scanner.lex? rounds) scanner.cursor.lex := by
  have same : scanner.cursor.rest = scanner.rest := rfl
  rw [lex?, isEnd_eq, Cursor.lex, same]
  cases split : scanner.rest with
  | nil => exact ⟨[], [], split, rfl, rfl⟩
  | cons c text =>
    have agrees := lexeme_agrees split (split ▸ ended.broken (by simp [split])) enough
    have whole := (Lexeme.read_splits c text).append
    simp only [List.isEmpty_cons, Bool.false_eq_true, if_false]
    generalize scanner.lexeme? rounds = answer, Lexeme.read c text = reading at agrees whole ⊢
    cases agrees with
    | @found kind lexeme front rest last =>
      have whole : scanner.rest = (front ++ [last]) ++ rest := split.trans whole.symm
      have reached : scanner.rest = front ++ last :: rest := by rw [whole, List.append_assoc]; rfl
      refine ⟨front ++ [last], rest, whole, ?_, (cursor_past whole).symm⟩
      simp only [Option.bind_eq_bind, Option.bind_some, advance_eq (rest_past reached), past_append]
      rfl
    | @fault cause passed rest =>
      have whole : scanner.rest = passed ++ rest := split.trans whole.symm
      exact ⟨passed, rest, whole, rfl, (cursor_past whole).symm⟩

/-- One reading step. -/
theorem read?_matches (ended : Lexical.Ended scanner.rest) (enough : scanner.rest.length < rounds) :
    scanner.Matches (scanner.read? rounds) scanner.cursor.next := by
  have whole : scanner.rest = Cursor.gap scanner.rest ++ scanner.cursor.skipGap.rest :=
    scanner.cursor.rest_eq
  have behind : (scanner.past (Cursor.gap scanner.rest)).rest = scanner.cursor.skipGap.rest :=
    rest_past whole
  have skipped : scanner.cursor.skipGap = (scanner.past (Cursor.gap scanner.rest)).cursor :=
    (cursor_past whole).symm
  have endedRest : Lexical.Ended (scanner.past (Cursor.gap scanner.rest)).rest := by
    rw [whole, ← behind] at ended
    exact ended.behind
  obtain ⟨passed, more, split, answer, read⟩ := lex?_matches endedRest
    ((length_past_le whole).trans_lt enough)
  rw [past_append] at answer read
  refine ⟨Cursor.gap scanner.rest ++ passed, more, ?_, ?_, ?_⟩
  · rw [List.append_assoc, ← split, behind]
    exact whole
  · rw [read?, skipGap?_eq enough, Option.bind_eq_bind, Option.bind_some, answer, Cursor.next,
      skipped]
  · rw [Cursor.next, skipped]
    exact read

end Scanner
end ScriptToCpp
