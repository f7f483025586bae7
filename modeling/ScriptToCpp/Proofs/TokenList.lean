import ScriptToCpp.Token.Window
import ScriptToCpp.Proofs.Spelling

/-! The tokens of a text as one list. Reading comes to the end token, or to a fault before it; and a
window shows the first two items of what is still to come. -/
namespace ScriptToCpp

/-- What reading a text gives: some tokens, and then the end token or a fault. -/
inductive Items : List (Except LexError Token) → Prop where
  | fault (fault : LexError) : Items [.error fault]
  | last {token : Token} : token.kind = .eof → Items [.ok token]
  | more {token : Token} {items : List (Except LexError Token)} :
      token.kind ≠ .eof → Items items → Items (.ok token :: items)

namespace Items
variable {items : List (Except LexError Token)}

theorem mapM_tokens (tokens : List Token) :
    (tokens.map .ok : List (Except LexError Token)).mapM id = .ok tokens := by
  induction tokens with
  | nil => rfl
  | cons token rest ih =>
    rw [List.map_cons, List.mapM_cons, ih]
    rfl

theorem mapM_fault (tokens : List Token) (fault : LexError) :
    (tokens.map Except.ok ++ [Except.error fault]).mapM id = Except.error fault := by
  induction tokens with
  | nil => rfl
  | cons token rest ih =>
    rw [List.map_cons, List.cons_append, List.mapM_cons, ih]
    rfl

/-- The end token stands nowhere but at the end. -/
theorem tokens_or_fault (read : Items items) :
    (∃ front last, items = (front ++ [last]).map .ok ∧ last.kind = .eof) ∨
      ∃ (tokens : List Token) (fault : LexError), items = tokens.map .ok ++ [.error fault] ∧
        ∀ token ∈ tokens, token.kind ≠ .eof := by
  induction read with
  | fault fault => exact .inr ⟨[], fault, rfl, by simp⟩
  | @last token last => exact .inl ⟨[], token, rfl, last⟩
  | @more token items more _ ih =>
    rcases ih with ⟨front, last, rfl, ending⟩ | ⟨tokens, fault, rfl, all⟩
    · exact .inl ⟨token :: front, last, rfl, ending⟩
    · exact .inr ⟨token :: tokens, fault, rfl, by simpa using ⟨more, all⟩⟩

/-- Where a token stands among items of which only the first ones are tokens. -/
theorem split_at {tokens front : List Token} {token : Token}
    {ending rest : List (Except LexError Token)} (faults : ∀ token, .ok token ∉ ending)
    (same : tokens.map .ok ++ ending = front.map .ok ++ .ok token :: rest) :
    ∃ after, tokens = front ++ token :: after ∧ rest = after.map .ok ++ ending := by
  induction front generalizing tokens with
  | nil =>
    cases tokens with
    | nil =>
      rw [List.map_nil, List.nil_append, List.nil_append] at same
      exact absurd (by simp [same]) (faults token)
    | cons first others =>
      cases same
      exact ⟨others, rfl, rfl⟩
  | cons first front ih =>
    cases tokens with
    | nil =>
      rw [List.map_nil, List.nil_append, List.map_cons, List.cons_append] at same
      exact absurd (by simp [same]) (faults first)
    | cons other others =>
      simp only [List.map_cons, List.cons_append, List.cons.injEq, Except.ok.injEq] at same
      obtain ⟨rfl, same⟩ := same
      obtain ⟨after, rfl, rfl⟩ := ih same
      exact ⟨after, rfl, rfl⟩

theorem fault_inj {tokens others : List Token} {fault other : LexError}
    (same : tokens.map Except.ok ++ [Except.error fault] =
      others.map Except.ok ++ [Except.error other]) : tokens = others ∧ fault = other := by
  obtain ⟨front, last⟩ := List.append_inj' same rfl
  cases last
  exact ⟨(List.map_inj_right fun _ _ => Except.ok.inj).mp front, rfl⟩

theorem map_ne_fault {tokens others : List Token} {fault : LexError} :
    tokens.map Except.ok ≠ others.map Except.ok ++ [Except.error fault] := by
  intro same
  have found : Except.error fault ∈ tokens.map (Except.ok : Token → Except LexError Token) := by
    rw [same]
    simp
  simp at found

end Items

namespace Cursor
variable {cursor behind : Cursor} {token : Token} {fault : LexError}

theorem drain_fault (read : cursor.next = (.error fault, behind)) :
    cursor.drain = ([.error fault], behind) := by
  rw [drain]
  split <;> simp_all

theorem drain_last (read : cursor.next = (.ok token, behind)) (last : token.kind = .eof) :
    cursor.drain = ([.ok token], behind) := by
  rw [drain]
  split <;> simp_all

theorem drain_more (read : cursor.next = (.ok token, behind)) (more : token.kind ≠ .eof) :
    cursor.drain = (.ok token :: behind.drain.1, behind.drain.2) := by
  rw [drain]
  split <;> simp_all

theorem drain_items (cursor : Cursor) : Items cursor.drain.1 := by
  induction cursor using Cursor.drain.induct with
  | case1 cursor fault behind read =>
    rw [drain_fault read]
    exact .fault fault
  | case2 cursor token behind read last =>
    rw [drain_last read last]
    exact .last last
  | case3 cursor token behind read more _ _ _ _ ih =>
    rw [drain_more read more]
    exact .more more ih

theorem drain_regular (found : .ok token ∈ cursor.drain.1) : Regular token.kind token.text := by
  induction cursor using Cursor.drain.induct with
  | case1 cursor fault behind read =>
    rw [drain_fault read] at found
    simp at found
  | case2 cursor first behind read last =>
    rw [drain_last read last] at found
    simp only [List.mem_singleton, Except.ok.injEq] at found
    rw [found]
    exact (next_regular read).1
  | case3 cursor first behind read more _ _ _ _ ih =>
    rw [drain_more read more] at found
    simp only [List.mem_cons, Except.ok.injEq] at found
    rcases found with rfl | found
    · exact (next_regular read).1
    · exact ih found

end Cursor

theorem tokenize_ok_iff {source : String} {tokens : List Token} :
    tokenize source = .ok tokens ↔ (Cursor.start source).drain.1 = tokens.map .ok := by
  unfold tokenize
  constructor
  · intro read
    rcases (Cursor.start source).drain_items.tokens_or_fault with
      ⟨front, last, same, _⟩ | ⟨found, fault, same, _⟩
    · rw [same, Items.mapM_tokens] at read
      cases read
      exact same
    · rw [same, Items.mapM_fault] at read
      contradiction
  · intro same
    rw [same, Items.mapM_tokens]

theorem tokenize_error_iff {source : String} {fault : LexError} :
    tokenize source = .error fault ↔
      ∃ tokens : List Token, (Cursor.start source).drain.1 = tokens.map .ok ++ [.error fault] := by
  unfold tokenize
  constructor
  · intro read
    rcases (Cursor.start source).drain_items.tokens_or_fault with
      ⟨front, last, same, _⟩ | ⟨tokens, other, same, _⟩
    · rw [same, Items.mapM_tokens] at read
      contradiction
    · rw [same, Items.mapM_fault] at read
      cases read
      exact ⟨tokens, same⟩
  · rintro ⟨tokens, same⟩
    rw [same, Items.mapM_fault]

theorem tokenize_regular {source : String} {tokens : List Token}
    (read : tokenize source = .ok tokens) : ∀ token ∈ tokens, Regular token.kind token.text := by
  intro token member
  apply (Cursor.start source).drain_regular
  rw [tokenize_ok_iff.mp read]
  exact List.mem_map_of_mem member

namespace Window
variable {window next : Window} {fault : LexError} {source : String}

/-- What the window shows, and what lies behind it. -/
def items (window : Window) : List (Except LexError Token) :=
  if window.current.kind = .eof then [.ok window.current]
  else if window.ahead.kind = .eof then [.ok window.current, .ok window.ahead]
  else .ok window.current :: .ok window.ahead :: window.cursor.drain.1

/-- Behind the end token there is nothing. -/
def Settled (window : Window) : Prop :=
  window.ahead.kind = .eof → window.cursor.rest = []

/-- No fault stands right behind the token at hand. -/
theorem items_current (window : Window) :
    ∃ rest, window.items = .ok window.current :: rest ∧ ∀ fault, rest ≠ [.error fault] := by
  unfold items
  split
  · exact ⟨[], rfl, by simp⟩
  · split
    · exact ⟨_, rfl, by simp⟩
    · exact ⟨_, rfl, by simp⟩

theorem shift_items (more : window.current.kind ≠ .eof)
    (moved : window.shift = (.ok (), next)) :
    next.Settled ∧ window.items = .ok window.current :: next.items := by
  unfold shift at moved
  split at moved
  next token cursor read =>
    simp only [Prod.mk.injEq, true_and] at moved
    subst moved
    refine ⟨(Cursor.next_regular read).2, ?_⟩
    by_cases last : window.ahead.kind = .eof
    · simp [items, more, last]
    · by_cases final : token.kind = .eof
      · simp [items, more, last, final, Cursor.drain_last read final]
      · simp [items, more, last, final, Cursor.drain_more read final]
  next => simp at moved

theorem shift_fault (settled : window.Settled) (more : window.current.kind ≠ .eof)
    (moved : window.shift = (.error fault, next)) :
    window.items = [.ok window.current, .ok window.ahead, .error fault] := by
  unfold shift at moved
  split at moved
  next => simp at moved
  next other cursor read =>
    simp only [Prod.mk.injEq, Except.error.injEq] at moved
    obtain ⟨rfl, -⟩ := moved
    have last : window.ahead.kind ≠ .eof := by
      intro last
      obtain ⟨token, behind, again, -⟩ := Cursor.next_empty (settled last)
      rw [read] at again
      simp at again
    simp [items, more, last, Cursor.drain_fault read]

theorem ofSource_ok (opened : ofSource source = .ok window) :
    window.Settled ∧ window.items = (Cursor.start source).drain.1 := by
  unfold ofSource at opened
  rcases first : (Cursor.start source).next with ⟨result, behind⟩
  rw [first] at opened
  cases result with
  | error fault => simp [bind, Except.bind] at opened
  | ok current =>
    rcases second : behind.next with ⟨result, further⟩
    simp only [bind, Except.bind, second] at opened
    cases result with
    | error fault => simp at opened
    | ok ahead =>
      cases opened
      refine ⟨(Cursor.next_regular second).2, ?_⟩
      by_cases last : current.kind = .eof
      · simp [items, last, Cursor.drain_last first last]
      · by_cases final : ahead.kind = .eof
        · simp [items, last, final, Cursor.drain_more first last, Cursor.drain_last second final]
        · simp [items, last, final, Cursor.drain_more first last, Cursor.drain_more second final]

theorem ofSource_error (failed : ofSource source = .error fault) :
    ∃ tokens : List Token, tokens.length ≤ 1 ∧
      (Cursor.start source).drain.1 = tokens.map .ok ++ [.error fault] := by
  unfold ofSource at failed
  rcases first : (Cursor.start source).next with ⟨result, behind⟩
  rw [first] at failed
  cases result with
  | error other =>
    cases failed
    exact ⟨[], by simp, by rw [Cursor.drain_fault first]; rfl⟩
  | ok current =>
    rcases second : behind.next with ⟨result, further⟩
    simp only [bind, Except.bind, second] at failed
    cases result with
    | ok ahead => contradiction
    | error other =>
      cases failed
      have more : current.kind ≠ .eof := by
        intro last
        obtain ⟨token, _, again, -⟩ := Cursor.next_empty ((Cursor.next_regular first).2 last)
        rw [second] at again
        simp at again
      refine ⟨[current], by simp, ?_⟩
      rw [Cursor.drain_more first more, Cursor.drain_fault second]
      rfl

end Window
end ScriptToCpp
