import ScriptToCpp.Token.Cursor

/-! A window on the tokens of a script: the token at hand and the one behind it. What lies further
on is not yet read, so that a fault there shows only when the window reaches it. -/
namespace ScriptToCpp

structure Window where
  current : Token
  ahead : Token
  cursor : Cursor
  deriving DecidableEq

namespace Window

/-- The window on the first two tokens. -/
def ofSource (source : String) : Except LexError Window := do
  let (first, cursor) := (Cursor.start source).next
  let current ← first
  let (second, cursor) := cursor.next
  let ahead ← second
  return ⟨current, ahead, cursor⟩

/-- Moves the window on by one token. Where that token cannot be read the window stays, but the
cursor is left on the fault. -/
def shift (window : Window) : Except LexError Unit × Window :=
  match window.cursor.next with
  | (.ok token, cursor) => (.ok (), ⟨window.ahead, token, cursor⟩)
  | (.error fault, cursor) => (.error fault, { window with cursor })

/-- How much a token counts for what is still to come. -/
def weigh (token : Token) : Nat :=
  if token.kind = .eof then 0 else 1

/-- The characters not yet read and the tokens in the window, the end token not counted. -/
def size (window : Window) : Nat :=
  window.cursor.rest.length + weigh window.current + weigh window.ahead

/-- Moving on from a token other than the last leaves less to come. -/
theorem shift_size_lt {window next : Window} (moved : window.shift = (.ok (), next))
    (more : window.current.kind ≠ .eof) : next.size < window.size := by
  unfold shift at moved
  split at moved
  next token cursor read =>
    simp only [Prod.mk.injEq, true_and] at moved
    subst moved
    have kept := window.cursor.next_rest_le
    simp only [read] at kept
    by_cases last : token.kind = .eof
    · simp only [size, weigh, last, more, if_true, if_false]
      omega
    · have taken := Cursor.next_rest_lt read last
      simp only [size, weigh, last, more, if_false]
      omega
  next => simp at moved

end Window
end ScriptToCpp
