import ScriptToCpp.Text.Utf8

/-! Paths as byte sequences. Nothing is simplified: a path keeps its repeated separators and its
dots until the file system walks along it. -/
namespace ScriptToCpp

/-- The name of an entry in a directory. -/
abbrev FileName := List UInt8

structure Path where
  bytes : List UInt8
  deriving DecidableEq

namespace Path

def slash : UInt8 := 0x2f

/-- The segment that stays in the directory where it stands. -/
def dot : FileName := [0x2e]

/-- The segment that leads to the directory above. -/
def dotDot : FileName := [0x2e, 0x2e]

def ofString (text : String) : Path :=
  ⟨text.toUTF8.data.toList⟩

instance : Inhabited Path := ⟨⟨[]⟩⟩

/-- The path as text, for messages. -/
def display (path : Path) : String :=
  Text.Utf8.decode path.bytes

def isAbsolute (path : Path) : Bool :=
  path.bytes.head? == some slash

/-- The pieces between the separators, empty ones included. -/
def split : List UInt8 → List FileName
  | [] => [[]]
  | byte :: bytes =>
    if byte = slash then [] :: split bytes
    else
      match split bytes with
      | [] => [[byte]]
      | name :: names => (byte :: name) :: names

/-- The segments behind the root, or behind the start of a relative path. -/
def segments (path : Path) : List FileName :=
  split (if path.isAbsolute then path.bytes.tail else path.bytes)

/-- The path that leads along `path` and then along `next`; an absolute `next` stands alone. -/
def join (path next : Path) : Path :=
  if next.isAbsolute then next
  else if path.bytes = [] || path.bytes.getLast? == some slash then ⟨path.bytes ++ next.bytes⟩
  else ⟨path.bytes ++ slash :: next.bytes⟩

/-- Removes the separators and single dots at the end of a path, given back to front. The root and a
dot that starts the path stay. -/
def trimEnd : List UInt8 → List UInt8
  | [] => []
  | [last] => [last]
  | last :: before :: bytes =>
    if last = slash then trimEnd (before :: bytes)
    else if [last] = dot && before = slash then trimEnd (before :: bytes)
    else last :: before :: bytes

/-- The path to the directory that holds the last entry on the path. The root has none above it, and
neither has the empty path. -/
def parent? (path : Path) : Option Path :=
  match trimEnd path.bytes.reverse with
  | [] => none
  | last :: bytes =>
    if last = slash then none else some ⟨(trimEnd (bytes.dropWhile (· != slash))).reverse⟩

theorem trimEnd_length_le (bytes : List UInt8) : (trimEnd bytes).length ≤ bytes.length := by
  fun_induction trimEnd bytes with
  | case1 => simp
  | case2 => simp
  | case3 _ _ ih => exact Nat.le_trans ih (by simp)
  | case4 _ _ _ _ _ ih => exact Nat.le_trans ih (by simp)
  | case5 => simp

theorem parent?_length_lt {path above : Path} (parent : path.parent? = some above) :
    above.bytes.length < path.bytes.length := by
  have whole := trimEnd_length_le path.bytes.reverse
  unfold parent? at parent
  split at parent
  next => simp at parent
  next last bytes h =>
    split at parent
    next => simp at parent
    next =>
      simp only [Option.some.injEq] at parent
      have trimmed := trimEnd_length_le (bytes.dropWhile (· != slash))
      have dropped := (List.dropWhile_suffix (p := (· != slash)) (l := bytes)).length_le
      rw [h, List.length_reverse, List.length_cons] at whole
      rw [← parent, List.length_reverse]
      omega

end Path
end ScriptToCpp
