import FlowCanvas.Failure
import FlowCanvas.Text.Bytes

/-!
# Files by their paths

The files that a run can find, as a tree of directories. A path is a row of names with slashes
between them, which are followed one by one, from the root if it starts with a slash.

## Main definitions

* `FileTree` — a file, or a directory with what is in it.
* `FileTree.Location` — a place in a tree, with the way to it.
* `FileTree.Location.step` — the place that a name leads to.
* `FileTree.Location.find` — the place that a path leads to.
* `FileTree.Location.read` — the bytes of the file there.
-/

namespace FlowCanvas

/-- A file, or a directory with what is in it. -/
inductive FileTree
  | file (bytes : ByteArray)
  /-- A directory with its entries by name. -/
  | directory (entries : List (String × FileTree))
  deriving Inhabited

namespace FileTree

/-- The most bytes that a name may have. -/
def longestName : Nat := 255

/-- The most bytes that a path may have. -/
def longestPath : Nat := 4095

/-- The names on a path. A slash too many stands before an empty one. -/
def names : List Char → List (List Char)
  | [] => [[]]
  | c :: cs =>
    if c = '/' then [] :: names cs
    else
      match names cs with
      | [] => [[c]]
      | name :: rest => (c :: name) :: rest

/-- A place in a tree. -/
structure Location where
  here : FileTree
  /-- The directories that lead there, the nearest first. -/
  above : List FileTree
  deriving Inhabited

namespace Location

/-- The root of the tree. -/
def root (l : Location) : Location := ⟨l.above.getLastD l.here, []⟩

/-- The directory above a place. The root is above itself. -/
def parent (l : Location) : Location :=
  match l.above with
  | [] => l
  | up :: rest => ⟨up, rest⟩

/-- The place that a name leads to. An empty name and a dot stay where they are, and two dots go
up, but only a directory can be left by any of them. -/
def step (l : Location) (name : List Char) : Except Unreadable Location :=
  match l.here with
  | .file _ => .error .notDirectory
  | .directory entries =>
    if name = [] || name = ['.'] then .ok l
    else if name = ['.', '.'] then .ok l.parent
    else if longestName < byteLength name then .error .longName
    else
      match entries.lookup (String.ofList name) with
      | some tree => .ok ⟨tree, l.here :: l.above⟩
      | none => .error .missing

/-- The place that names lead to, one after the other. -/
def follow (l : Location) : List (List Char) → Except Unreadable Location
  | [] => .ok l
  | name :: rest =>
    match l.step name with
    | .ok next => next.follow rest
    | .error why => .error why

@[simp] theorem follow_nil (l : Location) : l.follow [] = .ok l := rfl

/-- The place that a path leads to. -/
def find (l : Location) (path : List Char) : Except Unreadable Location :=
  match path with
  | [] => .error .missing
  | c :: _ =>
    if longestPath < byteLength path then .error .longName
    else (if c = '/' then l.root else l).follow (names path)

/-- The bytes of the file that a path leads to. -/
def read (l : Location) (path : String) : Except Unreadable ByteArray :=
  match l.find path.toList with
  | .ok ⟨.file bytes, _⟩ => .ok bytes
  | .ok ⟨.directory _, _⟩ => .error .directory
  | .error why => .error why

/-! ### Ways through a tree -/

/-- Nothing lies beyond a file, not even itself. -/
theorem follow_file (bytes : ByteArray) (above : List FileTree) (name : List Char)
    (rest : List (List Char)) :
    follow ⟨.file bytes, above⟩ (name :: rest) = .error .notDirectory := rfl

/-- A way can be followed in two parts. -/
theorem follow_append (l : Location) (first second : List (List Char)) :
    l.follow (first ++ second) = (l.follow first).bind fun m => m.follow second := by
  induction first generalizing l with
  | nil => rfl
  | cons name rest ih =>
    rw [List.cons_append, follow, follow]
    cases l.step name with
    | ok next => exact ih next
    | error why => rfl

end Location

end FileTree

end FlowCanvas
