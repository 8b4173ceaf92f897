/-!
# The size of text in bytes

## Main definitions

* `byteLength` — the number of bytes that a text takes up.
-/

namespace FlowCanvas

/-- The number of bytes of a text. -/
def byteLength (cs : List Char) : Nat := cs.foldl (fun n c => n + c.utf8Size) 0

end FlowCanvas
