/-!
# JSON values

Whole numbers that fit into 64 bits are kept exactly, and every other number is a double. The
members of an object that is read are kept in the order of their names, each name once.

## Main definitions

* `Json` — a value.
* `Json.Members` — the members of an object.
* `Json.Members.put` — sets one member, keeping the order.
-/

namespace FlowCanvas

/-- A JSON value. -/
inductive Json
  | null
  | bool (b : Bool)
  | int (n : Int)
  /-- A number with a fraction, an exponent or too many digits. -/
  | real (x : Float)
  | str (s : String)
  | list (items : List Json)
  /-- An object with its members in order. -/
  | object (members : List (String × Json))
  deriving Inhabited

namespace Json

/-- The members of an object. -/
abbrev Members := List (String × Json)

/-- Sets a member in its place among members in the order of their names; a name already there
takes the new value. -/
def Members.put (name : String) (value : Json) : Members → Members
  | [] => [(name, value)]
  | (n, v) :: rest =>
    if name = n then (name, value) :: rest
    else if name < n then (name, value) :: (n, v) :: rest
    else (n, v) :: Members.put name value rest

/-- The object with the given members, a later one taking the place of an earlier one of its
name. -/
def ofMembers (members : Members) : Json :=
  .object (members.foldl (fun ms m => Members.put m.1 m.2 ms) [])

end Json

end FlowCanvas
