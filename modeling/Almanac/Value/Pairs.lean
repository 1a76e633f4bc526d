import Almanac.Error

/-!
# Records given as pairs

A record may be given as a list of pairs of a name and a value. A pair is a list of two values, a
text of two characters, or a record of two fields, whose names are then name and value. Of two pairs
with one name the later one counts.
-/

namespace Almanac

namespace Value

def pair : Value → Except Error (Value × Value)
  | .list [name, value] => .ok (name, value)
  | .list _ => .error .notPairs
  | .text s =>
      match s.toList with
      | [a, b] => .ok (.text a.toString, .text b.toString)
      | _ => .error .notPairs
  | .record [a, b] => .ok (.text a.1, .text b.1)
  | .record _ => .error .notPairs
  | _ => .error .notFields

end Value

namespace Fields

/-- A field is added under a name. Lists and records are no names; other names that are not texts
are never asked for and left out. -/
def put (fields : Fields) (name value : Value) : Except Error Fields :=
  match name with
  | .text name => .ok (fields.set name value)
  | .list _ => .error .notAKey
  | .record _ => .error .notAKey
  | _ => .ok fields

def ofPairs (fields : Fields) : List Value → Except Error Fields
  | [] => .ok fields
  | item :: rest => do
      let (name, value) ← item.pair
      let fields ← fields.put name value
      ofPairs fields rest

/-- The fields of a record that is given as such or as pairs. What does not count as true has
none. -/
def ofValue (value : Value) : Except Error Fields :=
  if !value.isTrue then .ok []
  else
    match value with
    | .record fields => .ok fields
    | .list items => ofPairs [] items
    | .text _ => .error .notPairs
    | _ => .error .notFields

end Fields

end Almanac
