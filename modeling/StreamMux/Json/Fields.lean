import StreamMux.Json.Decimal

/-!
# Records in JSON

A record with named fields is written as an object, or as an array of its fields in order.
`Value.fields?` finds the value of each field, if it is given; what a missing field means is left to
the record.  Names that the record does not have are passed over, or refused by `strict` records.
No field is given twice.

The writing side has one form only: an object with the fields in order and no blanks.
-/

namespace StreamMux.Json

/-! ### Reading -/

/-- The values given for a record's fields.  `none` in front of a list of values: it is no such
record. -/
def Value.fields? (value : Value) (names : List String) (strict : Bool) :
    Option (List (Option Value)) :=
  match value with
  | .array items =>
    if items.length > names.length then none
    else some (items.map some ++ List.replicate (names.length - items.length) none)
  | .object members =>
    let keys := members.map (·.1)
    let given := fun name => (members.filter (·.1 == some name)).map (·.2)
    if keys.contains none then none
    else if strict && keys.any (fun key => !(names.map some).contains key) then none
    else if names.any (fun name => (given name).length > 1) then none
    else some (names.map fun name => (given name).head?)
  | _ => none

/-- The values of a record whose fields are all given. -/
def Value.allFields? (value : Value) (names : List String) (strict : Bool) :
    Option (List Value) := do
  (← value.fields? names strict).mapM id

/-- A value as a natural number below `bound`. -/
def Value.natural? (value : Value) (bound : Nat) : Option Nat :=
  match value with
  | .number numeral => numeral.natural? bound
  | _ => none

def Value.word? (value : Value) : Option Nat :=
  value.natural? UInt64.size

def Value.float? : Value → Option Float
  | .number numeral => numeral.float?
  | _ => none

/-! ### Writing -/

/-- One member of an object. -/
def memberText (name value : String) : String :=
  "\"" ++ name ++ "\":" ++ value

/-- An object with the given members; names and values are written already. -/
def objectText (members : List (String × String)) : String :=
  "\x7b" ++ ",".intercalate (members.map fun (name, value) => memberText name value) ++ "\x7d"

end StreamMux.Json
