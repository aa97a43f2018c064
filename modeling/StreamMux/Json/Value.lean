/-!
# JSON values

A JSON text is read as a whole into a tree (`Value.ofText?`), by the strict grammar: no leading
zeros, no trailing commas, no control characters inside strings, and nothing but blanks behind the
value.  Numerals are kept as they are written, since what they stand for depends on the place where
they are wanted.  A string whose escapes name half a surrogate pair has no text.
-/

namespace StreamMux.Json

/-- A number as it is written. -/
structure Numeral where
  negative : Bool
  whole : List Nat
  /-- The digits behind the point, if there is one. -/
  fraction : List Nat
  /-- The exponent, if there is one: whether it is negative, and its digits. -/
  exponent : Option (Bool × List Nat)
  deriving DecidableEq, Repr

inductive Value where
  | null
  | bool (value : Bool)
  | number (numeral : Numeral)
  /-- A string; `none` if it has no text. -/
  | text (value : Option String)
  | array (items : List Value)
  /-- An object with its members in the order in which they are written. -/
  | object (members : List (Option String × Value))
  deriving Repr

/-! ### Scanners

Each scanner takes something off the front of the text and hands back the rest. -/

def skipBlanks (text : List Char) : List Char :=
  text.dropWhile fun c => c == ' ' || c == '\n' || c == '\t' || c == '\r'

def scanDigits (text : List Char) : List Nat × List Char :=
  ((text.takeWhile Char.isDigit).map fun c => c.toNat - '0'.toNat, text.dropWhile Char.isDigit)

/-- The digits behind a point, if one is there; at least one has to follow it. -/
def scanFraction : List Char → Option (List Nat × List Char)
  | '.' :: text =>
    match scanDigits text with
    | ([], _) => none
    | result => some result
  | text => some ([], text)

def scanSign : List Char → Bool × List Char
  | '+' :: text => (false, text)
  | '-' :: text => (true, text)
  | text => (false, text)

def scanExponent (text : List Char) : Option (Option (Bool × List Nat) × List Char) :=
  let body (text : List Char) :=
    let (negative, text) := scanSign text
    match scanDigits text with
    | ([], _) => none
    | (digits, text) => some (some (negative, digits), text)
  match text with
  | 'e' :: text => body text
  | 'E' :: text => body text
  | text => some (none, text)

/-- A number.  Only a lone zero starts with zero. -/
def scanNumeral (text : List Char) : Option (Numeral × List Char) := do
  let (negative, text) := match text with
    | '-' :: text => (true, text)
    | text => (false, text)
  let (whole, text) := scanDigits text
  match whole with
  | [] => none
  | 0 :: _ :: _ => none
  | _ =>
    let (fraction, text) ← scanFraction text
    let (exponent, text) ← scanExponent text
    some (⟨negative, whole, fraction, exponent⟩, text)

/-! ### Strings -/

/-- What one piece of a string stands for: a character, or a 16-bit unit given by its number. -/
inductive Piece where
  | char (c : Char)
  | unit (value : Nat)
  deriving DecidableEq, Repr

def hexDigit? (c : Char) : Option Nat :=
  if c.isDigit then some (c.toNat - '0'.toNat)
  else if 'a' ≤ c ∧ c ≤ 'f' then some (c.toNat - 'a'.toNat + 10)
  else if 'A' ≤ c ∧ c ≤ 'F' then some (c.toNat - 'A'.toNat + 10)
  else none

/-- The character that a one-letter escape stands for. -/
def escape? : Char → Option Char
  | '"' => some '"'
  | '\\' => some '\\'
  | '/' => some '/'
  | 'b' => some '\x08'
  | 'f' => some '\x0c'
  | 'n' => some '\n'
  | 'r' => some '\r'
  | 't' => some '\t'
  | _ => none

/-- The pieces of a string up to its closing quote. -/
def scanPieces : List Char → Option (List Piece × List Char)
  | [] => none
  | '"' :: text => some ([], text)
  | '\\' :: 'u' :: a :: b :: c :: d :: text => do
    let a ← hexDigit? a
    let b ← hexDigit? b
    let c ← hexDigit? c
    let d ← hexDigit? d
    let (pieces, text) ← scanPieces text
    some (.unit (((a * 16 + b) * 16 + c) * 16 + d) :: pieces, text)
  | '\\' :: letter :: text => do
    let c ← escape? letter
    let (pieces, text) ← scanPieces text
    some (.char c :: pieces, text)
  | c :: text =>
    if c == '\\' || c.toNat < 0x20 then none
    else do
      let (pieces, text) ← scanPieces text
      some (.char c :: pieces, text)

/-- The characters of some pieces.  Units of a surrogate pair make one character together and none
alone. -/
def joinPieces : List Piece → Option (List Char)
  | [] => some []
  | .char c :: pieces => (joinPieces pieces).map (c :: ·)
  | .unit high :: .unit low :: pieces =>
    if 0xd800 ≤ high ∧ high < 0xdc00 then
      if 0xdc00 ≤ low ∧ low < 0xe000 then
        let c := Char.ofNat (0x10000 + (high - 0xd800) * 0x400 + (low - 0xdc00))
        (joinPieces pieces).map (c :: ·)
      else none
    else if 0xdc00 ≤ high ∧ high < 0xe000 then none
    else (joinPieces (.unit low :: pieces)).map (Char.ofNat high :: ·)
  | .unit value :: pieces =>
    if 0xd800 ≤ value ∧ value < 0xe000 then none
    else (joinPieces pieces).map (Char.ofNat value :: ·)

/-- A string behind its opening quote. -/
def scanString (text : List Char) : Option (Option String × List Char) :=
  (scanPieces text).map fun (pieces, rest) => ((joinPieces pieces).map String.ofList, rest)

/-! ### Values -/

mutual

/-- A value, with no more than `depth` steps of nesting and listing. -/
def scanValue (depth : Nat) (text : List Char) : Option (Value × List Char) :=
  match depth with
  | 0 => none
  | depth + 1 =>
    match skipBlanks text with
    | 'n' :: 'u' :: 'l' :: 'l' :: text => some (.null, text)
    | 't' :: 'r' :: 'u' :: 'e' :: text => some (.bool true, text)
    | 'f' :: 'a' :: 'l' :: 's' :: 'e' :: text => some (.bool false, text)
    | '"' :: text => (scanString text).map fun (value, text) => (.text value, text)
    | '[' :: text =>
      match skipBlanks text with
      | ']' :: text => some (.array [], text)
      | text => (scanItems depth text).map fun (items, text) => (.array items, text)
    | '\x7b' :: text =>
      match skipBlanks text with
      | '\x7d' :: text => some (.object [], text)
      | text => (scanMembers depth text).map fun (members, text) => (.object members, text)
    | text => (scanNumeral text).map fun (numeral, text) => (.number numeral, text)

/-- The items of an array up to its end; there is at least one. -/
def scanItems (depth : Nat) (text : List Char) : Option (List Value × List Char) :=
  match depth with
  | 0 => none
  | depth + 1 => do
    let (item, text) ← scanValue depth text
    match skipBlanks text with
    | ']' :: text => some ([item], text)
    | ',' :: text =>
      let (items, text) ← scanItems depth text
      some (item :: items, text)
    | _ => none

/-- The members of an object up to its end; there is at least one. -/
def scanMembers (depth : Nat) (text : List Char) :
    Option (List (Option String × Value) × List Char) :=
  match depth with
  | 0 => none
  | depth + 1 =>
    match skipBlanks text with
    | '"' :: text => do
      let (key, text) ← scanString text
      match skipBlanks text with
      | ':' :: text =>
        let (value, text) ← scanValue depth text
        match skipBlanks text with
        | '\x7d' :: text => some ([(key, value)], text)
        | ',' :: text =>
          let (members, text) ← scanMembers depth text
          some ((key, value) :: members, text)
        | _ => none
      | _ => none
    | _ => none

end

/-- The value that a text holds.  Each step of nesting or listing takes a character of the text or
comes directly before one that does. -/
def Value.ofText? (text : String) : Option Value :=
  let chars := text.toList
  match scanValue (2 * chars.length + 2) chars with
  | some (value, rest) => if (skipBlanks rest).isEmpty then some value else none
  | none => none

end StreamMux.Json
