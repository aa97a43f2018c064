import StreamMux.Json.Value

/-!
# Numerals as numbers

`Numeral.natural?` reads a numeral as a natural number: it is one only without sign, point and
exponent.

`Numeral.float?` reads a numeral as a floating-point number in three steps, and each of them rounds.
The digits are gathered into one 64-bit word as long as they fit, and the place of the decimal point
is counted beside it (`Gathered`); the word is converted; and the result is multiplied or divided by
a power of ten.  The answer is not always the nearest number to the numeral, but always the same.
-/

namespace StreamMux.Json

/-- The number that some decimal digits stand for. -/
def ofDigits (digits : List Nat) : Nat :=
  digits.foldl (fun value digit => value * 10 + digit) 0

/-- A numeral as a natural number below `bound`. -/
def Numeral.natural? (numeral : Numeral) (bound : Nat) : Option Nat :=
  let value := ofDigits numeral.whole
  if numeral.negative || !numeral.fraction.isEmpty || numeral.exponent.isSome || bound ≤ value then
    none
  else some value

/-! ### Gathering digits -/

/-- The largest word that gathers digits. -/
def maxWord : Nat := UInt64.size - 1

/-- Gathered digits: the number is `word` times the power of ten with the exponent `scale`. -/
structure Gathered where
  word : Nat
  scale : Int
  deriving DecidableEq, Repr

/-- Gathers digits in front of the point.  From the first one on that does not fit, digits only
count. -/
def gatherWhole (word : Nat) : List Nat → Gathered
  | [] => ⟨word, 0⟩
  | digit :: digits =>
    let longer := word * 10 + digit
    if longer ≤ maxWord then gatherWhole longer digits else ⟨word, digits.length + 1⟩

/-- Gathers digits behind the point.  From the first one on that does not fit, digits are left
out. -/
def gatherFraction (gathered : Gathered) : List Nat → Gathered
  | [] => gathered
  | digit :: digits =>
    let longer := gathered.word * 10 + digit
    if longer ≤ maxWord then gatherFraction ⟨longer, gathered.scale - 1⟩ digits else gathered

/-! ### Scaling -/

/-- The floating-point number nearest to a power of ten; up to 308 there is one. -/
def powerOfTen (exponent : Nat) : Float :=
  Float.ofScientific 1 false exponent

/-- Divides by a power of ten, in steps where it is too large for one. -/
def scaleDown (value : Float) (exponent : Nat) : Float :=
  if exponent ≤ 308 then value / powerOfTen exponent
  else if value == 0 then value
  else scaleDown (value / powerOfTen 308) (exponent - 308)
termination_by exponent

/-- Multiplies by a power of ten; `none` if the product is out of range. -/
def scaleUp (value : Float) (exponent : Nat) : Option Float :=
  if exponent ≤ 308 then
    let product := value * powerOfTen exponent
    if product.isInf then none else some product
  else if value == 0 then some value
  else none

/-- The number that gathered digits stand for. -/
def Gathered.float? (gathered : Gathered) : Option Float :=
  let value := gathered.word.toUInt64.toFloat
  match gathered.scale with
  | .ofNat exponent => scaleUp value exponent
  | .negSucc exponent => some (scaleDown value (exponent + 1))

/-! ### Numerals -/

/-- The largest exponent that counts as written. -/
def maxExponent : Int := 0x7fffffff

/-- The smallest power of ten that counts. -/
def minExponent : Int := -0x80000000

/-- The size of the number that a numeral stands for.  An exponent beyond the largest one makes it
zero if it is negative or the digits are, and has no answer otherwise. -/
def Numeral.magnitude? (numeral : Numeral) : Option Float :=
  let gathered := gatherFraction (gatherWhole 0 numeral.whole) numeral.fraction
  match numeral.exponent with
  | none => gathered.float?
  | some (negative, digits) =>
    let exponent : Int := ofDigits digits
    if exponent > maxExponent then
      if gathered.word ≠ 0 ∧ ¬ negative then none else some 0
    else
      let scale := if negative then gathered.scale - exponent else gathered.scale + exponent
      Gathered.float? ⟨gathered.word, max minExponent (min maxExponent scale)⟩

/-- A numeral as a floating-point number; zero keeps its sign. -/
def Numeral.float? (numeral : Numeral) : Option Float :=
  numeral.magnitude?.map fun value => if numeral.negative then -value else value

end StreamMux.Json
