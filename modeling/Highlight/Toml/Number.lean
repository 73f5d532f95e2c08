import Highlight.Toml.Digits

/-!
# Numbers in TOML

Integers are decimal with an optional sign, or hexadecimal, octal or binary, and fit into 64 bits.
Floats have a fraction or an exponent. Underscores may stand between digits. A positive float too
large for double precision is refused. Only the extent of a number is read.
-/

namespace Highlight.Toml

/-- The digits at the front of a text with the underscores between them left out, and what
follows. The flag says that a digit stands before the text, so an underscore may come first. -/
def readDigits (base : Nat) : Bool → List Char → List Char × List Char
  | true, '_' :: c :: rest =>
      if isDigitOf base c then
        let (digits, after) := readDigits base true rest
        (c :: digits, after)
      else ([], '_' :: c :: rest)
  | _, c :: rest =>
      if isDigitOf base c then
        let (digits, after) := readDigits base true rest
        (c :: digits, after)
      else ([], c :: rest)
  | _, [] => ([], [])

/-- The greatest integer of 64 bits with a sign. -/
def maxInteger : Nat := 9223372036854775807

/-- An integer in another base than ten, behind the two characters that tell the base. -/
def readBased? (base : Nat) (chars : List Char) : Option (List Char) :=
  let (digits, rest) := readDigits base false chars
  if digits ≠ [] ∧ numberOf base digits ≤ maxInteger then some rest else none

/-- The least number of double precision that is rounded to infinity: half a unit above the
greatest finite one. -/
def infinityBound : Nat := Nat.pow 2 1024 - Nat.pow 2 970

/-- The number `digits · 10 ^ exponent` is rounded to infinity in double precision. Its size is
told by the number of its digits, but for numbers near the bound. -/
def isInfinite (digits : List Char) (exponent : Int) : Bool :=
  let significant := digits.dropWhile (· == '0')
  let size := significant.length + exponent
  let mantissa := numberOf 10 significant
  if significant.isEmpty || size < 300 then false
  else if size > 320 then true
  else if exponent ≥ 0 then infinityBound ≤ mantissa * Nat.pow 10 exponent.toNat
  else infinityBound * Nat.pow 10 (-exponent).toNat ≤ mantissa

/-- An exponent behind its letter, and what follows. -/
def readExponent? (chars : List Char) : Option (Int × List Char) :=
  let (negative, unsigned) :=
    match chars with
    | '-' :: rest => (true, rest)
    | '+' :: rest => (false, rest)
    | _ => (false, chars)
  let (digits, rest) := readDigits 10 false unsigned
  if digits = [] then none
  else
    let size : Int := numberOf 10 digits
    some (if negative then -size else size, rest)

/-- The digits before the point: a zero alone, or digits that begin with another. -/
def readWhole? (chars : List Char) : Option (List Char × List Char) :=
  match chars with
  | '0' :: rest => some (['0'], rest)
  | _ =>
      match readDigits 10 false chars with
      | ([], _) => none
      | (digits, rest) => some (digits, rest)

/-- The digits behind the point, if there is a point with digits behind it. -/
def readFraction? : List Char → Option (List Char × List Char)
  | '.' :: chars =>
      match readDigits 10 false chars with
      | ([], _) => none
      | (digits, rest) => some (digits, rest)
  | _ => none

/-- The exponent, if there is its letter with digits behind it. -/
def readScale? : List Char → Option (Int × List Char)
  | 'e' :: chars => readExponent? chars
  | 'E' :: chars => readExponent? chars
  | _ => none

/-- Read a decimal number behind its sign. -/
def readDecimal? (negative : Bool) (chars : List Char) : Option (List Char) := do
  let (whole, rest) ← readWhole? chars
  let fraction := readFraction? rest
  let (fractionDigits, rest) := fraction.getD ([], rest)
  let scale := readScale? rest
  let (exponent, rest) := scale.getD (0, rest)
  if fraction.isSome || scale.isSome then
    let infinite := isInfinite (whole ++ fractionDigits) (exponent - fractionDigits.length)
    if infinite && !negative then none else some rest
  else
    let limit := if negative then maxInteger + 1 else maxInteger
    if numberOf 10 whole ≤ limit then some rest else none

/-- Read a number behind its sign, which may be infinite or not a number. -/
def readUnsigned? (negative : Bool) (chars : List Char) : Option (List Char) :=
  match chars with
  | 'i' :: 'n' :: 'f' :: rest => some rest
  | 'n' :: 'a' :: 'n' :: rest => some rest
  | _ => readDecimal? negative chars

/-- Read a number and return what follows it. -/
def readNumber? (chars : List Char) : Option (List Char) :=
  match chars with
  | '+' :: rest => readUnsigned? false rest
  | '-' :: rest => readUnsigned? true rest
  | '0' :: 'x' :: rest => readBased? 16 rest
  | '0' :: 'o' :: rest => readBased? 8 rest
  | '0' :: 'b' :: rest => readBased? 2 rest
  | _ => readUnsigned? false chars

end Highlight.Toml
