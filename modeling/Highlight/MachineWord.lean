/-!
# Sums of machine words

A position is a machine word, and the sum of two words need not be one. What happens then is settled
when the program is built, so it is an argument of the sums here.
-/

namespace Highlight

/-- The machine words are the numbers below this one. -/
def wordRange : Nat := UInt64.size

/-- What a program does where a sum leaves the range of machine words. -/
inductive Overflow where
  /-- It stops. -/
  | stops
  /-- The sum goes on from zero. -/
  | wraps
  deriving DecidableEq, Repr

/-- The sum of two machine words, unless the program stops. -/
def Overflow.sum? (overflow : Overflow) (left right : Nat) : Option Nat :=
  if left + right < wordRange then some (left + right)
  else
    match overflow with
    | stops => none
    | wraps => some (left + right - wordRange)

/-- In the range of machine words sums are those of numbers. -/
theorem Overflow.sum?_of_lt (overflow : Overflow) {left right : Nat}
    (h : left + right < wordRange) : overflow.sum? left right = some (left + right) :=
  if_pos h

end Highlight
