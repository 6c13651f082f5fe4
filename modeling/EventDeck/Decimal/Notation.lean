import EventDeck.Decimal.Shortest

/-!
# Written numbers

Two ways of writing a double: in full, with the shortest numeral that reads back, and in brief,
rounded to six significant digits.  Both write a number positionally when its first digit stands
near the point and with an exponent of at least two digits otherwise.
-/

namespace EventDeck.Decimal

/-- The decisions of a way of writing numbers. -/
structure Style where
  /-- Numbers whose first digit has this exponent or a higher one are written with an exponent. -/
  exponentFrom : Int
  /-- What follows the digits of a whole number that is written positionally. -/
  wholeEnd : List Char

/-- Full numbers are positional below `10 ^ 16` and always show that they are not integers. -/
def full : Style := ⟨16, ['.', '0']⟩

/-- Brief numbers have six digits and no more than these. -/
def brief : Style := ⟨6, []⟩

/-- The significant digits of a numeral, without zeros at the end, and the exponent of the first. -/
def significant (n : Numeral) : List Char × Int :=
  let digits := digitsOf n.digits
  if n.digits = 0 then (['0'], 0)
  else ((digits.reverse.dropWhile (· = '0')).reverse, n.exponent + digits.length - 1)

/-- Digits with the point in its place. -/
def positional (style : Style) (digits : List Char) (first : Int) : List Char :=
  if first < 0 then ['0', '.'] ++ List.replicate (first.natAbs - 1) '0' ++ digits
  else
    -- so many digits stand before the point
    let count := first.toNat + 1
    if digits.length ≤ count then
      digits ++ List.replicate (count - digits.length) '0' ++ style.wholeEnd
    else digits.take count ++ ['.'] ++ digits.drop count

/-- Digits with an exponent; the exponent has a sign and at least two digits. -/
def scientific (digits : List Char) (first : Int) : List Char :=
  let exponent := digitsOf first.natAbs
  digits.take 1 ++ (if digits.length ≤ 1 then [] else '.' :: digits.drop 1) ++
    ['e', if first < 0 then '-' else '+'] ++
    List.replicate (2 - exponent.length) '0' ++ exponent

/-- A numeral written in a style; numbers below `10 ^ -4` are written with an exponent. -/
def Numeral.write (style : Style) (n : Numeral) : List Char :=
  let (digits, first) := significant n
  if -4 ≤ first && first < style.exponentFrom then positional style digits first
  else scientific digits first

/-- The sign of a written number. -/
def signed (negative : Bool) (text : List Char) : List Char :=
  if negative then '-' :: text else text

/-- Writes a double, given how the numeral of a positive one is found. -/
def writeWith (style : Style) (numeral : Nat → Nat → Int → Numeral) (x : Float) : List Char :=
  match Binary.ofFloat x with
  | .notANumber => ['n', 'a', 'n']
  | .infinite negative => signed negative ['i', 'n', 'f']
  | .finite negative significand exponent =>
    signed negative <| Numeral.write style <|
      if significand = 0 then ⟨0, 0⟩
      else numeral (x.toBits.toNat % Binary.signBit) significand exponent

/-- A double in full. -/
def write (x : Float) : List Char :=
  writeWith full shortest x

/-- A double in full, as a string. -/
def text (x : Float) : String :=
  String.ofList (write x)

/-- The nearest numeral of six digits; of two equally near, the even. -/
def sixDigits (_bits significand : Nat) (exponent : Int) : Numeral :=
  let (numerator, denominator) := quotient significand exponent
  let last := leadingExponent numerator denominator - 5
  let (a, b) := inSteps numerator denominator last
  ⟨(neighbours a b).headD 0, last⟩

/-- A double in brief, as a string. -/
def briefText (x : Float) : String :=
  String.ofList (writeWith brief sixDigits x)

example : text 0.1 = "0.1" ∧ text 100 = "100.0" ∧ text 1e16 = "1e+16" ∧ text 1e-5 = "1e-05" := by
  decide +kernel
example : text (-0.0) = "-0.0" ∧ text 5e-324 = "5e-324" ∧ text 1e23 = "1e+23" := by decide +kernel
example : briefText 53582.573 = "53582.6" ∧ briefText 2020065.1 = "2.02007e+06" := by
  decide +kernel

end EventDeck.Decimal
