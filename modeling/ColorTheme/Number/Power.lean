import ColorTheme.Number.Binary64

/-!
# Powers with a binary exponent

A power whose exponent is a whole number over `2 ^ k` takes `k` square roots: each binary digit
of the fraction, from the last to the first, multiplies by the base or not and takes a root.  Done
on whole numbers in units of `2 ^ (-precision)`, once with every root rounded down and once with
every root rounded up, this encloses the power between two rationals.  When both ends round to the
same number, that number is the power, correctly rounded.
-/

namespace ColorTheme

/-! ### Integer square roots -/

/-- The mean of a guess at the square root of `n` and `n` over the guess, again and again while that
makes the guess smaller. -/
def improveRoot : Nat → Nat → Nat → Nat
  | 0, _, guess => guess
  | fuel + 1, n, guess =>
    let next := (guess + n / guess) / 2
    if next < guess then improveRoot fuel n next else guess

/-- The largest whole number whose square is at most `n`.  The first guess is above the root, and
each step halves its distance from the root. -/
def rootFloor (n : Nat) : Nat := improveRoot (n.log2 + 2) n (Binary64.twoPow (n.log2 / 2 + 1))

namespace Binary64

/-! ### Enclosures -/

/-- The `count` lowest binary digits of `n`, the last one first. -/
def binaryDigits (count n : Nat) : List Bool := (List.range count).map n.testBit

/-- A bound from below of the power with the fraction of the digits, in units of `1 / unit`, for a
base that is at least `base` such units. -/
def powerFloor (unit base : Nat) (digits : List Bool) : Nat :=
  digits.foldl (fun r digit => rootFloor (r * if digit then base else unit)) unit

/-- A bound from above of the power with the fraction of the digits, in units of `1 / unit`, for a
base that is at most `base` such units. -/
def powerCeil (unit base : Nat) (digits : List Bool) : Nat :=
  digits.foldl (fun r digit => rootFloor (r * if digit then base else unit) + 1) unit

/-- Two rationals around `x` to the power `whole` and the fraction of the digits. -/
def powerBounds (precision : Nat) (x : Rat) (whole : Nat) (digits : List Bool) : Rat × Rat :=
  let unit := twoPow precision
  let n := x.num.natAbs * unit
  let low := powerFloor unit (n / x.den) digits
  let high := powerCeil unit ((n + x.den - 1) / x.den) digits
  let power := mkRat (Nat.pow x.num.natAbs whole) (Nat.pow x.den whole)
  (mkRat low unit * power, mkRat high unit * power)

/-- The power at a given precision, if the enclosure leaves one number. -/
def powerAt? (x : Rat) (whole : Nat) (digits : List Bool) (precision : Nat) : Option Binary64 :=
  let (low, high) := powerBounds precision x whole digits
  let y := ofRat low
  if y = ofRat high then some y else none

/-- The precisions that are tried in turn. -/
def powerPrecisions : List Nat := [128, 256, 512, 1024]

/-- The power of a positive number with a positive exponent, correctly rounded.  Below zero a
broken exponent gives no number. -/
def power (x y : Binary64) : Binary64 :=
  match x with
  | .nan => .nan
  | .infinite s => if s then .nan else x
  | .finite s m =>
    if m.val = 0 then zero false
    else if s then .nan
    else if x.value = 1 then x
    else
      let whole := y.value.num.natAbs / y.value.den
      let digits := binaryDigits y.value.den.log2 (y.value.num.natAbs % y.value.den)
      (powerPrecisions.findSome? (powerAt? x.value whole digits)).getD
        (ofRat (powerBounds 2048 x.value whole digits).1)

end Binary64

end ColorTheme
