import ColorTheme.Number.Binary64

/-!
# Decimal numerals

Reading a numeral rounds its exact value once.  Writing has two forms: the fewest digits that read
back as the same number, laid out as a `Layout` says, and a fixed number of places, rounded from
the exact value.
-/

namespace ColorTheme

/-! ### Digits -/

def digitValue (c : Char) : Nat := c.toNat - '0'.toNat

def ofDigits (cs : List Char) : Nat := cs.foldl (fun n c => 10 * n + digitValue c) 0

/-- The decimal digits of a number, `0` for zero. -/
def digitsOf (n : Nat) : List Char := Nat.toDigits 10 n

/-! ### Numerals -/

/-- A numeral in its parts: a sign, the digits before and behind the point, and a power of ten. -/
structure Numeral where
  negative : Bool
  whole : List Char
  places : List Char
  exponent : Int
  deriving Repr

namespace Numeral

/-- A sign, if there is one, and what follows. -/
def splitSign : List Char → Bool × List Char
  | '-' :: cs => (true, cs)
  | '+' :: cs => (false, cs)
  | cs => (false, cs)

/-- The exponent that ends a numeral: nothing, or `e` with a sign, if any, and digits. -/
def exponent? : List Char → Option Int
  | [] => some 0
  | c :: cs =>
    if c = 'e' ∨ c = 'E' then
      let (negative, ds) := splitSign cs
      if ds ≠ [] ∧ ds.all Char.isDigit then
        some (if negative then -(ofDigits ds : Int) else ofDigits ds)
      else none
    else none

/-- Reads a numeral: a sign, if there is one, digits with at most one point among them, at least one
digit, and an exponent if there is one. -/
def read? (cs : List Char) : Option Numeral :=
  let (negative, cs) := splitSign cs
  let whole := cs.takeWhile Char.isDigit
  let rest := cs.dropWhile Char.isDigit
  let (places, rest) := match rest with
    | '.' :: rest => (rest.takeWhile Char.isDigit, rest.dropWhile Char.isDigit)
    | rest => ([], rest)
  if whole = [] ∧ places = [] then none
  else (exponent? rest).map fun e => ⟨negative, whole, places, e⟩

end Numeral

namespace Binary64

/-! ### Reading -/

/-- The number nearest to `m * 10 ^ e`, with the given sign.  An exponent far outside the range of
the format is answered without writing the power of ten out. -/
def ofDecimal (negative : Bool) (m : Nat) (e : Int) : Binary64 :=
  let size := (digitsOf m).length + e
  if m = 0 ∨ size < -330 then zero negative
  else if 310 < size then .infinite negative
  else round negative (powerOfTen m e)

def ofNumeral (x : Numeral) : Binary64 :=
  ofDecimal x.negative (ofDigits (x.whole ++ x.places)) (x.exponent - x.places.length)

/-- Reads a numeral; `inf`, `infinity` and `nan` are numerals in any letter case. -/
def parse? (cs : List Char) : Option Binary64 :=
  let (negative, rest) := Numeral.splitSign cs
  let word := rest.map Char.toLower
  if word = ['i', 'n', 'f'] ∨ word = ['i', 'n', 'f', 'i', 'n', 'i', 't', 'y'] then
    some (.infinite negative)
  else if word = ['n', 'a', 'n'] then some .nan
  else (Numeral.read? cs).map ofNumeral

/-! ### The fewest digits -/

/-- The `p` with `10 ^ (p - 1) ≤ q < 10 ^ p`, for a positive `q`. -/
def decimalExponent (q : Rat) : Int :=
  let n := q.num.natAbs
  if q.den ≤ n then (digitsOf (n / q.den)).length
  else 1 - ((digitsOf ((q.den + n - 1) / n - 1)).length : Int)

/-- Of the two neighbours of `q` on the grid of `10 ^ e`, the nearer one that reads back as `x`;
of two at the same distance the even one. -/
def shortestOn? (x : Binary64) (q : Rat) (e : Int) : Option Nat :=
  let (n, d) := match e with
    | .ofNat k => (q.num.natAbs, q.den * Nat.pow 10 k)
    | .negSucc k => (q.num.natAbs * Nat.pow 10 (k + 1), q.den)
  let below := n / d
  let nearest := roundEven n d
  let other := if nearest = below then below + 1 else below
  let readsBack (m : Nat) : Bool := round false (powerOfTen m e) = x
  if readsBack nearest then some nearest else if readsBack other then some other else none

/-- The fewest digits `m`, and their exponent `e`, such that `m * 10 ^ e` reads back as the positive
finite number `x`.  Seventeen digits are always enough; the exact value of `x`, which has the
power of two in the denominator as a power of ten, closes the search. -/
def shortest (x : Binary64) : Nat × Int :=
  let q := x.value
  let p := decimalExponent q
  ((List.range' 1 17).findSome? fun (n : Nat) =>
    (shortestOn? x q (p - n)).map fun m => if m = Nat.pow 10 n then (1, p) else (m, p - n)).getD
    (q.num.natAbs * Nat.pow 5 q.den.log2, -q.den.log2)

/-- How a number is written with its fewest digits. -/
structure Layout where
  /-- The least power of ten of a leading digit that is written in place, if there is a least. -/
  least : Option Int
  /-- The greatest such power, if there is one. -/
  greatest : Option Int
  /-- A whole number ends in `.0`. -/
  pointZero : Bool
  deriving Repr

namespace Layout

/-- Whether a leading digit at this power of ten is written in place. -/
def isPositional (layout : Layout) (power : Int) : Bool :=
  layout.least.all (· ≤ power) && layout.greatest.all (power ≤ ·)

end Layout

/-- Digits at the place their exponent gives. -/
def positional (layout : Layout) (digits : List Char) (e : Int) : List Char :=
  match e with
  | .ofNat k =>
    digits ++ List.replicate k '0' ++ if layout.pointZero then ['.', '0'] else []
  | .negSucc k =>
    let places := k + 1
    if places < digits.length then
      digits.take (digits.length - places) ++ '.' :: digits.drop (digits.length - places)
    else '0' :: '.' :: (List.replicate (places - digits.length) '0' ++ digits)

/-- One digit before the point, the rest behind it, and the power of ten of the first. -/
def scientific (digits : List Char) (power : Int) : List Char :=
  let mantissa := match digits with
    | [] => []
    | [d] => [d]
    | d :: ds => d :: '.' :: ds
  mantissa ++ 'e' :: ((if power < 0 then ['-'] else []) ++ digitsOf power.natAbs)

/-- The number in the fewest digits that read back. -/
def write (layout : Layout) (x : Binary64) : List Char :=
  match x with
  | .nan => ['N', 'a', 'N']
  | .infinite s => (if s then ['-'] else []) ++ ['i', 'n', 'f']
  | .finite s m =>
    let body :=
      if m.val = 0 then positional layout ['0'] 0
      else
        let (coefficient, e) := shortest x.abs
        let digits := digitsOf coefficient
        let power := e + digits.length - 1
        if layout.isPositional power then positional layout digits e else scientific digits power
    (if s then ['-'] else []) ++ body

/-- All digits in place and none behind the point of a whole number. -/
def plainLayout : Layout := ⟨none, none, false⟩

/-! ### Fixed places -/

/-- The number with the given count of places, a tie to the even last digit. -/
def writeFixed (places : Nat) (x : Binary64) : List Char :=
  match x with
  | .nan => ['N', 'a', 'N']
  | .infinite s => (if s then ['-'] else []) ++ ['i', 'n', 'f']
  | .finite s _ =>
    let v := x.value
    let scaled := roundEven (v.num.natAbs * Nat.pow 10 places) v.den
    let point := if places = 0 then [] else
      let ds := digitsOf (scaled % Nat.pow 10 places)
      '.' :: (List.replicate (places - ds.length) '0' ++ ds)
    (if s then ['-'] else []) ++ digitsOf (scaled / Nat.pow 10 places) ++ point

end Binary64

end ColorTheme
