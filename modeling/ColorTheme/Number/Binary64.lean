/-!
# Binary floating point in 64 bits

A finite number is a sign and a *magnitude*.  The nonnegative finite numbers of the format are
counted off in order of size, from `0` for zero to `magnitudeCount - 1` for the largest, so that
the magnitude is at the same time the bit pattern below the sign bit.  Every finite number is a
whole number of *quanta* of `2 ^ (-1074)`.

Each operation takes the exact rational result and rounds it once, to the nearest number of the
format, a tie to the even magnitude.  What is left beside the rounding are the rules on the sign of
a zero, on the infinities and on the value that is not a number.
-/

namespace ColorTheme

namespace Binary64

abbrev twoPow (k : Nat) : Nat := Nat.pow 2 k

/-- The magnitudes between one power of two and the next: `2 ^ 52`. -/
abbrev binade : Nat := 4503599627370496

/-- How many finite magnitudes there are: the bit pattern of infinity. -/
abbrev magnitudeCount : Nat := 2047 * binade

/-- The quanta in one: `2 ^ 1074`. -/
abbrev quantaPerOne : Nat := twoPow 1074

end Binary64

/-- A number of the format. -/
inductive Binary64 where
  | nan
  | infinite (negative : Bool)
  | finite (negative : Bool) (magnitude : Fin Binary64.magnitudeCount)
  deriving DecidableEq, Inhabited

namespace Binary64

/-! ### The value -/

/-- The doublings between the quantum and the spacing of the numbers around the magnitude `m`. -/
def doublings (m : Nat) : Nat := m / binade - 1

/-- The quanta in the magnitude `m`. -/
def quanta (m : Nat) : Nat := (m - doublings m * binade) * twoPow (doublings m)

/-- The exact value of a finite number, and zero for the others. -/
def value : Binary64 → Rat
  | .finite false m => mkRat (quanta m) quantaPerOne
  | .finite true m => -mkRat (quanta m) quantaPerOne
  | _ => 0

def isFinite : Binary64 → Bool
  | .finite .. => true
  | _ => false

def isNan : Binary64 → Bool
  | .nan => true
  | _ => false

def zero (negative : Bool) : Binary64 := .finite negative ⟨0, by decide⟩

/-! ### Rounding -/

/-- The quotient `n / d` as a whole number: the nearest one, the even one of two. -/
def roundEven (n d : Nat) : Nat :=
  let q := n / d
  let r := n % d
  if 2 * r < d then q else if d < 2 * r then q + 1 else q + q % 2

/-- The magnitude nearest to `n / d` quanta, without a bound above. -/
def nearestMagnitude (n d : Nat) : Nat :=
  let k := (n / d).log2 - 52
  k * binade + roundEven n (d * twoPow k)

/-- The number nearest to the absolute value of `q`, with the given sign. -/
def round (negative : Bool) (q : Rat) : Binary64 :=
  let m := nearestMagnitude (q.num.natAbs * quantaPerOne) q.den
  if h : m < magnitudeCount then .finite negative ⟨m, h⟩ else .infinite negative

/-- The number nearest to `q`. -/
def ofRat (q : Rat) : Binary64 := round (decide (q < 0)) q

def ofNat (n : Nat) : Binary64 := ofRat n

instance (n : Nat) : OfNat Binary64 n := ⟨ofNat n⟩

def powerOfTen (m : Nat) (e : Int) : Rat :=
  match e with
  | .ofNat k => ((m * Nat.pow 10 k : Nat) : Rat)
  | .negSucc k => mkRat m (Nat.pow 10 (k + 1))

instance : OfScientific Binary64 where
  ofScientific m s e := round false (powerOfTen m (if s then -(e : Int) else e))

/-! ### Arithmetic -/

def neg : Binary64 → Binary64
  | .nan => .nan
  | .infinite s => .infinite (!s)
  | .finite s m => .finite (!s) m

def abs : Binary64 → Binary64
  | .nan => .nan
  | .infinite _ => .infinite false
  | .finite _ m => .finite false m

/-- The rounded sum; an exact zero is negative only if both terms are. -/
def add (x y : Binary64) : Binary64 :=
  match x, y with
  | .nan, _ | _, .nan => .nan
  | .infinite s, .infinite t => if s = t then .infinite s else .nan
  | .infinite s, .finite .. => .infinite s
  | .finite .., .infinite t => .infinite t
  | .finite s _, .finite t _ =>
    let sum := x.value + y.value
    if sum = 0 then zero (s && t) else ofRat sum

def sub (x y : Binary64) : Binary64 := add x (neg y)

/-- The rounded product; zero times infinity is not a number. -/
def mul (x y : Binary64) : Binary64 :=
  match x, y with
  | .nan, _ | _, .nan => .nan
  | .infinite s, .infinite t => .infinite (s != t)
  | .infinite s, .finite t m => if m.val = 0 then .nan else .infinite (s != t)
  | .finite s m, .infinite t => if m.val = 0 then .nan else .infinite (s != t)
  | .finite s _, .finite t _ => round (s != t) (x.value * y.value)

/-- The rounded quotient; a nonzero number over zero is infinite, zero over zero not a number. -/
def div (x y : Binary64) : Binary64 :=
  match x, y with
  | .nan, _ | _, .nan => .nan
  | .infinite _, .infinite _ => .nan
  | .infinite s, .finite t _ => .infinite (s != t)
  | .finite s _, .infinite t => zero (s != t)
  | .finite s m, .finite t n =>
    if n.val = 0 then
      if m.val = 0 then .nan else .infinite (s != t)
    else round (s != t) (x.value / y.value)

instance : Neg Binary64 := ⟨neg⟩
instance : Add Binary64 := ⟨add⟩
instance : Sub Binary64 := ⟨sub⟩
instance : Mul Binary64 := ⟨mul⟩
instance : Div Binary64 := ⟨div⟩

/-! ### Order

Nothing is below, above or equal to `nan`, and the two zeros are equal. -/

def lt (x y : Binary64) : Bool :=
  match x, y with
  | .nan, _ | _, .nan => false
  | .infinite s, .infinite t => s && !t
  | .infinite s, .finite .. => s
  | .finite .., .infinite t => !t
  | .finite .., .finite .. => decide (x.value < y.value)

def le (x y : Binary64) : Bool :=
  match x, y with
  | .nan, _ | _, .nan => false
  | .infinite s, .infinite t => s || !t
  | .infinite s, .finite .. => s
  | .finite .., .infinite t => !t
  | .finite .., .finite .. => decide (x.value ≤ y.value)

/-- The same number, which `nan` is not even to itself. -/
def sameAs (x y : Binary64) : Bool := le x y && le y x

instance : LT Binary64 := ⟨fun x y => lt x y = true⟩
instance : LE Binary64 := ⟨fun x y => le x y = true⟩
instance (x y : Binary64) : Decidable (x < y) := inferInstanceAs (Decidable (lt x y = true))
instance (x y : Binary64) : Decidable (x ≤ y) := inferInstanceAs (Decidable (le x y = true))

/-- The larger of two numbers, the other one if one is `nan`, the second if they are equal: of two
zeros the second decides the sign. -/
def larger (x y : Binary64) : Binary64 :=
  if x.isNan || le x y then y else x

/-- The smaller of two numbers, the other one if one is `nan`, the second if they are equal. -/
def smaller (x y : Binary64) : Binary64 :=
  if x.isNan || le y x then y else x

/-- The number moved into the range from `low` to `high`; `nan` stays. -/
def clamp (x low high : Binary64) : Binary64 :=
  let x := if x < low then low else x
  if high < x then high else x

theorem le_refl {x : Binary64} (h : x ≠ nan) : x ≤ x := by
  show le x x = true
  cases x with
  | nan => exact absurd rfl h
  | infinite s => cases s <;> rfl
  | finite s m => simp [le]

theorem le_of_not_lt {x y : Binary64} (hx : x ≠ nan) (hy : y ≠ nan) (h : ¬ x < y) : y ≤ x := by
  replace h : ¬ lt x y = true := h
  show le y x = true
  cases x with
  | nan => exact absurd rfl hx
  | infinite s => cases y with
    | nan => exact absurd rfl hy
    | infinite t => cases s <;> cases t <;> simp_all [lt, le]
    | finite t n => cases s <;> simp_all [lt, le]
  | finite s m => cases y with
    | nan => exact absurd rfl hy
    | infinite t => cases t <;> simp_all [lt, le]
    | finite t n => simpa [lt, le, Rat.not_lt] using h

theorem ne_nan_of_le {x y : Binary64} (h : x ≤ y) : x ≠ nan ∧ y ≠ nan := by
  replace h : le x y = true := h
  constructor <;> rintro rfl
  · simp [le] at h
  · cases x <;> simp [le] at h

theorem le_trans {x y z : Binary64} (hxy : x ≤ y) (hyz : y ≤ z) : x ≤ z := by
  replace hxy : le x y = true := hxy
  replace hyz : le y z = true := hyz
  show le x z = true
  cases x <;> cases y <;> cases z <;> simp_all [le] <;>
    first | exact Rat.le_trans hxy hyz | grind

theorem le_clamp {low high x : Binary64} (hx : x ≠ nan) (h : low ≤ high) (hl : low ≠ nan) :
    low ≤ clamp x low high := by
  unfold clamp
  by_cases hlow : x < low
  · simp only [hlow, if_true]
    split
    · exact h
    · exact le_refl hl
  · simp only [hlow, if_false]
    split
    · exact h
    · exact le_of_not_lt hx hl hlow

theorem clamp_le {low high x : Binary64} (hx : x ≠ nan) (hh : high ≠ nan) (hl : low ≠ nan) :
    clamp x low high ≤ high := by
  unfold clamp
  by_cases hlow : x < low
  · simp only [hlow, if_true]
    split
    · exact le_refl hh
    · exact le_of_not_lt hh hl (by assumption)
  · simp only [hlow, if_false]
    split
    · exact le_refl hh
    · exact le_of_not_lt hh hx (by assumption)

/-! ### Whole numbers -/

/-- The value cut off toward zero, as a natural number without its sign. -/
def truncated (x : Binary64) : Nat := x.value.num.natAbs / x.value.den

/-- The part of a number in `[0, 1)`, a negative number counted from the whole number below it;
the one rounding is in that count. -/
def fraction (x : Binary64) : Binary64 :=
  match x with
  | .finite s _ =>
    let part := round s (x.value - (if s then -(x.truncated : Rat) else x.truncated))
    if part < 0 then part + 1 else part
  | _ => .nan

/-- The nearest whole number, a half away from zero; the sign stays. -/
def roundHalfAway (x : Binary64) : Binary64 :=
  match x with
  | .finite s _ =>
    let v := x.value
    round s (((2 * v.num.natAbs + v.den) / (2 * v.den) : Nat) : Rat)
  | _ => x

/-- A whole number from 0 to 255: cut off toward zero, the nearest end outside the range. -/
def toByte (x : Binary64) : UInt8 :=
  match x with
  | .nan => 0
  | .infinite s => if s then 0 else 255
  | .finite s _ => if s then 0 else UInt8.ofNat (min x.truncated 255)

def ofByte (b : UInt8) : Binary64 := ofNat b.toNat

/-! ### Bits -/

def signWeight (negative : Bool) : Nat := if negative then 2048 * binade else 0

/-- The 64 bits as a number below `2 ^ 64`. -/
def bits : Binary64 → Nat
  | .nan => magnitudeCount + binade / 2
  | .infinite s => signWeight s + magnitudeCount
  | .finite s m => signWeight s + m.val

end Binary64

end ColorTheme
