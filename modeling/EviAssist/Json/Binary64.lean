import EviAssist.Text.Numeral

/-!
# Double-precision numbers

A number with a fraction or an exponent, or one too great for 64 bits, is kept as the double that
its digits are read as: the leading digits as a whole number, then one multiplication or division
by a power of ten, each step rounded to the nearest double.

* `Binary64.ofRatio?`: the double nearest to a quotient.
* `Binary64.ofDecimal?`: the double read from a whole number and a power of ten.
* `Binary64.text`: the fewest digits that read back as the same double.
-/

namespace EviAssist

/-- A double that is not negative: `mantissa * 2 ^ exponent`. -/
structure Binary64 where
  mantissa : Nat
  exponent : Int
  deriving DecidableEq, Inhabited, Repr

namespace Binary64

/-- Zero. -/
def zero : Binary64 :=
  ⟨0, -1074⟩

/-! ## Rounding -/

/-- A value as a quotient of whole numbers. -/
def ratio (x : Binary64) : Nat × Nat :=
  if 0 ≤ x.exponent then (x.mantissa * Nat.pow 2 x.exponent.toNat, 1)
  else (x.mantissa, Nat.pow 2 (-x.exponent).toNat)

/-- The quotient `n / d` rounded to a whole number, a half to the even neighbour. -/
def roundDiv (n d : Nat) : Nat :=
  let q := n / d
  let r := n % d
  if 2 * r < d ∨ (2 * r = d ∧ q % 2 = 0) then q else q + 1

/-- `n / d` in units of `2 ^ e`, as a quotient. -/
def inUnits (n d : Nat) (e : Int) : Nat × Nat :=
  if 0 ≤ e then (n, d * Nat.pow 2 e.toNat) else (n * Nat.pow 2 (-e).toNat, d)

/-- The exponent for which `n / d` has a mantissa of 53 bits, but not below the least one. -/
def exponentFor (n d : Nat) : Int :=
  let e : Int := n.log2 - d.log2 - 52
  let (n', d') := inUnits n d e
  max (if n' < d' * Nat.pow 2 52 then e - 1 else e) (-1074)

/-- The double nearest to `n / d`; none when that is too great. -/
def ofRatio? (n d : Nat) : Option Binary64 :=
  if n = 0 then some zero
  else
    let e := exponentFor n d
    let (n', d') := inUnits n d e
    let m := roundDiv n' d'
    let x : Binary64 := if m = Nat.pow 2 53 then ⟨Nat.pow 2 52, e + 1⟩ else ⟨m, e⟩
    if 971 < x.exponent then none else some x

/-- The double nearest to a whole number. -/
def ofNat? (n : Nat) : Option Binary64 :=
  ofRatio? n 1

/-- The double nearest to a product. -/
def mul? (x y : Binary64) : Option Binary64 :=
  ofRatio? (x.ratio.1 * y.ratio.1) (x.ratio.2 * y.ratio.2)

/-- The double nearest to a quotient. -/
def div? (x y : Binary64) : Option Binary64 :=
  ofRatio? (x.ratio.1 * y.ratio.2) (x.ratio.2 * y.ratio.1)

/-! ## Reading -/

/-- The greatest power of ten that is a double. -/
def greatestPower : Nat :=
  308

/-- Divides by a power of ten, in steps of the greatest one, until the value is zero. -/
def divideByPower? : Nat → Nat → Binary64 → Option Binary64
  | 0, _, x => some x
  | steps + 1, e, x =>
    if e ≤ greatestPower then do x.div? (← ofNat? (Nat.pow 10 e))
    else if x.mantissa = 0 then some x
    else do
      divideByPower? steps (e - greatestPower) (← x.div? (← ofNat? (Nat.pow 10 greatestPower)))

/-- The double read from `significand * 10 ^ exponent`; none when it is too great. -/
def ofDecimal? (significand : Nat) (exponent : Int) : Option Binary64 := do
  let x ← ofNat? significand
  if exponent < 0 then
    let e := (-exponent).toNat
    divideByPower? (e / greatestPower + 1) e x
  else if exponent.toNat ≤ greatestPower then x.mul? (← ofNat? (Nat.pow 10 exponent.toNat))
  else if significand = 0 then some x
  else none

/-! ## Writing -/

/-- The exponent `k` with `10 ^ k ≤ n / d < 10 ^ (k + 1)`. -/
def decimalExponent (n d : Nat) : Int :=
  if d ≤ n then (Text.decimal (n / d)).length - 1
  else -(Text.decimal ((d + n - 1) / n - 1)).length

/-- A number of `count` digits and a power of ten. -/
structure Candidate where
  digits : Nat
  power : Int
  deriving DecidableEq, Repr

/-- A candidate as a quotient. -/
def Candidate.ratio (c : Candidate) : Nat × Nat :=
  if 0 ≤ c.power then (c.digits * Nat.pow 10 c.power.toNat, 1)
  else (c.digits, Nat.pow 10 (-c.power).toNat)

/-- Whether one quotient is less than another. -/
def lessRatio (a b : Nat × Nat) : Bool :=
  a.1 * b.2 < b.1 * a.2

/-- The ends of the interval of numbers that are nearer to a double than to any other. -/
def bounds (x : Binary64) : (Nat × Nat) × (Nat × Nat) :=
  let narrow := x.mantissa = Nat.pow 2 52 ∧ -1074 < x.exponent
  let low : Binary64 :=
    if narrow then ⟨4 * x.mantissa - 1, x.exponent - 2⟩ else ⟨2 * x.mantissa - 1, x.exponent - 1⟩
  let high : Binary64 := ⟨2 * x.mantissa + 1, x.exponent - 1⟩
  (low.ratio, high.ratio)

/-- Whether a candidate reads back as the double. -/
def admits (x : Binary64) (c : Candidate) : Bool :=
  let (low, high) := x.bounds
  if x.mantissa % 2 = 0 then !lessRatio c.ratio low && !lessRatio high c.ratio
  else lessRatio low c.ratio && lessRatio c.ratio high

/-- The better of the two neighbours of a double on the grid of `count` digits, if one reads
back: the nearer one, and of two equally near the one with the even last digit. -/
def onGrid? (x : Binary64) (count : Nat) : Option Candidate :=
  let (n, d) := x.ratio
  let power := decimalExponent n d - (count - 1 : Int)
  let (n', d') :=
    if 0 ≤ power then (n, d * Nat.pow 10 power.toNat) else (n * Nat.pow 10 (-power).toNat, d)
  let below : Candidate := ⟨n' / d', power⟩
  let above : Candidate := ⟨n' / d' + 1, power⟩
  match x.admits below, x.admits above with
  | true, true => some ⟨roundDiv n' d', power⟩
  | true, false => some below
  | false, true => some above
  | false, false => none

/-- The shortest candidate that reads back as a double greater than zero. -/
def shortest (x : Binary64) : Candidate :=
  ((List.range 17).findSome? fun count => x.onGrid? (count + 1)).getD ⟨0, 0⟩

/-- Digits with a point, or with an exponent where the point would stand more than sixteen places
after the first digit or five before it. -/
def layout (digits : List Char) (power : Int) : List Char :=
  let count : Int := digits.length
  let point := count + power
  if 0 ≤ power ∧ point ≤ 16 then digits ++ List.replicate power.toNat '0' ++ ['.', '0']
  else if 0 < point ∧ point ≤ 16 then
    digits.take point.toNat ++ '.' :: digits.drop point.toNat
  else if -5 < point ∧ point ≤ 0 then
    ['0', '.'] ++ List.replicate (-point).toNat '0' ++ digits
  else
    let mantissa := if digits.length = 1 then digits else digits.take 1 ++ '.' :: digits.drop 1
    mantissa ++ 'e' :: (toString (point - 1)).toList

/-- The text of a double: the fewest digits that read back. -/
def text (x : Binary64) : List Char :=
  if x.mantissa = 0 then ['0', '.', '0']
  else
    let c := x.shortest
    let digits := Text.decimal c.digits
    let kept := (digits.reverse.dropWhile (· == '0')).reverse
    layout kept (c.power + (digits.length - kept.length : Nat))

end Binary64

end EviAssist
