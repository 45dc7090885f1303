import LedgerClient.Text.Decimal

namespace LedgerClient

/-- The number `± significand * 2 ^ exponent`, in the binary format with 64 bits. -/
structure Double where
  negative : Bool
  significand : Nat
  exponent : Int
deriving DecidableEq, Repr

/-- A quotient rounded to the nearest number, a half to the even one. -/
def roundHalfEven (n d : Nat) : Nat :=
  let q := n / d
  let r := n % d
  if d < 2 * r ∨ (2 * r = d ∧ q % 2 = 1) then q + 1 else q

/-- `n / d` times a power of two, as a fraction. -/
def timesPowerOfTwo (n d : Nat) (e : Int) : Nat × Nat :=
  if 0 ≤ e then (n <<< e.toNat, d) else (n, d <<< (-e).toNat)

/-- `n / d` times a power of ten, as a fraction. -/
def timesPowerOfTen (n d : Nat) (e : Int) : Nat × Nat :=
  if 0 ≤ e then (n * Nat.pow 10 e.toNat, d) else (n, d * Nat.pow 10 (-e).toNat)

/-- The greatest power of two that is at most a positive fraction. -/
def binaryOrder (n d : Nat) : Int :=
  let guess : Int := (n.log2 : Int) - d.log2
  let (p, q) := timesPowerOfTwo n d (-guess)
  if q ≤ p then guess else guess - 1

/-- The number nearest to `n / d`, unless that lies beyond all of them. -/
def Double.round? (negative : Bool) (n d : Nat) : Option Double :=
  if n = 0 then some ⟨negative, 0, -1074⟩
  else
    let e := max (binaryOrder n d - 52) (-1074)
    let (p, q) := timesPowerOfTwo n d (-e)
    let s := roundHalfEven p q
    let (s, e) := if s = 1 <<< 53 then (1 <<< 52, e + 1) else (s, e)
    if e ≤ 971 then some ⟨negative, s, e⟩ else none

/-- The magnitude as a fraction. -/
def Double.fraction (x : Double) : Nat × Nat :=
  timesPowerOfTwo x.significand 1 x.exponent

def Double.isZero (x : Double) : Bool :=
  x.significand == 0

def Double.ofNat? (n : Nat) : Option Double :=
  Double.round? false n 1

def Double.times? (x y : Double) : Option Double :=
  Double.round? (x.negative != y.negative) (x.fraction.1 * y.fraction.1)
    (x.fraction.2 * y.fraction.2)

/-- The quotient by a number other than zero. -/
def Double.over? (x y : Double) : Option Double :=
  Double.round? (x.negative != y.negative) (x.fraction.1 * y.fraction.2)
    (x.fraction.2 * y.fraction.1)

/-- The sum of two numbers that are not negative. -/
def Double.plus? (x y : Double) : Option Double :=
  Double.round? false (x.fraction.1 * y.fraction.2 + y.fraction.1 * x.fraction.2)
    (x.fraction.2 * y.fraction.2)

/-- The number nearest to a power of ten. -/
def Double.powerOfTen? (k : Nat) : Option Double :=
  Double.ofNat? (Nat.pow 10 k)

/-- A number divided so many times by `10 ^ 308`, and then by `10 ^ k`. -/
def Double.scaleDown? (k : Nat) : Nat → Double → Option Double
  | 0, x => (Double.powerOfTen? k).bind x.over?
  | steps + 1, x =>
    if x.isZero then some x
    else ((Double.powerOfTen? 308).bind x.over?).bind (Double.scaleDown? k steps)

/-- A number scaled by a power of ten, with a rounding for every factor: the power itself is
rounded, and powers below `10 ^ -308` are taken in steps. -/
def Double.scale? (x : Double) (e : Int) : Option Double :=
  if 308 < e then (if x.isZero then some x else none)
  else if 0 ≤ e then (Double.powerOfTen? e.toNat).bind x.times?
  else
    let steps := ((-e).toNat - 1) / 308
    x.scaleDown? ((-e).toNat - 308 * steps) steps

/-- The power of ten at or below a positive fraction. -/
def decimalOrder (n d : Nat) : Int :=
  let guess : Int := ((decimal n).length : Int) - (decimal d).length
  let (p, q) := timesPowerOfTen n d (-guess)
  if q ≤ p then guess else guess - 1

/-- Digits of a number on the grid of the multiples of `10 ^ k`, if a point of the grid next to
the number is rounded to it: the nearer one, of two at the same distance the even one. -/
def Double.onGrid? (x : Double) (k : Int) : Option Nat :=
  let (n, d) := x.fraction
  let (p, q) := timesPowerOfTen n d (-k)
  let low := if x.significand = 1 <<< 52 ∧ -1074 < x.exponent then 1 else 2
  -- In quarters of the last place: the ends of what is rounded to the number, and a grid point.
  let reads (c : Nat) : Bool :=
    let (a, b) := timesPowerOfTen c 1 k
    let (a, b) := timesPowerOfTwo a b (2 - x.exponent)
    let bottom := (4 * x.significand - low) * b
    let top := (4 * x.significand + 2) * b
    if x.significand % 2 = 0 then bottom ≤ a && a ≤ top else bottom < a && a < top
  let below := p / q
  let nearest := roundHalfEven p q
  let other := if nearest = below then below + 1 else below
  if reads nearest then some nearest else if reads other then some other else none

/-- The fewest digits that are rounded to the number, and the power of ten they are multiplied
with. -/
def Double.shortest (x : Double) : Nat × Int :=
  let order := decimalOrder x.fraction.1 x.fraction.2
  let tries := (List.range 18).map fun (i : Nat) => order + 1 - i
  match tries.findSome? fun k => (x.onGrid? k).map fun c => (c, k) with
  | some found => found
  | none => (0, 0)

/-- Positional from `1e-5` to below `1e16`, with a fraction always; else one digit before the
point and an exponent. -/
def Double.chars (x : Double) : List Char :=
  let sign := if x.negative then ['-'] else []
  if x.isZero then sign ++ ['0', '.', '0']
  else
    let (c, k) := x.shortest
    let ds := decimal c
    let point : Int := ds.length + k
    let body :=
      if 0 ≤ k ∧ point ≤ 16 then ds ++ List.replicate k.toNat '0' ++ ['.', '0']
      else if 0 < point ∧ point ≤ 16 then ds.take point.toNat ++ '.' :: ds.drop point.toNat
      else if -5 < point ∧ point ≤ 0 then '0' :: '.' :: (List.replicate (-point).toNat '0' ++ ds)
      else
        let e := point - 1
        let exponent := (if e < 0 then ['-'] else []) ++ decimal e.natAbs
        let fraction := if ds.length = 1 then [] else '.' :: ds.drop 1
        ds.take 1 ++ fraction ++ 'e' :: exponent
    sign ++ body

/-- The number with three decimal places, a half going to the even neighbour. -/
def Double.thousandths (x : Double) : String :=
  let n := roundHalfEven (x.fraction.1 * 1000) x.fraction.2
  let sign := if x.negative then ['-'] else []
  String.ofList (sign ++ decimal (n / 1000) ++ '.' :: padded 3 (n % 1000))

end LedgerClient
