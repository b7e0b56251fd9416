import WampClient.Binary64

/-! The fewest decimal digits that read back as a given double precision number. The numbers that
round to it form an interval; the coarsest decimal grid with a point in the interval gives the
digits, and of two such points the nearer one, or the even one if they are equally near. -/
namespace WampClient.Decimal

/-- A positive number as `digits * 10 ^ exponent`. -/
structure Digits where
  digits : Nat
  exponent : Int
  deriving DecidableEq, Repr, Inhabited

/-- The interval that rounds to a number, in units of 2 ^ -1076. Its ends round to the number too
where the significand is even. Below a power of two the numbers lie twice as dense. -/
structure Interval where
  low : Nat
  mid : Nat
  high : Nat
  closed : Bool

def Interval.of (x : Binary64) : Interval :=
  let unit := 1 <<< x.scale
  let mid := 4 * x.significand * unit
  let below := if x.significand = Binary64.hiddenBit ∧ 0 < x.scale then unit else 2 * unit
  ⟨mid - below, mid, mid + 2 * unit, x.significand % 2 == 0⟩

/-- Compares `k * 10 ^ e` with `n` units of 2 ^ -1076 after clearing denominators. -/
def scaled (e : Int) (k n : Nat) : Nat × Nat :=
  ((k * Nat.pow 10 e.toNat) <<< 1076, n * Nat.pow 10 (-e).toNat)

def Interval.holds (i : Interval) (e : Int) (k : Nat) : Bool :=
  let lo := scaled e k i.low
  let hi := scaled e k i.high
  if i.closed then lo.2 ≤ lo.1 && hi.1 ≤ hi.2 else lo.2 < lo.1 && hi.1 < hi.2

/-- The point of the grid of step 10 ^ e that stands for the interval, if one lies in it. -/
def Interval.pick (i : Interval) (e : Int) : Option Nat :=
  let unit := scaled e 1 i.mid
  let below := unit.2 / unit.1
  let above := below + 1
  match i.holds e below, i.holds e above with
  | false, false => none
  | true, false => some below
  | false, true => some above
  | true, true =>
    let left := unit.2 % unit.1
    if 2 * left < unit.1 then some below
    else if unit.1 < 2 * left then some above
    else some (if below % 2 = 0 then below else above)

/-- Tries the grids from that of step 10 ^ e on to finer ones. -/
def search (i : Interval) : Nat → Int → Digits
  | 0, e => ⟨0, e⟩
  | steps + 1, e =>
    match i.pick e with
    | some k => ⟨k, e⟩
    | none => search i steps (e - 1)

/-- The digits of a finite number that is not zero. No such number reaches 10 ^ 309, and every
one is a point of some grid down to 10 ^ -342. -/
def shortest (x : Binary64) : Digits := search (Interval.of x) 652 309

/-- The digits of a whole number in base ten. -/
def natText (n : Nat) : List Char := Nat.toDigits 10 n

/-- Digits without an exponent, always with a point and a digit on both sides of it. -/
def Digits.plain (d : Digits) : String :=
  let text := natText d.digits
  let point := text.length + d.exponent
  String.ofList <|
    if 0 ≤ d.exponent then text ++ List.replicate d.exponent.toNat '0' ++ ['.', '0']
    else if 0 < point then text.take point.toNat ++ '.' :: text.drop point.toNat
    else '0' :: '.' :: List.replicate (-point).toNat '0' ++ text

/-- One digit before the point, and the power of ten with its sign behind a letter `e`. -/
def Digits.scientific (d : Digits) : String :=
  match natText d.digits with
  | [] => ""
  | first :: rest =>
    let fraction := if rest.isEmpty then [] else '.' :: rest
    let power := d.exponent + rest.length
    String.ofList (first :: fraction ++ ['e', if power < 0 then '-' else '+'] ++
      natText power.natAbs)

/-- Numbers from 10 ^ -5 up to but not including 10 ^ 16 are written without an exponent. -/
def Digits.text (d : Digits) : String :=
  let point := (natText d.digits).length + d.exponent
  if -5 < point && point ≤ 16 then d.plain else d.scientific

/-- A finite number with its sign. -/
def text (x : Binary64) : String :=
  (if x.signBit then "-" else "") ++ (if x.isZero then "0.0" else (shortest x).text)

end WampClient.Decimal
