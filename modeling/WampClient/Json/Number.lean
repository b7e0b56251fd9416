import WampClient.Value

/-! Numbers in JSON text. A whole number that fits into sixty-four bits keeps its value. All others
are read as floats: the digits are taken in as long as their value fits into sixty-four bits, the
rest only move the point, and a power of ten is then multiplied or divided in, rounding once for
each step. The result may be a unit in the last place away from the number written. -/
namespace WampClient.Json

def digit? (c : Char) : Option Nat :=
  if '0' ≤ c ∧ c ≤ '9' then some (c.toNat - '0'.toNat) else none

/-- The digits read so far, and the power of ten they stand for. -/
structure Significand where
  value : Nat
  exponent : Int
  deriving DecidableEq, Repr

/-- Takes in a digit if the value still fits into sixty-four bits. -/
def extend? (value d : Nat) : Option Nat :=
  if value * 10 + d < 0x10000000000000000 then some (value * 10 + d) else none

/-- The number of digits in front and the text behind them. -/
def skipDigits : List Char → Nat × List Char
  | [] => (0, [])
  | c :: rest =>
    if (digit? c).isSome then ((skipDigits rest).1 + 1, (skipDigits rest).2) else (0, c :: rest)

/-- Takes in digits before the point; those from the first that no longer fits count as zeros. -/
def wholePart (value : Nat) : List Char → Significand × Bool × List Char
  | [] => (⟨value, 0⟩, false, [])
  | c :: rest =>
    match digit? c with
    | none => (⟨value, 0⟩, false, c :: rest)
    | some d =>
      match extend? value d with
      | some value => wholePart value rest
      | none =>
        let (n, rest) := skipDigits (c :: rest)
        (⟨value, n⟩, true, rest)

/-- Takes in digits behind the point; those from the first that no longer fits are dropped. -/
def fraction (s : Significand) : List Char → Significand × List Char
  | [] => (s, [])
  | c :: rest =>
    match digit? c with
    | none => (s, c :: rest)
    | some d =>
      match extend? s.value d with
      | some value => fraction ⟨value, s.exponent - 1⟩ rest
      | none => (s, (skipDigits rest).2)

/-- The value of a row of digits, of which there has to be one. A value beyond all reach grows no
further. -/
def exponentDigits : List Char → Option (Nat × List Char)
  | [] => none
  | c :: rest => (digit? c).map fun d => go d rest
where
  go (n : Nat) : List Char → Nat × List Char
    | [] => (n, [])
    | c :: rest =>
      match digit? c with
      | some d => go (if n < 0x80000000 then n * 10 + d else n) rest
      | none => (n, c :: rest)

/-- The exponent behind the letter. -/
def signedExponent : List Char → Option (Int × List Char)
  | '+' :: rest => (exponentDigits rest).map fun r => (r.1, r.2)
  | '-' :: rest => (exponentDigits rest).map fun r => (-(r.1 : Int), r.2)
  | rest => (exponentDigits rest).map fun r => (r.1, r.2)

/-- Multiplies a power of ten in, which fails when the result grows out of range, or divides by
one in steps of at most 10 ^ 308 as long as the result is not zero. -/
def scaleByTen (x : Binary64) (e : Int) : Option Binary64 :=
  if x.isZero then some x
  else if 308 < e then none
  else if 0 ≤ e then
    let y := x.mulMagnitudes (Binary64.tenPow e.toNat)
    if y.isFinite then some y else none
  else if -308 ≤ e then some (x.divMagnitudes (Binary64.tenPow (-e).toNat))
  else scaleByTen (x.divMagnitudes (Binary64.tenPow 308)) (e + 308)
termination_by (-e).toNat
decreasing_by omega

def toFloat (negative : Bool) (s : Significand) : Option Value :=
  (scaleByTen (Binary64.ofNat s.value) s.exponent).map fun x =>
    .float (if negative then x.negate else x)

/-- What may follow the digits before and behind the point. -/
def withExponent (negative : Bool) (s : Significand) : List Char → Option (Value × List Char)
  | c :: rest =>
    if c = 'e' ∨ c = 'E' then do
      let (e, rest) ← signedExponent rest
      return (← toFloat negative ⟨s.value, s.exponent + e⟩, rest)
    else (toFloat negative s).map (·, c :: rest)
  | [] => (toFloat negative s).map (·, [])

/-- A number without point and exponent. There is no negative zero among the whole numbers. -/
def wholeNumber (negative : Bool) (n : Nat) : Value :=
  if !negative then .unsigned (UInt64.ofNat n)
  else if 0 < n ∧ n ≤ 0x8000000000000000 then .signed (Int64.ofInt (-(n : Int)))
  else .float (Binary64.ofNat n).negate

/-- What follows the sign. A zero in front stands alone before the point. -/
def unsignedPart (negative : Bool) (text : List Char) : Option (Value × List Char) := do
  let c :: rest := text | none
  let d ← digit? c
  let (s, long, rest) := if d = 0 then (⟨0, 0⟩, false, rest) else wholePart d rest
  match rest with
  | '.' :: rest =>
    if (rest.head?.bind digit?).isSome then
      let (s, rest) := fraction s rest
      withExponent negative s rest
    else none
  | next :: _ =>
    if next = 'e' ∨ next = 'E' then withExponent negative s rest
    else if (digit? next).isSome then none
    else if long then (toFloat negative s).map (·, rest)
    else some (wholeNumber negative s.value, rest)
  | [] => if long then (toFloat negative s).map (·, []) else some (wholeNumber negative s.value, [])

def readNumber : List Char → Option (Value × List Char)
  | '-' :: rest => unsignedPart true rest
  | text => unsignedPart false text

end WampClient.Json
