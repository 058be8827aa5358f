import ImageAudit.Sql.Numeral

/-! # Real numbers in decimal digits

A real number is known by nineteen decimal digits at most, and where the point stands among them.
They are rounded to as many as are to be written, a half away from zero.
-/

namespace ImageAudit.Sql

structure DecimalDigits where
  digits : Bytes
  /-- How many of the digits stand in front of the point. Below zero, so many zeros stand between the
  point and the digits. -/
  whole : Int
  deriving DecidableEq, Repr

namespace DecimalDigits

/-- The digits of a number times a power of ten. -/
def ofNat (value : Nat) (exponent : Int) : DecimalDigits :=
  let digits := Bytes.ofText (toString value)
  ⟨digits, digits.length + exponent⟩

/-- The first digits of a fraction: 18 if it is below ten to the power of 17, else those in front of
the point, up to 19. -/
def ofFraction (numerator denominator : Nat) : DecimalDigits :=
  let whole := numerator / denominator
  if 100000000000000000 ≤ whole then
    let extra := (toString whole).length - 19
    ofNat (whole / Nat.pow 10 extra) extra
  else
    let bits : Int := (Nat.log2 numerator : Int) - (Nat.log2 denominator : Int)
    let estimate := (16 - bits * 30103 / 100000).toNat
    let scaled (power : Nat) : Nat := numerator * Nat.pow 10 power / denominator
    let powers := (List.range 6).map (estimate - 2 + ·)
    let power := (powers.find? fun power => 100000000000000000 ≤ scaled power).getD estimate
    ofNat (scaled power) (-power)

/-- The digits of a finite real number. -/
def ofReal (value : Float) : DecimalDigits :=
  if value == 0 then ⟨[0x30], 1⟩
  else
    let (mantissa, power) := Real.parts value
    if power < 0 then ofFraction mantissa (Nat.pow 2 power.natAbs)
    else ofFraction (mantissa * Nat.pow 2 power.natAbs) 1

def trimmed (decimal : DecimalDigits) : DecimalDigits :=
  { decimal with digits := (decimal.digits.reverse.dropWhile (· == 0x30)).reverse }

/-- The digits up to a count, rounded by the one behind them. -/
def cut (decimal : DecimalDigits) (count : Nat) : DecimalDigits :=
  let kept := Numeral.natOf (decimal.digits.take count)
  let isUp := (decimal.digits[count]?).any (0x35 ≤ ·)
  let digits := Bytes.ofText (toString (if isUp then kept + 1 else kept))
  ⟨digits, decimal.whole + (digits.length - count : Nat)⟩

/-- The digits rounded to a count and to a limit. Where the count ends in front of the first digit,
that one alone may round to one unit; a count below that leaves the digits as they are. -/
def rounded (decimal : DecimalDigits) (count : Int) (limit : Nat) : DecimalDigits :=
  let size := decimal.digits.length
  if count = 0 && (decimal.digits.head?.any (0x35 ≤ ·)) then ⟨[0x31], decimal.whole + 1⟩
  else if 0 < count && (count < size || limit < size) then
    (decimal.cut (min count.toNat limit)).trimmed
  else decimal.trimmed

/-- The digit at a position, zero behind the last. -/
def digit (decimal : DecimalDigits) (position : Nat) : UInt8 := decimal.digits.getD position 0x30

end DecimalDigits

end ImageAudit.Sql
