import ImageAudit.Bytes

/-! # Hexadecimal text

Each byte is two digits, the high half first, in lower case. Reading accepts either case.
-/

namespace ImageAudit.Hex

/-- The lower case digit of a number below sixteen. -/
def digit (value : Nat) : Char :=
  if value < 10 then Char.ofNat (48 + value) else Char.ofNat (87 + value)

def encode (data : Bytes) : String :=
  String.ofList (data.flatMap fun byte => [digit (byte.toNat / 16), digit (byte.toNat % 16)])

/-- The value of a digit in either case. -/
def value? (c : Char) : Option Nat :=
  if '0' ≤ c && c ≤ '9' then some (c.toNat - 48)
  else if 'a' ≤ c && c ≤ 'f' then some (c.toNat - 87)
  else if 'A' ≤ c && c ≤ 'F' then some (c.toNat - 55)
  else none

/-- The number that the digits write, most significant first. -/
def natOf? (digits : List Char) : Option Nat :=
  digits.foldl (fun value c => do return (← value) * 16 + (← value? c)) (some 0)

/-- The bytes read so far, last first, then those that the digits write in pairs. -/
def decodeFrom? (read : Bytes) : List Char → Option Bytes
  | [] => some read.reverse
  | [_] => none
  | high :: low :: rest => do
    decodeFrom? (UInt8.ofNat ((← value? high) * 16 + (← value? low)) :: read) rest

def decode? (digits : String) : Option Bytes := decodeFrom? [] digits.toList

end ImageAudit.Hex
