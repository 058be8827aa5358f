import ImageAudit.Text.Utf8

/-! # Text out of units of 16 bits

A character above 65535 is a pair of units, the first from the upper surrogates and the second from
the lower. A surrogate without its partner is no character.
-/

namespace ImageAudit.Utf16

/-- A unit that begins a pair. -/
def isLead (unit : Nat) : Bool := 0xD800 ≤ unit && unit ≤ 0xDBFF

/-- A unit that ends a pair. -/
def isTrail (unit : Nat) : Bool := 0xDC00 ≤ unit && unit ≤ 0xDFFF

/-- The number of the character that a pair of units stands for. -/
def joined (lead trail : Nat) : Nat := 0x10000 + (lead - 0xD800) * 0x400 + (trail - 0xDC00)

/-- The characters of units, with a replacement character for each surrogate without a partner. -/
def decode : List Nat → List Char
  | [] => []
  | [unit] => [if unit.isValidChar then Char.ofNat unit else Utf8.replacement]
  | lead :: trail :: rest =>
    if isLead lead && isTrail trail then Char.ofNat (joined lead trail) :: decode rest
    else
      (if lead.isValidChar then Char.ofNat lead else Utf8.replacement) :: decode (trail :: rest)

/-- The text of units. -/
def lossy (units : List Nat) : String := String.ofList (decode units)

def unitsOf (c : Char) : List Nat :=
  let code := c.toNat
  if code < 0x10000 then [code]
  else [0xD800 + (code - 0x10000) / 0x400, 0xDC00 + (code - 0x10000) % 0x400]

def units (text : String) : List Nat := text.toList.flatMap unitsOf

end ImageAudit.Utf16
