/-! # Byte strings

Every file, archive and database of the library is a list of bytes. A field is cut out by
`slice`, which is short where the data is short, or by `slice?`, which refuses a field that is
not there. Whole numbers are stored in a fixed width, most or least significant byte first;
`ofNatBE` and `ofNatLE` keep the low bytes of a number that is too large for its width.
-/

namespace ImageAudit

abbrev Bytes := List UInt8

/-- The order of the bytes of a stored number. -/
inductive ByteOrder where
  | big
  | little
  deriving DecidableEq, Repr

namespace Bytes

/-- The bytes from `offset` on, at most `length` of them. -/
def slice (data : Bytes) (offset length : Nat) : Bytes := (data.drop offset).take length

/-- The bytes from `offset` on, exactly `length` of them. -/
def slice? (data : Bytes) (offset length : Nat) : Option Bytes :=
  let field := data.slice offset length
  if field.length = length then some field else none

/-- The number whose base 256 digits are the bytes, most significant first. -/
def natBE (data : Bytes) : Nat := data.foldl (fun value byte => value * 256 + byte.toNat) 0

/-- The number whose base 256 digits are the bytes, least significant first. -/
def natLE : Bytes → Nat
  | [] => 0
  | byte :: rest => byte.toNat + 256 * natLE rest

/-- The low `width` bytes of a number, least significant first. -/
def ofNatLE : Nat → Nat → Bytes
  | 0, _ => []
  | width + 1, value => UInt8.ofNat value :: ofNatLE width (value / 256)

/-- The low `width` bytes of a number, most significant first. -/
def ofNatBE (width value : Nat) : Bytes := (ofNatLE width value).reverse

/-- The number stored in the bytes in the given order. -/
def natIn (order : ByteOrder) (data : Bytes) : Nat :=
  match order with
  | .big => data.natBE
  | .little => data.natLE

/-- The low `width` bytes of a number in the given order. -/
def ofNatIn (order : ByteOrder) (width value : Nat) : Bytes :=
  match order with
  | .big => ofNatBE width value
  | .little => ofNatLE width value

/-- The unsigned number read as two's complement of `8 * width` bits. -/
def signed (width value : Nat) : Int :=
  if value < 1 <<< (8 * width - 1) then value else (value : Int) - (1 <<< (8 * width) : Nat)

/-- As many zero bytes as asked for. -/
def zeros (count : Nat) : Bytes := List.replicate count 0

/-- Zero bytes that bring `length` up to a multiple of `unit`. -/
def padding (unit length : Nat) : Nat := (unit - length % unit) % unit

/-- The pieces so far, then the remaining bytes in pieces of `size`, at most `fuel` of them. -/
def chunksFrom (size : Nat) : Nat → Bytes → Array Bytes → Array Bytes
  | 0, _, pieces => pieces
  | _, [], pieces => pieces
  | fuel + 1, data, pieces =>
    chunksFrom size fuel (data.drop size) (pieces.push (data.take size))

/-- Pieces of `size` bytes; the last one may be shorter. The size counts as at least one, so there
are at most as many pieces as bytes. -/
def chunks (size : Nat) (data : Bytes) : Array Bytes :=
  chunksFrom (max size 1) data.length data #[]

/-- The bytes before the first zero byte, or all of them. -/
def untilZero (data : Bytes) : Bytes := data.takeWhile (· != 0)

/-- The bytes of a text in UTF-8. -/
def ofText (text : String) : Bytes := text.toUTF8.toList

@[simp] theorem length_ofNatLE (width value : Nat) : (ofNatLE width value).length = width := by
  induction width generalizing value <;> simp [ofNatLE, *]

@[simp] theorem length_ofNatBE (width value : Nat) : (ofNatBE width value).length = width := by
  simp [ofNatBE]

/-- A number that fits its width is read back. -/
theorem natLE_ofNatLE (width value : Nat) (fits : value < Nat.pow 256 width) :
    natLE (ofNatLE width value) = value := by
  induction width generalizing value with
  | zero =>
    have : value = 0 := by simpa using fits
    simp [ofNatLE, natLE, this]
  | succ width ih =>
    have rest : value / 256 < Nat.pow 256 width :=
      (Nat.div_lt_iff_lt_mul (by decide : 0 < 256)).2 (by simpa [Nat.pow_succ] using fits)
    simp only [ofNatLE, natLE, UInt8.toNat_ofNat', ih _ rest]
    omega

end Bytes

end ImageAudit
