import ImageAudit.Bytes
import ImageAudit.Rpm.TableFile.Fault
import ImageAudit.Sql.Value

/-! # Records

A row is stored as a record: the kinds of its values, then the values. A kind is a number that also
gives the length of its value. Numbers are stored in groups of seven bits, the highest group first;
every byte but the last of a number has its highest bit set, and a ninth byte gives eight bits.
-/

namespace ImageAudit.Rpm.TableFile

/-- The number that begins the bytes, after a beginning of it that was read before, and what
follows. At most `more` bytes with seven bits of it are left. -/
def readNumberAfter : Nat → Nat → Bytes → Option (Nat × Bytes)
  | _, _, [] => none
  | 0, high, byte :: rest => some (high * 256 + byte.toNat, rest)
  | more + 1, high, byte :: rest =>
    if byte.toNat < 128 then some (high * 128 + byte.toNat, rest)
    else readNumberAfter more (high * 128 + byte.toNat % 128) rest

/-- The number that begins the bytes, and what follows. -/
def readNumber? (data : Bytes) : Option (Nat × Bytes) := readNumberAfter 8 0 data

/-- The groups of seven bits of a number above the lowest, each marked as followed by another. -/
def highGroups : Nat → Nat → Bytes
  | 0, _ => []
  | fuel + 1, value =>
    if value = 0 then [] else highGroups fuel (value / 128) ++ [UInt8.ofNat (128 + value % 128)]

/-- A number of at most 56 bits as it is stored. -/
def writeNumber (value : Nat) : Bytes := highGroups 8 (value / 128) ++ [UInt8.ofNat (value % 128)]

abbrev ValueKind := Nat

namespace ValueKind

def null : ValueKind := 0

def bytes (length : Nat) : ValueKind := 12 + 2 * length

def text (length : Nat) : ValueKind := 13 + 2 * length

/-- The length of a value. Small numbers have none, as their kinds give them. -/
def length (kind : ValueKind) : Nat :=
  if 12 ≤ kind then (kind - 12) / 2 else [0, 1, 2, 3, 4, 6, 8, 8, 0, 0, 0, 0].getD kind 0

def value (kind : ValueKind) (storage : Sql.TextStorage) (content : Bytes) : Sql.Value :=
  if 12 ≤ kind then
    if kind % 2 = 0 then .blob content else .text (storage.decode content)
  else
    match kind with
    | 0 | 10 | 11 => .null
    | 7 =>
      let number := Float.ofBits (UInt64.ofNat content.natBE)
      if number.isNaN then .null else .real number
    | 8 => .integer 0
    | 9 => .integer 1
    | _ => .integer (Bytes.signed kind.length content.natBE)

end ValueKind

structure StoredValue where
  kind : ValueKind
  content : Bytes
  deriving DecidableEq, Repr

namespace StoredValue

def null : StoredValue := ⟨ValueKind.null, []⟩

def ofBytes (content : Bytes) : StoredValue := ⟨ValueKind.bytes content.length, content⟩

def ofText (text : String) : StoredValue :=
  let content := Bytes.ofText text
  ⟨ValueKind.text content.length, content⟩

def ofNat (number : Nat) : StoredValue := ⟨4, Bytes.ofNatBE 4 number⟩

end StoredValue

namespace Record

/-- A record whose kinds take less than 127 bytes. -/
def write (values : List StoredValue) : Bytes :=
  let kinds := values.flatMap fun value => writeNumber value.kind
  writeNumber (kinds.length + 1) ++ kinds ++ values.flatMap (·.content)

end Record

end ImageAudit.Rpm.TableFile
