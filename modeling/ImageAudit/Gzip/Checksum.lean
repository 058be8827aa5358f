import ImageAudit.Bytes

/-! # The checksum of a gzip member

A cyclic redundancy check of 32 bits, low bit first, with the polynomial 0xedb88320. The remainder
of each byte is looked up in a table.
-/

namespace ImageAudit.Gzip

/-- The remainder after one more bit. -/
def remainderStep (remainder : UInt32) : UInt32 :=
  if remainder &&& 1 = 1 then (remainder >>> 1) ^^^ 0xedb88320 else remainder >>> 1

/-- The remainder that each byte leaves. -/
def remainderTable : Array UInt32 :=
  (Array.range 256).map fun byte =>
    (List.range 8).foldl (fun remainder _ => remainderStep remainder) (UInt32.ofNat byte)

/-- The remainder after one more byte. -/
def addByte (table : Array UInt32) (remainder : UInt32) (byte : UInt8) : UInt32 :=
  (remainder >>> 8) ^^^ table.getD ((remainder ^^^ byte.toUInt32) &&& 0xff).toNat 0

def checksum (data : Bytes) : UInt32 :=
  data.foldl (addByte remainderTable) 0xffffffff ^^^ 0xffffffff

end ImageAudit.Gzip
