import ImageAudit.Bytes

/-! # Pages

Both kinds of package database are sequences of pages of one size, in which fields are found by
their offset.
-/

namespace ImageAudit.Rpm

abbrev Page := Array UInt8

namespace Page

def byteAt (page : Page) (offset : Nat) : Nat := (page.getD offset 0).toNat

/-- The bytes from an offset on, at most `length` of them. -/
def slice (page : Page) (offset length : Nat) : Bytes :=
  (page.extract offset (offset + length)).toList

end Page

end ImageAudit.Rpm
