import ImageAudit.Text

/-! # The platform of an image

Packages built for a platform carry its tag, such as `el9`, in their release. The tag of an image
stands in its os-release text as `PLATFORM_ID="platform:el9"`. The text is searched line by line,
and within a line from left to right; the first place that holds a whole declaration decides.
-/

namespace ImageAudit

/-- The tag that package releases of the image's platform carry. -/
inductive DistTag where
  | known (tag : String)
  | unknown
  deriving DecidableEq, Repr

namespace DistTag

/-- What stands before the tag in a declaration. -/
def marker : List Char := "PLATFORM_ID=\"platform:".toList

/-- The tag of a declaration that begins the text: letters and digits, at least one, then a
quote. -/
def declaredAt? (text : List Char) : Option (List Char) :=
  if marker.isPrefixOf text then
    let value := text.drop marker.length
    let tag := value.takeWhile Text.isAsciiAlnum
    if tag ≠ [] ∧ (value.drop tag.length).head? = some '"' then some tag else none
  else none

/-- The tag of the leftmost declaration in the text. -/
def declaredIn? : List Char → Option (List Char)
  | [] => none
  | c :: rest => (declaredAt? (c :: rest)).or (declaredIn? rest)

def ofOsRelease (content : String) : DistTag :=
  match (Text.lines content.toList).findSome? declaredIn? with
  | some tag => known (String.ofList tag)
  | none => unknown

def isKnown : DistTag → Bool
  | known _ => true
  | unknown => false

def text : DistTag → String
  | known tag => tag
  | unknown => "unknown"

/-- Whether a package release carries the tag. -/
def isIn (tag : DistTag) (release : String) : Bool := Text.contains release tag.text

end DistTag

end ImageAudit
