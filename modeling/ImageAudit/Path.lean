/-! # Paths

A package database names files from the root (`/usr/bin/foo`), a layer names them relative to it
(`./usr/bin/foo`). Both are brought to one form before they meet: the path is resolved segment by
segment, from left to right, and the kept segments are joined again. The root itself stays `/`,
and a path of which nothing is kept is `.`.
-/

namespace ImageAudit.Path

abbrev Segment := List Char

/-- Resolve one more segment against those kept so far, innermost first: an empty segment and `.`
change nothing, and `..` gives up the innermost one, if there is one. -/
def resolveSegment (kept : List Segment) (segment : Segment) : List Segment :=
  if segment = [] ∨ segment = ['.'] then kept
  else if segment = ['.', '.'] then kept.tail
  else segment :: kept

/-- The segments that are left of a path, outermost first. -/
def resolve (path : List Char) : List Segment :=
  ((path.splitOn '/').foldl resolveSegment []).reverse

def join : List Segment → List Char
  | [] => ['.']
  | segments => ['/'].intercalate segments

/-- The form in which paths are compared. -/
def normalize (path : String) : String :=
  if path = "/" then path else String.ofList (join (resolve path.toList))

/-- The directory of a normalized path, `.` at the top, and the last component. -/
def parentAndName (path : String) : String × String :=
  match path.toList.reverse.dropWhile (· != '/') with
  | [] => (".", path)
  | _ :: parent =>
    (String.ofList parent.reverse,
      String.ofList (path.toList.reverse.takeWhile (· != '/')).reverse)

/-- The path of a name in a normalized directory. -/
def child (directory name : String) : String :=
  if directory = "." then name else directory ++ "/" ++ name

end ImageAudit.Path
