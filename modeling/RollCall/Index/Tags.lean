import RollCall.Text.Find

/-!
# Nested tags

A tag may have parts with slashes between them. A document with a tag has all tags above it too.
-/

namespace RollCall

/-- A tag without one `#` in front of it. -/
def withoutHash (tag : String) : String :=
  String.ofList ((Text.after? ['#'] tag.toList).getD tag.toList)

/-- The tags that end with one of the parts, where `above` is the tag in front of them. -/
def joinParts (above : List Char) : List (List Char) → List (List Char)
  | [] => []
  | part :: parts =>
    let tag := if above = [] then part else above ++ '/' :: part
    tag :: joinParts tag parts

/-- A tag and the tags above it, the uppermost first. The `#` is left out, and so are empty parts. -/
def expandTag (tag : String) : List String :=
  let parts := (Text.split '/' (withoutHash tag).toList).filter (· ≠ [])
  (joinParts [] parts).map String.ofList

example : expandTag "#a/b/c" = ["a", "a/b", "a/b/c"] := by decide
example : expandTag "a//b/" = ["a", "a/b"] := by decide

end RollCall
