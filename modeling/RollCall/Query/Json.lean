import RollCall.Json.Value
import RollCall.Query.Basic

/-!
# Queries as JSON

The tree of a query, for tools that do not read the query language.
-/

namespace RollCall

/-- The JSON form of a query. -/
def Query.json : Query → Json
  | .term (.tag name) => .object [("type", .string "tag"), ("tag", .string name)]
  | .term (.folder path) => .object [("type", .string "folder"), ("folder", .string path)]
  | .term (.link target) => .object [("type", .string "link"), ("link", .string target)]
  | .binary operation left right =>
    .object [("type", .string "binary"), ("operation", .string operation.name),
      ("left", left.json), ("right", right.json)]

end RollCall
