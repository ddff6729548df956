import RollCall.Names.Set
import RollCall.Query.Json
import RollCall.Report.Basic

/-!
# Reports on a query

The canonical form of a query, and the documents that it selects if that was asked for.
-/

namespace RollCall.Report

/-- The lines for the documents that a query selects. -/
def resolvedLines (resolved : NameSet) : String :=
  if resolved.isEmpty then "No matching documents.\n"
  else String.join (resolved.toList.map fun path => s!"  {path}\n")

/-- The report on a query and on what it selects. -/
def ofQuery (query : Query) (resolved? : Option NameSet) : Report where
  json := .object ([("canonical", .string query.render), ("ast", query.json)] ++
    (resolved?.map fun resolved => ("resolved", .strings resolved.toList)).toList)
  text colors := Style.bold.paint colors query.render ++ "\n" ++
    ((resolved?.map resolvedLines).getD "")

end RollCall.Report
