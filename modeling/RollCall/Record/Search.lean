import RollCall.Block.Table

/-!
# Searching records

Records are found by their title and within a span of days. The days that bound the span are not part
of it.
-/

namespace RollCall

/-- What a record has to satisfy; what is not set is satisfied by all. -/
structure Search where
  /-- The record comes after this day. -/
  after? : Option Date
  /-- The record comes before this day. -/
  before? : Option Date
  /-- The title contains this text. -/
  title? : Option String
deriving DecidableEq

namespace Search

/-- Whether a record satisfies the search. -/
def accepts (search : Search) (record : Record) : Bool :=
  search.title?.all (fun title => Text.contains title.toList record.title.toList) &&
    search.before?.all (record.date.isBefore ·) &&
    search.after?.all (·.isBefore record.date)

/-- The records among some blocks that satisfy the search, in order. -/
def records (search : Search) (blocks : List DocumentBlock) : List Record :=
  (blocks.filterMap DocumentBlock.record?).filter search.accepts

end Search

end RollCall
