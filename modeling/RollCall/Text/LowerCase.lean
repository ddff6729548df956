import RollCall.Text.LowerCase.Table

/-!
# Lower case

The lower-casing of the Unicode standard. Every character has its own lower-case form except the
capital sigma, which depends on its neighbours: at the end of a word it becomes the final sigma.
-/

namespace RollCall.Text

/-- Whether a character lies in one of the ranges. -/
def inRanges (ranges : List (Nat × Nat)) (c : Char) : Bool :=
  ranges.any fun (first, last) => first ≤ c.toNat && c.toNat ≤ last

/-- Characters that have a case. -/
def isCased : Char → Bool := inRanges casedRanges

/-- Characters that are passed over when the case of a neighbour is asked for. -/
def isCaseIgnorable : Char → Bool := inRanges caseIgnorableRanges

/-- Whether a run holds a lower-case form for the code point. -/
def LetterRun.holds (run : LetterRun) (n : Nat) : Bool :=
  run.first ≤ n && n ≤ run.last && (n - run.first) % run.stride == 0

/-- The lower-case form of one character. The dotted capital I has a form of two characters. -/
def lowerChar (c : Char) : List Char :=
  if c = 'İ' then ['i', '\u0307']
  else
    match letterRuns.find? (·.holds c.toNat) with
    | some run => [Char.ofNat ((c.toNat : Int) + run.shift).toNat]
    | none => [c]

/-- Whether the first character that is not passed over has a case. -/
def startsCased (text : List Char) : Bool :=
  match text.dropWhile isCaseIgnorable with
  | [] => false
  | c :: _ => isCased c

/-- The lower-case form of a text that follows `before`, whose nearest character comes first. -/
def lowerAfter (before : List Char) : List Char → List Char
  | [] => []
  | c :: text =>
    (if c = 'Σ' then
      if startsCased before && !startsCased text then ['ς'] else ['σ']
    else lowerChar c) ++ lowerAfter (c :: before) text

/-- The lower-case form of a text. -/
def lower (text : List Char) : List Char :=
  lowerAfter [] text

/-- The lower-case form of a name. -/
def lowerCase (name : String) : String :=
  String.ofList (lower name.toList)

/-- Whether two names are equal when the letters A to Z are read as a to z. -/
def eqIgnoringAsciiCase (a b : String) : Bool :=
  a.toList.map Char.toLower == b.toList.map Char.toLower

end RollCall.Text
