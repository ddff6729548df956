/-!
# Finding a pattern in a text

Each function cuts a text into pieces. What is left behind a pattern is never longer than the text,
so that a reader may go on from there.
-/

namespace RollCall.Text

/-- What follows the pattern at the front of a text. -/
def after? (pattern text : List Char) : Option (List Char) :=
  pattern.isPrefixOf? text

@[simp] theorem after?_nil (text : List Char) : after? [] text = some text := rfl

@[simp] theorem after?_cons_nil (p : Char) (pattern : List Char) :
    after? (p :: pattern) [] = none := rfl

@[simp] theorem after?_cons_cons (p c : Char) (pattern text : List Char) :
    after? (p :: pattern) (c :: text) = if p = c then after? pattern text else none := by
  show (if (p == c) = true then after? pattern text else none) = _
  simp only [beq_iff_eq]

theorem length_of_after? {pattern text rest : List Char} (h : after? pattern text = some rest) :
    pattern.length + rest.length = text.length := by
  induction pattern generalizing text with
  | nil => simp_all
  | cons p pattern ih =>
    cases text with
    | nil => simp at h
    | cons c text =>
      rw [after?_cons_cons, Option.ite_none_right_eq_some] at h
      simp only [List.length_cons, ← ih h.2]
      omega

/-- The text before and after the first occurrence of the pattern. -/
def cut? (pattern : List Char) : List Char → Option (List Char × List Char)
  | [] => if pattern = [] then some ([], []) else none
  | c :: text =>
    match after? pattern (c :: text) with
    | some rest => some ([], rest)
    | none => (cut? pattern text).map fun (before, rest) => (c :: before, rest)

theorem length_of_cut? {pattern text before rest : List Char}
    (h : cut? pattern text = some (before, rest)) : rest.length ≤ text.length := by
  induction text generalizing before with
  | nil =>
    simp only [cut?] at h
    split at h <;> simp_all
  | cons c text ih =>
    simp only [cut?] at h
    split at h
    · next found hfound =>
      cases h
      have := length_of_after? hfound
      omega
    · obtain ⟨pieces, hpieces, he⟩ := Option.map_eq_some_iff.1 h
      cases he
      exact Nat.le_succ_of_le (ih hpieces)

/-- Whether the pattern occurs in a text. -/
def contains (pattern text : List Char) : Bool :=
  (cut? pattern text).isSome

/-- What stands before the pattern at the end of a text. -/
def before? (pattern text : List Char) : Option (List Char) :=
  pattern.isSuffixOf? text

/-- Whether a text ends with the pattern. -/
def endsWith (pattern text : List Char) : Bool :=
  (before? pattern text).isSome

/-- The pieces of a text between the separators: one more than there are separators. -/
def split (separator : Char) (text : List Char) : List (List Char) :=
  text.splitOn separator

/-- The pieces put together again, a separator between each two. -/
def join (separator : Char) (pieces : List (List Char)) : List Char :=
  [separator].intercalate pieces

end RollCall.Text
