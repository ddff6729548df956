/-!
# Byte offsets

Positions in a text are reported as offsets into its UTF-8 form. A text is a list of characters
here, so an offset is the byte length of what stands before it; only such offsets lie between two
characters.
-/

namespace RollCall.Text

/-- Number of bytes of the UTF-8 form of a text. -/
def bytes (text : List Char) : Nat :=
  text.foldr (fun c n => c.utf8Size + n) 0

@[simp] theorem bytes_nil : bytes [] = 0 := rfl

@[simp] theorem bytes_cons (c : Char) (text : List Char) :
    bytes (c :: text) = c.utf8Size + bytes text := rfl

@[simp] theorem bytes_append (a b : List Char) : bytes (a ++ b) = bytes a + bytes b := by
  induction a with
  | nil => simp
  | cons c a ih => simp [ih, Nat.add_assoc]

/-- The text before and after a byte offset; nothing for an offset past the end or inside a
character. -/
def splitAtByte? : Nat → List Char → Option (List Char × List Char)
  | 0, text => some ([], text)
  | _ + 1, [] => none
  | n + 1, c :: text =>
    if c.utf8Size ≤ n + 1 then
      (splitAtByte? (n + 1 - c.utf8Size) text).map fun (before, after) => (c :: before, after)
    else none

/-- A split at an offset loses nothing, and the offset is the length of the first part. -/
theorem append_of_splitAtByte? {n : Nat} {text before after : List Char}
    (h : splitAtByte? n text = some (before, after)) : before ++ after = text ∧ bytes before = n := by
  induction text generalizing n before with
  | nil =>
    cases n with
    | zero => simp_all [splitAtByte?]
    | succ n => simp [splitAtByte?] at h
  | cons c text ih =>
    cases n with
    | zero => simp_all [splitAtByte?]
    | succ n =>
      simp only [splitAtByte?] at h
      split at h
      · obtain ⟨⟨b, a⟩, hb, he⟩ := Option.map_eq_some_iff.1 h
        simp only [Prod.mk.injEq] at he
        obtain ⟨rfl, rfl⟩ := he
        obtain ⟨h1, h2⟩ := ih hb
        refine ⟨by simp [h1], ?_⟩
        simp only [bytes_cons, h2]
        omega
      · simp at h

end RollCall.Text
