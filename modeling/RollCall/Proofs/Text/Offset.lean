import RollCall.Text.Bytes
import Mathlib.Tactic.Common

/-!
# Offsets of pieces

The byte length of what stands in front of a piece of a text is the offset of the piece. It lies on
a boundary between two characters, and splitting the text there gives back the two sides.
-/

namespace RollCall.Text

theorem bytes_pos {text : List Char} (h : text ≠ []) : 0 < bytes text := by
  cases text with
  | nil => exact absurd rfl h
  | cons c text =>
    have := c.utf8Size_pos
    rw [bytes_cons]
    omega

theorem bytes_ofList (text : List Char) : (String.ofList text).utf8ByteSize = bytes text := by
  induction text with
  | nil => rfl
  | cons c text ih =>
    have hsplit : String.ofList (c :: text) = String.singleton c ++ String.ofList text := by
      rw [← List.singleton_append, String.ofList_append, String.singleton_eq_ofList]
    rw [hsplit, String.utf8ByteSize_append, String.utf8ByteSize_singleton, ih, bytes_cons]

theorem bytes_eq_length {text : List Char} (h : ∀ c ∈ text, c.utf8Size = 1) :
    bytes text = text.length := by
  induction text with
  | nil => rfl
  | cons c text ih =>
    have hrest := ih fun d hd => h d (List.mem_cons_of_mem c hd)
    rw [bytes_cons, h c List.mem_cons_self, hrest, List.length_cons, Nat.add_comm]

/-- The offset of a piece is a position between two characters. -/
theorem isValid_bytes {text : String} {before after : List Char}
    (h : text.toList = before ++ after) : String.Pos.Raw.IsValid text ⟨bytes before⟩ := by
  refine String.Pos.Raw.isValid_iff_exists_append.2
    ⟨String.ofList before, String.ofList after, ?_, ?_⟩
  · rw [← String.ofList_append, ← h, String.ofList_toList]
  · rw [← bytes_ofList]
    rfl

theorem splitAtByte?_bytes (before after : List Char) :
    splitAtByte? (bytes before) (before ++ after) = some (before, after) := by
  induction before with
  | nil => simp [splitAtByte?]
  | cons c before ih =>
    have hpos := c.utf8Size_pos
    obtain ⟨n, hn⟩ : ∃ n, bytes (c :: before) = n + 1 :=
      Nat.exists_eq_succ_of_ne_zero (by rw [bytes_cons]; omega)
    have hrest : n + 1 - c.utf8Size = bytes before := by
      rw [← hn, bytes_cons]
      omega
    have hle : c.utf8Size ≤ n + 1 := by
      rw [← hn, bytes_cons]
      omega
    rw [hn, List.cons_append, splitAtByte?, if_pos hle, hrest, ih, Option.map_some]

end RollCall.Text
