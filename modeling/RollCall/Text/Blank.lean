/-!
# Blanks

The characters that separate words and surround values, and the trimming of a text. Texts are
lists of characters: everything that is read from a document or a query is taken apart from the
front, and a list shows at each step what has been read and what is left.
-/

namespace RollCall.Text

/-- The characters with the Unicode property `White_Space`. -/
def isBlank (c : Char) : Bool :=
  let n := c.toNat
  (9 ≤ n && n ≤ 13) || n == 0x20 || n == 0x85 || n == 0xA0 || n == 0x1680 ||
    (0x2000 ≤ n && n ≤ 0x200A) || n == 0x2028 || n == 0x2029 || n == 0x202F || n == 0x205F ||
    n == 0x3000

/-- A text without the blanks in front. -/
def trimStart (text : List Char) : List Char :=
  text.dropWhile isBlank

/-- A text without the blanks at its end. -/
def trimEnd (text : List Char) : List Char :=
  (text.reverse.dropWhile isBlank).reverse

/-- A text without the blanks around it. -/
def trim (text : List Char) : List Char :=
  trimEnd (trimStart text)

theorem trimStart_eq_self {c : Char} {text : List Char} (h : isBlank c = false) :
    trimStart (c :: text) = c :: text := by
  simp [trimStart, h]

theorem trimEnd_append_singleton {c : Char} (text : List Char) (h : isBlank c = false) :
    trimEnd (text ++ [c]) = text ++ [c] := by
  simp [trimEnd, h]

end RollCall.Text
