import RollCall.Report.Basic
import RollCall.Proofs.Text.Occurrence
import RollCall.Proofs.Text.Offset

/-!
# What is seen of a styled text

A terminal takes a control sequence from the escape character with its bracket to the next `m`. What
is left of a text without them is what is seen. A text that is seen as another one (`SeenAs`) may stand
in front of any text; it counts as many more characters than the other one as it has more bytes, which
is what a cell is widened by.
-/

namespace RollCall.Style

/-! ## Control sequences -/

/-- A text without its control sequences, each of which ends with the first `m`. -/
def strip : List Char → List Char
  | [] => []
  | [c] => [c]
  | c :: d :: text =>
    if c = '\x1b' ∧ d = '[' then
      match _h : Text.cut? ['m'] text with
      | some (_, rest) => strip rest
      | none => c :: d :: text
    else c :: strip (d :: text)
termination_by text => text.length
decreasing_by
  · have hlength := congrArg List.length (Text.eq_append_of_cut? _h)
    simp only [List.length_append, List.length_cons, List.length_nil] at hlength ⊢
    omega
  · simp

theorem strip_cons {c : Char} (hc : c ≠ '\x1b') (text : List Char) :
    strip (c :: text) = c :: strip text := by
  cases text with
  | nil => rw [strip, strip]
  | cons d text => rw [strip, if_neg fun h => hc h.1]

/-- An escape character without its bracket begins no sequence. -/
theorem strip_cons_cons (c : Char) {d : Char} (hd : d ≠ '[') (text : List Char) :
    strip (c :: d :: text) = c :: strip (d :: text) := by
  rw [strip, if_neg fun h => hd h.2]

theorem strip_append {text : List Char} (h : '\x1b' ∉ text) (rest : List Char) :
    strip (text ++ rest) = text ++ strip rest := by
  induction text with
  | nil => rfl
  | cons c text ih =>
    rw [List.mem_cons, not_or] at h
    rw [List.cons_append, strip_cons (Ne.symm h.1), ih h.2, List.cons_append]

theorem strip_sequence {action : String} (h : 'm' ∉ action.toList) (rest : List Char) :
    strip ((sequence action).toList ++ rest) = strip rest := by
  have htext : (sequence action).toList ++ rest =
      '\x1b' :: '[' :: (action.toList ++ ['m'] ++ rest) := by
    simp [sequence]
  have hcut : Text.cut? ['m'] (action.toList ++ ['m'] ++ rest) = some (action.toList, rest) :=
    Text.cut?_append (Text.onlyAtEnd_singleton_iff.2 h) rest
  rw [htext, strip, if_pos ⟨rfl, rfl⟩]
  split
  · next hsome =>
    rw [hcut] at hsome
    cases hsome
    rfl
  · next hnone =>
    rw [hcut] at hnone
    cases hnone

/-! ## What is seen -/

/-- A text without escape characters, which the terminal shows as it is. -/
def Plain (text : String) : Prop := '\x1b' ∉ text.toList

instance (text : String) : Decidable (Plain text) :=
  inferInstanceAs (Decidable ('\x1b' ∉ text.toList))

theorem plain_empty : Plain "" := by decide

@[simp] theorem plain_append {a b : String} : Plain (a ++ b) ↔ Plain a ∧ Plain b := by
  simp [Plain]

theorem plain_ofList {text : List Char} : Plain (String.ofList text) ↔ '\x1b' ∉ text := by
  rw [Plain, String.toList_ofList]

/-- A text is seen as another one whatever follows it. Control sequences have one byte for each
character. -/
structure SeenAs (text seen : String) : Prop where
  /-- What is left of the text is the other one. -/
  strip_append : ∀ rest, strip (text.toList ++ rest) = seen.toList ++ strip rest
  /-- The text is not shorter. -/
  bytes_le : Text.bytes seen.toList ≤ Text.bytes text.toList
  /-- The text has as many more bytes as it has more characters. -/
  bytes_add_length : Text.bytes text.toList + seen.toList.length =
    Text.bytes seen.toList + text.toList.length

theorem join_filterMap_eq {α : Type} (f : α → Option String) (items : List α) :
    String.join (items.filterMap f) = String.join (items.map fun x => (f x).getD "") := by
  induction items with
  | nil => rfl
  | cons x items ih =>
    rw [List.map_cons, String.join_cons, ← ih, List.filterMap_cons]
    cases f x with
    | none => exact String.empty_append.symm
    | some line => exact String.join_cons

namespace SeenAs

variable {a b s t : String}

theorem of_plain (h : Plain a) : SeenAs a a :=
  ⟨Style.strip_append h, le_rfl, rfl⟩

theorem append (ha : SeenAs a s) (hb : SeenAs b t) : SeenAs (a ++ b) (s ++ t) := by
  refine ⟨fun rest => ?_, ?_, ?_⟩
  · rw [String.toList_append, String.toList_append, List.append_assoc, ha.strip_append,
      hb.strip_append, List.append_assoc]
  · have := ha.bytes_le
    have := hb.bytes_le
    simp only [String.toList_append, Text.bytes_append]
    omega
  · have := ha.bytes_add_length
    have := hb.bytes_add_length
    simp only [String.toList_append, Text.bytes_append, List.length_append]
    omega

/-- A whole text that is seen as another one. -/
theorem strip_eq (h : SeenAs a s) : strip a.toList = s.toList := by
  have hstrip := h.strip_append []
  rwa [List.append_nil, strip, List.append_nil] at hstrip

theorem join {α : Type} {f g : α → String} {items : List α} (h : ∀ x ∈ items, SeenAs (f x) (g x)) :
    SeenAs (String.join (items.map f)) (String.join (items.map g)) := by
  induction items with
  | nil => exact of_plain plain_empty
  | cons x items ih =>
    rw [List.map_cons, List.map_cons, String.join_cons, String.join_cons]
    exact (h x List.mem_cons_self).append (ih fun y hy => h y (List.mem_cons_of_mem x hy))

theorem join_filterMap {α : Type} {f g : α → Option String} {items : List α}
    (h : ∀ x ∈ items, SeenAs ((f x).getD "") ((g x).getD "")) :
    SeenAs (String.join (items.filterMap f)) (String.join (items.filterMap g)) := by
  rw [join_filterMap_eq, join_filterMap_eq]
  exact join h

end SeenAs

/-! ## Styled texts -/

theorem utf8Size_of_isDigit {c : Char} (h : c.isDigit = true) : c.utf8Size = 1 := by
  simp only [Char.isDigit, Bool.and_eq_true, decide_eq_true_eq] at h
  exact Char.utf8Size_eq_one_iff.2 (UInt32.le_trans h.2 (by decide))

theorem isDigit_of_mem_repr {n : Nat} {c : Char} (h : c ∈ n.repr.toList) : c.isDigit = true := by
  rw [Nat.toList_repr] at h
  exact Nat.isDigit_of_mem_toDigits (by decide) (by decide) h

/-- Whether a text has only digits and semicolons, as the actions of styles have. -/
def isAction (action : String) : Bool :=
  action.toList.all fun c => c.isDigit || c == ';'

theorem isAction_append (a b : String) : isAction (a ++ b) = (isAction a && isAction b) := by
  simp [isAction]

theorem isAction_repr (n : Nat) : isAction n.repr = true := by
  rw [isAction, List.all_eq_true]
  intro c hc
  rw [isDigit_of_mem_repr hc]
  rfl

theorem seenAs_sequence {action : String} (h : isAction action = true) :
    SeenAs (sequence action) "" := by
  rw [isAction, List.all_eq_true] at h
  have hm : 'm' ∉ action.toList := fun hmem => absurd (h 'm' hmem) (by decide)
  have haction : Text.bytes action.toList = action.toList.length := by
    refine Text.bytes_eq_length fun c hc => ?_
    rcases Bool.or_eq_true_iff.1 (h c hc) with hdigit | hsemicolon
    · exact utf8Size_of_isDigit hdigit
    · rw [beq_iff_eq.1 hsemicolon]
      rfl
  have hopening : Text.bytes "\x1b[".toList = "\x1b[".toList.length := by decide +kernel
  have hclosing : Text.bytes "m".toList = "m".toList.length := by decide +kernel
  refine ⟨fun rest => strip_sequence hm rest, Nat.zero_le _, ?_⟩
  simp only [sequence, String.toList_append, Text.bytes_append, List.length_append, haction, hopening,
    hclosing]
  exact Nat.add_comm _ _

/-- Styles are turned on and off by numbers. -/
theorem seenAs_opening (style : Style) : SeenAs style.opening "" := by
  cases style with
  | color r g b =>
    refine seenAs_sequence ?_
    simp only [toString, isAction_append, isAction_repr, Bool.and_true]
    decide +kernel
  | _ => exact seenAs_sequence (by decide +kernel)

theorem seenAs_closing (style : Style) : SeenAs style.closing "" := by
  cases style <;> exact seenAs_sequence (by decide +kernel)

/-- A style adds nothing to what is seen. -/
theorem SeenAs.paint {t : String} (style : Style) (h : SeenAs t t) :
    SeenAs (style.paint true t) (style.paint false t) := by
  have hpaint := ((seenAs_opening style).append h).append (seenAs_closing style)
  rwa [String.empty_append, String.append_empty] at hpaint

theorem bytes_le_bytes_paint (style : Style) (colors : Bool) (t : String) :
    Text.bytes t.toList ≤ Text.bytes (style.paint colors t).toList := by
  cases colors with
  | false => exact le_rfl
  | true =>
    have hpaint : style.paint true t = style.opening ++ t ++ style.closing := rfl
    rw [hpaint, String.toList_append, String.toList_append, Text.bytes_append, Text.bytes_append]
    omega

end RollCall.Style
