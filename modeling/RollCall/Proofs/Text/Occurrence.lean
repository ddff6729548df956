import RollCall.Text.Find
import Mathlib.Data.List.Infix
import Mathlib.Tactic.Common

/-!
# Occurrences of a pattern

`cut?` cuts a text at the first occurrence of a pattern. That an occurrence is the first one depends
only on the text up to its end, which is what `OnlyAtEnd` says about the text in front of it: put
behind that text, the pattern occurs there and nowhere earlier.
-/

namespace RollCall.Text

/-- In the text followed by the pattern, the pattern occurs only at the end. -/
def OnlyAtEnd (pattern text : List Char) : Prop :=
  ∀ a b, text ++ pattern = a ++ pattern ++ b → b = []

theorem OnlyAtEnd.not_isInfix {pattern text : List Char} (h : OnlyAtEnd pattern text)
    (hne : pattern ≠ []) : ¬ pattern <:+: text := by
  rintro ⟨a, b, rfl⟩
  have hend := h a (b ++ pattern) (by simp)
  exact hne (List.append_eq_nil_iff.1 hend).2

/-! ## The ends of a text -/

theorem after?_eq_some_iff {pattern text rest : List Char} :
    after? pattern text = some rest ↔ text = pattern ++ rest := by
  rw [after?, List.isPrefixOf?_eq_some_iff_append_eq, eq_comm]

@[simp] theorem after?_append (pattern rest : List Char) :
    after? pattern (pattern ++ rest) = some rest :=
  after?_eq_some_iff.2 rfl

theorem after?_eq_none_iff {pattern text : List Char} :
    after? pattern text = none ↔ ¬ pattern <+: text := by
  rw [after?, ← Option.not_isSome_iff_eq_none, List.isSome_isPrefixOf?_eq_isPrefixOf,
    List.isPrefixOf_iff_prefix]

theorem before?_eq_some_iff {pattern text rest : List Char} :
    before? pattern text = some rest ↔ text = rest ++ pattern := by
  rw [before?, List.isSuffixOf?_eq_some_iff_append_eq, eq_comm]

/-- What stands between two patterns at the ends of a text. -/
theorem bind_before?_after? (opening text closing : List Char) :
    (after? opening (opening ++ (text ++ closing))).bind (before? closing) = some text := by
  rw [after?_append, Option.bind_some, before?_eq_some_iff]

/-! ## The first occurrence -/

theorem after?_eq_dropPrefix? (pattern text : List Char) :
    after? pattern text = text.dropPrefix? pattern := by
  ext rest
  rw [after?_eq_some_iff, List.dropPrefix?_eq_some_iff]
  simp

/-- The search that collects the text in front finds what `cut?` finds. -/
theorem dropInfix?_go_eq_map_cut? (pattern text front : List Char) :
    List.dropInfix?.go pattern text front =
      (cut? pattern text).map fun (before, rest) => (front.reverse ++ before, rest) := by
  induction text generalizing front with
  | nil => by_cases h : pattern = [] <;> simp [List.dropInfix?.go, cut?, h]
  | cons c text ih =>
    simp only [List.dropInfix?.go, cut?, ← after?_eq_dropPrefix?]
    cases after? pattern (c :: text) with
    | none => simp [ih, Function.comp_def]
    | some rest => simp

theorem cut?_eq_dropInfix? (pattern text : List Char) :
    cut? pattern text = text.dropInfix? pattern := by
  rw [List.dropInfix?, dropInfix?_go_eq_map_cut?]
  simp

/-- That no occurrence in the whole text begins earlier depends only on the text up to the end of
the occurrence. -/
theorem onlyAtEnd_iff_forall_length_le {pattern before : List Char} (rest : List Char) :
    OnlyAtEnd pattern before ↔
      ∀ a b, before ++ pattern ++ rest = a ++ pattern ++ b → before.length ≤ a.length := by
  constructor
  · intro h a b hab
    by_contra hlt
    have hpart : a ++ pattern <+: before ++ pattern :=
      List.prefix_of_prefix_length_le ⟨b, hab.symm⟩ (List.prefix_append _ rest) (by simp; omega)
    obtain ⟨d, hd⟩ := hpart
    have hlength := congrArg List.length hd
    simp only [h a d hd.symm, List.append_nil, List.length_append] at hlength
    omega
  · intro h a b hab
    have hle := h a (b ++ rest) (by rw [hab, List.append_assoc])
    have hlength := congrArg List.length hab
    simp only [List.length_append] at hlength
    exact List.length_eq_zero_iff.1 (by omega)

theorem cut?_eq_some_iff {pattern text before rest : List Char} :
    cut? pattern text = some (before, rest) ↔
      text = before ++ pattern ++ rest ∧ OnlyAtEnd pattern before := by
  rw [cut?_eq_dropInfix?, List.dropInfix?_eq_some_iff]
  simp only [beq_iff_eq, exists_eq_right, onlyAtEnd_iff_forall_length_le rest]
  constructor
  · rintro ⟨rfl, h⟩
    exact ⟨rfl, fun a b hab => h a pattern b hab rfl⟩
  · rintro ⟨rfl, h⟩
    exact ⟨rfl, by rintro a _ b hab rfl; exact h a b hab⟩

theorem cut?_append {pattern before : List Char} (h : OnlyAtEnd pattern before)
    (rest : List Char) : cut? pattern (before ++ pattern ++ rest) = some (before, rest) :=
  cut?_eq_some_iff.2 ⟨rfl, h⟩

/-- The pieces of a cut, with the pattern between them, are the text. -/
theorem eq_append_of_cut? {pattern text before rest : List Char}
    (h : cut? pattern text = some (before, rest)) : text = before ++ pattern ++ rest :=
  (cut?_eq_some_iff.1 h).1

theorem cut?_eq_none_iff {pattern text : List Char} :
    cut? pattern text = none ↔ ¬ pattern <:+: text := by
  induction text with
  | nil => simp [cut?]
  | cons c text ih =>
    rw [List.infix_cons_iff, not_or, ← after?_eq_none_iff, ← ih]
    cases h : after? pattern (c :: text) <;> simp [cut?, h]

instance (pattern text : List Char) : Decidable (OnlyAtEnd pattern text) :=
  decidable_of_iff (cut? pattern (text ++ pattern) = some (text, [])) (by simp [cut?_eq_some_iff])

theorem onlyAtEnd_singleton_iff {c : Char} {text : List Char} :
    OnlyAtEnd [c] text ↔ c ∉ text := by
  constructor
  · rintro h hc
    obtain ⟨a, b, rfl⟩ := List.append_of_mem hc
    exact absurd (h a (b ++ [c]) (by simp)) (by simp)
  · intro hc a b hab
    rw [List.append_assoc, List.singleton_append] at hab
    rcases List.append_eq_append_iff.1 hab with ⟨d, rfl, hd⟩ | ⟨d, rfl, hd⟩
    · cases d with
      | nil => simpa using hd.symm
      | cons x d => simp at hd
    · cases d with
      | nil => simpa using hd
      | cons x d =>
        simp only [List.cons_append, List.cons.injEq] at hd
        exact absurd (hd.1 ▸ by simp) hc

/-! ## Patterns around a character that is not theirs -/

theorem prefix_of_prefix_append_cons {pattern a b : List Char} {c : Char} (hc : c ∉ pattern)
    (h : pattern <+: a ++ c :: b) : pattern <+: a := by
  refine List.prefix_of_prefix_length_le h (List.prefix_append a _) ?_
  by_contra hlen
  obtain ⟨rest, hrest⟩ := h
  have hlt : a.length < pattern.length := by omega
  have hget : pattern[a.length] = c := by
    have := congrArg (·[a.length]?) hrest
    simp only [List.getElem?_append_right (Nat.le_refl _), Nat.sub_self, List.getElem?_cons_zero] at this
    rw [List.getElem?_append_left (by omega), List.getElem?_eq_getElem (by omega)] at this
    exact Option.some.inj this
  exact hc (hget ▸ List.getElem_mem _)

/-- A pattern does not reach across a character that it does not hold. -/
theorem infix_append_cons_iff {pattern a b : List Char} {c : Char} (hc : c ∉ pattern) :
    pattern <:+: a ++ c :: b ↔ pattern <:+: a ∨ pattern <:+: b := by
  constructor
  · intro h
    induction a with
    | nil =>
      rcases List.infix_cons_iff.1 h with hp | hi
      · exact .inl (prefix_of_prefix_append_cons (a := []) hc hp).isInfix
      · exact .inr hi
    | cons x a ih =>
      rcases List.infix_cons_iff.1 h with hp | hi
      · exact .inl (prefix_of_prefix_append_cons (a := x :: a) hc hp).isInfix
      · exact (ih hi).imp_left fun ha => ha.trans (List.suffix_cons x a).isInfix
  · rintro (h | h)
    · exact h.trans (List.prefix_append a _).isInfix
    · exact h.trans ((List.suffix_cons c b).trans (List.suffix_append a _)).isInfix

/-- A text without the pattern and behind it a character that the pattern does not hold: only what
follows can hold the pattern. -/
theorem onlyAtEnd_append_singleton {pattern text : List Char} {c : Char} (hc : c ∉ pattern)
    (h : ¬ pattern <:+: text) : OnlyAtEnd pattern (text ++ [c]) := by
  intro a b hab
  rcases List.eq_nil_or_concat' b with rfl | ⟨b, x, rfl⟩
  · rfl
  have hne : pattern ≠ [] := by
    rintro rfl
    exact h (by simp)
  -- without its last character the text still holds this occurrence, but too little of the one
  -- at the end
  have hdrop : text ++ c :: pattern.dropLast = a ++ pattern ++ b := by
    have := congrArg List.dropLast hab
    rw [List.append_assoc, List.dropLast_append_of_ne_nil (by simp),
      List.singleton_append, List.dropLast_cons_of_ne_nil hne] at this
    simpa [← List.append_assoc] using this
  have hpart : pattern <:+: text ++ c :: pattern.dropLast := ⟨a, b, hdrop.symm⟩
  rcases (infix_append_cons_iff hc).1 hpart with hi | hi
  · exact absurd hi h
  · have hlen := hi.length_le
    have hpos := List.length_pos_iff.2 hne
    simp only [List.length_dropLast] at hlen
    omega

/-- Only behind such a character, the pattern may follow once more. -/
theorem onlyAtEnd_append_cons_iff {pattern a b : List Char} {c : Char} (hc : c ∉ pattern)
    (hne : pattern ≠ []) :
    OnlyAtEnd pattern (a ++ c :: b) ↔ ¬ pattern <:+: a ∧ OnlyAtEnd pattern b := by
  constructor
  · intro h
    refine ⟨fun ha => h.not_isInfix hne ((infix_append_cons_iff hc).2 (.inl ha)), ?_⟩
    intro x y hxy
    exact h (a ++ c :: x) y (by simp [hxy])
  · rintro ⟨ha, hb⟩
    induction a with
    | nil =>
      intro x y hxy
      cases x with
      | nil =>
        have hfront : pattern <+: [] ++ c :: (b ++ pattern) := ⟨y, hxy.symm⟩
        exact absurd (List.prefix_nil.1 (prefix_of_prefix_append_cons hc hfront)) hne
      | cons d x =>
        simp only [List.nil_append, List.cons_append, List.cons.injEq] at hxy
        exact hb x y hxy.2
    | cons d a ih =>
      intro x y hxy
      cases x with
      | nil =>
        have hfront : pattern <+: (d :: a) ++ c :: (b ++ pattern) := ⟨y, by simpa using hxy.symm⟩
        exact absurd (prefix_of_prefix_append_cons hc hfront).isInfix ha
      | cons e x =>
        simp only [List.cons_append, List.cons.injEq] at hxy
        exact ih (fun h => ha (h.trans (List.suffix_cons d a).isInfix)) x y hxy.2

/-- Two equal characters behind a text: the text holds them nowhere and does not end with one. -/
theorem onlyAtEnd_pair_iff {c : Char} {text : List Char} :
    OnlyAtEnd [c, c] text ↔ ¬ [c, c] <:+: text ∧ ¬ [c] <:+ text := by
  constructor
  · intro h
    refine ⟨h.not_isInfix (List.cons_ne_nil _ _), ?_⟩
    rintro ⟨a, rfl⟩
    exact absurd (h a [c] (by simp)) (List.cons_ne_nil _ _)
  · rintro ⟨hwithin, hsuffix⟩ a b hab
    rcases List.eq_nil_or_concat' b with rfl | ⟨b, x, rfl⟩
    · rfl
    have hfirst : (text ++ [c]) ++ [c] = (a ++ [c, c] ++ b) ++ [x] := by simpa using hab
    have htext : text ++ [c] = a ++ [c, c] ++ b := (List.append_inj' hfirst rfl).1
    rcases List.eq_nil_or_concat' b with rfl | ⟨b, y, rfl⟩
    · have hlast : text ++ [c] = (a ++ [c]) ++ [c] := by simpa using htext
      exact absurd ⟨a, (List.append_inj' hlast rfl).1.symm⟩ hsuffix
    · have hsecond : text ++ [c] = (a ++ [c, c] ++ b) ++ [y] := by simpa using htext
      exact absurd ⟨a, b, (List.append_inj' hsecond rfl).1.symm⟩ hwithin

end RollCall.Text
