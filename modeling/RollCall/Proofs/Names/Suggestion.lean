import RollCall.Names.Suggestion
import RollCall.Proofs.Text.EditDistance

/-!
# What is suggested

The name that is suggested is the first of the nearest ones (`firstNearest_of_suggest?`). One is
suggested exactly if some known name is near enough and none is the name itself in another case
(`isSome_suggest?_iff`).
-/

namespace RollCall

/-! ## The first element with the least key -/

section

variable {α : Type} {key : α → Nat} {as : List α} {least : α}

theorem firstMin?_eq_none_iff : firstMin? key as = none ↔ as = [] := by
  cases as with
  | nil => simp [firstMin?]
  | cons a as =>
    rw [firstMin?]
    cases firstMin? key as with
    | none => simp
    | some b => by_cases h : key b < key a <;> simp [h]

theorem exists_append_of_firstMin? (h : firstMin? key as = some least) :
    ∃ before after, as = before ++ least :: after ∧ (∀ a ∈ before, key least < key a) ∧
      ∀ a ∈ after, key least ≤ key a := by
  induction as generalizing least with
  | nil => simp [firstMin?] at h
  | cons a as ih =>
    rw [firstMin?] at h
    cases hrest : firstMin? key as with
    | none =>
      obtain rfl := firstMin?_eq_none_iff.1 hrest
      obtain rfl : a = least := by simpa [hrest] using h
      exact ⟨[], [], rfl, by simp, by simp⟩
    | some b =>
      obtain ⟨before, after, rfl, hbefore, hafter⟩ := ih hrest
      simp only [hrest] at h
      split at h
      · next hlt =>
        obtain rfl := Option.some.inj h
        refine ⟨a :: before, after, rfl, ?_, hafter⟩
        exact List.forall_mem_cons.2 ⟨hlt, hbefore⟩
      · next hge =>
        obtain rfl := Option.some.inj h
        refine ⟨[], _, rfl, by simp, fun other hother => ?_⟩
        rcases List.mem_append.1 hother with hother | hother
        · have := hbefore other hother
          omega
        rcases List.mem_cons.1 hother with rfl | hother
        · omega
        · have := hafter other hother
          omega

end

/-! ## The nearest names -/

/-- The number of edits between two names whatever their case: the least that is enough. -/
def NamesApart (a b : String) (n : Nat) : Prop :=
  IsLeast {m | Text.Edits m (Text.lower a.toList) (Text.lower b.toList)} n

/-- The first of the known names that are nearest to a name, `n` edits away. The empty name does not
count. -/
structure FirstNearest (name : String) (known : List String) (best : String) (n : Nat) : Prop where
  ne_empty : best ≠ ""
  apart : NamesApart name best n
  first : ∃ before after, known = before ++ best :: after ∧
    (∀ other ∈ before, other ≠ "" → ∀ m, NamesApart name other m → n < m) ∧
    ∀ other ∈ after, other ≠ "" → ∀ m, NamesApart name other m → n ≤ m

variable {name best : String} {known : List String} {n : Nat}

theorem namesApart_nameDistance (a b : String) : NamesApart a b (nameDistance a b) :=
  Text.isLeast_editDistance _ _

theorem NamesApart.eq {a b : String} (h : NamesApart a b n) : n = nameDistance a b :=
  h.unique (namesApart_nameDistance a b)

theorem nameDistance_eq_zero_iff {a b : String} :
    nameDistance a b = 0 ↔ Text.lowerCase a = Text.lowerCase b := by
  rw [nameDistance, Text.editDistance_eq_zero_iff, Text.lowerCase, Text.lowerCase, String.ofList_inj]

theorem firstNearest_of_firstMin?
    (h : firstMin? (nameDistance name) (known.filter (· ≠ "")) = some best) :
    FirstNearest name known best (nameDistance name best) := by
  obtain ⟨before, after, hfilter, hbefore, hafter⟩ := exists_append_of_firstMin? h
  obtain ⟨front, rest, rfl, rfl, hrest⟩ := List.filter_eq_append_iff.1 hfilter
  obtain ⟨empty, behind, rfl, hempty, hbest, rfl⟩ := List.filter_eq_cons_iff.1 hrest
  refine ⟨by simpa using hbest, namesApart_nameDistance name best, front ++ empty, behind, by simp,
    fun other hother hne m hm => ?_, fun other hother hne m hm => ?_⟩
  · rw [hm.eq]
    rcases List.mem_append.1 hother with hfront | hskipped
    · exact hbefore other (List.mem_filter.2 ⟨hfront, by simpa using hne⟩)
    · exact absurd hne (by simpa using hempty other hskipped)
  · rw [hm.eq]
    exact hafter other (List.mem_filter.2 ⟨hother, by simpa using hne⟩)

theorem FirstNearest.mem (h : FirstNearest name known best n) : best ∈ known := by
  obtain ⟨before, after, rfl, -⟩ := h.first
  simp

theorem FirstNearest.le_nameDistance (h : FirstNearest name known best n) :
    ∀ other ∈ known, other ≠ "" → n ≤ nameDistance name other := by
  intro other hother hne
  obtain ⟨before, after, rfl, hbefore, hafter⟩ := h.first
  rcases List.mem_append.1 hother with hfront | hother
  · exact (hbefore other hfront hne _ (namesApart_nameDistance name other)).le
  rcases List.mem_cons.1 hother with rfl | hbehind
  · exact h.apart.eq.le
  · exact hafter other hbehind hne _ (namesApart_nameDistance name other)

/-! ## Suggestions -/

theorem firstNearest_of_suggest? (h : suggest? name known = some best) :
    FirstNearest name known best (nameDistance name best) ∧ 0 < nameDistance name best ∧
      nameDistance name best ≤ maxSuggestionDistance := by
  rw [suggest?] at h
  cases hbest : firstMin? (nameDistance name) (known.filter (· ≠ "")) with
  | none =>
    simp only [hbest] at h
    cases h
  | some nearest =>
    simp only [hbest] at h
    split at h
    · next hdistance =>
      obtain rfl := Option.some.inj h
      exact ⟨firstNearest_of_firstMin? hbest, hdistance⟩
    · cases h

/-- A name that is known in another case is no reason to suggest anything. -/
theorem suggest?_eq_none {other : String} (hmem : other ∈ known) (hne : other ≠ "")
    (h : Text.lowerCase name = Text.lowerCase other) : suggest? name known = none := by
  cases hsuggest : suggest? name known with
  | none => rfl
  | some best =>
    obtain ⟨hnearest, hpositive, -⟩ := firstNearest_of_suggest? hsuggest
    have hle := hnearest.le_nameDistance other hmem hne
    rw [nameDistance_eq_zero_iff.2 h] at hle
    omega

theorem isSome_suggest?_iff : (suggest? name known).isSome = true ↔
    (∃ other ∈ known, other ≠ "" ∧ ∃ n ≤ maxSuggestionDistance, NamesApart name other n) ∧
      ∀ other ∈ known, other ≠ "" → Text.lowerCase name ≠ Text.lowerCase other := by
  constructor
  · intro h
    obtain ⟨best, hbest⟩ := Option.isSome_iff_exists.1 h
    obtain ⟨hnearest, -, hnear⟩ := firstNearest_of_suggest? hbest
    refine ⟨⟨best, hnearest.mem, hnearest.ne_empty, _, hnear, hnearest.apart⟩, ?_⟩
    intro other hother hne hsame
    rw [suggest?_eq_none hother hne hsame] at hbest
    cases hbest
  · rintro ⟨⟨other, hother, hne, n, hn, hapart⟩, hspelled⟩
    have hkept : other ∈ known.filter (· ≠ "") := List.mem_filter.2 ⟨hother, by simpa using hne⟩
    rw [suggest?]
    cases hbest : firstMin? (nameDistance name) (known.filter (· ≠ "")) with
    | none => rw [firstMin?_eq_none_iff.1 hbest] at hkept; exact absurd hkept List.not_mem_nil
    | some best =>
      have hnearest := firstNearest_of_firstMin? hbest
      have hpositive : nameDistance name best ≠ 0 := fun hzero =>
        hspelled best hnearest.mem hnearest.ne_empty (nameDistance_eq_zero_iff.1 hzero)
      have hle := hnearest.le_nameDistance other hother hne
      rw [← hapart.eq] at hle
      have hdistance : 0 < nameDistance name best ∧ nameDistance name best ≤ maxSuggestionDistance :=
        ⟨Nat.pos_of_ne_zero hpositive, hle.trans hn⟩
      simp only [if_pos hdistance, Option.isSome_some]

end RollCall
