import RollCall.Text.LowerCase
import Mathlib.Tactic.Common

/-!
# Names that differ in the case of A to Z

Reading A to Z as a to z changes nothing in how a text is lower-cased, not even where a final sigma
stands. Names that are equal up to the case of these letters therefore have the same lower-case form.
-/

namespace RollCall.Text

/-- The letters A to Z. -/
def capitals : List Char := "ABCDEFGHIJKLMNOPQRSTUVWXYZ".toList

theorem toLower_eq_self_or_mem (c : Char) : c.toLower = c ∨ c ∈ capitals := by
  by_cases h : 65 ≤ c.toNat ∧ c.toNat ≤ 90
  · have hletters : ∀ n : Nat, n < 91 → 65 ≤ n → Char.ofNat n ∈ capitals := by decide +kernel
    have hc : Char.ofNat c.toNat ∈ capitals := hletters c.toNat (by omega) h.1
    rw [Char.ofNat_toNat] at hc
    exact .inr hc
  · left
    unfold Char.toLower
    exact dif_neg h

/-- What is the same for a capital and its small letter is the same for a text and its reading. -/
theorem apply_toLower {α : Type} {f : Char → α}
    (h : capitals.map (fun c => f c.toLower) = capitals.map f) (c : Char) : f c.toLower = f c := by
  rcases toLower_eq_self_or_mem c with hself | hcapital
  · rw [hself]
  · exact List.map_eq_map_iff.1 h c hcapital

theorem lowerChar_toLower (c : Char) : lowerChar c.toLower = lowerChar c :=
  apply_toLower (by decide +kernel) c

theorem isCased_toLower (c : Char) : isCased c.toLower = isCased c :=
  apply_toLower (by decide +kernel) c

theorem isCaseIgnorable_toLower (c : Char) : isCaseIgnorable c.toLower = isCaseIgnorable c :=
  apply_toLower (by decide +kernel) c

theorem toLower_eq_sigma_iff (c : Char) : c.toLower = 'Σ' ↔ c = 'Σ' := by
  have h : decide (c.toLower = 'Σ') = decide (c = 'Σ') :=
    apply_toLower (f := fun c => decide (c = 'Σ')) (by decide +kernel) c
  exact decide_eq_decide.1 h

theorem startsCased_map_toLower (text : List Char) :
    startsCased (text.map Char.toLower) = startsCased text := by
  have hpassed : (text.map Char.toLower).dropWhile isCaseIgnorable =
      (text.dropWhile isCaseIgnorable).map Char.toLower := by
    rw [List.dropWhile_map]
    congr 2
    funext c
    exact isCaseIgnorable_toLower c
  unfold startsCased
  rw [hpassed]
  cases text.dropWhile isCaseIgnorable with
  | nil => rfl
  | cons c text => exact isCased_toLower c

theorem lowerAfter_map_toLower (before text : List Char) :
    lowerAfter (before.map Char.toLower) (text.map Char.toLower) = lowerAfter before text := by
  induction text generalizing before with
  | nil => rfl
  | cons c text ih =>
    have hrest := ih (c :: before)
    rw [List.map_cons] at hrest
    rw [List.map_cons, lowerAfter, lowerAfter, hrest, startsCased_map_toLower, startsCased_map_toLower,
      lowerChar_toLower, if_congr (toLower_eq_sigma_iff c) rfl rfl]

theorem lowerCase_eq_of_eqIgnoringAsciiCase {a b : String} (h : eqIgnoringAsciiCase a b = true) :
    lowerCase a = lowerCase b := by
  have hmap : a.toList.map Char.toLower = b.toList.map Char.toLower := eq_of_beq h
  have hlower : ∀ text : List Char, lower (text.map Char.toLower) = lower text :=
    lowerAfter_map_toLower []
  unfold lowerCase
  rw [← hlower a.toList, hmap, hlower]

theorem lower_eq_nil_iff {text : List Char} : lower text = [] ↔ text = [] := by
  cases text with
  | nil => exact iff_of_true rfl rfl
  | cons c text =>
    have hc : lowerChar c ≠ [] := by
      unfold lowerChar
      split
      · simp
      · split <;> simp
    unfold lower
    rw [lowerAfter]
    by_cases hsigma : c = 'Σ'
    · rw [if_pos hsigma]
      split <;> simp
    · rw [if_neg hsigma]
      simp [hc]

theorem lowerCase_eq_empty_iff {name : String} : lowerCase name = "" ↔ name = "" := by
  unfold lowerCase
  rw [String.ofList_eq_empty_iff, lower_eq_nil_iff, String.toList_eq_nil_iff]

end RollCall.Text
