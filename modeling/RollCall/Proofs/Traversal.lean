import Mathlib.Data.List.Forall2
import Mathlib.Tactic.Common

/-!
# Results found one after the other

A function that can fail is applied to the elements of a list in order. Either each of them has a
value, or the first that has none decides.
-/

namespace RollCall

variable {ε α β : Type} {f : α → Except ε β} {as : List α} {bs : List β} {error : ε}

theorem map_eq_error_iff {result : Except ε α} {f : α → β} :
    result.map f = .error error ↔ result = .error error := by
  cases result with
  | error fault => rw [Except.map, Except.error.injEq, Except.error.injEq]
  | ok value => simp [Except.map]

/-- The error is that of the first element that has no value. -/
def FirstFailure (f : α → Except ε β) (as : List α) (error : ε) : Prop :=
  ∃ before a after, as = before ++ a :: after ∧ f a = .error error ∧
    ∀ earlier ∈ before, ∃ b, f earlier = .ok b

theorem FirstFailure.cons {a : α} {b : β} (ha : f a = .ok b) (h : FirstFailure f as error) :
    FirstFailure f (a :: as) error := by
  obtain ⟨before, failing, after, rfl, hfailing, hbefore⟩ := h
  refine ⟨a :: before, failing, after, rfl, hfailing, fun earlier hearlier => ?_⟩
  rcases List.mem_cons.1 hearlier with rfl | hearlier
  · exact ⟨b, ha⟩
  · exact hbefore earlier hearlier

theorem firstFailure_map_iff {γ : Type} {g : α → β → γ} :
    FirstFailure (fun a => (f a).map (g a)) as error ↔ FirstFailure f as error := by
  have hok : ∀ a, (∃ c, (f a).map (g a) = .ok c) ↔ ∃ b, f a = .ok b := by
    intro a
    cases f a <;> simp [Except.map]
  unfold FirstFailure
  simp only [map_eq_error_iff, hok]

theorem mapM_of_forall₂ (h : List.Forall₂ (fun a b => f a = .ok b) as bs) : as.mapM f = .ok bs := by
  induction h with
  | nil => rfl
  | cons hab _ ih =>
    rw [List.mapM_cons, hab, ih]
    rfl

theorem mapM_of_firstFailure (h : FirstFailure f as error) : as.mapM f = .error error := by
  obtain ⟨before, a, after, rfl, ha, hbefore⟩ := h
  induction before with
  | nil =>
    rw [List.nil_append, List.mapM_cons, ha]
    rfl
  | cons first before ih =>
    obtain ⟨b, hb⟩ := hbefore first List.mem_cons_self
    rw [List.cons_append, List.mapM_cons, hb,
      ih fun earlier hearlier => hbefore earlier (List.mem_cons_of_mem _ hearlier)]
    rfl

/-- Each element has a value or there is a first one that has none. -/
theorem forall₂_or_firstFailure (f : α → Except ε β) (as : List α) :
    (∃ bs, List.Forall₂ (fun a b => f a = .ok b) as bs) ∨ ∃ error, FirstFailure f as error := by
  induction as with
  | nil => exact .inl ⟨[], .nil⟩
  | cons a as ih =>
    cases ha : f a with
    | error error => exact .inr ⟨error, [], a, as, rfl, ha, fun _ h => absurd h List.not_mem_nil⟩
    | ok b =>
      rcases ih with ⟨bs, hbs⟩ | ⟨error, herror⟩
      · exact .inl ⟨b :: bs, .cons ha hbs⟩
      · exact .inr ⟨error, herror.cons ha⟩

theorem mapM_eq_ok_iff :
    as.mapM f = .ok bs ↔ List.Forall₂ (fun a b => f a = .ok b) as bs := by
  constructor
  · intro h
    rcases forall₂_or_firstFailure f as with ⟨found, hfound⟩ | ⟨error, herror⟩
    · obtain rfl := Except.ok.inj ((mapM_of_forall₂ hfound).symm.trans h)
      exact hfound
    · rw [mapM_of_firstFailure herror] at h
      cases h
  · exact mapM_of_forall₂

theorem exists_mapM_eq_ok_iff : (∃ bs, as.mapM f = .ok bs) ↔ ∀ a ∈ as, ∃ b, f a = .ok b := by
  constructor
  · rintro ⟨bs, hbs⟩
    rw [mapM_eq_ok_iff] at hbs
    induction hbs with
    | nil => exact fun a ha => absurd ha List.not_mem_nil
    | @cons a b as bs hab _ ih =>
      intro other hother
      rcases List.mem_cons.1 hother with rfl | hother
      · exact ⟨b, hab⟩
      · exact ih other hother
  · intro h
    rcases forall₂_or_firstFailure f as with ⟨bs, hbs⟩ | ⟨error, before, a, after, rfl, ha, -⟩
    · exact ⟨bs, mapM_of_forall₂ hbs⟩
    · obtain ⟨b, hb⟩ := h a (by simp)
      rw [ha] at hb
      cases hb

theorem mapM_eq_error_iff : as.mapM f = .error error ↔ FirstFailure f as error := by
  constructor
  · intro h
    rcases forall₂_or_firstFailure f as with ⟨found, hfound⟩ | ⟨fault, hfault⟩
    · rw [mapM_of_forall₂ hfound] at h
      cases h
    · obtain rfl := Except.error.inj ((mapM_of_firstFailure hfault).symm.trans h)
      exact hfault
  · exact mapM_of_firstFailure

theorem exists_rel_of_mem {r : α → β → Prop} (h : List.Forall₂ r as bs) :
    ∀ b ∈ bs, ∃ a ∈ as, r a b := by
  induction h with
  | nil => exact fun b hb => absurd hb List.not_mem_nil
  | @cons a b as bs hab _ ih =>
    intro other hother
    rcases List.mem_cons.1 hother with rfl | hother
    · exact ⟨a, List.mem_cons_self, hab⟩
    · obtain ⟨found, hfound, hrel⟩ := ih other hother
      exact ⟨found, List.mem_cons_of_mem _ hfound, hrel⟩

/-- What is found in the lists for the elements, put together. -/
theorem mem_flatten_iff_of_mapM {f : α → Except ε (List β)} {parts : List (List β)}
    (h : as.mapM f = .ok parts) {b : β} :
    b ∈ parts.flatten ↔ ∃ a ∈ as, ∃ part, f a = .ok part ∧ b ∈ part := by
  rw [mapM_eq_ok_iff] at h
  induction h with
  | nil => simp
  | @cons a part as parts ha _ ih =>
    have hfirst : (∃ found, f a = .ok found ∧ b ∈ found) ↔ b ∈ part := by
      rw [ha]
      simp
    rw [List.flatten_cons, List.mem_append, ih, List.exists_mem_cons_iff, hfirst]

end RollCall
