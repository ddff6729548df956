import RollCall.Names.Map
import Mathlib.Data.List.Sort

/-!
# Sets and maps as ascending lists

An ascending list is known by its members, so sets of names with the same members are equal. What is
found under a key of a map is what the list of pairs says, so that the values in the order of their
keys are what is found under the keys.
-/

namespace RollCall

namespace NameSet

variable {a b s : NameSet}

theorem ext (h : ∀ x, x ∈ a ↔ x ∈ b) : a = b := by
  obtain ⟨names, hnames⟩ := a
  obtain ⟨others, hothers⟩ := b
  obtain rfl : names = others := List.Pairwise.eq_of_mem_iff hnames hothers h
  rfl

theorem isEmpty_iff : s.isEmpty = true ↔ s = ∅ := by
  constructor
  · intro h
    refine ext fun x => ⟨fun hx => ?_, fun hx => absurd hx (not_mem_empty x)⟩
    rw [mem_def, List.isEmpty_iff.1 h] at hx
    exact absurd hx List.not_mem_nil
  · rintro rfl
    rfl

end NameSet

theorem lookupPair_eq_some_iff {α : Type} {key : String} {value : α} {pairs : List (String × α)}
    (h : (pairs.map Prod.fst).Pairwise (· < ·)) :
    lookupPair key pairs = some value ↔ (key, value) ∈ pairs := by
  induction pairs with
  | nil => simp [lookupPair]
  | cons pair pairs ih =>
    obtain ⟨hpair, hpairs⟩ := List.pairwise_cons.1 h
    rw [lookupPair, List.mem_cons]
    by_cases hkey : key = pair.1
    · have hnot : (key, value) ∉ pairs := by
        intro hmem
        have hlt : pair.1 < key := hpair key (List.mem_map.2 ⟨_, hmem, rfl⟩)
        exact String.lt_irrefl _ (hkey ▸ hlt)
      rw [if_pos hkey]
      constructor
      · intro hvalue
        exact .inl (Prod.ext hkey (Option.some.inj hvalue).symm)
      · rintro (rfl | hmem)
        · rfl
        · exact absurd hmem hnot
    · rw [if_neg hkey, ih hpairs]
      constructor
      · exact .inr
      · rintro (rfl | hmem)
        · exact absurd rfl hkey
        · exact hmem

namespace NameMap

variable {α : Type} {m : NameMap α} {key : String} {value : α}

theorem find?_eq_some_iff : m.find? key = some value ↔ (key, value) ∈ m.toList :=
  lookupPair_eq_some_iff m.ascending

theorem map_find?_keys (m : NameMap α) : m.keys.toList.map m.find? = m.values.map some := by
  rw [keys, values, List.map_map, List.map_map]
  refine List.map_congr_left fun pair hpair => ?_
  exact find?_eq_some_iff.2 hpair

end NameMap

end RollCall
