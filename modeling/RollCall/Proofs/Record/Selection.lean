import RollCall.Record.Selection

/-!
# The record that a selection names

A selection names the record of a block exactly if it accepts that record and no other one of the
document.
-/

namespace RollCall.Selection

/-- The block at the place holds the record, which is the only one that the selection accepts. -/
structure Names (selection : Selection) (text : String) (i : Nat) (record : Record) : Prop where
  /-- The block at the place holds the record. -/
  at_place : ((Block.scan text)[i]?).map Block.parsed = some (.ok record)
  /-- The selection accepts the record. -/
  accepted : selection.accepts record = true
  /-- It accepts the record of no other block. -/
  only : ∀ (j : Nat) other, ((Block.scan text)[j]?).map Block.parsed = some (.ok other) →
    selection.accepts other = true → j = i

/-- The record of a block, if the selection accepts it. -/
def choose (selection : Selection) (block : DocumentBlock) : Option Record :=
  block.record?.filter selection.accepts

theorem choose_eq_some_iff {selection : Selection} {block : DocumentBlock} {record : Record} :
    selection.choose block = some record ↔
      block.parsed = .ok record ∧ selection.accepts record = true := by
  cases hparsed : block.parsed <;> simp [choose, DocumentBlock.record?, hparsed, Except.toOption]

theorem pick_eq_ok_iff {selection : Selection} {path : String} {blocks : List DocumentBlock}
    {record : Record} :
    selection.pick path blocks = .ok record ↔ blocks.filterMap selection.choose = [record] := by
  have hchoose : blocks.filterMap selection.choose =
      (blocks.filterMap DocumentBlock.record?).filter selection.accepts := by
    rw [List.filter_filterMap]
    rfl
  rw [hchoose, pick]
  cases (blocks.filterMap DocumentBlock.record?).filter selection.accepts with
  | nil => simp
  | cons first records => cases records <;> simp

theorem filterMap_eq_singleton_iff {α β : Type} {f : α → Option β} {b : β} {l : List α} :
    l.filterMap f = [b] ↔
      ∃ i : Nat, (l[i]?).bind f = some b ∧ ∀ (j : Nat) c, (l[j]?).bind f = some c → j = i := by
  constructor
  · intro h
    obtain ⟨front, a, behind, rfl, hfront, ha, hbehind⟩ := List.filterMap_eq_cons_iff.1 h
    rw [List.filterMap_eq_nil_iff] at hbehind
    refine ⟨front.length, by simp [ha], fun j c hj => ?_⟩
    obtain ⟨x, hx, hc⟩ := Option.bind_eq_some_iff.1 hj
    rcases Nat.lt_trichotomy j front.length with hlt | heq | hgt
    · rw [List.getElem?_append_left hlt] at hx
      simp [hfront x (List.mem_of_getElem? hx)] at hc
    · exact heq
    · obtain ⟨d, rfl⟩ := Nat.exists_eq_add_of_lt hgt
      rw [List.getElem?_append_right (by omega), show front.length + d + 1 - front.length = d + 1 by omega,
        List.getElem?_cons_succ] at hx
      simp [hbehind x (List.mem_of_getElem? hx)] at hc
  · rintro ⟨i, hi, honly⟩
    obtain ⟨a, ha, hb⟩ := Option.bind_eq_some_iff.1 hi
    obtain ⟨hlt, rfl⟩ := List.getElem?_eq_some_iff.1 ha
    have hnone : ∀ (j : Nat) x, l[j]? = some x → j ≠ i → f x = none := by
      intro j x hx hne
      cases hfx : f x with
      | none => rfl
      | some c => exact absurd (honly j c (by rw [hx, Option.bind_some, hfx])) hne
    refine List.filterMap_eq_cons_iff.2 ⟨l.take i, l[i], l.drop (i + 1), ?_, ?_, hb, ?_⟩
    · rw [List.getElem_cons_drop, List.take_append_drop]
    · intro x hx
      obtain ⟨j, hj⟩ := List.mem_iff_getElem?.1 hx
      rw [List.getElem?_take] at hj
      split at hj
      · next hji => exact hnone j x hj (Nat.ne_of_lt hji)
      · simp at hj
    · rw [List.filterMap_eq_nil_iff]
      intro x hx
      obtain ⟨j, hj⟩ := List.mem_iff_getElem?.1 hx
      rw [List.getElem?_drop] at hj
      exact hnone _ x hj (by omega)

/-- A selection picks a record of a text exactly if it names it. -/
theorem pick_scan_eq_ok_iff {selection : Selection} {path text : String} {record : Record} :
    selection.pick path (DocumentBlock.scan path text) = .ok record ↔
      ∃ i, selection.Names text i record := by
  have hbind : ∀ (j : Nat) other, ((DocumentBlock.scan path text)[j]?).bind selection.choose = some other ↔
      ((Block.scan text)[j]?).map Block.parsed = some (.ok other) ∧
        selection.accepts other = true := by
    intro j other
    rw [DocumentBlock.scan, List.getElem?_map]
    cases (Block.scan text)[j]? with
    | none => simp
    | some block => simp [choose_eq_some_iff]
  rw [pick_eq_ok_iff, filterMap_eq_singleton_iff]
  constructor
  · rintro ⟨i, hi, honly⟩
    exact ⟨i, ((hbind i record).1 hi).1, ((hbind i record).1 hi).2,
      fun j other hother haccepted => honly j other ((hbind j other).2 ⟨hother, haccepted⟩)⟩
  · rintro ⟨i, h⟩
    exact ⟨i, (hbind i record).2 ⟨h.at_place, h.accepted⟩,
      fun j other hother => h.only j other ((hbind j other).1 hother).1 ((hbind j other).1 hother).2⟩

end RollCall.Selection
