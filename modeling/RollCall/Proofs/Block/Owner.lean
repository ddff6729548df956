import RollCall.Proofs.Block.Splice

/-!
# The block of a record

A record belongs to the first block that holds its date, its title and its query. Entries do not
matter for this, so that writing entries moves no record to another block.
-/

namespace RollCall

/-- Whether what was read from a block has the date, the title and the query of the target. -/
def Record.owns (target : Record) (parsed : Except BodyError Record) : Bool :=
  match parsed with
  | .error _ => false
  | .ok record => record.sameHead target

namespace Record

theorem owns_ok (target record : Record) : target.owns (.ok record) = record.sameHead target := rfl

theorem owns_iff {target : Record} {parsed : Except BodyError Record} :
    target.owns parsed = true ↔ ∃ record, parsed = .ok record ∧ record.sameHead target = true := by
  cases parsed <;> simp [owns]

theorem owns_eq_false_iff {target : Record} {parsed : Except BodyError Record} :
    target.owns parsed = false ↔ ∀ record, parsed = .ok record → record.sameHead target = false := by
  cases parsed <;> simp [owns]

/-- Records with the same date, title and query belong to the same blocks. -/
theorem owns_congr {a b : Record} (h : a.sameHead b = true) : a.owns = b.owns := by
  obtain ⟨hdate, htitle, hquery⟩ := sameHead_iff.1 h
  funext parsed
  cases parsed with
  | error error => rfl
  | ok record => simp only [owns, sameHead, hdate, htitle, hquery]

/-- A block does not belong to records that differ in date, title or query. -/
theorem sameHead_of_owns {a b : Record} {parsed : Except BodyError Record}
    (ha : a.owns parsed = true) (hb : b.owns parsed = true) : a.sameHead b = true := by
  obtain ⟨record, rfl, hrecord⟩ := owns_iff.1 ha
  rw [owns_ok] at hb
  obtain ⟨hdate, htitle, hquery⟩ := sameHead_iff.1 hrecord
  obtain ⟨hdate', htitle', hquery'⟩ := sameHead_iff.1 hb
  exact sameHead_iff.2
    ⟨hdate.symm.trans hdate', htitle.symm.trans htitle', hquery.symm.trans hquery'⟩

end Record

/-- The first block of a target by what was read from the blocks. -/
theorem exists_firstBlock_iff {text : List Char} {target : Record} {i : Nat} :
    (∃ cut record, FirstBlock text target i cut record) ↔
      (Cut.scan text).findIdx? (fun cut => target.owns cut.parsed) = some i := by
  rw [List.findIdx?_eq_some_iff_getElem]
  constructor
  · rintro ⟨cut, record, h⟩
    obtain ⟨hi, hget⟩ := List.getElem?_eq_some_iff.1 h.at_place
    refine ⟨hi, ?_, fun j hj => ?_⟩
    · rw [hget, h.parsed_eq]
      exact h.same_head
    · rw [Bool.not_eq_true, Record.owns_eq_false_iff]
      exact h.earlier j hj _ (List.getElem?_eq_getElem _)
  · rintro ⟨hi, howns, hearlier⟩
    obtain ⟨record, hparsed, hhead⟩ := Record.owns_iff.1 howns
    refine ⟨_, record, List.getElem?_eq_getElem hi, hparsed, hhead, fun j hj other hother => ?_⟩
    obtain ⟨hj', rfl⟩ := List.getElem?_eq_some_iff.1 hother
    have hnot := hearlier j hj
    rwa [Bool.not_eq_true, Record.owns_eq_false_iff] at hnot

end RollCall
