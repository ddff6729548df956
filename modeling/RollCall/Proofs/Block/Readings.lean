import RollCall.Proofs.Block.Owner

/-!
# What is read from a document

A document is read block by block. A splice changes the entries that are read from one block
(`exists_readings_of_splice`), and nothing else. So whatever records are spliced into a text and the
texts that come of it, the blocks keep their heads, and the entries of each block are those that it
had or those of a record that it belongs to (`Descends.of_splice`).
-/

namespace RollCall

/-- What is read from the blocks of a text, in order. -/
def readings (text : String) : List (Except BodyError Record) :=
  (Block.scan text).map Block.parsed

/-- What is read from a block, apart from the entries. -/
def outline (parsed : Except BodyError Record) : Except BodyError Record :=
  parsed.map fun record => { record with entries := ∅ }

theorem readings_eq (text : String) : readings text = (Cut.scan text.toList).map Cut.parsed := by
  rw [readings, Block.scan, List.map_map]
  rfl

theorem Record.owns_outline (target : Record) (parsed : Except BodyError Record) :
    target.owns (outline parsed) = target.owns parsed := by
  cases parsed <;> rfl

theorem outline_withEntries (record : Record) (entries : Entries) :
    outline (.ok { record with entries := entries }) = outline (.ok record) := rfl

/-- Other entries for one block do not show in the outlines. -/
theorem map_outline_set {parsed : List (Except BodyError Record)} {i : Nat} {record : Record}
    (h : parsed[i]? = some (.ok record)) (entries : Entries) :
    (parsed.set i (.ok { record with entries := entries })).map outline = parsed.map outline := by
  obtain ⟨hlt, hget⟩ := List.getElem?_eq_some_iff.1 h
  rw [List.map_set, outline_withEntries, ← hget, ← List.map_set, List.set_getElem_self]

/-- Texts that are read alike apart from the entries have the block of a record at the same place. -/
theorem findIdx?_owns_congr {text other : String}
    (h : (readings text).map outline = (readings other).map outline) (target : Record) :
    (readings text).findIdx? target.owns = (readings other).findIdx? target.owns := by
  have houtline : target.owns ∘ outline = target.owns := funext target.owns_outline
  have hplaces := congrArg (List.findIdx? target.owns) h
  rwa [List.findIdx?_map, List.findIdx?_map, houtline] at hplaces

theorem exists_firstBlock_iff_readings {text : String} {target : Record} {i : Nat} :
    (∃ cut record, FirstBlock text.toList target i cut record) ↔
      (readings text).findIdx? target.owns = some i := by
  rw [exists_firstBlock_iff, readings_eq, List.findIdx?_map]
  rfl

/-- A record can be spliced into a text exactly if one of the blocks belongs to it. -/
theorem exists_splice_iff {text : String} {target : Record} :
    (∃ out, splice text target = .ok out) ↔ ∃ parsed ∈ readings text, target.owns parsed = true := by
  have hplace : (∃ parsed ∈ readings text, target.owns parsed = true) ↔
      ∃ i, (readings text).findIdx? target.owns = some i := by
    rw [← Option.isSome_iff_exists, List.findIdx?_isSome, List.any_eq_true]
  rw [hplace]
  constructor
  · rintro ⟨out, hout⟩
    obtain ⟨i, cut, record, hfirst, -⟩ := splice_eq_ok_iff.1 hout
    exact ⟨i, exists_firstBlock_iff_readings.1 ⟨cut, record, hfirst⟩⟩
  · rintro ⟨i, hi⟩
    obtain ⟨cut, record, hfirst⟩ := exists_firstBlock_iff_readings.2 hi
    exact ⟨String.ofList _, splice_eq_ok_iff.2 ⟨i, cut, record, hfirst, String.toList_ofList⟩⟩

theorem splice_eq_error {text : String} {target : Record} {error : BlockNotFound}
    (h : splice text target = .error error) : error = target.notFound := by
  rw [splice, spliceChars, locate] at h
  cases hlocate : (Cut.scan text.toList).findSome? (Cut.locate? target) with
  | none =>
    simp only [hlocate, Except.map, Except.error.injEq] at h
    exact h.symm
  | some located =>
    simp only [hlocate] at h
    split at h <;> simp [Except.map] at h

/-- A splice puts the target's entries into the first block that belongs to it. -/
theorem exists_readings_of_splice {text out : String} {target : Record}
    (h : splice text target = .ok out)
    (hentries : ∀ entry ∈ target.entries.toList, entry.Writable) :
    ∃ i record, (readings text).findIdx? target.owns = some i ∧
      (readings text)[i]? = some (.ok record) ∧
      readings out = (readings text).set i (.ok { record with entries := target.entries }) := by
  obtain ⟨i, old, new, record, hfirst, hnew, hreplaced⟩ := exists_replaced h hentries
  refine ⟨i, record, exists_firstBlock_iff_readings.1 ⟨old, record, hfirst⟩, ?_, ?_⟩
  · rw [readings_eq, List.getElem?_map, hfirst.at_place, Option.map_some, hfirst.parsed_eq]
  · rw [readings_eq, readings_eq, hreplaced.others, hnew.parsed_eq]

/-! ## Texts that come of splices -/

/-- The text is read like the initial one, apart from entries of the targets in their blocks. -/
structure Descends {ι : Type} (targets : ι → Record) (initial text : String) : Prop where
  /-- The blocks are the same, apart from their entries. -/
  outlines : (readings text).map outline = (readings initial).map outline
  /-- The entries of a block are those that it had, or those of a target that it belongs to. -/
  entries : ∀ (i : Nat) record, (readings text)[i]? = some (.ok record) →
    (readings initial)[i]? = some (.ok record) ∨
      ∃ k, (readings initial).findIdx? (targets k).owns = some i ∧
        record.entries = (targets k).entries

/-- The block of the target holds the target's entries. -/
def Shows (text : String) (target : Record) : Prop :=
  ∃ i record, (readings text).findIdx? target.owns = some i ∧
    (readings text)[i]? = some (.ok record) ∧ record.entries = target.entries

variable {ι : Type} {targets : ι → Record} {initial text out : String}

theorem descends_self (targets : ι → Record) (initial : String) : Descends targets initial initial :=
  ⟨rfl, fun _ _ h => .inl h⟩

theorem Descends.exists_splice_iff (h : Descends targets initial text) (target : Record) :
    (∃ out, splice text target = .ok out) ↔
      ∃ parsed ∈ readings initial, target.owns parsed = true := by
  have hplaces := congrArg Option.isSome (findIdx?_owns_congr h.outlines target)
  rw [List.findIdx?_isSome, List.findIdx?_isSome, Bool.eq_iff_iff, List.any_eq_true,
    List.any_eq_true] at hplaces
  rw [RollCall.exists_splice_iff, hplaces]

/-- Splicing a target in leads to a text of the same kind, in which its block holds its entries. -/
theorem Descends.of_splice (h : Descends targets initial text) {k : ι}
    (hsplice : splice text (targets k) = .ok out)
    (hentries : ∀ entry ∈ (targets k).entries.toList, entry.Writable) :
    Descends targets initial out ∧ Shows out (targets k) := by
  obtain ⟨i, record, hi, hrecord, hout⟩ := exists_readings_of_splice hsplice hentries
  obtain ⟨hlt, -⟩ := List.getElem?_eq_some_iff.1 hrecord
  -- the text that is written to may have other entries than the initial one, but the same heads
  have houtlines : (readings out).map outline = (readings text).map outline := by
    rw [hout, map_outline_set hrecord]
  have hplace := findIdx?_owns_congr h.outlines (targets k)
  refine ⟨⟨houtlines.trans h.outlines, fun j found hfound => ?_⟩,
    i, { record with entries := (targets k).entries }, ?_, ?_, rfl⟩
  · rw [hout, List.getElem?_set] at hfound
    by_cases hij : i = j
    · subst hij
      rw [if_pos rfl, if_pos hlt] at hfound
      have hentries : found.entries = (targets k).entries := by
        rw [← Except.ok.inj (Option.some.inj hfound)]
      exact .inr ⟨k, hplace.symm.trans hi, hentries⟩
    · rw [if_neg hij] at hfound
      exact h.entries j found hfound
  · rw [findIdx?_owns_congr houtlines, hi]
  · rw [hout, List.getElem?_set_self hlt]

end RollCall
