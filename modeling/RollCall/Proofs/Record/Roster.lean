import RollCall.Proofs.Record.Entries
import RollCall.Record.Basic

/-!
# Rosters over time

A roster looks links up in its set and entries in its list. Whatever has been recorded in it, the two
agree (`Roster.keeps_after`), so that it answers as its list alone would: no entry that is recorded is
dropped, and no attendee is listed twice, with the documents of a query or without them.
-/

namespace RollCall

/-! ## One entry -/

/-- What recording an entry does to a list: it takes the place of the one with its link, or comes
last. -/
inductive Entry.Enters (entry : Entry) : List Entry → List Entry → Prop
  | inPlace (before : List Entry) (old : Entry) (after : List Entry) (h : old.link = entry.link) :
    entry.Enters (before ++ old :: after) (before ++ entry :: after)
  | last (entries : List Entry) (h : entry.link ∉ entries.map link) :
    entry.Enters entries (entries ++ [entry])

theorem Entry.enters_put (entry : Entry) (entries : List Entry) :
    entry.Enters entries (put entry entries) := by
  induction entries with
  | nil => exact .last [] List.not_mem_nil
  | cons first entries ih =>
    rw [put]
    split
    · next hfirst => exact .inPlace [] first entries hfirst
    · next hfirst =>
      generalize put entry entries = later at ih
      cases ih with
      | inPlace before old after hold => exact .inPlace (first :: before) old after hold
      | last _ hnew =>
        refine .last (first :: entries) fun hmem => ?_
        rcases List.mem_cons.1 hmem with hlink | hmem
        · exact hfirst hlink.symm
        · exact hnew hmem

/-! ## Documents without an entry -/

/-- The entries, then a blank one for each of some documents that has none, in ascending order. -/
structure Entry.Completes (entries : List Entry) (resolved : NameSet) (all : List Entry) : Prop where
  /-- The blank entries come last and in order. -/
  exists_blanks : ∃ blanks : List String, all = entries ++ blanks.map blank ∧
    blanks.Pairwise (· < ·) ∧ ∀ path, path ∈ blanks ↔ path ∈ resolved ∧ path ∉ entries.map link
  /-- Whoever has an entry or is one of the documents is listed once, and nobody else is. -/
  count_eq : ∀ path, (all.map link).count path =
    if path ∈ resolved ∨ path ∈ entries.map link then 1 else 0

theorem Entry.completes_blanks {entries : List Entry} (hdistinct : (entries.map link).Nodup)
    {resolved blanks : NameSet}
    (hblanks : ∀ path, path ∈ blanks ↔ path ∈ resolved ∧ path ∉ entries.map link) :
    Completes entries resolved (entries ++ blanks.toList.map blank) where
  exists_blanks := ⟨blanks.toList, rfl, blanks.ascending, hblanks⟩
  count_eq path := by
    have hlinks : (entries ++ blanks.toList.map blank).map link =
        entries.map link ++ blanks.toList := by
      rw [List.map_append, List.map_map]
      exact congrArg _ (List.map_id blanks.toList)
    have hnodup : (entries.map link ++ blanks.toList).Nodup := by
      refine List.nodup_append.2 ⟨hdistinct, ?_, fun a ha b hb hab => ?_⟩
      · refine blanks.ascending.imp ?_
        rintro a _ hlt rfl
        exact String.lt_irrefl a hlt
      · exact ((hblanks b).1 hb).2 (hab ▸ ha)
    have hmem : path ∈ entries.map link ++ blanks.toList ↔
        path ∈ resolved ∨ path ∈ entries.map link := by
      rw [List.mem_append, ← NameSet.mem_def, hblanks]
      tauto
    rw [hlinks, hnodup.count, if_congr hmem rfl rfl]

namespace Roster

/-! ## What a roster answers -/

section Answers

variable {roster : Roster} {entries : Entries}

/-- Asking the set before the list makes no difference. -/
theorem Sound.find?_eq (h : roster.Sound) (link : String) :
    roster.find? link = roster.toList.find? (·.link = link) := by
  unfold find?
  split
  · rfl
  · next hlink =>
    rw [h.mem_links] at hlink
    refine (List.find?_eq_none.2 fun entry hentry => ?_).symm
    have hne : entry.link ≠ link := fun heq => hlink (heq ▸ List.mem_map_of_mem hentry)
    simpa using hne

theorem Sound.completes_effective (h : roster.Sound) (resolved : NameSet) :
    Entry.Completes roster.toList resolved (roster.effective resolved) := by
  refine Entry.completes_blanks h.distinct fun path => ?_
  rw [NameSet.mem_filter, ← h.mem_links, contains]
  simp

theorem Keeps.find?_eq (h : roster.Keeps entries) (link : String) :
    entries.find? link = roster.find? link := by
  rw [h.sound.find?_eq, h.toList_eq]
  rfl

theorem Keeps.contains_eq (h : roster.Keeps entries) (link : String) :
    entries.contains link = roster.contains link := by
  rw [Bool.eq_iff_iff, contains, decide_eq_true_iff, h.sound.mem_links, h.toList_eq,
    Entries.contains, List.any_eq_true, List.mem_map]
  simp

theorem Keeps.effective_eq {record : Record} (h : roster.Keeps record.entries)
    (resolved : NameSet) : record.effectiveEntries resolved = roster.effective resolved := by
  unfold Record.effectiveEntries effective
  simp only [h.contains_eq, h.toList_eq]

end Answers

end Roster

/-! ## Many changes -/

/-- What happens to the entries of a record. -/
inductive EntryChange where
  /-- They are made anew from a list. -/
  | ofList (entries : List Entry)
  /-- A state is recorded. -/
  | set (link state note : String)

/-- The roster after a change. -/
def Roster.change (roster : Roster) : EntryChange → Roster
  | .ofList entries => .ofList entries
  | .set link state note => roster.set ⟨link, state, note⟩

/-- The roster after many changes. -/
def Roster.after (changes : List EntryChange) : Roster :=
  changes.foldl change empty

/-- The entries after a change. -/
def Entries.change (entries : Entries) : EntryChange → Entries
  | .ofList entries => .ofList entries
  | .set link state note => entries.set ⟨link, state, note⟩

/-- The entries after many changes. -/
def Entries.after (changes : List EntryChange) : Entries :=
  changes.foldl change ∅

namespace Roster

theorem Keeps.change {roster : Roster} {entries : Entries} (h : roster.Keeps entries)
    (change : EntryChange) : (roster.change change).Keeps (entries.change change) := by
  cases change with
  | ofList list =>
    have hlist := keeps_empty.foldl_set list
    rw [← Entries.ofList_eq_foldl] at hlist
    exact hlist
  | set link state note => exact h.set ⟨link, state, note⟩

theorem Keeps.foldl_change {roster : Roster} {entries : Entries} (h : roster.Keeps entries)
    (changes : List EntryChange) :
    (changes.foldl Roster.change roster).Keeps (changes.foldl Entries.change entries) := by
  induction changes generalizing roster entries with
  | nil => exact h
  | cons change changes ih => exact ih (h.change change)

/-- However a roster came about, list and set agree, and the list is the one that is kept without
the set. -/
theorem keeps_after (changes : List EntryChange) : (after changes).Keeps (.after changes) :=
  keeps_empty.foldl_change changes

end Roster

end RollCall
