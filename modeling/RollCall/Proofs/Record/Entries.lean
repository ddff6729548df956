import RollCall.Record.Entries
import Mathlib.Tactic.Common

/-!
# Entries in order

What is among the entries that are recorded one after the other, and that entries without a repeated
link keep their order.
-/

namespace RollCall

theorem Entry.mem_of_mem_put {entry other : Entry} {entries : List Entry}
    (h : other ∈ Entry.put entry entries) : other = entry ∨ other ∈ entries := by
  induction entries with
  | nil => exact .inl (by simpa [Entry.put] using h)
  | cons first entries ih =>
    rw [Entry.put] at h
    split at h
    · rcases List.mem_cons.1 h with rfl | h
      · exact .inl rfl
      · exact .inr (List.mem_cons_of_mem _ h)
    · rcases List.mem_cons.1 h with rfl | h
      · exact .inr List.mem_cons_self
      · exact (ih h).imp_right (List.mem_cons_of_mem _)

theorem Entry.put_of_not_mem {entry : Entry} {entries : List Entry}
    (h : entry.link ∉ entries.map Entry.link) : Entry.put entry entries = entries ++ [entry] := by
  induction entries with
  | nil => rfl
  | cons first entries ih =>
    have hne : first.link ≠ entry.link := fun e => h (by simp [e])
    rw [Entry.put, if_neg hne, ih fun hm => h (by simp [hm])]
    rfl

theorem Entry.put_of_mem {entry : Entry} {entries : List Entry}
    (h : entry.link ∈ entries.map Entry.link) :
    Entry.put entry entries = Entry.replaceIn entry entries := by
  induction entries with
  | nil => exact absurd h List.not_mem_nil
  | cons first entries ih =>
    rw [Entry.put, Entry.replaceIn]
    split
    · rfl
    · next hne => rw [ih ((List.mem_cons.1 h).resolve_left fun e => hne e.symm)]

theorem Entry.find?_put (entry : Entry) (entries : List Entry) :
    (Entry.put entry entries).find? (·.link = entry.link) = some entry := by
  induction entries with
  | nil => simp [Entry.put]
  | cons first entries ih =>
    rw [Entry.put]
    split
    · simp
    · next hne => rw [List.find?_cons_of_neg (by simpa using hne), ih]

theorem Entry.filter_put (entry : Entry) (entries : List Entry) :
    (Entry.put entry entries).filter (·.link ≠ entry.link) =
      entries.filter (·.link ≠ entry.link) := by
  induction entries with
  | nil => simp [Entry.put]
  | cons first entries ih =>
    rw [Entry.put]
    split
    · next heq => simp [heq]
    · next hne => rw [List.filter_cons, List.filter_cons, ih]

/-- Recording in a roster leaves the list that recording in the list alone does. -/
theorem Roster.Sound.toList_set {roster : Roster} (h : roster.Sound) (entry : Entry) :
    (roster.set entry).toList = Entry.put entry roster.toList := by
  unfold Roster.set
  split
  · next hlink => exact (Entry.put_of_mem ((h.mem_links _).1 hlink)).symm
  · next hlink =>
    rw [h.mem_links] at hlink
    exact (Entry.put_of_not_mem hlink).symm

/-- A roster keeps the entries of a record. -/
structure Roster.Keeps (roster : Roster) (entries : Entries) : Prop where
  sound : roster.Sound
  toList_eq : roster.toList = entries.toList

namespace Roster.Keeps

variable {roster : Roster} {entries : Entries}

theorem set (h : roster.Keeps entries) (entry : Entry) :
    (roster.set entry).Keeps (entries.set entry) where
  sound := h.sound.set entry
  toList_eq := by
    rw [h.sound.toList_set, h.toList_eq]
    rfl

theorem foldl_set (h : roster.Keeps entries) (rest : List Entry) :
    (rest.foldl Roster.set roster).Keeps (rest.foldl Entries.set entries) := by
  induction rest generalizing roster entries with
  | nil => exact h
  | cons first rest ih => exact ih (h.set first)

end Roster.Keeps

theorem Roster.keeps_empty : empty.Keeps ∅ := ⟨sound_empty, rfl⟩

namespace Entries

theorem ext {a b : Entries} (h : a.toList = b.toList) : a = b := by
  cases a
  cases b
  cases h
  rfl

/-- Recording many entries in a roster is recording them one after the other. -/
theorem ofList_eq_foldl (entries : List Entry) : ofList entries = entries.foldl set ∅ :=
  ext (Roster.keeps_empty.foldl_set entries).toList_eq

/-- An entry that was recorded is found. -/
theorem find?_set (entries : Entries) (entry : Entry) :
    (entries.set entry).find? entry.link = some entry :=
  Entry.find?_put entry entries.toList

/-- The other entries stay as they are, in their order. -/
theorem filter_set (entries : Entries) (entry : Entry) :
    (entries.set entry).toList.filter (·.link ≠ entry.link) =
      entries.toList.filter (·.link ≠ entry.link) :=
  Entry.filter_put entry entries.toList

theorem mem_of_find?_eq_some {entries : Entries} {link : String} {entry : Entry}
    (h : entries.find? link = some entry) : entry ∈ entries.toList :=
  List.mem_of_find?_eq_some h

/-- The entry of another attendee stays as it is. -/
theorem find?_set_of_ne (entries : Entries) {entry : Entry} {link : String}
    (h : link ≠ entry.link) : (entries.set entry).find? link = entries.find? link := by
  -- entries that are not looked for do not matter
  have hothers : ∀ list : List Entry,
      (list.filter (·.link ≠ entry.link)).find? (·.link = link) = list.find? (·.link = link) := by
    intro list
    rw [List.find?_filter]
    congr 1
    funext other
    by_cases hlink : other.link = link
    · simp [hlink, h]
    · simp [hlink]
  rw [find?, find?, ← hothers, filter_set, hothers]

theorem find?_of_mem {entries : Entries} {entry : Entry} (h : entry ∈ entries.toList) :
    entries.find? entry.link = some entry := by
  have hlist : ∀ list : List Entry, (list.map Entry.link).Nodup → entry ∈ list →
      list.find? (·.link = entry.link) = some entry := by
    intro list
    induction list with
    | nil => exact fun _ hmem => absurd hmem List.not_mem_nil
    | cons first list ih =>
      intro hnodup hmem
      rw [List.map_cons, List.nodup_cons] at hnodup
      rcases List.mem_cons.1 hmem with rfl | hmem
      · simp
      · have hne : first.link ≠ entry.link := fun e => hnodup.1 (e ▸ List.mem_map_of_mem hmem)
        rw [List.find?_cons_of_neg (by simpa using hne), ih hnodup.2 hmem]
  exact hlist entries.toList entries.distinct h

theorem mem_of_mem_ofList {entries : List Entry} {entry : Entry}
    (h : entry ∈ (ofList entries).toList) : entry ∈ entries := by
  have hfold : ∀ (rest : List Entry) (start : Entries), entry ∈ (rest.foldl set start).toList →
      entry ∈ start.toList ∨ entry ∈ rest := by
    intro rest
    induction rest with
    | nil => exact fun start hs => .inl hs
    | cons first rest ih =>
      intro start hs
      rcases ih (start.set first) hs with hstart | hrest
      · rcases Entry.mem_of_mem_put hstart with rfl | hstart
        · exact .inr List.mem_cons_self
        · exact .inl hstart
      · exact .inr (List.mem_cons_of_mem _ hrest)
  rw [ofList_eq_foldl] at h
  rcases hfold entries ∅ h with hnone | hmem
  · exact absurd hnone List.not_mem_nil
  · exact hmem

/-- Entries without a repeated link stay as they are. -/
theorem ofList_toList (entries : Entries) : ofList entries.toList = entries := by
  have hfold : ∀ (rest : List Entry) (start : Entries),
      ((start.toList ++ rest).map Entry.link).Nodup →
        (rest.foldl set start).toList = start.toList ++ rest := by
    intro rest
    induction rest with
    | nil => simp
    | cons first rest ih =>
      intro start hnodup
      have hnew : first.link ∉ start.toList.map Entry.link := by
        intro hmem
        simp only [List.map_append, List.map_cons] at hnodup
        exact (List.nodup_append.1 hnodup).2.2 _ hmem _ List.mem_cons_self rfl
      have hset : (start.set first).toList = start.toList ++ [first] := Entry.put_of_not_mem hnew
      rw [List.foldl_cons, ih _ (by rw [hset]; simpa using hnodup), hset]
      simp
  rw [ofList_eq_foldl]
  exact ext (hfold entries.toList ∅ entries.distinct)

end Entries

end RollCall
