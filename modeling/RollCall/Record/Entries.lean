import RollCall.Names.Set

/-!
# Attendance entries

Who attended and how. The entries of a record keep the order in which they were first made, and there
is at most one for each attendee.

Many entries are recorded in a roster, which keeps the set of the attendees with an entry beside the
list and looks them up in the set. Nothing in a roster itself ties the two together; the operations do
(`Roster.Sound`).

A roster is what the program calls `Attendances`, an entry an `AttendanceEntry` (`Entry.blank` is
`implicit`); `Roster.set` is `upsert`, `Roster.effective` is `effective_entries`. `Entries` is the
list alone, with what holds of it.
-/

namespace RollCall

/-- The state of one attendee. State and note are empty when nothing has been recorded. -/
structure Entry where
  /-- The path of the attendee's document. -/
  link : String
  /-- The recorded state. -/
  state : String
  /-- A free note. -/
  note : String
deriving DecidableEq, Repr

namespace Entry

/-- The entry of an attendee without a recorded state. -/
def blank (link : String) : Entry := ⟨link, "", ""⟩

/-- Puts an entry in place of the one with the same link, or behind all others. -/
def put (entry : Entry) : List Entry → List Entry
  | [] => [entry]
  | other :: entries =>
    if other.link = entry.link then entry :: entries else other :: put entry entries

theorem map_link_put (entry : Entry) (entries : List Entry) :
    (put entry entries).map link =
      if entry.link ∈ entries.map link then entries.map link
      else entries.map link ++ [entry.link] := by
  induction entries with
  | nil => simp [put]
  | cons other entries ih =>
    by_cases h : other.link = entry.link
    · simp [put, h]
    · simp only [put, if_neg h, List.map_cons, ih, List.mem_cons]
      by_cases hm : entry.link ∈ entries.map link
      · simp [hm]
      · simp [hm, Ne.symm h]

/-- Puts an entry in place of the first one with the same link, if there is one. -/
def replaceIn (entry : Entry) : List Entry → List Entry
  | [] => []
  | other :: entries =>
    if other.link = entry.link then entry :: entries else other :: replaceIn entry entries

theorem map_link_replaceIn (entry : Entry) (entries : List Entry) :
    (replaceIn entry entries).map link = entries.map link := by
  induction entries with
  | nil => rfl
  | cons other entries ih =>
    rw [replaceIn]
    split
    · next h => rw [List.map_cons, List.map_cons, h]
    · rw [List.map_cons, List.map_cons, ih]

end Entry

/-- Entries in order, and the attendees who have one. -/
structure Roster where
  /-- The entries in the order in which their links were first entered. -/
  toList : List Entry
  /-- The links that are entered. -/
  links : NameSet
deriving DecidableEq

namespace Roster

/-- No entries. -/
def empty : Roster := ⟨[], ∅⟩

/-- Records an entry. An earlier entry with the same link gives way to it and leaves it its place. -/
def set (roster : Roster) (entry : Entry) : Roster :=
  if entry.link ∈ roster.links then { roster with toList := entry.replaceIn roster.toList }
  else ⟨roster.toList ++ [entry], roster.links.insert entry.link⟩

/-- Entries recorded one after the other. -/
def ofList (entries : List Entry) : Roster :=
  entries.foldl set empty

/-- The entry of an attendee. -/
def find? (roster : Roster) (link : String) : Option Entry :=
  if link ∈ roster.links then roster.toList.find? (·.link = link) else none

/-- Whether an attendee has an entry. -/
def contains (roster : Roster) (link : String) : Bool :=
  link ∈ roster.links

/-- The recorded entries, then a blank entry for each resolved document without one, in ascending
order. -/
def effective (roster : Roster) (resolved : NameSet) : List Entry :=
  roster.toList ++ ((resolved.filter fun path => !roster.contains path).toList.map Entry.blank)

/-- List and set agree, and no attendee has two entries. -/
structure Sound (roster : Roster) : Prop where
  /-- No two entries have the same link. -/
  distinct : (roster.toList.map Entry.link).Nodup
  /-- The set holds the links of the entries. -/
  mem_links : ∀ link, link ∈ roster.links ↔ link ∈ roster.toList.map Entry.link

theorem sound_empty : empty.Sound := ⟨.nil, fun link => by simp [empty]⟩

theorem Sound.set {roster : Roster} (h : roster.Sound) (entry : Entry) : (roster.set entry).Sound := by
  unfold Roster.set
  split
  · refine ⟨?_, fun link => ?_⟩
    · rw [Entry.map_link_replaceIn]
      exact h.distinct
    · rw [Entry.map_link_replaceIn]
      exact h.mem_links link
  · next hlink =>
    rw [h.mem_links] at hlink
    refine ⟨?_, fun link => ?_⟩
    · rw [List.map_append, List.nodup_append]
      refine ⟨h.distinct, by simp, fun a ha b hb => ?_⟩
      rw [List.mem_singleton.1 hb]
      rintro rfl
      exact hlink ha
    · rw [NameSet.mem_insert, h.mem_links, List.map_append, List.mem_append, or_comm]
      simp

theorem Sound.foldl_set {roster : Roster} (h : roster.Sound) (entries : List Entry) :
    (entries.foldl Roster.set roster).Sound := by
  induction entries generalizing roster with
  | nil => exact h
  | cons entry entries ih => exact ih (h.set entry)

theorem sound_ofList (entries : List Entry) : (ofList entries).Sound :=
  sound_empty.foldl_set entries

end Roster

/-- Entries in order, at most one for each link. -/
structure Entries where
  /-- The entries in the order in which their links were first entered. -/
  toList : List Entry
  /-- No two entries have the same link. -/
  distinct : (toList.map Entry.link).Nodup
deriving DecidableEq

namespace Entries

/-- No entries. -/
def empty : Entries := ⟨[], .nil⟩

instance : EmptyCollection Entries := ⟨empty⟩

instance : Inhabited Entries := ⟨empty⟩

/-- Records an entry. An earlier entry with the same link gives way to it and leaves it its place. -/
def set (entries : Entries) (entry : Entry) : Entries :=
  ⟨Entry.put entry entries.toList, by
    rw [Entry.map_link_put]
    split
    · exact entries.distinct
    · next h =>
      refine List.nodup_append.2 ⟨entries.distinct, by simp, ?_⟩
      intro a ha b hb
      rw [List.mem_singleton.1 hb]
      rintro rfl
      exact h ha⟩

/-- Entries recorded one after the other. -/
def ofList (entries : List Entry) : Entries :=
  ⟨(Roster.ofList entries).toList, (Roster.sound_ofList entries).distinct⟩

/-- The entry of an attendee. -/
def find? (entries : Entries) (link : String) : Option Entry :=
  entries.toList.find? (·.link = link)

/-- Whether an attendee has an entry. -/
def contains (entries : Entries) (link : String) : Bool :=
  entries.toList.any (·.link = link)

/-- Number of entries. -/
def size (entries : Entries) : Nat := entries.toList.length

/-- Whether there is no entry. -/
def isEmpty (entries : Entries) : Bool := entries.toList.isEmpty

end Entries

end RollCall
