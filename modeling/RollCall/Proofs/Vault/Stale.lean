import RollCall.Proofs.Block.Readings
import RollCall.Proofs.Command.RecordState
import RollCall.Proofs.Vault.Ledger
import RollCall.Vault.Memory

/-!
# Recording a state with an older record

The document is read anew when a state is recorded, but its block is filled with the entries of the
record that the state was added to. So the other attendees keep the entries that the document has
for them exactly if that record has the same ones (`Ledger.setState_others`). A record that was read
before someone else's state was recorded takes that state away again (`Ledger.setState_drops`).
-/

namespace RollCall

/-- All attendees but one have the same entries in both records. -/
def Record.AgreesBut (link : String) (record other : Record) : Prop :=
  ∀ attendee, attendee ≠ link → record.entries.find? attendee = other.entries.find? attendee

theorem Record.AgreesBut.trans {link : String} {a b c : Record} (hab : a.AgreesBut link b)
    (hbc : b.AgreesBut link c) : a.AgreesBut link c :=
  fun attendee hne => (hab attendee hne).trans (hbc attendee hne)

theorem Record.AgreesBut.symm {link : String} {a b : Record} (h : a.AgreesBut link b) :
    b.AgreesBut link a :=
  fun attendee hne => (h attendee hne).symm

theorem Record.agreesBut_withState (record : Record) (link state note : String) :
    (record.withState link state note).AgreesBut link record :=
  fun _ hne => record.entries.find?_set_of_ne hne

/-- The entries for the other attendees can be written if they stand in a block already. -/
theorem Record.AgreesBut.writable {text link : String} {i : Nat} {target held : Record}
    (h : target.AgreesBut link held) (hheld : (readings text)[i]? = some (.ok held)) :
    ∀ entry ∈ target.entries.toList, entry.link ≠ link → entry.Writable := by
  intro entry hentry hne
  have hfound : held.entries.find? entry.link = some entry := by
    rw [← h entry.link hne, Entries.find?_of_mem hentry]
  rw [readings, List.getElem?_map] at hheld
  exact writable_of_parsed_getElem? hheld entry (Entries.mem_of_find?_eq_some hfound)

/-- With a state that can be written, a record can be written if its other entries can. -/
theorem Record.writable_withState {target : Record} {link state note : String}
    (hentry : Entry.Writable ⟨link, state, note⟩)
    (h : ∀ entry ∈ target.entries.toList, entry.link ≠ link → entry.Writable) :
    ∀ entry ∈ (target.withState link state note).entries.toList, entry.Writable := by
  intro entry hmem
  by_cases hlink : entry.link = link
  · have hfound := Entries.find?_of_mem hmem
    rw [hlink, withState, Entries.find?_set target.entries ⟨link, state, note⟩] at hfound
    rw [← Option.some.inj hfound]
    exact hentry
  · rcases Entry.mem_of_mem_put hmem with rfl | hmem
    · exact hentry
    · exact h entry hmem hlink

theorem Record.owns_withState (record : Record) (link state note : String) :
    (record.withState link state note).owns = record.owns :=
  owns_congr (sameHead_iff.2 ⟨rfl, rfl, rfl⟩)

/-- What the block of a target holds once a state has been spliced in. -/
theorem exists_agreesBut_of_splice {before after link state note : String} {target : Record}
    (hsplice : splice before (target.withState link state note) = .ok after)
    (hentries : ∀ entry ∈ (target.withState link state note).entries.toList, entry.Writable) :
    ∃ i new, (readings before).findIdx? target.owns = some i ∧
      (readings after).findIdx? target.owns = some i ∧
      readings after = (readings before).set i (.ok new) ∧
      new.entries.find? link = some ⟨link, state, note⟩ ∧ new.AgreesBut link target := by
  obtain ⟨i, held, hplace, hheld, hafter⟩ := exists_readings_of_splice hsplice hentries
  rw [target.owns_withState] at hplace
  have houtlines : (readings after).map outline = (readings before).map outline := by
    rw [hafter, map_outline_set hheld]
  refine ⟨i, _, hplace, ?_, hafter, target.entries.find?_set ⟨link, state, note⟩,
    target.agreesBut_withState link state note⟩
  rw [findIdx?_owns_congr houtlines, hplace]

namespace Ledger

/-- A state is recorded in the block that the target's head leads to. If the target has the entries
that this block holds for the other attendees, or its own ones for them can be written, then the
block holds the state afterwards, and for the others what the target has. So the others keep what
the document has for them exactly if the target has the same. -/
theorem setState_others {σ : Type} [Storage σ] [Storage.Lawful σ] {vault written : σ}
    {path link state note : String} {target record : Record}
    (hentry : Entry.Writable ⟨link, state, note⟩)
    (h : setState vault path target link state note = (.ok record, written)) :
    ∃ before after i held, Storage.read vault path = .ok before ∧
      Storage.read written path = .ok after ∧ (readings before).findIdx? target.owns = some i ∧
      (readings before)[i]? = some (.ok held) ∧
      (target.AgreesBut link held ∨
          (∀ entry ∈ target.entries.toList, entry.link ≠ link → entry.Writable) →
        ∃ new, (readings after).findIdx? target.owns = some i ∧
          readings after = (readings before).set i (.ok new) ∧
          new.entries.find? link = some ⟨link, state, note⟩ ∧ new.AgreesBut link target ∧
          (new.AgreesBut link held ↔ target.AgreesBut link held)) := by
  obtain ⟨rfl, hwrite⟩ := setState_eq_ok h
  obtain ⟨before, after, hbefore, hsplice, -, hafter⟩ := write_eq_ok hwrite
  obtain ⟨i, cut, held, hfirst, -⟩ := splice_eq_ok_iff.1 hsplice
  have hplace : (readings before).findIdx? target.owns = some i := by
    rw [← target.owns_withState link state note]
    exact exists_firstBlock_iff_readings.1 ⟨cut, held, hfirst⟩
  have hheld : (readings before)[i]? = some (.ok held) := by
    rw [readings_eq, List.getElem?_map, hfirst.at_place, Option.map_some, hfirst.parsed_eq]
  refine ⟨before, after, i, held, hbefore, hafter, hplace, hheld, fun hothers => ?_⟩
  have hwritable := hothers.elim (fun hagrees => hagrees.writable hheld) id
  obtain ⟨j, new, hj, hplaceAfter, hreadings, hfound, hnew⟩ :=
    exists_agreesBut_of_splice hsplice (Record.writable_withState hentry hwritable)
  obtain rfl : i = j := Option.some.inj (hplace.symm.trans hj)
  exact ⟨new, hplaceAfter, hreadings, hfound, hnew, hnew.symm.trans, hnew.trans⟩

/-- In the record only the state that is recorded anew is out of date. -/
theorem setState_others_choir :
    let text := "```attendance\ndate: 2024-1-5\ntitle: Choir\nquery: #alto\n" ++
      "- [[Ann]], \"late\"\n- [[Bob]], \"away\", \"ill\"\n```"
    let vault := (∅ : MemoryVault).insertDocument "d.md" text
    let target : Record := ⟨⟨2024, 1, 5, by decide, by decide, by decide⟩, "Choir", .tag "alto",
      "#alto", ⟨[⟨"Ann", "", ""⟩, ⟨"Bob", "away", "ill"⟩], by decide⟩⟩
    ∃ record written after new, Entry.Writable ⟨"Ann", "here", ""⟩ ∧
      setState vault "d.md" target "Ann" "here" "" = (.ok record, written) ∧
      Storage.read written "d.md" = .ok after ∧ readings after = [.ok new] ∧
      new.entries.find? "Ann" = some ⟨"Ann", "here", ""⟩ ∧
      new.entries.find? "Bob" = some ⟨"Bob", "away", "ill"⟩ := by
  intro text vault target
  have hentry : Entry.Writable ⟨"Ann", "here", ""⟩ := by decide +kernel
  have hothers : ∀ entry ∈ target.entries.toList, entry.link ≠ "Ann" → entry.Writable := by
    decide +kernel
  obtain ⟨hok, htext, hcount⟩ : (setState vault "d.md" target "Ann" "here" "").1 =
        .ok (target.withState "Ann" "here" "") ∧
      Storage.read vault "d.md" = .ok text ∧ (readings text).length = 1 := by
    decide +kernel
  have h : setState vault "d.md" target "Ann" "here" "" =
      (.ok (target.withState "Ann" "here" ""), (setState vault "d.md" target "Ann" "here" "").2) :=
    Prod.ext hok rfl
  obtain ⟨before, after, i, held, hbefore, hafter, -, hheld, hblock⟩ := setState_others hentry h
  obtain ⟨new, -, hreadings, hann, hbob, -⟩ := hblock (.inr hothers)
  obtain rfl : text = before := Except.ok.inj (htext.symm.trans hbefore)
  refine ⟨_, _, after, new, hentry, h, hafter, ?_, hann, hbob "Bob" (by decide)⟩
  obtain ⟨first, hfirst⟩ := List.length_eq_one_iff.1 hcount
  obtain rfl : i = 0 := by
    have := (List.getElem?_eq_some_iff.1 hheld).1
    omega
  rw [hreadings, hfirst, List.set_cons_zero]

/-- Two states are recorded with one record, as it was read in the beginning. The second write
takes the state of the first one away. -/
theorem setState_drops :
    let choir := "\n```attendance\ndate: 2024-01-05\ntitle: Choir\nquery: #alto\n"
    let vault := (∅ : MemoryVault).insertDocument "d.md" (choir ++ "```\n")
    let old : Record := ⟨⟨2024, 1, 5, by decide, by decide, by decide⟩, "Choir", .tag "alto",
      "#alto", ∅⟩
    let ann : Entry := ⟨"Ann", "here", ""⟩
    let bob : Entry := ⟨"Bob", "away", ""⟩
    ∃ once twice before after, readings (choir ++ "```\n") = [.ok old] ∧
      ann.Writable ∧ bob.Writable ∧
      setState vault "d.md" old ann.link ann.state ann.note =
        (.ok { old with entries := .ofList [ann] }, once) ∧
      setState once "d.md" old bob.link bob.state bob.note =
        (.ok { old with entries := .ofList [bob] }, twice) ∧
      Storage.read once "d.md" = .ok before ∧ Storage.read twice "d.md" = .ok after ∧
      readings before = [.ok { old with entries := .ofList [ann] }] ∧
      readings after = [.ok { old with entries := .ofList [bob] }] := by
  intro choir vault old ann bob
  let once := (setState vault "d.md" old ann.link ann.state ann.note).2
  let twice := (setState once "d.md" old bob.link bob.state bob.note).2
  let before := choir ++ "- [[Ann]], \"here\", \"\"\n```\n"
  let after := choir ++ "- [[Bob]], \"away\", \"\"\n```\n"
  obtain ⟨hold, hann, hbob⟩ : readings (choir ++ "```\n") = [.ok old] ∧
      ann.Writable ∧ bob.Writable := by
    decide +kernel
  have honce : (setState vault "d.md" old ann.link ann.state ann.note).1 =
        .ok { old with entries := .ofList [ann] } ∧ Storage.read once "d.md" = .ok before := by
    decide +kernel
  have htwice : (setState once "d.md" old bob.link bob.state bob.note).1 =
        .ok { old with entries := .ofList [bob] } ∧ Storage.read twice "d.md" = .ok after := by
    decide +kernel
  have hreadings : readings before = [.ok { old with entries := .ofList [ann] }] ∧
      readings after = [.ok { old with entries := .ofList [bob] }] := by
    decide +kernel
  exact ⟨once, twice, before, after, hold, hann, hbob, Prod.ext honce.1 rfl, Prod.ext htwice.1 rfl,
    honce.2, htwice.2, hreadings.1, hreadings.2⟩

end Ledger

end RollCall
