import RollCall.Proofs.Block.Readings
import RollCall.Proofs.Vault.Ledger
import Mathlib.Logic.Function.Basic

/-!
# Racing writers

Several calls record states in one document, and nothing is locked: a call reads the document, and
at some later time it writes back the text that it read with its own entries in it. Other calls may
read and write in between. What they wrote is lost then, but the document stays in order: no block
of it is added, dropped or damaged, and the block of the last writer holds what that one wrote
(`Race.run_keeps_blocks`).
-/

namespace RollCall

/-- A call that records the state of an attendee in a record that the caller has in hand. -/
structure RecordCall where
  target : Record
  link : String
  state : String
  note : String

/-- The record that the call writes. -/
def RecordCall.record (call : RecordCall) : Record :=
  call.target.withState call.link call.state call.note

/-- What the call does when no other one comes in between. -/
def RecordCall.perform {σ : Type} [Storage σ] (call : RecordCall) (vault : σ) (path : String) :
    Except LedgerError Record × σ :=
  Ledger.setState vault path call.target call.link call.state call.note

/-- How far a call has come. -/
inductive CallProgress where
  /-- It has not read the document. -/
  | waiting
  /-- It has read the document and not written it. -/
  | holding (text : String)
  /-- It has ended. -/
  | finished (outcome : Except LedgerError Record)

/-- The number of turns that bring a call as far as it is. -/
def CallProgress.taken : CallProgress → Nat
  | .waiting => 0
  | .holding _ => 1
  | .finished _ => 2

theorem CallProgress.taken_le (progress : CallProgress) : progress.taken ≤ 2 := by
  cases progress <;> simp [taken]

theorem CallProgress.exists_eq_finished_iff (progress : CallProgress) :
    (∃ outcome, progress = .finished outcome) ↔ progress.taken = 2 := by
  cases progress <;> simp [taken]

/-- A storage and the calls that use it. -/
structure Race (σ : Type) (n : Nat) where
  vault : σ
  progress : Fin n → CallProgress
  lastWriter : Option (Fin n)

namespace Race

variable {σ : Type} {n : Nat}

/-- The calls before their first turns. -/
def begin (vault : σ) : Race σ n :=
  ⟨vault, fun _ => .waiting, none⟩

/-- A call has come further. -/
def advance (race : Race σ n) (k : Fin n) (progress : CallProgress) : Race σ n :=
  { race with progress := Function.update race.progress k progress }

theorem progress_advance (race : Race σ n) (k j : Fin n) (progress : CallProgress) :
    (race.advance k progress).progress j = if j = k then progress else race.progress j :=
  Function.update_apply _ _ _ _

theorem advance_advance (race : Race σ n) (k : Fin n) (first second : CallProgress) :
    (race.advance k first).advance k second = race.advance k second := by
  rw [advance, advance, advance, Function.update_idem]

variable [Storage σ]

/-- The next thing that a call does: it reads the document, or it writes the text that it read with
its record in it. -/
def turn (path : String) (calls : Fin n → RecordCall) (race : Race σ n) (k : Fin n) : Race σ n :=
  match race.progress k with
  | .waiting =>
    match Ledger.readText race.vault path with
    | .error error => race.advance k (.finished (.error error))
    | .ok text => race.advance k (.holding text)
  | .holding text =>
    match splice text (calls k).record with
    | .error error => race.advance k (.finished (.error (.blockNotFound error)))
    | .ok updated =>
      match Storage.write race.vault path updated with
      | (.error error, vault) =>
        { race with vault := vault }.advance k (.finished (.error (.storage error)))
      | (.ok (), vault) =>
        { race with vault := vault, lastWriter := some k }.advance k
          (.finished (.ok (calls k).record))
  | .finished _ => race

/-- Calls take turns. -/
def run (path : String) (calls : Fin n → RecordCall) (race : Race σ n) (schedule : List (Fin n)) :
    Race σ n :=
  schedule.foldl (turn path calls) race

variable {path : String} {calls : Fin n → RecordCall} {race : Race σ n} {k : Fin n}

/-! ## One turn -/

theorem turn_unreadable (h : race.progress k = .waiting) {error : LedgerError}
    (hread : Ledger.readText race.vault path = .error error) :
    turn path calls race k = race.advance k (.finished (.error error)) := by
  rw [turn, h]
  simp only [hread]

theorem turn_waiting (h : race.progress k = .waiting) {text : String}
    (hread : Ledger.readText race.vault path = .ok text) :
    turn path calls race k = race.advance k (.holding text) := by
  rw [turn, h]
  simp only [hread]

theorem turn_rejected {text : String} (h : race.progress k = .holding text) {error : BlockNotFound}
    (hsplice : splice text (calls k).record = .error error) :
    turn path calls race k = race.advance k (.finished (.error (.blockNotFound error))) := by
  rw [turn, h]
  simp only [hsplice]

theorem turn_unwritable {text updated : String} {error : StorageError} {vault : σ}
    (h : race.progress k = .holding text) (hsplice : splice text (calls k).record = .ok updated)
    (hwrite : Storage.write race.vault path updated = (.error error, vault)) :
    turn path calls race k =
      { race with vault := vault }.advance k (.finished (.error (.storage error))) := by
  rw [turn, h]
  simp only [hsplice, hwrite]

theorem turn_holding {text updated : String} {vault : σ} (h : race.progress k = .holding text)
    (hsplice : splice text (calls k).record = .ok updated)
    (hwrite : Storage.write race.vault path updated = (.ok (), vault)) :
    turn path calls race k = { race with vault := vault, lastWriter := some k }.advance k
      (.finished (.ok (calls k).record)) := by
  rw [turn, h]
  simp only [hsplice, hwrite]

theorem turn_finished {outcome : Except LedgerError Record} (h : race.progress k = .finished outcome) :
    turn path calls race k = race := by
  rw [turn, h]

/-- Two turns without a turn of another call in between do what the call does alone. -/
theorem turn_turn (h : race.progress k = .waiting) :
    ∃ lastWriter, turn path calls (turn path calls race k) k =
      ⟨((calls k).perform race.vault path).2,
        Function.update race.progress k (.finished ((calls k).perform race.vault path).1),
        lastWriter⟩ := by
  have hreached : ∀ progress, (race.advance k progress).progress k = progress := by
    intro progress
    rw [progress_advance, if_pos rfl]
  cases hread : Ledger.readText race.vault path with
  | error error =>
    have hperform : (calls k).perform race.vault path = (.error error, race.vault) :=
      Ledger.setState_of_unreadable hread
    rw [turn_unreadable h hread, turn_finished (hreached _), hperform]
    exact ⟨_, rfl⟩
  | ok text =>
    rw [turn_waiting h hread]
    cases hsplice : splice text (calls k).record with
    | error error =>
      have hperform : (calls k).perform race.vault path =
          (.error (.blockNotFound error), race.vault) := Ledger.setState_of_rejected hread hsplice
      rw [turn_rejected (hreached _) hsplice, advance_advance, hperform]
      exact ⟨_, rfl⟩
    | ok updated =>
      rcases hwrite : Storage.write race.vault path updated with ⟨error | ⟨⟨⟩⟩, vault⟩
      · have hperform : (calls k).perform race.vault path = (.error (.storage error), vault) :=
          Ledger.setState_of_unwritable hread hsplice hwrite
        rw [turn_unwritable (hreached _) hsplice hwrite, hperform]
        exact ⟨race.lastWriter, by simp only [advance, Function.update_idem]⟩
      · have hperform : (calls k).perform race.vault path = (.ok (calls k).record, vault) :=
          Ledger.setState_of_written hread hsplice hwrite
        rw [turn_holding (hreached _) hsplice hwrite, hperform]
        exact ⟨some k, by simp only [advance, Function.update_idem]⟩

/-! ## What a turn can be -/

/-- What a turn of a call makes of a race, if the document is there and can be written. -/
inductive Turned (path : String) (calls : Fin n → RecordCall) (race : Race σ n) (k : Fin n) :
    Race σ n → Prop
  /-- The call reads the document. -/
  | read {text : String} (hprogress : race.progress k = .waiting)
      (hread : Ledger.readText race.vault path = .ok text) :
      Turned path calls race k (race.advance k (.holding text))
  /-- The call has no block in what it read. -/
  | reject {text : String} {error : BlockNotFound} (hprogress : race.progress k = .holding text)
      (hsplice : splice text (calls k).record = .error error) :
      Turned path calls race k (race.advance k (.finished (.error (.blockNotFound error))))
  /-- The call writes what it read with its record in it. -/
  | write {text updated : String} {vault : σ} (hprogress : race.progress k = .holding text)
      (hsplice : splice text (calls k).record = .ok updated)
      (hstored : Ledger.readText vault path = .ok updated) :
      Turned path calls race k ({ race with vault := vault, lastWriter := some k }.advance k
        (.finished (.ok (calls k).record)))
  /-- The call has ended. -/
  | rest {outcome : Except LedgerError Record} (hprogress : race.progress k = .finished outcome) :
      Turned path calls race k race

theorem turned_turn [Storage.Writable σ] {current : String}
    (hread : Ledger.readText race.vault path = .ok current) (k : Fin n) :
    Turned path calls race k (race.turn path calls k) := by
  cases hprogress : race.progress k with
  | waiting =>
    rw [turn_waiting hprogress hread]
    exact .read hprogress hread
  | holding text =>
    cases hsplice : splice text (calls k).record with
    | error error =>
      rw [turn_rejected hprogress hsplice]
      exact .reject hprogress hsplice
    | ok updated =>
      obtain ⟨vault, hwrite, hholds⟩ :=
        Storage.Writable.exists_write updated (Ledger.holds_of_readText hread)
      rw [turn_holding hprogress hsplice hwrite]
      exact .write hprogress hsplice
        (Ledger.readText_of_read hholds (Storage.Lawful.read_of_write hwrite))
  | finished outcome =>
    rw [turn_finished hprogress]
    exact .rest hprogress

/-! ## What every turn preserves -/

/-- How a call may end: it succeeds exactly if a block of the initial text belongs to its target. -/
def Settles (initial : String) (call : RecordCall) (outcome : Except LedgerError Record) : Prop :=
  (outcome = .ok call.record ∧ ∃ parsed ∈ readings initial, call.target.owns parsed = true) ∨
    (outcome = .error (.blockNotFound call.record.notFound) ∧
      ∀ parsed ∈ readings initial, call.target.owns parsed = false)

/-- What a call may have come to. -/
def Reached (calls : Fin n → RecordCall) (initial : String) (k : Fin n) : CallProgress → Prop
  | .waiting => True
  | .holding text => Descends (fun j => (calls j).record) initial text
  | .finished outcome => Settles initial (calls k) outcome

/-- The document and whatever the calls hold of it come of the initial text, and the block of the
last writer shows its record. -/
structure Sound (path : String) (calls : Fin n → RecordCall) (initial : String) (race : Race σ n) :
    Prop where
  stored : ∃ text, Ledger.readText race.vault path = .ok text ∧
    Descends (fun k => (calls k).record) initial text ∧
    (race.lastWriter = none → text = initial) ∧
    ∀ k, race.lastWriter = some k → Shows text (calls k).record
  reached : ∀ k, Reached calls initial k (race.progress k)
  unwritten : race.lastWriter = none → ∀ k record, race.progress k ≠ .finished (.ok record)
  written : ∀ k, race.lastWriter = some k → race.progress k = .finished (.ok (calls k).record)

variable {initial : String} {later : Race σ n}

theorem sound_begin {vault : σ} (hread : Ledger.readText vault path = .ok initial) :
    Sound path calls initial (begin vault) where
  stored := ⟨initial, hread, descends_self _ _, fun _ => rfl, by simp [begin]⟩
  reached _ := trivial
  unwritten := by simp [begin]
  written := by simp [begin]

/-- A call that comes further without a write has to reach something, and must not have been the
last writer. -/
theorem Sound.advance (h : Sound path calls initial race) {progress : CallProgress}
    (hreached : Reached calls initial k progress) (hprogress : ∀ record, progress ≠ .finished (.ok record))
    (hwriter : race.lastWriter ≠ some k) : Sound path calls initial (race.advance k progress) where
  stored := h.stored
  reached := (Function.forall_update_iff _ (Reached calls initial)).2
    ⟨hreached, fun j _ => h.reached j⟩
  unwritten hnone := (Function.forall_update_iff _ fun _ (reached : CallProgress) =>
    ∀ record, reached ≠ .finished (.ok record)).2 ⟨hprogress, fun j _ => h.unwritten hnone j⟩
  written j hj := by
    have hjk : j ≠ k := by
      rintro rfl
      exact hwriter hj
    rw [progress_advance, if_neg hjk]
    exact h.written j hj

theorem owns_record (call : RecordCall) : call.record.owns = call.target.owns := rfl

/-- A call that takes a turn keeps the document in order. -/
theorem Sound.turned (h : Sound path calls initial race)
    (hwritable : ∀ entry ∈ (calls k).record.entries.toList, entry.Writable)
    (hturned : Turned path calls race k later) : Sound path calls initial later := by
  have hreached := h.reached k
  cases hturned with
  | rest hprogress => exact h
  | @read text hprogress hread =>
    obtain ⟨current, hcurrent, hdescends, -⟩ := h.stored
    obtain rfl : current = text := Except.ok.inj (hcurrent.symm.trans hread)
    refine h.advance hdescends (by simp) fun hwriter => ?_
    have hfinished := h.written k hwriter
    simp [hprogress] at hfinished
  | @reject text error hprogress hsplice =>
    rw [hprogress] at hreached
    refine h.advance (.inr ⟨by rw [splice_eq_error hsplice], ?_⟩) (by simp) fun hwriter => ?_
    · -- a block that belongs to the target is still there in the text that was read
      intro parsed hparsed
      by_contra howns
      obtain ⟨out, hout⟩ := (hreached.exists_splice_iff (calls k).record).2
        ⟨parsed, hparsed, by simpa [owns_record] using howns⟩
      simp [hsplice] at hout
    · have hfinished := h.written k hwriter
      simp [hprogress] at hfinished
  | @write text updated vault hprogress hsplice hstored =>
    rw [hprogress] at hreached
    -- the text that was read may be out of date by now, but it comes of the initial one as well
    obtain ⟨hdescends, hshows⟩ := hreached.of_splice hsplice hwritable
    have howned := (hreached.exists_splice_iff (calls k).record).1 ⟨_, hsplice⟩
    refine ⟨⟨updated, hstored, hdescends, by simp [Race.advance], ?_⟩, ?_, by simp [Race.advance], ?_⟩
    · rintro j ⟨⟩
      exact hshows
    · exact (Function.forall_update_iff _ (Reached calls initial)).2
        ⟨.inl ⟨rfl, howned⟩, fun j _ => h.reached j⟩
    · rintro j ⟨⟩
      rw [progress_advance, if_pos rfl]

/-! ## Schedules -/

theorem progress_turned_of_ne (hturned : Turned path calls race k later) {j : Fin n} (hj : j ≠ k) :
    later.progress j = race.progress j := by
  cases hturned with
  | read hprogress hread => rw [progress_advance, if_neg hj]
  | reject hprogress hsplice => rw [progress_advance, if_neg hj]
  | write hprogress hsplice hstored => rw [progress_advance, if_neg hj]
  | rest hprogress => rfl

theorem taken_turned (hturned : Turned path calls race k later) (j : Fin n) :
    (later.progress j).taken = min 2 ((race.progress j).taken + if k = j then 1 else 0) := by
  by_cases hkj : k = j
  · subst hkj
    cases hturned with
    | read hprogress hread => simp [progress_advance, hprogress, CallProgress.taken]
    | reject hprogress hsplice => simp [progress_advance, hprogress, CallProgress.taken]
    | write hprogress hsplice hstored => simp [progress_advance, hprogress, CallProgress.taken]
    | rest hprogress => simp [hprogress, CallProgress.taken]
  · have hle := (race.progress j).taken_le
    rw [progress_turned_of_ne hturned (Ne.symm hkj), if_neg hkj]
    omega

/-- Whatever turns the calls take, the document stays in order, and a call has come as far as its own
turns have brought it. -/
theorem Sound.run [Storage.Writable σ] (h : Sound path calls initial race)
    (hwritable : ∀ k, ∀ entry ∈ (calls k).record.entries.toList, entry.Writable)
    (schedule : List (Fin n)) :
    Sound path calls initial (race.run path calls schedule) ∧
      ∀ j, ((race.run path calls schedule).progress j).taken =
        min 2 ((race.progress j).taken + schedule.count j) := by
  induction schedule generalizing race with
  | nil =>
    refine ⟨h, fun j => ?_⟩
    have hle := (race.progress j).taken_le
    simp only [Race.run, List.foldl_nil, List.count_nil]
    omega
  | cons k schedule ih =>
    obtain ⟨current, hcurrent, -⟩ := h.stored
    have hturned : Turned path calls race k (race.turn path calls k) := turned_turn hcurrent k
    obtain ⟨hsound, htaken⟩ := ih (h.turned (hwritable k) hturned)
    refine ⟨hsound, fun j => ?_⟩
    have hfirst := taken_turned hturned j
    have hrest := htaken j
    rw [Race.run, List.foldl_cons, ← Race.run, hrest, hfirst, List.count_cons]
    simp only [beq_iff_eq]
    omega

/-- Racing writers may lose updates, but the document stays in order: its blocks are the initial ones
apart from their entries, these are the initial ones or those of a call that the block belongs to,
and the last writer finds its record. -/
theorem run_keeps_blocks [Storage.Writable σ] {vault : σ}
    (hread : Ledger.readText vault path = .ok initial)
    (hwritable : ∀ k, ∀ entry ∈ (calls k).record.entries.toList, entry.Writable)
    (schedule : List (Fin n)) :
    let race := (begin vault).run path calls schedule
    (∃ text, Ledger.readText race.vault path = .ok text ∧
      (readings text).map outline = (readings initial).map outline ∧
      (∀ (i : Nat) record, (readings text)[i]? = some (.ok record) →
        (readings initial)[i]? = some (.ok record) ∨
          ∃ k, (readings initial).findIdx? (calls k).target.owns = some i ∧
            record.entries = (calls k).record.entries) ∧
      (race.lastWriter = none → text = initial) ∧
      ∀ k, race.lastWriter = some k → Shows text (calls k).record) ∧
    (∀ k, ((∃ outcome, race.progress k = .finished outcome) ↔ 2 ≤ schedule.count k) ∧
      ∀ outcome, race.progress k = .finished outcome → Settles initial (calls k) outcome) ∧
    (race.lastWriter = none → ∀ k record, race.progress k ≠ .finished (.ok record)) ∧
    ∀ k, race.lastWriter = some k → race.progress k = .finished (.ok (calls k).record) := by
  intro race
  obtain ⟨hsound, htaken⟩ := (sound_begin hread).run hwritable schedule
  obtain ⟨text, htext, hdescends, hnone, hshows⟩ := hsound.stored
  refine ⟨⟨text, htext, hdescends.outlines, hdescends.entries, hnone, hshows⟩, fun k => ⟨?_, ?_⟩,
    hsound.unwritten, hsound.written⟩
  · have hk : (race.progress k).taken = min 2 (0 + schedule.count k) := htaken k
    rw [CallProgress.exists_eq_finished_iff]
    omega
  · intro outcome houtcome
    have hreached := hsound.reached k
    rw [houtcome] at hreached
    exact hreached

/-- Two calls read the same text, and the second one to write takes back what the first one wrote. -/
theorem run_keeps_blocks_choir :
    let initial := "```attendance\ndate: 2024-1-5\ntitle: Choir\nquery: #alto\n```"
    let vault := MemoryVault.empty.insertDocument "choir.md" initial
    let target : Record :=
      ⟨⟨2024, 1, 5, by decide, by decide, by decide⟩, "Choir", .tag "alto", "#alto", ∅⟩
    let calls : Fin 2 → RecordCall := fun k => ⟨target, if k = 0 then "Ann" else "Bob", "here", ""⟩
    let race := (begin vault).run "choir.md" calls [0, 1, 0, 1]
    Ledger.readText vault "choir.md" = .ok initial ∧
      (∀ k, ∀ entry ∈ (calls k).record.entries.toList, entry.Writable) ∧
      (∃ text, Ledger.readText race.vault "choir.md" = .ok text ∧ Shows text (calls 1).record) ∧
      ∀ k, ∃ outcome, race.progress k = .finished outcome ∧ Settles initial (calls k) outcome := by
  intro initial vault target calls race
  obtain ⟨hread, hwritable, hwriter⟩ : Ledger.readText vault "choir.md" = .ok initial ∧
      (∀ k, ∀ entry ∈ (calls k).record.entries.toList, entry.Writable) ∧
      race.lastWriter = some 1 := by
    decide +kernel
  obtain ⟨⟨text, htext, -, -, -, hshows⟩, hends, -⟩ :=
    run_keeps_blocks hread hwritable [0, 1, 0, 1]
  refine ⟨hread, hwritable, ⟨text, htext, hshows 1 hwriter⟩, fun k => ?_⟩
  have hcount : 2 ≤ [0, 1, 0, 1].count k := by
    revert k
    decide
  obtain ⟨outcome, houtcome⟩ := (hends k).1.2 hcount
  exact ⟨outcome, houtcome, (hends k).2 outcome houtcome⟩

end Race

end RollCall
