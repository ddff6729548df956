import RollCall.Proofs.Index.Forecast
import Mathlib.Logic.Relation

/-!
# An index catches up with its host

A host changes its documents and reports each change; meanwhile the first filling reports the
documents that were there in the beginning, and a worker takes the reports one after the other. All of
this interleaves in any order. When nothing is left to report or to take, the index holds what the
host has, provided that no document moves while it is still to be read.
-/

namespace RollCall

open Relation

/-- A host, its worker, and what is between them. -/
structure Indexing (σ μ : Type) where
  source : Source σ μ
  /-- Events of changes that the host has made and not yet reported, the oldest first. -/
  unreported : List DocumentEvent
  /-- Documents that the first filling has not yet reported. -/
  unvisited : List String
  queue : EventQueue
  worker : IndexWorker

namespace Indexing

variable {σ μ : Type} [Storage σ] [Annotations μ]

/-- A worker begins with an empty index, and the documents are to be reported to it. -/
def begin (source : Source σ μ) (documents : List String) : Indexing σ μ :=
  ⟨source, [], documents, .empty, .start ∅⟩

/-- A worker begins with an index, and no document is to be reported to it. -/
def resume (source : Source σ μ) (index : VaultIndex) : Indexing σ μ :=
  ⟨source, [], [], .empty, .start index⟩

/-- The events that the worker has not taken, in the order of the changes. -/
def waiting (state : Indexing σ μ) : List DocumentEvent :=
  state.queue.events ++ state.unreported

/-- All events have been reported and taken. -/
def Idle (state : Indexing σ μ) : Prop :=
  state.waiting = [] ∧ state.unvisited = []

/-- One step of the host, of the first filling or of the worker. The host may make the changes whose
events are allowed. -/
inductive Step (allowed : Indexing σ μ → DocumentEvent → Prop) :
    Indexing σ μ → Indexing σ μ → Prop
  | change {state : Indexing σ μ} {event : DocumentEvent} {source : Source σ μ}
      (hchange : state.source.contents.Becomes source.contents event)
      (hallowed : allowed state event) :
      Step allowed state
        { state with source := source, unreported := state.unreported ++ [event] }
  | report {state : Indexing σ μ} {event : DocumentEvent} {events : List DocumentEvent}
      {queue : EventQueue} (hnext : state.unreported = event :: events)
      (hqueue : state.queue.report event = .ok queue) :
      Step allowed state { state with unreported := events, queue := queue }
  | visit {state : Indexing σ μ} {path : String} {paths : List String} {queue : EventQueue}
      (hnext : state.unvisited = path :: paths)
      (hqueue : state.queue.report (.changed path) = .ok queue) :
      Step allowed state { state with unvisited := paths, queue := queue }
  | work {state : Indexing σ μ} {event : DocumentEvent} {events : List DocumentEvent}
      (hnext : state.queue.events = event :: events) :
      Step allowed state
        { state with
          queue := { state.queue with events := events }
          worker := (state.worker.apply state.source.vault state.source.annotations event).2 }

/-- Any steps in turn. -/
abbrev Runs (allowed : Indexing σ μ → DocumentEvent → Prop) :
    Indexing σ μ → Indexing σ μ → Prop :=
  ReflTransGen (Step allowed)

/-- No document moves. -/
def InPlace (_ : Indexing σ μ) : DocumentEvent → Prop
  | .renamed _ _ => False
  | .changed _ | .deleted _ => True

/-- No document moves while it is still to be read, nor onto another one. -/
def Timely (state : Indexing σ μ) (event : DocumentEvent) : Prop :=
  Contents.Timely state.source.contents state.waiting state.unvisited event

/-- From what the index holds the waiting events lead to what the host has. -/
def OnTrack (state : Indexing σ μ) : Prop :=
  ∃ known, state.worker.index.Holds known ∧
    Contents.Foreseen state.source.contents known state.waiting state.unvisited

variable {allowed : Indexing σ μ → DocumentEvent → Prop} {state next finish : Indexing σ μ}

theorem InPlace.timely {event : DocumentEvent} (h : state.InPlace event) : state.Timely event := by
  cases event with
  | changed path => trivial
  | renamed old new => exact h.elim
  | deleted path => trivial

/-! ## One step, and steps in turn -/

theorem events_of_report {queue later : EventQueue} {event : DocumentEvent}
    (h : queue.report event = .ok later) : later.events = queue.events ++ [event] := by
  rw [EventQueue.report] at h
  split at h
  · rw [← Except.ok.inj h]
  · cases h

/-- A worker that takes the first of orderly events does to its index what it does to the contents. -/
theorem holds_apply (source : Source σ μ) {worker : IndexWorker} {known : Contents}
    {event : DocumentEvent} {events : List DocumentEvent} (h : worker.index.Holds known)
    (horderly : known.Orderly (event :: events)) :
    (worker.apply source.vault source.annotations event).2.index.Holds
      (known.apply source.contents event) := by
  have hfree : ∀ old new, event = .renamed old new → known new = none ∨ new = old := by
    rintro old new rfl
    exact horderly.1
  have hindex := h.apply source hfree
  rw [IndexWorker.apply]
  split
  · next heq => rwa [heq] at hindex
  · next heq => rwa [heq] at hindex

theorem OnTrack.step (h : state.OnTrack) (hstep : Step allowed state next)
    (htimely : ∀ event, allowed state event → state.Timely event) : next.OnTrack := by
  obtain ⟨known, hholds, hforeseen⟩ := h
  cases hstep with
  | change hchange hallowed =>
    refine ⟨known, hholds, ?_⟩
    have hafter := hforeseen.become hchange (htimely _ hallowed)
    rwa [waiting, List.append_assoc] at hafter
  | report hnext hqueue =>
    refine ⟨known, hholds, ?_⟩
    rw [waiting, hnext] at hforeseen
    rwa [waiting, events_of_report hqueue, List.append_assoc]
  | visit hnext hqueue =>
    refine ⟨known, hholds, ?_⟩
    rw [waiting, hnext] at hforeseen
    rw [waiting, events_of_report hqueue, List.append_assoc]
    exact hforeseen.visit
  | @work event events hnext =>
    rw [waiting, hnext] at hforeseen
    exact ⟨_, holds_apply state.source hholds hforeseen.orderly, hforeseen.take⟩

theorem OnTrack.runs (h : state.OnTrack) (hruns : Runs allowed state finish)
    (htimely : ∀ state event, allowed state event → state.Timely event) : finish.OnTrack := by
  induction hruns with
  | refl => exact h
  | tail _ hstep ih => exact ih.step hstep (htimely _)

theorem OnTrack.holds (h : state.OnTrack) (hidle : state.Idle) :
    state.worker.index.Holds state.source.contents := by
  obtain ⟨known, hholds, hforeseen⟩ := h
  rw [hidle.1, hidle.2] at hforeseen
  rwa [← hforeseen.eq]

theorem onTrack_resume {source : Source σ μ} {index : VaultIndex}
    (h : index.Holds source.contents) : (resume source index).OnTrack :=
  ⟨source.contents, h, trivial, by simp [resume], fun _ hpath => hpath, fun _ _ hpath => .inl hpath⟩

theorem onTrack_begin {source : Source σ μ} {documents : List String}
    (h : ∀ path, (source.contents path).isSome = true → path ∈ documents) :
    (begin source documents).OnTrack := by
  refine ⟨fun _ => none, VaultIndex.holds_empty, trivial, fun _ _ old new hmem => ?_, fun _ _ => rfl,
    fun path facts hpath => ?_⟩
  · exact absurd hmem List.not_mem_nil
  · have hsome : (source.contents path).isSome = true := Option.isSome_of_eq_some hpath
    exact .inr (.inr ⟨h path hsome, List.not_mem_nil⟩)

/-! ## A worker can always catch up -/

/-- Steps that are left if the host rests: each report is taken later. -/
def remaining (state : Indexing σ μ) : Nat :=
  2 * (state.unreported.length + state.unvisited.length) + state.queue.events.length

theorem report_of_hasWorker {queue : EventQueue} (h : queue.hasWorker = true)
    (event : DocumentEvent) :
    queue.report event = .ok { queue with events := queue.events ++ [event] } := by
  rw [EventQueue.report, if_pos h]

theorem exists_step (hworker : state.queue.hasWorker = true) (hidle : ¬ state.Idle) :
    ∃ next, Step allowed state next ∧ next.source = state.source ∧
      next.queue.hasWorker = true ∧ next.remaining < state.remaining := by
  cases hunreported : state.unreported with
  | cons event events =>
    refine ⟨_, .report hunreported (report_of_hasWorker hworker event), rfl, hworker, ?_⟩
    simp only [remaining, hunreported, List.length_append, List.length_cons, List.length_nil]
    omega
  | nil =>
    cases hunvisited : state.unvisited with
    | cons path paths =>
      refine ⟨_, .visit hunvisited (report_of_hasWorker hworker _), rfl, hworker, ?_⟩
      simp only [remaining, hunvisited, List.length_append, List.length_cons, List.length_nil]
      omega
    | nil =>
      cases hevents : state.queue.events with
      | cons event events =>
        refine ⟨_, .work hevents, rfl, hworker, ?_⟩
        simp only [remaining, hevents, List.length_cons]
        omega
      | nil =>
        refine absurd ⟨?_, hunvisited⟩ hidle
        rw [waiting, hunreported, hevents, List.append_nil]

/-- From every state there is a way to one where nothing waits, without a change of the host. -/
theorem exists_runs_idle (hworker : state.queue.hasWorker = true) :
    ∃ finish, Runs allowed state finish ∧ finish.Idle ∧ finish.source = state.source := by
  induction hremaining : state.remaining using Nat.strongRecOn generalizing state with
  | _ n ih =>
    by_cases hidle : state.Idle
    · exact ⟨state, .refl, hidle, rfl⟩
    · obtain ⟨next, hstep, hsource, hnext, hless⟩ := exists_step hworker hidle
      obtain ⟨finish, hruns, hfinish, hrest⟩ := ih _ (hremaining ▸ hless) hnext rfl
      exact ⟨finish, .head hstep hruns, hfinish, hrest.trans hsource⟩

/-! ## At the end of a run -/

/-- Whatever is created, changed or deleted while the first filling is under way, the index ends up
as a new one that is loaded from the host. -/
theorem converges_in_place {source : Source σ μ} {documents listed : List String}
    (hsource : source.Readable) (hlisted : Storage.documents source.vault = .ok listed)
    (hdocuments : documents.Perm listed) (hruns : Runs InPlace (begin source documents) finish)
    (hidle : finish.Idle) (hfinish : finish.source.Readable) :
    Storage.documents finish.source.vault = .ok finish.worker.index.documents.toList ∧
      ∃ loaded, VaultIndex.load finish.source.vault finish.source.annotations = .ok loaded ∧
        finish.worker.index.Alike loaded := by
  have hbegin : (begin source documents).OnTrack := by
    refine onTrack_begin fun path hpath => ?_
    obtain ⟨found, hfound, hmem⟩ := hsource.documents
    obtain rfl : listed = found.toList := Except.ok.inj (hlisted.symm.trans hfound)
    exact hdocuments.mem_iff.2 ((hmem path).2 hpath)
  have hholds := (hbegin.runs hruns fun _ _ => InPlace.timely).holds hidle
  obtain ⟨loaded, hload, hloaded⟩ := hfinish.load
  exact ⟨hfinish.documents_eq hholds, loaded, hload, hholds.alike hloaded⟩

/-- The first filling reports `a.md` when it is already gone, and `c.md` comes meanwhile. -/
theorem converges_in_place_stale :
    let vault := ((∅ : MemoryVault).put "a.md" "" ["#old"] ["b.md"]).put "b.md" "" ["#team"] []
    let later := (vault.removeDocument "a.md").2.put "c.md" "" ["#team/core"] ["b.md"]
    vault.source.Readable ∧ Storage.documents vault = .ok ["a.md", "b.md"] ∧
    ["b.md", "a.md"].Perm ["a.md", "b.md"] ∧
    ∃ finish, Runs InPlace (begin vault.source ["b.md", "a.md"]) finish ∧ finish.Idle ∧
      finish.source = later.source ∧ later.source.Readable ∧
      Storage.documents later = .ok finish.worker.index.documents.toList ∧
      ∃ loaded, VaultIndex.load later later = .ok loaded ∧ finish.worker.index.Alike loaded := by
  intro vault later
  have hdocuments : Storage.documents vault = .ok ["a.md", "b.md"] := by decide +kernel
  have hperm : ["b.md", "a.md"].Perm ["a.md", "b.md"] := .swap ..
  have hruns : ∃ finish, Runs InPlace (begin vault.source ["b.md", "a.md"]) finish ∧ finish.Idle ∧
      finish.source = later.source := by
    refine ⟨_,
      .head (.change (MemoryVault.becomes_removeDocument vault "a.md") trivial) <|
      .head (.report rfl rfl) <|
      .head (.work rfl) <|
      .head (.visit rfl rfl) <|
      .head (.visit rfl rfl) <|
      .head (.change (MemoryVault.becomes_put _ "c.md" "" ["#team/core"] ["b.md"]) trivial) <|
      .head (.work rfl) <|
      .head (.report rfl rfl) <|
      .head (.work rfl) <|
      .head (.work rfl) .refl, ⟨rfl, rfl⟩, rfl⟩
  obtain ⟨finish, hruns, hidle, hsource⟩ := hruns
  have hfinish : finish.source.Readable := hsource ▸ later.readable_source
  have hconverges := converges_in_place vault.readable_source hdocuments hperm hruns hidle hfinish
  rw [hsource] at hconverges
  exact ⟨vault.readable_source, hdocuments, hperm, finish, hruns, hidle, hsource,
    later.readable_source, hconverges⟩

end Indexing

end RollCall
