import RollCall.Proofs.Index.Convergence

/-!
# Documents that move while an index catches up

A worker moves what the index has. A change that it reads only after the document has moved finds
nothing to read, so that a document can be lost (`loses_overtaken`). Nothing is lost if documents move
only once they have been read, and only to free paths.
-/

namespace RollCall.Indexing

variable {σ μ : Type} [Storage σ] [Annotations μ]

theorem get_blocks_eq_scan {source : Source σ μ} {index : VaultIndex} {path text : String}
    (h : index.Holds source.contents) (htext : Storage.read source.vault path = .ok text) :
    index.blocks.get path = DocumentBlock.scan path text := by
  rw [h.get_blocks, Contents.part, Source.contents, readFacts, htext]
  rfl

/-- Documents may move while an index that agrees with the host is kept up to date. -/
theorem converges_timely {source : Source σ μ} {index : VaultIndex} {finish : Indexing σ μ}
    (hindex : index.Holds source.contents) (hruns : Runs Timely (resume source index) finish)
    (hidle : finish.Idle) (hfinish : finish.source.Readable) :
    Storage.documents finish.source.vault = .ok finish.worker.index.documents.toList ∧
      (∀ path text, Storage.read finish.source.vault path = .ok text →
        finish.worker.index.blocks.get path = DocumentBlock.scan path text) ∧
      ∃ loaded, VaultIndex.load finish.source.vault finish.source.annotations = .ok loaded ∧
        finish.worker.index.Alike loaded := by
  have hholds := ((onTrack_resume hindex).runs hruns fun _ _ => id).holds hidle
  obtain ⟨loaded, hload, hloaded⟩ := hfinish.load
  refine ⟨hfinish.documents_eq hholds, fun path text => get_blocks_eq_scan hholds, ?_⟩
  exact ⟨loaded, hload, hholds.alike hloaded⟩

/-- The text of a document with one block. -/
def sampleText : String := "```attendance\ndate: 2020-01-01\ntitle: T\nquery: #a\n```\n"

theorem holds_empty_source : (∅ : VaultIndex).Holds (∅ : MemoryVault).source.contents := by
  have hcontents : (∅ : MemoryVault).source.contents = fun _ => none :=
    funext fun path => MemoryVault.contents_source ∅ path
  rw [hcontents]
  exact VaultIndex.holds_empty

/-- A document moves after it was read, while another one is still to be read. -/
theorem converges_timely_choir :
    let first := (∅ : MemoryVault).put "a.md" sampleText ["#choir"] []
    let second := first.put "c.md" "" [] ["a.md"]
    let third := second.relocate "a.md" "b.md"
    (∅ : VaultIndex).Holds (∅ : MemoryVault).source.contents ∧
    ∃ finish, Runs Timely (resume (∅ : MemoryVault).source ∅) finish ∧ finish.Idle ∧
      finish.source = third.source ∧ third.source.Readable ∧
      Storage.documents third = .ok finish.worker.index.documents.toList ∧
      (∀ path text, Storage.read third path = .ok text →
        finish.worker.index.blocks.get path = DocumentBlock.scan path text) ∧
      ∃ loaded, VaultIndex.load third third = .ok loaded ∧
        finish.worker.index.Alike loaded := by
  intro first second third
  have hold : second.texts.contains "a.md" = true := by decide +kernel
  have hnew : second.source.contents "b.md" = none := by
    rw [MemoryVault.contents_source, Option.map_eq_none_iff]
    decide +kernel
  have hruns : ∃ finish, Runs Timely (resume (∅ : MemoryVault).source ∅) finish ∧ finish.Idle ∧
      finish.source = third.source := by
    refine ⟨_,
      .head (.change (MemoryVault.becomes_put ∅ "a.md" sampleText ["#choir"] []) trivial) <|
      .head (.report rfl rfl) <|
      .head (.work rfl) <|
      .head (.change (MemoryVault.becomes_put first "c.md" "" [] ["a.md"]) trivial) <|
      .head (.change (MemoryVault.becomes_relocate hold "b.md")
        ⟨⟨?_, List.not_mem_nil⟩, ⟨?_, List.not_mem_nil⟩, .inl hnew⟩) <|
      .head (.report rfl rfl) <|
      .head (.report rfl rfl) <|
      .head (.work rfl) <|
      .head (.work rfl) .refl, ⟨rfl, rfl⟩, rfl⟩
    · rintro (⟨heq, -⟩ | hfalse)
      · exact absurd heq (by decide +kernel)
      · exact hfalse
    · rintro (⟨heq, -⟩ | hfalse)
      · exact absurd heq (by decide +kernel)
      · exact hfalse
  obtain ⟨finish, hruns, hidle, hsource⟩ := hruns
  have hfinish : finish.source.Readable := hsource ▸ third.readable_source
  have hconverges := converges_timely holds_empty_source hruns hidle hfinish
  rw [hsource] at hconverges
  exact ⟨holds_empty_source, finish, hruns, hidle, hsource, third.readable_source, hconverges⟩

/-! ## A document that moves too early -/

/-- The host changes nothing any more. -/
def Resting (_ : Indexing σ μ) (_ : DocumentEvent) : Prop := False

variable {state finish : Indexing σ μ}

/-- While the host rests, the worker takes the waiting events as in one run. -/
theorem run_of_runs (hruns : Runs Resting state finish) (hvisited : state.unvisited = []) :
    finish.source = state.source ∧ finish.unvisited = [] ∧
      ∃ taken, state.waiting = taken ++ finish.waiting ∧
        finish.worker = state.worker.run state.source.vault state.source.annotations taken := by
  induction hruns with
  | refl => exact ⟨rfl, hvisited, [], rfl, rfl⟩
  | tail _ hstep ih =>
    obtain ⟨hsource, hunvisited, taken, hwaiting, hworker⟩ := ih
    cases hstep with
    | change hchange hallowed => exact hallowed.elim
    | report hnext hqueue =>
      refine ⟨hsource, hunvisited, taken, ?_, hworker⟩
      rw [hwaiting, waiting, waiting, hnext, events_of_report hqueue, List.append_assoc]
      rfl
    | visit hnext hqueue =>
      rw [hunvisited] at hnext
      cases hnext
    | @work event events hnext =>
      refine ⟨hsource, hunvisited, taken ++ [event], ?_, ?_⟩
      · rw [hwaiting, waiting, waiting, hnext, List.append_assoc]
        rfl
      · rw [IndexWorker.run, List.foldl_append, List.foldl_cons, List.foldl_nil, ← IndexWorker.run,
          ← hworker, hsource]

theorem holds_run (source : Source σ μ) {worker : IndexWorker} {known : Contents}
    {events : List DocumentEvent} (h : worker.index.Holds known) (horderly : known.Orderly events) :
    (worker.run source.vault source.annotations events).index.Holds
      (known.applyAll source.contents events) := by
  induction events generalizing worker known with
  | nil => exact h
  | cons event events ih =>
    exact ih (holds_apply source h horderly) (horderly.apply source.contents)

/-- A document that moves is kept exactly if the index had it or has already been told to move it to
the old path; that the host has it does not matter. -/
theorem mem_documents_of_moved_iff {source : Source σ μ} {known : Contents} {old new : String}
    (hholds : state.worker.index.Holds known)
    (hforeseen : Contents.Foreseen state.source.contents known state.waiting state.unvisited)
    (hvisited : state.unvisited = []) (hnew : state.source.contents new = none)
    (hread : ¬ Unread new state.waiting)
    (hchange : state.source.contents.Becomes source.contents (.renamed old new))
    (hruns : Runs Resting
      { state with source := source, unreported := state.unreported ++ [.renamed old new] } finish)
    (hidle : finish.Idle) :
    new ∈ finish.worker.index.documents ↔ (known.forecast state.waiting old).isSome = true := by
  obtain ⟨hsome, hcontents⟩ := hchange
  obtain ⟨facts, hfacts⟩ := Option.isSome_iff_exists.1 hsome
  have hne : old ≠ new := by
    rintro rfl
    rw [hfacts] at hnew
    cases hnew
  obtain ⟨hsource, -, taken, hwaiting, hworker⟩ := run_of_runs hruns hvisited
  rw [hidle.1, List.append_nil, waiting, ← List.append_assoc] at hwaiting
  change state.waiting ++ [.renamed old new] = taken at hwaiting
  subst hwaiting
  -- before the move is taken, nothing is read at either path
  have hbefore := holds_run source hholds hforeseen.orderly
  have hnewBefore : known.applyAll source.contents state.waiting new = none := by
    rw [Contents.applyAll_eq_forecast hforeseen.orderly (.inr hread)]
    exact hforeseen.eq_none new hnew
  have holdBefore : known.applyAll source.contents state.waiting old =
      known.forecast state.waiting old := by
    refine Contents.applyAll_eq_forecast hforeseen.orderly (.inl ?_)
    rw [hcontents, Contents.move_apply new old hfacts, if_neg hne, if_pos rfl]
  have hmove : (known.applyAll source.contents state.waiting).Orderly [.renamed old new] :=
    ⟨.inl hnewBefore, trivial⟩
  have hafter := holds_apply source hbefore hmove
  rw [IndexWorker.run, List.foldl_append] at hworker
  rw [hworker, ← holdBefore]
  refine (hafter.mem_documents_iff new).trans ?_
  rw [Contents.apply]
  cases hold : known.applyAll source.contents state.waiting old with
  | none => rw [Contents.move_of_eq_none new hold, hnewBefore]
  | some found =>
    rw [Contents.move_apply new new hold, if_pos rfl]
    exact Iff.rfl

/-- A document that is created and moved before the worker takes an event is lost. -/
theorem loses_overtaken :
    let first := (∅ : MemoryVault).put "a.md" sampleText [] []
    let second := first.relocate "a.md" "b.md"
    (∅ : VaultIndex).Holds (∅ : MemoryVault).source.contents ∧
    ∃ finish, Runs (fun _ _ => True) (resume (∅ : MemoryVault).source ∅) finish ∧ finish.Idle ∧
      finish.source = second.source ∧ Storage.documents second = .ok ["b.md"] ∧
      Storage.read second "b.md" = .ok sampleText ∧ finish.worker.index.documents.toList = [] ∧
      finish.worker.index.blocks.get "b.md" = [] := by
  intro first second
  have hold : first.texts.contains "a.md" = true := by decide +kernel
  refine ⟨holds_empty_source, _,
    .head (.change (MemoryVault.becomes_put ∅ "a.md" sampleText [] []) trivial) <|
    .head (.change (MemoryVault.becomes_relocate hold "b.md") trivial) <|
    .head (.report rfl rfl) <|
    .head (.report rfl rfl) <|
    .head (.work rfl) <|
    .head (.work rfl) .refl, ⟨rfl, rfl⟩, rfl, ?_, ?_, ?_, ?_⟩
  · decide +kernel
  · decide +kernel
  · decide +kernel
  · decide +kernel

end RollCall.Indexing
