import RollCall.Proofs.Index.Source

/-!
# What an index will hold

Events that wait for a worker already say where documents go: the forecast follows moves and
deletions through them. What it cannot say is what a change will find, since the worker reads the
document only when it takes the event. `Foreseen` is what holds between the host, the index and the
waiting events at any time: the forecast has no document that the host does not have, and it is right
about every document that is not to be read again.
-/

namespace RollCall

/-- A change of the document waits to be read, and no later event takes the document away. -/
def Unread (path : String) : List DocumentEvent → Prop
  | [] => False
  | .changed changed :: events => (changed = path ∧ .deleted path ∉ events) ∨ Unread path events
  | .renamed _ _ :: events | .deleted _ :: events => Unread path events

/-- The document is still to be read: because a change of it waits, or because the first filling has
not reported it yet. -/
def Awaited (path : String) (events : List DocumentEvent) (unvisited : List String) : Prop :=
  Unread path events ∨ (path ∈ unvisited ∧ .deleted path ∉ events)

/-- No document moves from or to the path, unless the path is given up before. -/
def Unmoved (path : String) : List DocumentEvent → Prop
  | [] => True
  | .renamed old new :: events => (old ≠ path ∧ new ≠ path) ∧ Unmoved path events
  | .deleted deleted :: events => deleted = path ∨ Unmoved path events
  | .changed _ :: events => Unmoved path events

namespace Contents

/-- The contents after the event, as far as the event alone says. -/
def foresee (known : Contents) : DocumentEvent → Contents
  | .changed _ => known
  | .renamed old new => known.move old new
  | .deleted path => Function.update known path none

/-- The contents after all events, as far as the events alone say. -/
def forecast (known : Contents) (events : List DocumentEvent) : Contents :=
  events.foldl foresee known

/-- Documents move to free paths only, and not while a change of them is to be read. -/
def Orderly : Contents → List DocumentEvent → Prop
  | _, [] => True
  | known, .changed path :: events => Unmoved path events ∧ Orderly known events
  | known, .renamed old new :: events =>
    (known new = none ∨ new = old) ∧ Orderly (known.move old new) events
  | known, .deleted path :: events => Orderly (Function.update known path none) events

end Contents

section Events

variable {path old new : String} {events early late : List DocumentEvent} {event : DocumentEvent}
  {unvisited : List String}

/-! ## One more event -/

theorem unread_concat :
    Unread path (events ++ [event]) ↔
      event = .changed path ∨ (Unread path events ∧ event ≠ .deleted path) := by
  induction events with
  | nil =>
    cases event with
    | changed x => simp [Unread]
    | renamed old new => simp [Unread]
    | deleted x => simp [Unread]
  | cons first events ih =>
    cases first with
    | changed x =>
      simp only [List.cons_append, Unread, ih, List.mem_append, List.mem_singleton]
      by_cases hevent : event = .changed path
      · simp [hevent]
      · simp only [hevent, false_or, not_or]
        constructor
        · rintro (⟨hx, hlater, hne⟩ | ⟨hunread, hne⟩)
          · exact ⟨.inl ⟨hx, hlater⟩, Ne.symm hne⟩
          · exact ⟨.inr hunread, hne⟩
        · rintro ⟨⟨hx, hlater⟩ | hunread, hne⟩
          · exact .inl ⟨hx, hlater, Ne.symm hne⟩
          · exact .inr ⟨hunread, hne⟩
    | renamed old new => exact ih
    | deleted x => exact ih

theorem Awaited.concat (h : Awaited path events unvisited) (hevent : event ≠ .deleted path) :
    Awaited path (events ++ [event]) unvisited := by
  rcases h with hunread | ⟨hunvisited, hstays⟩
  · exact .inl (unread_concat.2 (.inr ⟨hunread, hevent⟩))
  · exact .inr ⟨hunvisited, by simp [hstays, hevent.symm]⟩

theorem Awaited.of_cons (h : Awaited path (event :: events) unvisited)
    (hevent : event = .changed path → .deleted path ∈ events) : Awaited path events unvisited := by
  rcases h with hunread | ⟨hunvisited, hstays⟩
  · cases event with
    | changed x =>
      rcases hunread with ⟨rfl, hstays⟩ | hunread
      · exact absurd (hevent rfl) hstays
      · exact .inl hunread
    | renamed old new => exact .inl hunread
    | deleted x => exact .inl hunread
  · exact .inr ⟨hunvisited, fun hgone => hstays (List.mem_cons_of_mem _ hgone)⟩

theorem Unmoved.concat (h : Unmoved path events)
    (hevent : ∀ old new, event = .renamed old new →
      .deleted path ∈ events ∨ (old ≠ path ∧ new ≠ path)) :
    Unmoved path (events ++ [event]) := by
  induction events with
  | nil =>
    cases event with
    | changed x => exact h
    | renamed old new => exact ⟨(hevent old new rfl).resolve_left List.not_mem_nil, trivial⟩
    | deleted x => exact .inr trivial
  | cons first events ih =>
    cases first with
    | changed x =>
      refine ih h fun old new heq => ?_
      exact (hevent old new heq).imp_left fun hmem => by simpa using hmem
    | renamed a b =>
      refine ⟨h.1, ih h.2 fun old new heq => ?_⟩
      exact (hevent old new heq).imp_left fun hmem => by simpa using hmem
    | deleted x =>
      by_cases hx : x = path
      · exact .inl hx
      · refine .inr (ih (h.resolve_left hx) fun old new heq => ?_)
        exact (hevent old new heq).imp_left fun hmem => by simpa [Ne.symm hx] using hmem

theorem unmoved_of_forall (h : ∀ old new, .renamed old new ∈ events → old ≠ path ∧ new ≠ path) :
    Unmoved path events := by
  induction events with
  | nil => trivial
  | cons first events ih =>
    have hrest := ih fun old new hmem => h old new (List.mem_cons_of_mem _ hmem)
    cases first with
    | changed x => exact hrest
    | renamed old new => exact ⟨h old new List.mem_cons_self, hrest⟩
    | deleted x => exact .inr hrest

/-! ## A change reported among other events -/

theorem unmoved_insert (changed : String) :
    Unmoved path (early ++ .changed changed :: late) ↔ Unmoved path (early ++ late) := by
  induction early with
  | nil => rfl
  | cons first early ih =>
    cases first with
    | changed x => exact ih
    | renamed old new => exact and_congr_right fun _ => ih
    | deleted x => exact or_congr_right ih

theorem Unread.insert (h : Unread path (early ++ late)) (changed : String) :
    Unread path (early ++ .changed changed :: late) := by
  induction early with
  | nil => exact .inr h
  | cons first early ih =>
    cases first with
    | changed x =>
      rcases h with ⟨hx, hlater⟩ | h
      · exact .inl ⟨hx, by simpa using hlater⟩
      · exact .inr (ih h)
    | renamed old new => exact ih h
    | deleted x => exact ih h

theorem unread_insert_self (early : List DocumentEvent) (h : .deleted path ∉ late) :
    Unread path (early ++ .changed path :: late) := by
  induction early with
  | nil => exact .inl ⟨rfl, h⟩
  | cons first early ih =>
    cases first with
    | changed x => exact .inr ih
    | renamed old new => exact ih
    | deleted x => exact ih

theorem Awaited.insert (h : Awaited path (early ++ late) (old :: unvisited)) :
    Awaited path (early ++ .changed old :: late) unvisited := by
  rcases h with hunread | ⟨hunvisited, hstays⟩
  · exact .inl (hunread.insert old)
  · rcases List.mem_cons.1 hunvisited with rfl | hunvisited
    · refine .inl (unread_insert_self early fun hgone => hstays ?_)
      exact List.mem_append_right early hgone
    · exact .inr ⟨hunvisited, by simpa using hstays⟩

end Events

namespace Contents

variable {known host after : Contents} {path old new : String} {found : Option DocumentFacts}
  {events early late : List DocumentEvent} {event : DocumentEvent}

theorem forecast_concat :
    known.forecast (events ++ [event]) = (known.forecast events).foresee event := by
  rw [forecast, List.foldl_append]
  rfl

theorem forecast_insert (known : Contents) (early late : List DocumentEvent) (path : String) :
    known.forecast (early ++ .changed path :: late) = known.forecast (early ++ late) := by
  rw [forecast, forecast, List.foldl_append, List.foldl_append]
  rfl

/-! ## What a change of one document changes of the forecast -/

theorem move_update (known : Contents) (found : Option DocumentFacts)
    (h : old ≠ path ∧ new ≠ path) :
    Contents.move (Function.update known path found) old new =
      Function.update (known.move old new) path found := by
  rw [move, move, Function.update_of_ne h.1]
  cases known old with
  | none => rfl
  | some facts =>
    dsimp only
    rw [Function.update_comm h.1.symm, Function.update_comm h.2.symm]

/-- What is known about a document does not matter once it is gone. -/
theorem forecast_update_of_mem (h : Unmoved path events) (hgone : .deleted path ∈ events) :
    Contents.forecast (Function.update known path found) events = known.forecast events := by
  induction events generalizing known with
  | nil => exact absurd hgone List.not_mem_nil
  | cons first events ih =>
    rw [forecast, List.foldl_cons, forecast, List.foldl_cons]
    cases first with
    | changed x => exact ih h (by simpa using hgone)
    | renamed old new =>
      rw [foresee, move_update known found h.1]
      exact ih h.2 (by simpa using hgone)
    | deleted x =>
      by_cases hx : x = path
      · rw [foresee, foresee, hx, Function.update_idem]
      · rw [foresee, Function.update_comm (Ne.symm hx)]
        exact ih (h.resolve_left hx) (by simpa [Ne.symm hx] using hgone)

/-- What is known about a document that stays is also forecast. -/
theorem forecast_update_of_not_mem (h : Unmoved path events) (hstays : .deleted path ∉ events) :
    Contents.forecast (Function.update known path found) events =
      Function.update (known.forecast events) path found := by
  induction events generalizing known with
  | nil => rfl
  | cons first events ih =>
    rw [List.mem_cons, not_or] at hstays
    rw [forecast, List.foldl_cons, forecast, List.foldl_cons]
    cases first with
    | changed x => exact ih h hstays.2
    | renamed old new =>
      rw [foresee, move_update known found h.1]
      exact ih h.2 hstays.2
    | deleted x =>
      have hx : x ≠ path := fun heq => hstays.1 (heq ▸ rfl)
      rw [foresee, Function.update_comm hx.symm]
      exact ih (h.resolve_left hx) hstays.2

/-- Reading a document does not change the forecast of any other one, nor of one that a later event
takes away. -/
theorem forecast_reread_of_ne (h : Unmoved path events) {x : String}
    (hx : x = path → host path = none ∨ .deleted path ∈ events) :
    (known.reread host path).forecast events x = known.forecast events x := by
  rw [reread]
  cases hhost : host path with
  | none => rfl
  | some facts =>
    dsimp only
    by_cases hgone : .deleted path ∈ events
    · rw [forecast_update_of_mem h hgone]
    · rw [forecast_update_of_not_mem h hgone]
      refine Function.update_of_ne (fun heq => ?_) _ _
      rcases hx heq with hnone | hmem
      · rw [hhost] at hnone
        cases hnone
      · exact hgone hmem

theorem forecast_reread_self (h : Unmoved path events) (hstays : .deleted path ∉ events)
    {facts : DocumentFacts} (hhost : host path = some facts) :
    (known.reread host path).forecast events path = some facts := by
  rw [reread, hhost]
  dsimp only
  rw [forecast_update_of_not_mem h hstays, Function.update_self]

/-! ## Orderly events -/

theorem Orderly.update (h : known.Orderly events) (hpath : Unmoved path events)
    (found : Option DocumentFacts) : Orderly (Function.update known path found) events := by
  induction events generalizing known with
  | nil => trivial
  | cons first events ih =>
    cases first with
    | changed x => exact ⟨h.1, ih h.2 hpath⟩
    | renamed old new =>
      refine ⟨?_, ?_⟩
      · rw [Function.update_of_ne hpath.1.2]
        exact h.1
      · rw [move_update known found hpath.1]
        exact ih h.2 hpath.2
    | deleted x =>
      rw [Orderly] at h ⊢
      by_cases hx : x = path
      · rwa [hx, Function.update_idem, ← hx]
      · rw [Function.update_comm (Ne.symm hx)]
        exact ih h (hpath.resolve_left hx)

theorem Orderly.concat (h : known.Orderly events)
    (hevent : ∀ old new, event = .renamed old new →
      ¬ Unread old events ∧ ¬ Unread new events ∧ (known.forecast events new = none ∨ new = old)) :
    known.Orderly (events ++ [event]) := by
  induction events generalizing known with
  | nil =>
    cases event with
    | changed x => exact ⟨trivial, trivial⟩
    | renamed old new => exact ⟨(hevent old new rfl).2.2, trivial⟩
    | deleted x => trivial
  | cons first events ih =>
    cases first with
    | changed x =>
      refine ⟨h.1.concat fun old new heq => ?_, ih h.2 fun old new heq => ?_⟩
      · obtain ⟨hold, hnew, -⟩ := hevent old new heq
        by_cases hgone : .deleted x ∈ events
        · exact .inl hgone
        · refine .inr ⟨?_, ?_⟩
          · rintro rfl
            exact hold (.inl ⟨rfl, hgone⟩)
          · rintro rfl
            exact hnew (.inl ⟨rfl, hgone⟩)
      · obtain ⟨hold, hnew, hfree⟩ := hevent old new heq
        exact ⟨fun hunread => hold (.inr hunread), fun hunread => hnew (.inr hunread), hfree⟩
    | renamed a b => exact ⟨h.1, ih h.2 hevent⟩
    | deleted x => exact ih h hevent

theorem Orderly.insert (h : known.Orderly (early ++ late)) (hpath : Unmoved path late) :
    known.Orderly (early ++ .changed path :: late) := by
  induction early generalizing known with
  | nil => exact ⟨hpath, h⟩
  | cons first early ih =>
    cases first with
    | changed x => exact ⟨(unmoved_insert path).2 h.1, ih h.2⟩
    | renamed old new => exact ⟨h.1, ih h.2⟩
    | deleted x => exact ih h

theorem Orderly.apply (h : known.Orderly (event :: events)) (host : Contents) :
    (known.apply host event).Orderly events := by
  cases event with
  | changed path =>
    rw [Contents.apply, reread]
    cases host path with
    | none => exact h.2
    | some facts => exact h.2.update h.1 _
  | renamed old new => exact h.2
  | deleted path => exact h

/-! ## A host that rests -/

/-- What is known once a worker has taken all events, while the host changes nothing. -/
def applyAll (known host : Contents) (events : List DocumentEvent) : Contents :=
  events.foldl (fun known event => known.apply host event) known

/-- Where nothing is read, the forecast comes true. -/
theorem applyAll_eq_forecast (h : known.Orderly events)
    (hpath : host path = none ∨ ¬ Unread path events) :
    known.applyAll host events path = known.forecast events path := by
  induction events generalizing known with
  | nil => rfl
  | cons first events ih =>
    cases first with
    | changed x =>
      have hrest := ih (h.apply host) (hpath.imp_right fun hread hunread => hread (.inr hunread))
      refine hrest.trans (forecast_reread_of_ne h.1 ?_)
      rintro rfl
      rcases hpath with hnone | hread
      · exact .inl hnone
      · by_cases hgone : .deleted path ∈ events
        · exact .inr hgone
        · exact absurd (.inl ⟨rfl, hgone⟩) hread
    | renamed old new => exact ih h.2 hpath
    | deleted x => exact ih h hpath

/-! ## The host, the index and the waiting events -/

/-- The forecast has no document that the host does not have, and it is right about every document
that is not to be read any more. -/
structure Foreseen (host known : Contents) (events : List DocumentEvent) (unvisited : List String) :
    Prop where
  orderly : known.Orderly events
  unmoved : ∀ path ∈ unvisited, ∀ old new, .renamed old new ∈ events → old ≠ path ∧ new ≠ path
  eq_none : ∀ path, host path = none → known.forecast events path = none
  eq_some : ∀ path facts, host path = some facts →
    known.forecast events path = some facts ∨ Awaited path events unvisited

/-- When nothing waits, the index holds what the host has. -/
theorem Foreseen.eq (h : Foreseen host known [] []) : known = host := by
  funext path
  cases hpath : host path with
  | none => exact h.eq_none path hpath
  | some facts =>
    rcases h.eq_some path facts hpath with hsome | hunread | ⟨hunvisited, -⟩
    · exact hsome
    · exact hunread.elim
    · exact absurd hunvisited List.not_mem_nil

/-- A document may move only while neither it nor a document at the new path is still to be read,
and only to a path that is free. -/
def Timely (host : Contents) (events : List DocumentEvent) (unvisited : List String) :
    DocumentEvent → Prop
  | .renamed old new => (¬ Unread old events ∧ old ∉ unvisited) ∧
    (¬ Unread new events ∧ new ∉ unvisited) ∧ (host new = none ∨ new = old)
  | .changed _ | .deleted _ => True

variable {unvisited : List String}

theorem Foreseen.write (h : Foreseen host known events unvisited) (path : String)
    (facts : DocumentFacts) :
    Foreseen (Function.update host path (some facts)) known (events ++ [.changed path])
      unvisited := by
  have hforecast : known.forecast (events ++ [.changed path]) = known.forecast events :=
    forecast_concat
  refine ⟨h.orderly.concat (by simp), fun x hx old new hmem => ?_, fun x hx => ?_,
    fun x found hx => ?_⟩
  · exact h.unmoved x hx old new (by simpa using hmem)
  · rw [hforecast]
    by_cases hpath : x = path
    · simp [hpath] at hx
    · exact h.eq_none x (by rwa [Function.update_of_ne hpath] at hx)
  · by_cases hpath : x = path
    · exact .inr (.inl (unread_concat.2 (.inl (hpath ▸ rfl))))
    · rw [Function.update_of_ne hpath] at hx
      rw [hforecast]
      exact (h.eq_some x found hx).imp_right fun hawaited => hawaited.concat (by simp)

theorem Foreseen.delete (h : Foreseen host known events unvisited) (path : String) :
    Foreseen (Function.update host path none) known (events ++ [.deleted path]) unvisited := by
  have hforecast : known.forecast (events ++ [.deleted path]) =
      Function.update (known.forecast events) path none := forecast_concat
  refine ⟨h.orderly.concat (by simp), fun x hx old new hmem => ?_, fun x hx => ?_,
    fun x found hx => ?_⟩
  · exact h.unmoved x hx old new (by simpa using hmem)
  · rw [hforecast, Function.update_apply]
    split
    · rfl
    · next hpath => exact h.eq_none x (by rwa [Function.update_of_ne hpath] at hx)
  · by_cases hpath : x = path
    · simp [hpath] at hx
    · rw [Function.update_of_ne hpath] at hx
      rw [hforecast, Function.update_of_ne hpath]
      exact (h.eq_some x found hx).imp_right fun hawaited =>
        hawaited.concat (by simp [Ne.symm hpath])

theorem Foreseen.move (h : Foreseen host known events unvisited) (hold : (host old).isSome = true)
    (htimely : Timely host events unvisited (.renamed old new)) :
    Foreseen (host.move old new) known (events ++ [.renamed old new]) unvisited := by
  obtain ⟨⟨hread, hvisited⟩, ⟨hreadNew, hvisitedNew⟩, hfree⟩ := htimely
  obtain ⟨facts, hfacts⟩ := Option.isSome_iff_exists.1 hold
  -- nothing is to be read at the old path, so that the forecast has the document there
  have hknown : known.forecast events old = some facts := by
    rcases h.eq_some old facts hfacts with hsome | hunread | ⟨hunvisited, -⟩
    · exact hsome
    · exact absurd hunread hread
    · exact absurd hunvisited hvisited
  have hforecast : known.forecast (events ++ [.renamed old new]) =
      (known.forecast events).move old new := forecast_concat
  refine ⟨h.orderly.concat ?_, fun x hx a b hmem => ?_, fun x hx => ?_, fun x found hx => ?_⟩
  · intro a b heq
    obtain ⟨rfl, rfl⟩ := DocumentEvent.renamed.inj heq
    exact ⟨hread, hreadNew, hfree.imp_left (h.eq_none _)⟩
  · rcases List.mem_append.1 hmem with hmem | hmem
    · exact h.unmoved x hx a b hmem
    · obtain ⟨rfl, rfl⟩ := DocumentEvent.renamed.inj (List.mem_singleton.1 hmem)
      exact ⟨fun heq => hvisited (heq ▸ hx), fun heq => hvisitedNew (heq ▸ hx)⟩
  · rw [move_apply new x hfacts] at hx
    rw [hforecast, move_apply new x hknown]
    split_ifs at hx ⊢
    · rfl
    · exact h.eq_none x hx
  · rw [move_apply new x hfacts] at hx
    rw [hforecast, move_apply new x hknown]
    split_ifs at hx ⊢
    · exact .inl hx
    · exact (h.eq_some x found hx).imp_right fun hawaited => hawaited.concat (by simp)

/-- A change of the host and its event, which waits behind all others. -/
theorem Foreseen.become (h : Foreseen host known events unvisited) (hafter : host.Becomes after event)
    (htimely : Timely host events unvisited event) :
    Foreseen after known (events ++ [event]) unvisited := by
  cases event with
  | changed path =>
    obtain ⟨facts, rfl⟩ := hafter
    exact h.write path facts
  | renamed old new =>
    obtain ⟨hold, rfl⟩ := hafter
    exact h.move hold htimely
  | deleted path =>
    obtain rfl := hafter
    exact h.delete path

/-- The first filling reports a document, while events of the host are still on their way. -/
theorem Foreseen.visit (h : Foreseen host known (early ++ late) (path :: unvisited)) :
    Foreseen host known (early ++ .changed path :: late) unvisited := by
  have hlate : Unmoved path late := by
    refine unmoved_of_forall fun old new hmem => ?_
    exact h.unmoved path List.mem_cons_self old new (List.mem_append_right early hmem)
  refine ⟨h.orderly.insert hlate, fun x hx old new hmem => ?_, fun x hx => ?_,
    fun x facts hx => ?_⟩
  · exact h.unmoved x (List.mem_cons_of_mem _ hx) old new (by simpa using hmem)
  · rw [forecast_insert]
    exact h.eq_none x hx
  · rw [forecast_insert]
    exact (h.eq_some x facts hx).imp_right Awaited.insert

/-- The worker takes the event that waits longest. A document that it reads is then known as the host
has it, unless a later event takes it away. -/
theorem Foreseen.take (h : Foreseen host known (event :: events) unvisited) :
    Foreseen host (known.apply host event) events unvisited := by
  have horderly := h.orderly.apply host
  have hmoves : ∀ x ∈ unvisited, ∀ old new, .renamed old new ∈ events → old ≠ x ∧ new ≠ x :=
    fun x hx old new hmem => h.unmoved x hx old new (List.mem_cons_of_mem _ hmem)
  cases event with
  | changed path =>
    have hpath : Unmoved path events := h.orderly.1
    refine ⟨horderly, hmoves, fun x hx => ?_, fun x facts hx => ?_⟩
    · refine (forecast_reread_of_ne hpath fun heq => .inl ?_).trans (h.eq_none x hx)
      rwa [heq] at hx
    · by_cases hread : x = path ∧ .deleted path ∉ events
      · obtain ⟨rfl, hstays⟩ := hread
        exact .inl (forecast_reread_self hpath hstays hx)
      · have hgone : x = path → .deleted path ∈ events := by
          intro heq
          by_contra hstays
          exact hread ⟨heq, hstays⟩
        have hforecast : (known.reread host path).forecast events x = known.forecast events x :=
          forecast_reread_of_ne hpath fun heq => .inr (hgone heq)
        rcases h.eq_some x facts hx with hsome | hawaited
        · exact .inl (hforecast.trans hsome)
        · refine .inr (hawaited.of_cons fun heq => ?_)
          obtain rfl := DocumentEvent.changed.inj heq
          exact hgone rfl
  | renamed old new =>
    refine ⟨horderly, hmoves, h.eq_none, fun x facts hx => ?_⟩
    exact (h.eq_some x facts hx).imp_right fun hawaited => hawaited.of_cons (by simp)
  | deleted path =>
    refine ⟨horderly, hmoves, h.eq_none, fun x facts hx => ?_⟩
    exact (h.eq_some x facts hx).imp_right fun hawaited => hawaited.of_cons (by simp)

end Contents

end RollCall
