import RollCall.Disk.Access
import Mathlib.Data.List.Basic

/-!
# What is read after a file has been replaced

Which place a path leads to depends only on which places are folders. Putting a file at a place that
is no folder, or taking one away, changes none of them, so that the path that a text was written to
still leads to the text.
-/

namespace RollCall.Disk

/-- All folders of one disk are folders of the other. -/
structure FoldersStay (disk later : Disk) : Prop where
  /-- Relative paths start at the same place. -/
  current_eq : later.current = disk.current
  /-- A folder stays a folder. -/
  folder : ∀ place, disk.node? place = some .folder → later.node? place = some .folder

theorem FoldersStay.trans {disk later last : Disk} (h : FoldersStay disk later)
    (hlast : FoldersStay later last) : FoldersStay disk last :=
  ⟨hlast.current_eq.trans h.current_eq, fun place hp => hlast.folder place (h.folder place hp)⟩

theorem foldersStay_put {disk : Disk} {place : Place} (hne : place ≠ [])
    (h : disk.node? place ≠ some .folder) (content : Content) :
    FoldersStay disk (disk.put place (.file content)) := by
  refine ⟨rfl, fun other hother => ?_⟩
  rw [node?_put hne, if_neg, hother]
  rintro rfl
  exact h hother

theorem foldersStay_erase {disk : Disk} {place : Place} (hne : place ≠ [])
    (h : disk.node? place ≠ some .folder) : FoldersStay disk (disk.erase place) := by
  refine ⟨rfl, fun other hother => ?_⟩
  rw [node?_erase hne, if_neg, hother]
  rintro rfl
  exact h hother

/-! ## Following a path -/

/-- A step of a path is made from a folder. -/
theorem follow_cons_eq_ok_iff {disk : Disk} {place goal : Place} {step : String}
    {steps : List String} :
    disk.follow place (step :: steps) = .ok goal ↔
      disk.node? place = some .folder ∧
        (if step = "." then disk.follow place steps
          else if step = ".." then disk.follow place.dropLast steps
          else if isTooLong step then .error .nameTooLong
          else disk.follow (place ++ [step]) steps) = .ok goal := by
  rw [follow]
  cases disk.node? place with
  | none => simp
  | some node => cases node <;> simp

theorem FoldersStay.follow_eq {disk later : Disk} (h : FoldersStay disk later) {place goal : Place}
    {steps : List String} (hfollow : disk.follow place steps = .ok goal) :
    later.follow place steps = .ok goal := by
  induction steps generalizing place with
  | nil => simpa only [follow] using hfollow
  | cons step steps ih =>
    obtain ⟨hplace, hrest⟩ := follow_cons_eq_ok_iff.1 hfollow
    refine follow_cons_eq_ok_iff.2 ⟨h.folder place hplace, ?_⟩
    split at hrest
    · next hstep => rw [if_pos hstep, ih hrest]
    next hstep =>
    rw [if_neg hstep]
    split at hrest
    · next hup => rw [if_pos hup, ih hrest]
    next hup =>
    rw [if_neg hup]
    split at hrest
    · simp at hrest
    · next hlong => rw [if_neg hlong, ih hrest]

/-- Steps are made one after the other, up to the first that fails. -/
theorem follow_append_eq_bind (disk : Disk) (place : Place) (steps more : List String) :
    disk.follow place (steps ++ more) =
      (disk.follow place steps).bind fun between => disk.follow between more := by
  induction steps generalizing place with
  | nil => rfl
  | cons step steps ih =>
    rw [List.cons_append, follow, follow]
    cases disk.node? place with
    | none => rfl
    | some node =>
      cases node with
      | file content => rfl
      | folder =>
        simp only [ih]
        split
        · rfl
        split
        · rfl
        split <;> rfl

theorem follow_append {disk : Disk} {place between : Place} {steps more : List String}
    (h : disk.follow place steps = .ok between) :
    disk.follow place (steps ++ more) = disk.follow between more := by
  rw [follow_append_eq_bind, h]
  rfl

theorem exists_follow_of_append {disk : Disk} {place goal : Place} {steps more : List String}
    (h : disk.follow place (steps ++ more) = .ok goal) :
    ∃ between, disk.follow place steps = .ok between ∧ disk.follow between more = .ok goal := by
  rw [follow_append_eq_bind] at h
  cases hsteps : disk.follow place steps with
  | error error => simp [hsteps, Except.bind] at h
  | ok between =>
    rw [hsteps] at h
    exact ⟨between, rfl, h⟩

/-! ## Where a path leads to -/

/-- The path is not too long. -/
def Fits (path : String) : Prop :=
  Text.bytes path.toList ≤ maxPathBytes

instance (path : String) : Decidable (Fits path) :=
  inferInstanceAs (Decidable (_ ≤ _))

/-- The path leads to the place, if it is not too long. -/
structure LeadsTo (disk : Disk) (path : String) (place : Place) : Prop where
  /-- It holds no null character. -/
  no_null : '\x00' ∉ path.toList
  /-- It is not empty. -/
  ne_empty : path ≠ ""
  /-- Its steps lead to the place. -/
  follow_eq : disk.follow (disk.start (Route.ofText path)) (Route.parts path) = .ok place

theorem route?_eq_ok_iff {path : String} {route : Route} :
    route? path = .ok route ↔
      '\x00' ∉ path.toList ∧ path ≠ "" ∧ Fits path ∧ Route.ofText path = route := by
  rw [route?, Fits]
  split
  · next hnull => simp [hnull]
  next hnull =>
  split
  · next hempty => simp [hempty]
  next hempty =>
  split
  · next hlong => simp [Nat.not_le.2 hlong]
  · next hlong => simp [hnull, hempty, Nat.not_lt.1 hlong]

theorem steps_of_route? {path : String} {route : Route} (h : route? path = .ok route) :
    route.steps = Route.parts path := by
  obtain ⟨-, -, -, rfl⟩ := route?_eq_ok_iff.1 h
  rfl

theorem locate_eq_ok_iff {disk : Disk} {path : String} {place : Place} {node : Node} :
    disk.locate path = .ok (place, node) ↔
      disk.LeadsTo path place ∧ Fits path ∧ disk.node? place = some node ∧
        (node ≠ .folder → (Route.ofText path).closed = false) := by
  rw [locate]
  constructor
  · intro h
    cases hroute : route? path with
    | error fault => simp [hroute] at h
    | ok route =>
    obtain ⟨hnull, hempty, hfits, rfl⟩ := route?_eq_ok_iff.1 hroute
    cases hfollow : disk.follow (disk.start (Route.ofText path)) (Route.ofText path).steps with
    | error error => simp [hroute, hfollow] at h
    | ok goal =>
    cases hnode : disk.node? goal with
    | none => simp [hroute, hfollow, hnode] at h
    | some found =>
    cases found with
    | folder =>
      obtain ⟨rfl, rfl⟩ : goal = place ∧ .folder = node := by simpa [hroute, hfollow, hnode] using h
      exact ⟨⟨hnull, hempty, hfollow⟩, hfits, hnode, fun hne => absurd rfl hne⟩
    | file content =>
      simp only [hroute, hfollow, hnode] at h
      split at h
      · cases h
      · next hopen =>
        obtain ⟨rfl, rfl⟩ : goal = place ∧ .file content = node := by simpa using h
        exact ⟨⟨hnull, hempty, hfollow⟩, hfits, hnode, fun _ => by simpa using hopen⟩
  · rintro ⟨hleads, hfits, hnode, hopen⟩
    have hroute : route? path = .ok (Route.ofText path) :=
      route?_eq_ok_iff.2 ⟨hleads.no_null, hleads.ne_empty, hfits, rfl⟩
    have hfollow : disk.follow (disk.start (Route.ofText path)) (Route.ofText path).steps =
        .ok place := hleads.follow_eq
    cases node with
    | folder => simp only [hroute, hfollow, hnode]
    | file content => simp [hroute, hfollow, hnode, hopen (by simp)]

/-! ## The end of a path -/

/-- What a path has to be to end in a name. -/
theorem slot_eq_ok_iff {disk : Disk} {path name : String} {folder : Place} {closed : Bool} :
    disk.slot path = .ok ⟨folder, some name, closed⟩ ↔
      ∃ route steps, route? path = .ok route ∧ route.steps = steps ++ [name] ∧
        disk.follow (disk.start route) steps = .ok folder ∧ disk.node? folder = some .folder ∧
        name ≠ "." ∧ name ≠ ".." ∧ route.closed = closed := by
  rw [slot]
  cases hroute : route? path with
  | error fault => simp
  | ok route =>
  simp only [Except.ok.injEq]
  rcases List.eq_nil_or_concat' route.steps with hnil | ⟨steps, last, hsteps⟩
  · simp [hnil]
  simp only [hsteps, List.getLast?_concat, List.dropLast_concat]
  constructor
  · intro h
    split at h
    · simp at h
    next found hfollow =>
    split at h
    · simp at h
    · simp at h
    next hfolder =>
    simp only [Except.ok.injEq, Slot.mk.injEq] at h
    obtain ⟨rfl, hname, hclosed⟩ := h
    split at hname
    · simp at hname
    next hdots =>
    obtain rfl : last = name := Option.some.inj hname
    rw [not_or] at hdots
    exact ⟨route, steps, rfl, hsteps, hfollow, hfolder, hdots.1, hdots.2, hclosed⟩
  · rintro ⟨route', steps', rfl, hsteps', hfollow, hfolder, hdot, hup, rfl⟩
    obtain ⟨rfl, rfl⟩ : steps = steps' ∧ last = name := by
      simpa using hsteps.symm.trans hsteps'
    simp only [hfollow, hfolder, hdot, hup, or_self, if_false]

theorem FoldersStay.slot_eq {disk later : Disk} (h : FoldersStay disk later) {path name : String}
    {folder : Place} {closed : Bool} (hslot : disk.slot path = .ok ⟨folder, some name, closed⟩) :
    later.slot path = .ok ⟨folder, some name, closed⟩ := by
  obtain ⟨route, steps, hroute, hsteps, hfollow, hfolder, hname⟩ := slot_eq_ok_iff.1 hslot
  have hstart : later.start route = disk.start route := by rw [start, start, h.current_eq]
  exact slot_eq_ok_iff.2 ⟨route, steps, hroute, hsteps, hstart ▸ h.follow_eq hfollow,
    h.folder folder hfolder, hname⟩

/-- A path leads to the file at its end. -/
theorem locate_of_slot {disk : Disk} {path name : String} {folder : Place} {content : Content}
    (hslot : disk.slot path = .ok ⟨folder, some name, false⟩) (hshort : isTooLong name = false)
    (hfile : disk.node? (folder ++ [name]) = some (.file content)) :
    disk.locate path = .ok (folder ++ [name], .file content) := by
  obtain ⟨route, steps, hroute, hsteps, hfollow, hfolder, hdot, hup, hclosed⟩ :=
    slot_eq_ok_iff.1 hslot
  obtain ⟨hnull, hempty, hfits, rfl⟩ := route?_eq_ok_iff.1 hroute
  have hparts : Route.parts path = steps ++ [name] := hsteps
  have hplace : disk.follow (disk.start (Route.ofText path)) (Route.parts path) =
      .ok (folder ++ [name]) := by
    rw [hparts, follow_append hfollow, follow_cons_eq_ok_iff, if_neg hdot, if_neg hup, hshort]
    exact ⟨hfolder, rfl⟩
  exact locate_eq_ok_iff.2 ⟨⟨hnull, hempty, hplace⟩, hfits, hfile, fun _ => hclosed⟩

/-! ## Writing and moving files -/

/-- What a successful write does. -/
theorem store_eq_ok {disk written : Disk} {path : String} {content : Content}
    (h : disk.store path content = .ok written) :
    ∃ folder name, disk.slot path = .ok ⟨folder, some name, false⟩ ∧ isTooLong name = false ∧
      disk.node? (folder ++ [name]) ≠ some .folder ∧
      written = disk.put (folder ++ [name]) (.file content) := by
  rw [store] at h
  split at h
  · simp at h
  · simp at h
  next folder name closed hslot =>
  split at h
  · simp at h
  next hclosed =>
  split at h
  · simp at h
  next hshort =>
  obtain rfl : closed = false := by simpa using hclosed
  split at h
  · simp at h
  next hfree =>
  exact ⟨folder, name, hslot, by simpa using hshort, hfree, (Except.ok.inj h).symm⟩

/-- What a successful move does. -/
theorem moveFile_eq_ok {disk moved : Disk} {source target : String}
    (h : disk.moveFile source target = .ok moved) :
    ∃ oldFolder oldName newFolder newName content,
      disk.slot source = .ok ⟨oldFolder, some oldName, false⟩ ∧
      disk.slot target = .ok ⟨newFolder, some newName, false⟩ ∧
      disk.node? (oldFolder ++ [oldName]) = some (.file content) ∧ isTooLong newName = false ∧
      disk.node? (newFolder ++ [newName]) ≠ some .folder ∧
      moved = (disk.erase (oldFolder ++ [oldName])).put (newFolder ++ [newName]) (.file content) := by
  rw [moveFile] at h
  split at h
  · simp at h
  next origin horigin =>
  split at h
  · simp at h
  next goal hgoal =>
  obtain ⟨oldFolder, oldName?, oldClosed⟩ := origin
  obtain ⟨newFolder, newName?, newClosed⟩ := goal
  split at h
  · simp at h
  · simp at h
  next oldName newName hold hnew =>
  obtain rfl : oldName? = some oldName := hold
  obtain rfl : newName? = some newName := hnew
  cases hcontent : disk.node? (oldFolder ++ [oldName]) with
  | none => simp [hcontent] at h
  | some node =>
  cases node with
  | folder => simp [hcontent] at h
  | file content =>
  simp only [hcontent] at h
  split at h
  · simp at h
  next hshort =>
  split at h
  · simp at h
  next hclosed =>
  obtain ⟨rfl, rfl⟩ : oldClosed = false ∧ newClosed = false := by simpa using hclosed
  split at h
  · simp at h
  next hfree =>
  exact ⟨oldFolder, oldName, newFolder, newName, content, horigin, hgoal, hcontent,
    by simpa using hshort, hfree, (Except.ok.inj h).symm⟩

/-- A text that is written to one path and moved to another is read from there. -/
theorem read_of_write_moveFile {disk written moved : Disk} {temporary path text : String}
    (hwrite : disk.write temporary text = .ok written)
    (hmove : written.moveFile temporary path = .ok moved) : moved.read path = .ok text := by
  obtain ⟨folder, name, hslot, -, hfree, rfl⟩ := store_eq_ok hwrite
  obtain ⟨oldFolder, oldName, newFolder, newName, content, hold, hnew, hcontent, hshort, hgoal, rfl⟩ :=
    moveFile_eq_ok hmove
  have hwritten := foldersStay_put (by simp) hfree (.text text)
  -- the path of the temporary file still leads to the place that was written
  obtain ⟨rfl, rfl⟩ : folder = oldFolder ∧ name = oldName := by
    have := (hwritten.slot_eq hslot).symm.trans hold
    simpa using this
  obtain rfl : content = .text text := by
    rw [node?_put (by simp), if_pos rfl] at hcontent
    simpa using hcontent.symm
  have herase : FoldersStay (disk.put (folder ++ [name]) (.file (.text text)))
      ((disk.put (folder ++ [name]) (.file (.text text))).erase (folder ++ [name])) :=
    foldersStay_erase (by simp) (by rw [hcontent]; simp)
  have hgoal' : ((disk.put (folder ++ [name]) (.file (.text text))).erase (folder ++ [name])).node?
      (newFolder ++ [newName]) ≠ some .folder := by
    rw [node?_erase (by simp)]
    split
    · simp
    · exact hgoal
  have hmoved := herase.trans (foldersStay_put (by simp) hgoal' (.text text))
  have hlocate := locate_of_slot (hmoved.slot_eq hnew) hshort
    (by rw [node?_put (by simp), if_pos rfl])
  rw [read, hlocate]

end RollCall.Disk
