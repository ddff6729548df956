import RollCall.Proofs.Disk.Access
import RollCall.Proofs.Disk.Route

/-!
# Trees of folders

A disk is a tree if everything on it has a name and lies in a folder (`Disk.IsTree`). Where a path leads
to does not depend on how long it is (`Disk.LeadsTo`), but a path that is too long is not followed
(`Disk.locate_eq_ok_iff`). From a folder, the names on the way to anything in it make up a path that
leads there (`Disk.LeadsTo.foldl_join`).
-/

namespace RollCall.Disk

/-- What can name a file or a folder. -/
structure IsName (name : String) : Prop extends Route.IsStep name where
  /-- It holds no null character. -/
  no_null : '\x00' ∉ name.toList
  /-- It does not stand for the folder itself. -/
  ne_dot : name ≠ "."
  /-- It does not stand for the folder around. -/
  ne_up : name ≠ ".."
  /-- It is not too long. -/
  short : isTooLong name = false

instance (name : String) : Decidable (IsName name) :=
  decidable_of_iff
    (name ≠ "" ∧ '/' ∉ name.toList ∧ '\x00' ∉ name.toList ∧ name ≠ "." ∧ name ≠ ".." ∧
      isTooLong name = false)
    ⟨fun ⟨hempty, hslash, hnull, hdot, hup, hshort⟩ => ⟨⟨hempty, hslash⟩, hnull, hdot, hup, hshort⟩,
      fun h => ⟨h.ne_empty, h.no_slash, h.no_null, h.ne_dot, h.ne_up, h.short⟩⟩

/-- A tree of folders and files. -/
structure IsTree (disk : Disk) : Prop where
  /-- Each node lies in a folder. -/
  sound : disk.Sound
  /-- The nodes are named. -/
  named : ∀ node ∈ disk.nodes, ∀ name ∈ node.1, IsName name

instance (disk : Disk) : Decidable disk.Sound :=
  inferInstanceAs (Decidable (_ ∧ _))

instance (disk : Disk) : Decidable disk.IsTree :=
  decidable_of_iff (disk.Sound ∧ ∀ node ∈ disk.nodes, ∀ name ∈ node.1, IsName name)
    ⟨fun ⟨hsound, hnamed⟩ => ⟨hsound, hnamed⟩, fun h => ⟨h.sound, h.named⟩⟩

variable {disk : Disk} {place folder : Place} {node : Node}

/-! ## What is at a place -/

theorem lookup_eq_some_iff {nodes : List (Place × Node)} (h : (nodes.map Prod.fst).Nodup) :
    lookup place nodes = some node ↔ (place, node) ∈ nodes := by
  induction nodes with
  | nil => simp [lookup]
  | cons first nodes ih =>
    obtain ⟨hfirst, hnodes⟩ := List.nodup_cons.1 h
    by_cases hplace : first.1 = place
    · have hlater : (place, node) ∉ nodes := by
        intro hmem
        exact hfirst (hplace ▸ List.mem_map_of_mem hmem)
      have hnode : lookup place (first :: nodes) = some first.2 := by simp [lookup, hplace]
      rw [hnode, List.mem_cons, or_iff_left hlater, Option.some.injEq, Prod.ext_iff, hplace]
      simp [eq_comm]
    · have hskip : lookup place (first :: nodes) = lookup place nodes := by simp [lookup, hplace]
      have hne : (place, node) ≠ first := by
        rintro rfl
        exact hplace rfl
      rw [hskip, ih hnodes, List.mem_cons, or_iff_right hne]

theorem Sound.node?_eq_some_iff (h : disk.Sound) (hplace : place ≠ []) :
    disk.node? place = some node ↔ (place, node) ∈ disk.nodes := by
  rw [node?, if_neg hplace, lookup_eq_some_iff h.1]

theorem Sound.node?_dropLast (h : disk.Sound) {name : String}
    (hnode : disk.node? (place ++ [name]) = some node) : disk.node? place = some .folder := by
  have hne : place ++ [name] ≠ [] := by simp
  have hfolder := (h.2 _ ((h.node?_eq_some_iff hne).1 hnode)).2
  rwa [List.dropLast_concat] at hfolder

/-- Everything on the way to a node is a folder. -/
theorem Sound.folder_of_append (h : disk.Sound) {inside : Place} (hinside : inside ≠ [])
    (hnode : disk.node? (place ++ inside) = some node) : disk.node? place = some .folder := by
  induction inside using List.reverseRecOn generalizing node with
  | nil => exact absurd rfl hinside
  | append_singleton front name ih =>
    rw [← List.append_assoc] at hnode
    have hfront := h.node?_dropLast hnode
    by_cases hnil : front = []
    · rwa [hnil, List.append_nil] at hfront
    · exact ih hnil hfront

theorem Sound.folder_of_folder (h : disk.Sound) {inside : Place}
    (hfolder : disk.node? (place ++ inside) = some .folder) : disk.node? place = some .folder := by
  by_cases hinside : inside = []
  · rwa [hinside, List.append_nil] at hfolder
  · exact h.folder_of_append hinside hfolder

/-- The folder around a folder is one. -/
theorem Sound.folder_dropLast (h : disk.Sound) (hfolder : disk.node? place = some .folder) :
    disk.node? place.dropLast = some .folder := by
  rcases List.eq_nil_or_concat' place with rfl | ⟨front, name, rfl⟩
  · exact hfolder
  · rw [List.dropLast_concat]
    exact h.node?_dropLast hfolder

theorem IsTree.isName (h : disk.IsTree) (hnode : disk.node? place = some node) {name : String}
    (hname : name ∈ place) : IsName name := by
  have hne : place ≠ [] := List.ne_nil_of_mem hname
  exact h.named _ ((h.sound.node?_eq_some_iff hne).1 hnode) name hname

theorem length_le_depth (hnode : disk.node? place = some node) : place.length ≤ disk.depth := by
  by_cases hplace : place = []
  · rw [hplace]
    exact Nat.zero_le _
  · rw [node?, if_neg hplace, lookup, Option.map_eq_some_iff] at hnode
    obtain ⟨found, hfind, -⟩ := hnode
    have hmem : found ∈ disk.nodes := List.mem_of_find?_eq_some hfind
    have heq : found.1 = place := by simpa using List.find?_some hfind
    rw [depth, ← heq]
    generalize disk.nodes = nodes at hmem
    induction nodes with
    | nil => exact absurd hmem List.not_mem_nil
    | cons first nodes ih =>
      rw [List.foldr_cons]
      rcases List.mem_cons.1 hmem with rfl | hlater
      · exact Nat.le_max_left _ _
      · exact Nat.le_trans (ih hlater) (Nat.le_max_right _ _)

/-! ## What lies in a folder -/

theorem below?_eq_some_iff {rest : Place} : below? folder place = some rest ↔ place = folder ++ rest := by
  induction folder generalizing place with
  | nil => rw [below?, Option.some.injEq, List.nil_append]
  | cons name folder ih =>
    cases place with
    | nil => simp [below?]
    | cons other place =>
      rw [below?]
      split
      · next hname => rw [ih, hname, List.cons_append, List.cons.injEq, and_iff_right rfl]
      · next hname => simp [Ne.symm hname]

theorem mem_contents_iff {rest : Place} :
    (rest, node) ∈ disk.contents folder ↔ rest ≠ [] ∧ (folder ++ rest, node) ∈ disk.nodes := by
  rw [contents, List.mem_filterMap]
  constructor
  · rintro ⟨⟨place, found⟩, hmem, hrest⟩
    simp only at hrest
    split at hrest
    · cases hrest
    · cases hrest
    · next below hne hbelow =>
      obtain ⟨rfl, rfl⟩ : below = rest ∧ found = node := by simpa using hrest
      refine ⟨hne, ?_⟩
      rwa [← below?_eq_some_iff.1 hbelow]
  · rintro ⟨hne, hmem⟩
    refine ⟨_, hmem, ?_⟩
    have hbelow : below? folder (folder ++ rest) = some rest := below?_eq_some_iff.2 rfl
    cases rest with
    | nil => exact absurd rfl hne
    | cons name rest => simp only [hbelow]

theorem Sound.mem_children_iff (h : disk.Sound) {name : String} :
    (name, node) ∈ disk.children folder ↔ disk.node? (folder ++ [name]) = some node := by
  have hne : folder ++ [name] ≠ [] := by simp
  rw [h.node?_eq_some_iff hne, children, List.mem_filterMap]
  constructor
  · rintro ⟨⟨rest, found⟩, hmem, hrest⟩
    split at hrest
    · next other child heq =>
      obtain ⟨rfl, rfl⟩ : other = name ∧ child = node := by simpa using hrest
      rw [heq] at hmem
      exact (mem_contents_iff.1 hmem).2
    · cases hrest
  · intro hmem
    exact ⟨([name], node), mem_contents_iff.2 ⟨by simp, hmem⟩, rfl⟩

/-! ## Where a path leads to -/

variable {path : String}

/-- A folder is read unless its path is too long. -/
theorem LeadsTo.readFolder_eq_ok_iff (h : disk.LeadsTo path place)
    (hfolder : disk.node? place = some .folder) {entries : List (String × Node)} :
    disk.readFolder path = .ok entries ↔ Fits path ∧ disk.children place = entries := by
  rw [readFolder]
  constructor
  · intro hread
    split at hread
    · cases hread
    · cases hread
    · next other hlocate =>
      obtain ⟨hother, hfits, -⟩ := locate_eq_ok_iff.1 hlocate
      obtain rfl : place = other := Except.ok.inj (h.follow_eq.symm.trans hother.follow_eq)
      exact ⟨hfits, Except.ok.inj hread⟩
  · rintro ⟨hfits, rfl⟩
    have hlocate : disk.locate path = .ok (place, .folder) :=
      locate_eq_ok_iff.2 ⟨h, hfits, hfolder, fun hne => absurd rfl hne⟩
    rw [hlocate]

theorem start_join {step : String} (h : Route.IsStep step) (disk : Disk) (path : String) :
    disk.start (Route.ofText (Route.join path step)) = disk.start (Route.ofText path) := by
  rw [Route.ofText_join h]
  rfl

/-- A step from a folder to something in it. -/
theorem LeadsTo.join (h : disk.LeadsTo path place) (hfolder : disk.node? place = some .folder)
    {name : String} (hname : IsName name) : disk.LeadsTo (Route.join path name) (place ++ [name]) where
  no_null := by
    rcases hname.join_cases path with ⟨-, hjoin⟩ | ⟨front, hjoin, hpath⟩
    · rw [hjoin]
      exact hname.no_null
    · have hfront : '\x00' ∉ front := by
        intro hmem
        refine h.no_null ?_
        rcases hpath with hpath | ⟨hpath, -⟩ <;> simp [hpath, hmem]
      rw [hjoin]
      simp [hfront, hname.no_null]
  ne_empty := Route.join_ne_empty hname.toIsStep path
  follow_eq := by
    rw [start_join hname.toIsStep, Route.parts_join hname.toIsStep, follow_append h.follow_eq,
      follow_cons_eq_ok_iff, if_neg hname.ne_dot, if_neg hname.ne_up, hname.short]
    exact ⟨hfolder, rfl⟩

/-- The names on the way from a folder to something in it lead there. -/
theorem LeadsTo.foldl_join (h : disk.LeadsTo path place) (htree : disk.IsTree) {inside : Place}
    (hnode : disk.node? (place ++ inside) = some node) :
    disk.LeadsTo (inside.foldl Route.join path) (place ++ inside) := by
  induction inside generalizing path place with
  | nil => rwa [List.append_nil]
  | cons name inside ih =>
    have hname : IsName name := htree.isName hnode (by simp)
    have hfolder : disk.node? place = some .folder :=
      htree.sound.folder_of_append (List.cons_ne_nil name inside) hnode
    rw [List.append_cons] at hnode ⊢
    exact ih (h.join hfolder hname) hnode

/-- The last step of a path to a file is the name of the file. -/
theorem LeadsTo.exists_eq_concat {step : String} (h : disk.LeadsTo (Route.join path step) place)
    (hsound : disk.Sound) (hstep : Route.IsStep step) {content : Content}
    (hfile : disk.node? place = some (.file content)) : ∃ folder, place = folder ++ [step] := by
  have hfollow := h.follow_eq
  rw [Route.parts_join hstep] at hfollow
  obtain ⟨folder, -, hlast⟩ := exists_follow_of_append hfollow
  obtain ⟨hfolder, hgoal⟩ := follow_cons_eq_ok_iff.1 hlast
  -- a lone dot and a step up would lead to a folder
  split at hgoal
  · obtain rfl : folder = place := Except.ok.inj hgoal
    rw [hfolder] at hfile
    cases hfile
  split at hgoal
  · obtain rfl : folder.dropLast = place := Except.ok.inj hgoal
    rw [hsound.folder_dropLast hfolder] at hfile
    cases hfile
  split at hgoal
  · cases hgoal
  · exact ⟨folder, (Except.ok.inj hgoal).symm⟩

end RollCall.Disk
