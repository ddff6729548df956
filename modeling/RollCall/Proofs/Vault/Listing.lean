import RollCall.Proofs.Disk.Tree
import RollCall.Proofs.Traversal
import RollCall.Vault.Folder

/-!
# The documents that a vault lists

A vault finds its documents in two ways: one document by its path, and all of them by a walk through
the folders. The walk finds exactly what has no hidden name on the way (`FolderVault.mem_walk_iff`), and
it comes to an end where no folder on the way has too long a path (`FolderVault.exists_walk_iff`). A
path, however, also leads to hidden files and out of the vault, so that the two ways agree on what is
in the vault and not hidden (`FolderVault.documents_agree_iff`).
-/

namespace RollCall.FolderVault

open Disk (IsName)

/-! ## Names on the way -/

/-- None of the names starts with a dot. -/
def IsVisible (inside : Place) : Prop :=
  ∀ name ∈ inside, name.toList.head? ≠ some '.'

instance (inside : Place) : Decidable (IsVisible inside) :=
  inferInstanceAs (Decidable (∀ name ∈ inside, _))

theorem isVisible_cons_iff {name : String} {inside : Place} :
    IsVisible (name :: inside) ↔ name.toList.head? ≠ some '.' ∧ IsVisible inside :=
  List.forall_mem_cons

theorem isHidden_join_iff {name : String} (h : IsName name) (base : String) :
    isHidden (Route.join base name) = true ↔ name.toList.head? = some '.' := by
  rw [isHidden, Route.fileName?_join h.toIsStep h.ne_dot h.ne_up]
  simp

theorem isDocumentPath_join_iff {name : String} (h : IsName name) (base : String) :
    isDocumentPath (Route.join base name) = true ↔
      (Route.splitExtension name.toList).2 = some ['m', 'd'] := by
  rw [isDocumentPath, Route.extension?, Route.fileName?_join h.toIsStep h.ne_dot h.ne_up]
  simp

/-- What the names on the way make up is taken apart into them. -/
theorem parts_relativePath {inside : Place} (h : ∀ name ∈ inside, IsName name) :
    Route.parts (relativePath inside) = inside := by
  rw [Route.parts, relativePath, String.toList_ofList]
  by_cases hnil : inside = []
  · subst hnil
    rfl
  · have hsplit : Text.split '/' (Text.join '/' (inside.map String.toList)) =
        inside.map String.toList := by
      apply Text.split_join
      · simpa using hnil
      · intro piece hpiece
        obtain ⟨name, hname, rfl⟩ := List.mem_map.1 hpiece
        exact (h name hname).no_slash
    have hall : ∀ piece ∈ inside.map String.toList, decide (piece ≠ []) = true := by
      intro piece hpiece
      obtain ⟨name, hname, rfl⟩ := List.mem_map.1 hpiece
      exact decide_eq_true (h name hname).toList_ne_nil
    rw [hsplit, List.filter_eq_self.2 hall, List.map_map]
    simp [Function.comp_def]

theorem fullPath_relativePath (vault : FolderVault) {inside : Place}
    (h : ∀ name ∈ inside, IsName name) :
    vault.fullPath (relativePath inside) = inside.foldl Route.join vault.root := by
  rw [fullPath, parts_relativePath h]

theorem components_foldl_join {base : String} (hbase : base ≠ "") {inside : Place}
    (h : ∀ name ∈ inside, IsName name) :
    Route.components (inside.foldl Route.join base) = Route.components base ++ inside := by
  induction inside generalizing base with
  | nil => rw [List.foldl_nil, List.append_nil]
  | cons name inside ih =>
    obtain ⟨hname, hinside⟩ := List.forall_mem_cons.1 h
    rw [List.foldl_cons, ih (Route.join_ne_empty hname.toIsStep base) hinside,
      Route.components_join hname.toIsStep hname.ne_dot hbase, List.append_assoc,
      List.singleton_append]

/-- The path below the vault of what the names lead to is made up of them. -/
theorem relativePath?_foldl_join {vault : FolderVault} (hroot : vault.root ≠ "") {inside : Place}
    (h : ∀ name ∈ inside, IsName name) :
    vault.relativePath? (inside.foldl Route.join vault.root) = some (relativePath inside) := by
  rw [relativePath?, components_foldl_join hroot h, Disk.below?_eq_some_iff.2 rfl, Option.map_some]

/-! ## What a walk finds -/

/-- What has no hidden name on the way from a folder, with its path. -/
def FoundIn (disk : Disk) (place : Place) (folder : String) (item : String × Node) : Prop :=
  ∃ inside, inside ≠ [] ∧ IsVisible inside ∧ disk.node? (place ++ inside) = some item.2 ∧
    inside.foldl Route.join folder = item.1

variable {disk : Disk} {place : Place} {folder : String} {item : String × Node}

/-- What is found is an entry of the folder or is found in a folder in it. -/
theorem foundIn_iff (h : disk.Sound) :
    FoundIn disk place folder item ↔
      ∃ name child, disk.node? (place ++ [name]) = some child ∧ name.toList.head? ≠ some '.' ∧
        ((Route.join folder name, child) = item ∨
          child = .folder ∧ FoundIn disk (place ++ [name]) (Route.join folder name) item) := by
  constructor
  · rintro ⟨inside, hne, hvisible, hnode, hpath⟩
    cases inside with
    | nil => exact absurd rfl hne
    | cons name rest =>
      obtain ⟨hname, hrest⟩ := isVisible_cons_iff.1 hvisible
      rw [List.append_cons] at hnode
      by_cases hnil : rest = []
      · subst hnil
        rw [List.append_nil] at hnode
        exact ⟨name, item.2, hnode, hname, .inl (Prod.ext hpath rfl)⟩
      · exact ⟨name, .folder, h.folder_of_append hnil hnode, hname,
          .inr ⟨rfl, rest, hnil, hrest, hnode, hpath⟩⟩
  · rintro ⟨name, child, hchild, hname, rfl | ⟨rfl, rest, -, hrest, hnode, hpath⟩⟩
    · exact ⟨[name], by simp, isVisible_cons_iff.2 ⟨hname, by simp [IsVisible]⟩, hchild, rfl⟩
    · rw [← List.append_cons] at hnode
      exact ⟨name :: rest, by simp, isVisible_cons_iff.2 ⟨hname, hrest⟩, hnode, hpath⟩

section Visit

variable {within : String → Except StorageError (List (String × Node))} {name : String} {child : Node}

/-- A folder in a folder can fail to be visited, everything else is visited. -/
theorem exists_visit_iff (hname : IsName name) :
    (∃ part, visit within folder (name, child) = .ok part) ↔
      (name.toList.head? ≠ some '.' → child = .folder →
        ∃ rest, within (Route.join folder name) = .ok rest) := by
  have hhidden := isHidden_join_iff hname folder
  simp only [visit]
  split
  · next h => simp [hhidden.1 h]
  next h =>
  rw [hhidden] at h
  cases child with
  | file content => simp
  | folder => cases within (Route.join folder name) <;> simp [Except.map, h]

/-- A visit finds the entry, if it is not hidden, and what is found in it. -/
theorem mem_visit_iff (hname : IsName name) {part : List (String × Node)}
    (hvisit : visit within folder (name, child) = .ok part) :
    item ∈ part ↔ name.toList.head? ≠ some '.' ∧
      ((Route.join folder name, child) = item ∨
        child = .folder ∧ ∃ rest, within (Route.join folder name) = .ok rest ∧ item ∈ rest) := by
  have hhidden := isHidden_join_iff hname folder
  simp only [visit] at hvisit
  split at hvisit
  · next h =>
    obtain rfl := Except.ok.inj hvisit
    simp [hhidden.1 h]
  next h =>
  rw [hhidden] at h
  cases child with
  | file content =>
    obtain rfl := Except.ok.inj hvisit
    simp [h, eq_comm]
  | folder =>
    cases hrest : within (Route.join folder name) with
    | error error => simp [hrest, Except.map] at hvisit
    | ok rest =>
      rw [hrest, Except.map, Except.ok.injEq] at hvisit
      rw [← hvisit, List.mem_cons, and_iff_right h, eq_comm]
      simp

end Visit

theorem walk_succ_eq_ok_iff {depth : Nat} {found : List (String × Node)} :
    walk disk (depth + 1) folder = .ok found ↔
      ∃ entries parts, disk.readFolder folder = .ok entries ∧
        entries.mapM (visit (walk disk depth) folder) = .ok parts ∧ parts.flatten = found := by
  rw [walk]
  cases disk.readFolder folder with
  | error fault => simp
  | ok entries =>
    cases hparts : entries.mapM (visit (walk disk depth) folder) with
    | error error => simp [hparts, Except.map]
    | ok parts => simp [hparts, Except.map]

section Walk

variable (htree : disk.IsTree) {depth : Nat}

include htree

/-- A walk goes on into a folder in the folder as deep as it has to. -/
theorem leadsTo_child {name : String} (hleads : disk.LeadsTo folder place)
    (hfolder : disk.node? place = some .folder) (hdeep : disk.depth < place.length + (depth + 1))
    (hchild : disk.node? (place ++ [name]) = some .folder) :
    disk.LeadsTo (Route.join folder name) (place ++ [name]) ∧
      disk.depth < (place ++ [name]).length + depth := by
  have hname : IsName name := htree.isName hchild (by simp)
  refine ⟨hleads.join hfolder hname, ?_⟩
  rw [List.length_append, List.length_singleton]
  omega

/-- A walk that goes deep enough finds exactly what has no hidden name on the way. -/
theorem mem_walk_iff {found : List (String × Node)} (hleads : disk.LeadsTo folder place)
    (hfolder : disk.node? place = some .folder) (hdeep : disk.depth < place.length + depth)
    (hwalk : walk disk depth folder = .ok found) : item ∈ found ↔ FoundIn disk place folder item := by
  induction depth generalizing folder place found item with
  -- nothing is as deep as the depth of the disk allows, so that the walk does not end too early
  | zero => exact absurd (Disk.length_le_depth hfolder) (Nat.not_le.2 hdeep)
  | succ depth ih =>
    obtain ⟨entries, parts, hread, hparts, rfl⟩ := walk_succ_eq_ok_iff.1 hwalk
    obtain ⟨-, rfl⟩ := (hleads.readFolder_eq_ok_iff hfolder).1 hread
    -- what the walk finds in one of the folders in the folder
    have hinner : ∀ name rest, disk.node? (place ++ [name]) = some .folder →
        walk disk depth (Route.join folder name) = .ok rest →
        (item ∈ rest ↔ FoundIn disk (place ++ [name]) (Route.join folder name) item) := by
      intro name rest hchild hrest
      obtain ⟨hinside, hdeeper⟩ := leadsTo_child htree hleads hfolder hdeep hchild
      exact ih hinside hchild hdeeper hrest
    rw [mem_flatten_iff_of_mapM hparts, foundIn_iff htree.sound]
    constructor
    · rintro ⟨⟨name, child⟩, hentry, part, hvisit, hmem⟩
      have hchild := htree.sound.mem_children_iff.1 hentry
      have hname : IsName name := htree.isName hchild (by simp)
      obtain ⟨hvisible, hitem⟩ := (mem_visit_iff hname hvisit).1 hmem
      refine ⟨name, child, hchild, hvisible, hitem.imp_right ?_⟩
      rintro ⟨rfl, rest, hrest, hmem⟩
      exact ⟨rfl, (hinner name rest hchild hrest).1 hmem⟩
    · rintro ⟨name, child, hchild, hvisible, hitem⟩
      have hentry := htree.sound.mem_children_iff.2 hchild
      have hname : IsName name := htree.isName hchild (by simp)
      obtain ⟨part, hvisit⟩ := exists_mapM_eq_ok_iff.1 ⟨parts, hparts⟩ _ hentry
      refine ⟨(name, child), hentry, part, hvisit, (mem_visit_iff hname hvisit).2 ⟨hvisible, ?_⟩⟩
      refine hitem.imp_right ?_
      rintro ⟨rfl, hfound⟩
      obtain ⟨rest, hrest⟩ := (exists_visit_iff hname).1 ⟨part, hvisit⟩ hvisible rfl
      exact ⟨rfl, rest, hrest, (hinner name rest hchild hrest).2 hfound⟩

/-- A walk comes to an end unless the path of a folder on the way is too long. -/
theorem exists_walk_iff (hleads : disk.LeadsTo folder place)
    (hfolder : disk.node? place = some .folder) (hdeep : disk.depth < place.length + depth) :
    (∃ found, walk disk depth folder = .ok found) ↔
      ∀ inside, IsVisible inside → disk.node? (place ++ inside) = some .folder →
        Disk.Fits (inside.foldl Route.join folder) := by
  induction depth generalizing folder place with
  | zero => exact absurd (Disk.length_le_depth hfolder) (Nat.not_le.2 hdeep)
  | succ depth ih =>
    have hinner : ∀ name, disk.node? (place ++ [name]) = some .folder →
        ((∃ rest, walk disk depth (Route.join folder name) = .ok rest) ↔
          ∀ inside, IsVisible inside → disk.node? (place ++ [name] ++ inside) = some .folder →
            Disk.Fits (inside.foldl Route.join (Route.join folder name))) := by
      intro name hchild
      obtain ⟨hinside, hdeeper⟩ := leadsTo_child htree hleads hfolder hdeep hchild
      exact ih hinside hchild hdeeper
    constructor
    · rintro ⟨found, hwalk⟩ inside hvisible hnode
      obtain ⟨entries, parts, hread, hparts, -⟩ := walk_succ_eq_ok_iff.1 hwalk
      obtain ⟨hfits, rfl⟩ := (hleads.readFolder_eq_ok_iff hfolder).1 hread
      cases inside with
      | nil => exact hfits
      | cons name inside =>
        obtain ⟨hfirst, hinside⟩ := isVisible_cons_iff.1 hvisible
        have hname : IsName name := htree.isName hnode (by simp)
        rw [List.append_cons] at hnode
        have hchild : disk.node? (place ++ [name]) = some .folder := htree.sound.folder_of_folder hnode
        have hentry := htree.sound.mem_children_iff.2 hchild
        have hvisit := exists_mapM_eq_ok_iff.1 ⟨parts, hparts⟩ _ hentry
        have hrest := (exists_visit_iff hname).1 hvisit hfirst rfl
        exact (hinner name hchild).1 hrest inside hinside hnode
    · intro h
      have hread : disk.readFolder folder = .ok (disk.children place) := by
        refine (hleads.readFolder_eq_ok_iff hfolder).2 ⟨?_, rfl⟩
        exact h [] (by simp [IsVisible]) (by rwa [List.append_nil])
      have hvisits : ∀ entry ∈ disk.children place,
          ∃ part, visit (walk disk depth) folder entry = .ok part := by
        rintro ⟨name, child⟩ hentry
        have hchild := htree.sound.mem_children_iff.1 hentry
        rw [exists_visit_iff (htree.isName hchild (by simp))]
        rintro hfirst rfl
        refine (hinner name hchild).2 fun inside hinside hnode => ?_
        rw [← List.append_cons] at hnode
        exact h (name :: inside) (isVisible_cons_iff.2 ⟨hfirst, hinside⟩) hnode
      obtain ⟨parts, hparts⟩ := exists_mapM_eq_ok_iff.2 hvisits
      exact ⟨parts.flatten, walk_succ_eq_ok_iff.2 ⟨_, parts, hread, hparts, rfl⟩⟩

end Walk

/-! ## Documents and folders of a vault -/

section Tree

variable {vault : FolderVault} {root : Place} (htree : vault.disk.IsTree)
  (hroot : vault.disk.locate vault.root = .ok (root, .folder)) {choose : String × Node → Bool}

include htree hroot

/-- All is listed unless the path of a folder on the way is too long. -/
theorem exists_list_iff :
    (∃ paths, vault.list choose = .ok paths) ↔
      ∀ inside, IsVisible inside → vault.disk.node? (root ++ inside) = some .folder →
        Disk.Fits (vault.fullPath (relativePath inside)) := by
  obtain ⟨hleads, -, hfolder, -⟩ := Disk.locate_eq_ok_iff.1 hroot
  have hdeep : vault.disk.depth < root.length + (vault.disk.depth + 1) := by omega
  have hwalk : (∃ paths, vault.list choose = .ok paths) ↔
      ∃ found, walk vault.disk (vault.disk.depth + 1) vault.root = .ok found := by
    rw [list]
    cases walk vault.disk (vault.disk.depth + 1) vault.root <;> simp [Except.map]
  rw [hwalk, exists_walk_iff htree hleads hfolder hdeep]
  refine forall_congr' fun inside => imp_congr_right fun _ => imp_congr_right fun hnode => ?_
  rw [fullPath_relativePath vault fun name hname => htree.isName hnode (by simp [hname])]

/-- What is chosen is listed if it has no hidden name on the way. -/
theorem mem_list_iff {paths : List String} (hlist : vault.list choose = .ok paths) {path : String} :
    path ∈ paths ↔ ∃ inside node, inside ≠ [] ∧ IsVisible inside ∧
      vault.disk.node? (root ++ inside) = some node ∧
      choose (inside.foldl Route.join vault.root, node) = true ∧ relativePath inside = path := by
  obtain ⟨hleads, -, hfolder, -⟩ := Disk.locate_eq_ok_iff.1 hroot
  have hdeep : vault.disk.depth < root.length + (vault.disk.depth + 1) := by omega
  rw [list] at hlist
  cases hwalk : walk vault.disk (vault.disk.depth + 1) vault.root with
  | error error => simp [hwalk, Except.map] at hlist
  | ok found =>
  rw [hwalk, Except.map, Except.ok.injEq] at hlist
  have hrelative : ∀ inside node, vault.disk.node? (root ++ inside) = some node →
      vault.relativePath? (inside.foldl Route.join vault.root) = some (relativePath inside) := by
    intro inside node hnode
    exact relativePath?_foldl_join hleads.ne_empty fun name hname =>
      htree.isName hnode (by simp [hname])
  rw [← hlist, ← NameSet.mem_def, NameSet.mem_ofList, List.mem_filterMap]
  constructor
  · rintro ⟨⟨full, node⟩, hitem, hpath⟩
    obtain ⟨hmem, hchosen⟩ := List.mem_filter.1 hitem
    obtain ⟨inside, hne, hvisible, hnode, rfl⟩ := (mem_walk_iff htree hleads hfolder hdeep hwalk).1 hmem
    have hsame : some (relativePath inside) = some path := (hrelative inside node hnode).symm.trans hpath
    exact ⟨inside, node, hne, hvisible, hnode, hchosen, Option.some.inj hsame⟩
  · rintro ⟨inside, node, hne, hvisible, hnode, hchosen, rfl⟩
    have hmem : (inside.foldl Route.join vault.root, node) ∈ found :=
      (mem_walk_iff htree hleads hfolder hdeep hwalk).2 ⟨inside, hne, hvisible, hnode, rfl⟩
    exact ⟨_, List.mem_filter.2 ⟨hmem, hchosen⟩, hrelative inside node hnode⟩

/-- A document is listed if it has no hidden name on the way. -/
theorem mem_documents_iff {paths : List String} (hpaths : Storage.documents vault = .ok paths)
    {inside : Place} {content : Content}
    (hfile : vault.disk.node? (root ++ inside) = some (.file content))
    (hdocument : isDocumentPath (inside.foldl Route.join vault.root) = true) :
    relativePath inside ∈ paths ↔ IsVisible inside := by
  have hnames : ∀ name ∈ inside, IsName name := fun name hname => htree.isName hfile (by simp [hname])
  have hlist : vault.list isDocument = .ok paths := hpaths
  rw [mem_list_iff htree hroot hlist]
  constructor
  · rintro ⟨other, node, -, hvisible, hnode, -, hpath⟩
    have hothers : ∀ name ∈ other, IsName name := fun name hname => htree.isName hnode (by simp [hname])
    -- the names can be read off the path
    rwa [← parts_relativePath hothers, hpath, parts_relativePath hnames] at hvisible
  · intro hvisible
    have hne : inside ≠ [] := by
      rintro rfl
      obtain ⟨-, -, hfolder, -⟩ := Disk.locate_eq_ok_iff.1 hroot
      rw [List.append_nil, hfolder] at hfile
      cases hfile
    exact ⟨inside, _, hne, hvisible, hfile, hdocument, rfl⟩

omit htree hroot in
theorem holds_eq_true_iff {path : String} :
    Storage.holds vault path = true ↔ isDocumentPath (vault.fullPath path) = true ∧
      ∃ place content, vault.disk.locate (vault.fullPath path) = .ok (place, .file content) := by
  simp only [Storage.holds, Bool.and_eq_true, Disk.isFile]
  refine and_congr_right fun _ => ?_
  cases vault.disk.locate (vault.fullPath path) with
  | error fault => simp
  | ok found =>
    obtain ⟨place, node⟩ := found
    cases node <;> simp

/-- The name of a file tells whether the paths to it are named like a document. -/
theorem isDocumentPath_fullPath_iff {path : String} {inside : Place} {content : Content}
    (hlocate : vault.disk.locate (vault.fullPath path) = .ok (root ++ inside, .file content)) :
    isDocumentPath (vault.fullPath path) = true ↔
      isDocumentPath (inside.foldl Route.join vault.root) = true := by
  obtain ⟨-, -, hfolder, -⟩ := Disk.locate_eq_ok_iff.1 hroot
  obtain ⟨hleads, -, hfile, -⟩ := Disk.locate_eq_ok_iff.1 hlocate
  rcases List.eq_nil_or_concat' (Route.parts path) with hparts | ⟨front, step, hparts⟩
  · -- the path of the vault leads to a folder
    rw [fullPath, hparts, List.foldl_nil, hroot] at hlocate
    simp at hlocate
  · have hstep : Route.IsStep step := Route.isStep_of_mem_parts (by rw [hparts]; simp)
    rw [fullPath, hparts, List.foldl_append, List.foldl_cons, List.foldl_nil] at hleads ⊢
    obtain ⟨folder, hplace⟩ := hleads.exists_eq_concat htree.sound hstep hfile
    rcases List.eq_nil_or_concat' inside with rfl | ⟨outer, name, rfl⟩
    · rw [List.append_nil, hfolder] at hfile
      cases hfile
    · obtain ⟨-, hlast⟩ := List.append_inj' ((List.append_assoc _ _ _).trans hplace) rfl
      obtain rfl : name = step := List.head_eq_of_cons_eq hlast
      have hname : IsName name := htree.isName hfile (by simp)
      rw [List.foldl_append, List.foldl_cons, List.foldl_nil, isDocumentPath_join_iff hname,
        isDocumentPath_join_iff hname]

/-- What is listed is found by its path, if this is not too long. -/
theorem holds_of_mem_documents {paths : List String} (hpaths : Storage.documents vault = .ok paths)
    {path : String} (hpath : path ∈ paths) :
    (Storage.holds vault path = true ↔ Disk.Fits (vault.fullPath path)) ∧
      vault.relativePath? (vault.fullPath path) = some path := by
  obtain ⟨hleads, -, -, -⟩ := Disk.locate_eq_ok_iff.1 hroot
  have hlist : vault.list isDocument = .ok paths := hpaths
  obtain ⟨inside, node, hne, -, hnode, hchosen, rfl⟩ := (mem_list_iff htree hroot hlist).1 hpath
  have hnames : ∀ name ∈ inside, IsName name := fun name hname => htree.isName hnode (by simp [hname])
  rw [fullPath_relativePath vault hnames]
  refine ⟨?_, relativePath?_foldl_join hleads.ne_empty hnames⟩
  have hinside := hleads.foldl_join htree hnode
  cases node with
  | folder => cases hchosen
  | file content =>
  rw [holds_eq_true_iff, fullPath_relativePath vault hnames]
  constructor
  · rintro ⟨-, place, found, hlocate⟩
    exact (Disk.locate_eq_ok_iff.1 hlocate).2.1
  · intro hfits
    refine ⟨hchosen, root ++ inside, content, Disk.locate_eq_ok_iff.2 ⟨hinside, hfits, hnode, fun _ => ?_⟩⟩
    rcases List.eq_nil_or_concat' inside with rfl | ⟨outer, name, rfl⟩
    · exact absurd rfl hne
    · rw [List.foldl_append, List.foldl_cons, List.foldl_nil,
        Route.ofText_join (hnames name (by simp)).toIsStep]

/-- The documents are listed unless the path of a folder of the vault is too long. A path that a
document is found by leads to a listed one if this lies in the vault with no hidden name on the way,
and a listed document is found by its path, if this is not too long. -/
theorem documents_agree_iff :
    ((∃ paths, Storage.documents vault = .ok paths) ↔
        ∀ inside, IsVisible inside → vault.disk.node? (root ++ inside) = some .folder →
          Disk.Fits (vault.fullPath (relativePath inside))) ∧
      ∀ paths, Storage.documents vault = .ok paths →
        (∀ path, Storage.holds vault path = true → ∃ place content,
          vault.disk.locate (vault.fullPath path) = .ok (place, .file content) ∧
            ((∃ inside, place = root ++ inside ∧ relativePath inside ∈ paths) ↔
              ∃ inside, place = root ++ inside ∧ IsVisible inside)) ∧
        ∀ path ∈ paths,
          (Storage.holds vault path = true ↔ Disk.Fits (vault.fullPath path)) ∧
            vault.relativePath? (vault.fullPath path) = some path := by
  refine ⟨exists_list_iff htree hroot, fun paths hpaths => ⟨fun path hholds => ?_, fun path hpath =>
    holds_of_mem_documents htree hroot hpaths hpath⟩⟩
  obtain ⟨hdocument, place, content, hlocate⟩ := holds_eq_true_iff.1 hholds
  obtain ⟨-, -, hfile, -⟩ := Disk.locate_eq_ok_iff.1 hlocate
  refine ⟨place, content, hlocate, exists_congr fun inside => and_congr_right ?_⟩
  rintro rfl
  have hinside := (isDocumentPath_fullPath_iff htree hroot hlocate).1 hdocument
  exact mem_documents_iff htree hroot hpaths hfile hinside

end Tree

/-- A document in a folder is also found by a path through a hidden folder. -/
theorem documents_agree_iff_choir :
    let vault : FolderVault := ⟨⟨[(["v"], .folder), (["v", "choir"], .folder),
      (["v", "choir", "ann.md"], .file (.text "")), (["v", ".old"], .folder),
      (["v", ".old", "bob.md"], .file (.text ""))], []⟩, "/v"⟩
    vault.disk.IsTree ∧ vault.disk.locate vault.root = .ok (["v"], .folder) ∧
      Storage.documents vault = .ok ["choir/ann.md"] ∧
      (∀ inside, IsVisible inside → vault.disk.node? (["v"] ++ inside) = some .folder →
        Disk.Fits (vault.fullPath (relativePath inside))) ∧
      Storage.holds vault ".old/..//choir/ann.md" = true ∧
      (∃ place content,
        vault.disk.locate (vault.fullPath ".old/..//choir/ann.md") = .ok (place, .file content) ∧
          ∃ inside, place = ["v"] ++ inside ∧ relativePath inside ∈ ["choir/ann.md"]) ∧
      Storage.holds vault "choir/ann.md" = true ∧
      vault.relativePath? (vault.fullPath "choir/ann.md") = some "choir/ann.md" := by
  intro vault
  have htree : vault.disk.IsTree := by decide +kernel
  have hroot : vault.disk.locate vault.root = .ok (["v"], .folder) := by decide +kernel
  have hdocuments : Storage.documents vault = .ok ["choir/ann.md"] := by decide +kernel
  have hholds : Storage.holds vault ".old/..//choir/ann.md" = true := by decide +kernel
  have hfits : Disk.Fits (vault.fullPath "choir/ann.md") := by decide +kernel
  have hfound : vault.disk.locate (vault.fullPath ".old/..//choir/ann.md") =
      .ok (["v", "choir", "ann.md"], .file (.text "")) := by decide +kernel
  obtain ⟨hlisted, hagree⟩ := documents_agree_iff htree hroot
  obtain ⟨hpaths, hmembers⟩ := hagree _ hdocuments
  obtain ⟨place, content, hlocate, hplace⟩ := hpaths _ hholds
  obtain ⟨hexists, hrelative⟩ := hmembers "choir/ann.md" List.mem_cons_self
  obtain rfl : ["v", "choir", "ann.md"] = place :=
    congrArg Prod.fst (Except.ok.inj (hfound.symm.trans hlocate))
  exact ⟨htree, hroot, hdocuments, hlisted.1 ⟨_, hdocuments⟩, hholds,
    ⟨_, content, hlocate, hplace.2 ⟨["choir", "ann.md"], rfl, by decide +kernel⟩⟩,
    hexists.2 hfits, hrelative⟩

/-- A hidden document is found by its path, but not listed. -/
theorem holds_hidden :
    let vault : FolderVault := ⟨⟨[(["v"], .folder), (["v", ".attendance"], .folder),
      (["v", ".attendance", "hidden.md"], .file (.text ""))], []⟩, "/v"⟩
    vault.disk.IsTree ∧ vault.disk.locate vault.root = .ok (["v"], .folder) ∧
      Storage.holds vault ".attendance/hidden.md" = true ∧
      vault.relativePath? (vault.fullPath ".attendance/hidden.md") = some ".attendance/hidden.md" ∧
      Storage.documents vault = .ok [] := by
  decide +kernel

end RollCall.FolderVault
