/-!
# Sets of names

Documents, folders and tags are named by strings, and every answer lists them in ascending order
of their code points. A set of names is therefore its ascending list.
-/

namespace RollCall

/-- A name put into an ascending list, where it is not there yet. -/
def insertAscending (name : String) : List String → List String
  | [] => [name]
  | other :: names =>
    if name < other then name :: other :: names
    else if name = other then other :: names
    else other :: insertAscending name names

theorem mem_insertAscending {name x : String} {names : List String} :
    x ∈ insertAscending name names ↔ x = name ∨ x ∈ names := by
  induction names with
  | nil => simp [insertAscending]
  | cons other names ih =>
    simp only [insertAscending]
    split
    · simp
    · split
      · next h => subst h; simp
      · simp [ih, or_left_comm]

theorem pairwise_insertAscending {name : String} {names : List String}
    (h : names.Pairwise (· < ·)) : (insertAscending name names).Pairwise (· < ·) := by
  induction names with
  | nil => simp [insertAscending]
  | cons other names ih =>
    obtain ⟨hother, hnames⟩ := List.pairwise_cons.1 h
    simp only [insertAscending]
    split
    · next hlt =>
      refine List.pairwise_cons.2 ⟨fun x hx => ?_, h⟩
      rcases List.mem_cons.1 hx with rfl | hx
      · exact hlt
      · exact String.lt_trans hlt (hother x hx)
    · next hge =>
      split
      · exact h
      · next hne =>
        refine List.pairwise_cons.2 ⟨fun x hx => ?_, ih hnames⟩
        rcases mem_insertAscending.1 hx with rfl | hx
        · exact Decidable.by_contra fun hlt =>
            hne (String.le_antisymm (String.not_lt.1 hlt) (String.not_lt.1 hge))
        · exact hother x hx

/-- A finite set of names. -/
structure NameSet where
  /-- The members in ascending order. -/
  toList : List String
  /-- No member is listed twice or out of order. -/
  ascending : toList.Pairwise (· < ·)

namespace NameSet

instance : DecidableEq NameSet := fun a b =>
  decidable_of_iff (a.toList = b.toList) ⟨fun h => by cases a; cases b; cases h; rfl, fun h => h ▸ rfl⟩

instance : Membership String NameSet := ⟨fun s x => x ∈ s.toList⟩

theorem mem_def {s : NameSet} {x : String} : x ∈ s ↔ x ∈ s.toList := Iff.rfl

instance (x : String) (s : NameSet) : Decidable (x ∈ s) :=
  inferInstanceAs (Decidable (x ∈ s.toList))

/-- The set without members. -/
def empty : NameSet := ⟨[], .nil⟩

instance : EmptyCollection NameSet := ⟨empty⟩

instance : Inhabited NameSet := ⟨empty⟩

@[simp] theorem not_mem_empty (x : String) : x ∉ (∅ : NameSet) := List.not_mem_nil

/-- Whether the set has no member. -/
def isEmpty (s : NameSet) : Bool := s.toList.isEmpty

/-- The set with one more member. -/
def insert (s : NameSet) (name : String) : NameSet :=
  ⟨insertAscending name s.toList, pairwise_insertAscending s.ascending⟩

@[simp] theorem mem_insert {s : NameSet} {name x : String} :
    x ∈ s.insert name ↔ x = name ∨ x ∈ s :=
  mem_insertAscending

/-- The members that satisfy a condition. -/
def filter (s : NameSet) (keep : String → Bool) : NameSet :=
  ⟨s.toList.filter keep, s.ascending.filter keep⟩

@[simp] theorem mem_filter {s : NameSet} {keep : String → Bool} {x : String} :
    x ∈ s.filter keep ↔ x ∈ s ∧ keep x = true :=
  List.mem_filter

/-- The set without the name. -/
def erase (s : NameSet) (name : String) : NameSet :=
  s.filter (· != name)

@[simp] theorem mem_erase {s : NameSet} {name x : String} : x ∈ s.erase name ↔ x ∈ s ∧ x ≠ name := by
  simp [erase]

/-- The set with the names of a list added. -/
def insertAll (s : NameSet) (names : List String) : NameSet :=
  names.foldl insert s

@[simp] theorem mem_insertAll {s : NameSet} {names : List String} {x : String} :
    x ∈ s.insertAll names ↔ x ∈ s ∨ x ∈ names := by
  unfold insertAll
  induction names generalizing s with
  | nil => simp
  | cons name names ih => simp [ih, or_assoc, or_left_comm]

/-- The set of the names in a list. -/
def ofList (names : List String) : NameSet :=
  insertAll ∅ names

@[simp] theorem mem_ofList {names : List String} {x : String} : x ∈ ofList names ↔ x ∈ names := by
  simp [ofList]

/-- The names in either set. -/
def union (a b : NameSet) : NameSet :=
  a.insertAll b.toList

@[simp] theorem mem_union {a b : NameSet} {x : String} : x ∈ a.union b ↔ x ∈ a ∨ x ∈ b :=
  mem_insertAll

/-- The names in both sets. -/
def inter (a b : NameSet) : NameSet :=
  a.filter (· ∈ b)

@[simp] theorem mem_inter {a b : NameSet} {x : String} : x ∈ a.inter b ↔ x ∈ a ∧ x ∈ b := by
  simp [inter]

end NameSet

end RollCall
