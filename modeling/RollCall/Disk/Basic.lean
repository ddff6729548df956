/-!
# Disks

A disk is a finite set of places, each of which holds a file or is a folder. A place is the list of
names that lead to it from the top, which is always a folder. `Disk.node?` is the view of a disk: what
is at a place.

A disk has no links, neither hard nor symbolic ones: only one place leads to a file or a folder, and
what happens at a place changes no other.
-/

namespace RollCall

/-- What a file holds. -/
inductive Content where
  /-- The bytes are the UTF-8 form of a text. -/
  | text (text : String)
  /-- The bytes are no UTF-8 text. -/
  | bytes (bytes : List UInt8)
deriving DecidableEq, Repr

/-- What a file with some bytes holds. -/
def Content.ofBytes (bytes : ByteArray) : Content :=
  match String.fromUTF8? bytes with
  | some string => .text string
  | none => Content.bytes bytes.toList

/-- What is at a place. -/
inductive Node where
  /-- A folder, which may hold files and folders. -/
  | folder
  /-- A file. -/
  | file (content : Content)
deriving DecidableEq, Repr

/-- The names that lead to a place from the top. -/
abbrev Place := List String

/-- Files and folders, without hard or symbolic links: no two places share a file, and no place
stands for another. -/
structure Disk where
  /-- What is at the places below the top. -/
  nodes : List (Place × Node)
  /-- The place at which relative paths start. -/
  current : Place
deriving DecidableEq, Repr

namespace Disk

/-- The disk without files and folders. -/
def empty : Disk := ⟨[], []⟩

instance : EmptyCollection Disk := ⟨empty⟩

instance : Inhabited Disk := ⟨empty⟩

/-- What the list says about a place. -/
def lookup (place : Place) (nodes : List (Place × Node)) : Option Node :=
  (nodes.find? (·.1 = place)).map Prod.snd

/-- What is at a place. -/
def node? (disk : Disk) (place : Place) : Option Node :=
  if place = [] then some .folder else lookup place disk.nodes

/-- The disk with a node put at a place, in the stead of what was there. -/
def put (disk : Disk) (place : Place) (node : Node) : Disk :=
  { disk with nodes := (place, node) :: disk.nodes.filter (·.1 ≠ place) }

/-- The disk without what is at a place. -/
def erase (disk : Disk) (place : Place) : Disk :=
  { disk with nodes := disk.nodes.filter (·.1 ≠ place) }

theorem lookup_filter_ne (place other : Place) (nodes : List (Place × Node)) :
    lookup other (nodes.filter (·.1 ≠ place)) = if other = place then none else lookup other nodes := by
  induction nodes with
  | nil => simp [lookup]
  | cons node nodes ih =>
    by_cases hn : node.1 = place
    · by_cases ho : other = place
      · subst ho
        simpa [hn] using ih
      · have : ¬ place = other := fun h => ho h.symm
        simpa [lookup, hn, ho, this] using ih
    · by_cases ho : node.1 = other
      · have : ¬ other = place := fun h => hn (ho.trans h)
        simp [lookup, ho, this]
      · simpa [lookup, hn, ho] using ih

@[simp] theorem node?_top (disk : Disk) : disk.node? [] = some .folder := rfl

/-- A node put at a place is there, and all other places stay as they are. -/
theorem node?_put {place : Place} (h : place ≠ []) (disk : Disk) (node : Node) (other : Place) :
    (disk.put place node).node? other = if other = place then some node else disk.node? other := by
  by_cases ho : other = []
  · subst ho
    simp [node?, Ne.symm h]
  · have hf := lookup_filter_ne place other disk.nodes
    by_cases hp : other = place
    · subst hp
      simp [node?, put, lookup, ho]
    · have : ¬ place = other := fun h => hp h.symm
      simp only [node?, put, ho, if_false, hp]
      simpa [lookup, this, hp] using hf

/-- A place is empty once its node is taken away, and all other places stay as they are. -/
theorem node?_erase {place : Place} (h : place ≠ []) (disk : Disk) (other : Place) :
    (disk.erase place).node? other = if other = place then none else disk.node? other := by
  by_cases ho : other = []
  · subst ho
    simp [node?, Ne.symm h]
  · simpa [node?, erase, ho] using lookup_filter_ne place other disk.nodes

/-- What follows the first place in the second, which lies below it. -/
def below? : Place → Place → Option Place
  | [], place => some place
  | _ :: _, [] => none
  | name :: folder, other :: place => if name = other then below? folder place else none

/-- What lies below a folder: the names from it on, and what is there. -/
def contents (disk : Disk) (folder : Place) : List (Place × Node) :=
  disk.nodes.filterMap fun (place, node) =>
    match below? folder place with
    | none | some [] => none
    | some rest => some (rest, node)

/-- What lies directly in a folder: the names, and what is there. -/
def children (disk : Disk) (folder : Place) : List (String × Node) :=
  (disk.contents folder).filterMap fun
    | ([name], node) => some (name, node)
    | _ => none

/-- The length of the longest place. -/
def depth (disk : Disk) : Nat :=
  disk.nodes.foldr (fun node depth => max node.1.length depth) 0

/-- Each node lies in a folder. -/
def Sound (disk : Disk) : Prop :=
  (disk.nodes.map Prod.fst).Nodup ∧
    ∀ node ∈ disk.nodes, node.1 ≠ [] ∧ disk.node? node.1.dropLast = some .folder

end Disk

end RollCall
