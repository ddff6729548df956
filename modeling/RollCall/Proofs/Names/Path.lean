import RollCall.Names.Path
import RollCall.Proofs.Text.Line

/-!
# Folders around a path, and the name at its end

A folder encloses what has its parts in front and at least one more behind them (`Path.Encloses`). The
folders that a document lies in are found by cutting its path at each slash, and what lies below a
folder by looking at how the path starts; both come to this (`mem_ancestors_iff`, `isUnder_iff`).
The name under which a document is shown stands in its path as it is.
-/

namespace RollCall.Path

/-- The path goes through the folder: its parts are those of the folder and more. -/
def Encloses (folder path : String) : Prop :=
  ∃ more, more ≠ [] ∧ Text.split '/' path.toList = Text.split '/' folder.toList ++ more

variable {folder path : String}

theorem encloses_iff : Encloses folder path ↔ ∃ rest, path.toList = folder.toList ++ '/' :: rest := by
  constructor
  · rintro ⟨more, hmore, hsplit⟩
    have hjoin := congrArg (Text.join '/') hsplit
    rw [Text.join_split, Text.join_append (Text.split_ne_nil _ _) hmore, Text.join_split] at hjoin
    exact ⟨_, hjoin⟩
  · rintro ⟨rest, hrest⟩
    exact ⟨Text.split '/' rest, Text.split_ne_nil _ _, by rw [hrest, Text.split_append_cons]⟩

theorem mem_ancestorChars_iff {front text : List Char} :
    front ∈ ancestorChars text ↔ ∃ rest, text = front ++ '/' :: rest := by
  induction text generalizing front with
  | nil => simp [ancestorChars]
  | cons c text ih =>
    have hdeeper : front ∈ (ancestorChars text).map (c :: ·) ↔
        ∃ deeper rest, front = c :: deeper ∧ text = deeper ++ '/' :: rest := by
      rw [List.mem_map]
      constructor
      · rintro ⟨deeper, hmem, rfl⟩
        obtain ⟨rest, hrest⟩ := ih.1 hmem
        exact ⟨deeper, rest, rfl, hrest⟩
      · rintro ⟨deeper, rest, rfl, hrest⟩
        exact ⟨deeper, ih.2 ⟨rest, hrest⟩, rfl⟩
    cases front with
    | nil => by_cases hc : c = '/' <;> simp [ancestorChars, hc]
    | cons d front => by_cases hc : c = '/' <;> simp_all [ancestorChars, eq_comm]

theorem mem_ancestors_iff : folder ∈ ancestors path ↔ Encloses folder path := by
  rw [encloses_iff, ← mem_ancestorChars_iff, ancestors, List.mem_map]
  constructor
  · rintro ⟨front, hfront, rfl⟩
    rwa [String.toList_ofList]
  · intro hfront
    exact ⟨folder.toList, hfront, String.ofList_toList⟩

theorem isUnder_iff : isUnder folder path = true ↔ Encloses folder path := by
  rw [encloses_iff, isUnder, Option.isSome_iff_exists]
  simp only [Text.after?_eq_some_iff, List.append_assoc, List.singleton_append]

/-- Nothing is trimmed from a folder without slashes around it. -/
theorem trimSlashes_eq_self (hstart : folder.toList.head? ≠ some '/')
    (hend : folder.toList.getLast? ≠ some '/') : trimSlashes folder = folder := by
  have hself : ∀ text : List Char, text.head? ≠ some '/' → text.dropWhile (· = '/') = text := by
    intro text htext
    cases text with
    | nil => rfl
    | cons c text => exact List.dropWhile_cons_of_neg (by simpa using htext)
  simp only [trimSlashes]
  rw [hself _ hstart, hself _ (by rwa [List.head?_reverse]), List.reverse_reverse, String.ofList_toList]

/-! ## The name of a document -/

theorem lastPart_suffix (text : List Char) : lastPart text <:+ text := by
  have hfirst : text.reverse.takeWhile (· ≠ '/') <+: text.reverse := List.takeWhile_prefix _
  have hsuffix := List.reverse_suffix.2 hfirst
  rwa [List.reverse_reverse] at hsuffix

theorem displayName_isInfix (path : String) : (displayName path).toList <:+: path.toList := by
  have hpart := lastPart_suffix path.toList
  rw [displayName, String.toList_ofList]
  cases hname : Text.before? ".md".toList (lastPart path.toList) with
  | none => exact hpart.isInfix
  | some name =>
    have hfirst : name <+: lastPart path.toList := ⟨_, (Text.before?_eq_some_iff.1 hname).symm⟩
    exact hfirst.isInfix.trans hpart.isInfix

end RollCall.Path
