import RollCall.Export.Matrix
import RollCall.Proofs.Calendar.Date
import RollCall.Proofs.Text.Line

/-!
# The cells of a table

Reading the cells between the fences of a table (`cells?`) gives back what was written, as long as no
cell holds a tab or a line feed (`cells?_fenced`). The written form of a matrix is such a table
(`text_eq`), in which every row ends with an empty cell and so does a header without names.
-/

namespace RollCall.Matrix

/-- The cells between the fences, line by line. -/
def cells? (text : String) : Option (List (List String)) :=
  ((Text.after? "```tsv\n".toList text.toList).bind (Text.before? ('\n' :: "```".toList))).map fun lines =>
    (Text.split '\n' lines).map fun line => (Text.split '\t' line).map String.ofList

/-- A line of cells. -/
def lineOf (cells : List String) : List Char :=
  Text.join '\t' (cells.map String.toList)

/-- Lines of cells between fences. -/
def fenced (table : List (List String)) : String :=
  String.ofList ("```tsv\n".toList ++ (table.map lineOf).flatMap (· ++ ['\n']) ++ "```".toList)

/-- A cell that does not look like more than one. -/
def IsPlain (cell : String) : Prop := '\t' ∉ cell.toList ∧ '\n' ∉ cell.toList

instance (cell : String) : Decidable (IsPlain cell) :=
  inferInstanceAs (Decidable ('\t' ∉ cell.toList ∧ '\n' ∉ cell.toList))

theorem isPlain_text (date : Date) : IsPlain date.text := by
  have hblank : ∀ c ∈ date.chars, Text.isBlank c = false := fun c hc => Date.isBlank_of_mem_chars hc
  unfold IsPlain Date.text
  rw [String.toList_ofList]
  constructor
  · intro htab
    exact absurd (hblank _ htab) (by decide)
  · intro hnewline
    exact absurd (hblank _ hnewline) (by decide)

section Reading

variable {cells : List String} {table : List (List String)}

theorem split_lineOf (hne : cells ≠ []) (hplain : ∀ cell ∈ cells, IsPlain cell) :
    (Text.split '\t' (lineOf cells)).map String.ofList = cells := by
  have hsplit : Text.split '\t' (lineOf cells) = cells.map String.toList := by
    refine Text.split_join (by simpa using hne) ?_
    intro piece hpiece
    obtain ⟨cell, hcell, rfl⟩ := List.mem_map.1 hpiece
    exact (hplain cell hcell).1
  rw [hsplit, List.map_map]
  simp [Function.comp_def]

theorem newline_not_mem_lineOf (hplain : ∀ cell ∈ cells, IsPlain cell) : '\n' ∉ lineOf cells := by
  intro hmem
  rcases Text.mem_join hmem with htab | ⟨piece, hpiece, hnewline⟩
  · exact absurd htab (by decide)
  · obtain ⟨cell, hcell, rfl⟩ := List.mem_map.1 hpiece
    exact (hplain cell hcell).2 hnewline

/-- What is written between fences is read again. -/
theorem cells?_fenced (hne : table ≠ []) (hrows : ∀ cells ∈ table, cells ≠ [])
    (hplain : ∀ cells ∈ table, ∀ cell ∈ cells, IsPlain cell) :
    cells? (fenced table) = some table := by
  have hlines : table.map lineOf ≠ [] := by simpa using hne
  have htext : (fenced table).toList =
      "```tsv\n".toList ++ (Text.join '\n' (table.map lineOf) ++ '\n' :: "```".toList) := by
    unfold fenced
    rw [String.toList_ofList, Text.flatMap_append_separator hlines]
    simp only [List.append_assoc, List.cons_append, List.nil_append]
  have hsplit : Text.split '\n' (Text.join '\n' (table.map lineOf)) = table.map lineOf := by
    refine Text.split_join hlines ?_
    intro line hline
    obtain ⟨cells, hcells, rfl⟩ := List.mem_map.1 hline
    exact newline_not_mem_lineOf (hplain cells hcells)
  unfold cells?
  rw [htext, Text.bind_before?_after?, Option.map_some, hsplit, List.map_map]
  congr 1
  conv => rhs; rw [← List.map_id table]
  refine List.map_congr_left fun cells hcells => ?_
  exact split_lineOf (hrows cells hcells) (hplain cells hcells)

end Reading

/-! ## The written form as a table of cells -/

/-- The cells of the header. Without attendees there is an empty cell in their place. -/
def headerCells (attendees : List String) : List String :=
  if attendees = [] then ["date", ""] else "date" :: attendees.map Path.displayName

/-- The cells of all lines. The tab behind the last state of a row makes an empty cell. -/
def table (matrix : Matrix) : List (List String) :=
  headerCells matrix.attendees ::
    matrix.rows.map fun (date, states) => date.text :: states ++ [""]

theorem header_eq (matrix : Matrix) :
    matrix.header = lineOf (headerCells matrix.attendees) ++ ['\n'] := by
  have hdate : "date\t".toList = "date".toList ++ ['\t'] := rfl
  unfold header headerCells lineOf
  by_cases hnil : matrix.attendees = []
  · rw [if_pos hnil, hnil]
    rfl
  · have hnames : (matrix.attendees.map Path.displayName).map String.toList ≠ [] := by simpa using hnil
    rw [if_neg hnil, List.map_cons, Text.join_cons_of_ne_nil _ hnames, hdate, List.map_map]
    simp only [List.append_assoc, List.cons_append, List.nil_append, Function.comp_def]

theorem row_eq (date : Date) (states : List String) :
    row date states = lineOf (date.text :: states ++ [""]) ++ ['\n'] := by
  have hcells : (date.text :: states ++ [""]).map String.toList =
      (date.chars :: states.map String.toList) ++ [[]] := by
    simp [Date.text]
  have hflat : (date.chars :: states.map String.toList).flatMap (· ++ ['\t']) =
      Text.join '\t' (date.chars :: states.map String.toList) ++ ['\t'] :=
    Text.flatMap_append_separator (List.cons_ne_nil _ _)
  unfold lineOf row
  rw [hcells, Text.join_concat (List.cons_ne_nil _ _), ← hflat, List.flatMap_cons, List.flatMap_map]
  simp

theorem text_eq (matrix : Matrix) : matrix.text = fenced matrix.table := by
  have hrows : matrix.rows.flatMap (fun (date, states) => row date states) =
      ((matrix.rows.map fun (date, states) => date.text :: states ++ [""]).map lineOf).flatMap
        (· ++ ['\n']) := by
    rw [List.flatMap_map, List.flatMap_map]
    congr 1
    funext ⟨date, states⟩
    exact row_eq date states
  unfold text fenced table
  rw [hrows, header_eq, List.map_cons, List.flatMap_cons]
  simp only [List.append_assoc]

end RollCall.Matrix
