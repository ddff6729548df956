import RollCall.Disk.Route
import RollCall.Proofs.Text.Line

/-!
# Paths that go one step on

A path joined with a step goes through what the path goes through and then makes the step
(`Route.ofText_join`); compared with others it is longer by the step (`Route.components_join`), and the
step is the name it ends in (`Route.fileName?_join`).
-/

namespace RollCall.Route

/-- What can stand between two slashes of a path. -/
structure IsStep (step : String) : Prop where
  /-- It is not empty. -/
  ne_empty : step ≠ ""
  /-- It holds no slash. -/
  no_slash : '/' ∉ step.toList

theorem isStep_of_mem_parts {path step : String} (h : step ∈ parts path) : IsStep step := by
  obtain ⟨piece, hpiece, rfl⟩ := List.mem_map.1 h
  obtain ⟨hsplit, hne⟩ := List.mem_filter.1 hpiece
  constructor
  · intro hempty
    rw [← String.toList_inj, String.toList_ofList] at hempty
    simp [hempty] at hne
  · rw [String.toList_ofList]
    exact (Text.infix_of_mem_split hsplit).2

variable {base step : String}

theorem IsStep.toList_ne_nil (h : IsStep step) : step.toList ≠ [] := by
  intro hnil
  exact h.ne_empty (String.toList_inj.1 hnil)

theorem IsStep.isAbsolute_eq (h : IsStep step) : isAbsolute step = false := by
  rw [isAbsolute, decide_eq_false_iff_not]
  intro hhead
  exact h.no_slash (List.mem_of_head? hhead)

/-- The step stands at the end, behind a slash if anything stands before it. -/
theorem IsStep.join_cases (h : IsStep step) (base : String) :
    base = "" ∧ join base step = step ∨
      ∃ front, (join base step).toList = front ++ '/' :: step.toList ∧
        (base.toList = front ++ ['/'] ∨ base.toList = front ∧ base ≠ "") := by
  by_cases hbase : base = ""
  · exact .inl ⟨hbase, by rw [join, if_pos (by simp [hbase])]⟩
  · refine .inr ?_
    rw [join, if_neg (by simp [h.isAbsolute_eq, hbase])]
    split
    · next hlast =>
      obtain ⟨front, hfront⟩ := List.getLast?_eq_some_iff.1 hlast
      exact ⟨front, by rw [String.toList_append, hfront]; simp, .inl hfront⟩
    · exact ⟨base.toList, by simp, .inr ⟨rfl, hbase⟩⟩

theorem join_ne_empty (h : IsStep step) (base : String) : join base step ≠ "" := by
  intro hempty
  rw [← String.toList_inj] at hempty
  rcases h.join_cases base with ⟨-, hjoin⟩ | ⟨front, hjoin, -⟩
  · rw [hjoin] at hempty
    exact h.toList_ne_nil hempty
  · rw [hjoin] at hempty
    simp at hempty

theorem parts_eq_of_isStep (h : IsStep step) : parts step = [step] := by
  rw [parts, Text.split_of_not_mem h.no_slash]
  simp [h.ne_empty]

theorem parts_join (h : IsStep step) (base : String) : parts (join base step) = parts base ++ [step] := by
  rcases h.join_cases base with ⟨rfl, hjoin⟩ | ⟨front, hjoin, hbase⟩
  · rw [hjoin, parts_eq_of_isStep h]
    rfl
  · have hfront : parts base = ((Text.split '/' front).filter (· ≠ [])).map String.ofList := by
      rcases hbase with hbase | ⟨rfl, -⟩
      · rw [parts, hbase, Text.split_append_cons]
        simp [Text.split]
      · rfl
    rw [hfront, parts, hjoin, Text.split_append_cons, Text.split_of_not_mem h.no_slash]
    simp [h.ne_empty]

theorem isAbsolute_join (h : IsStep step) (base : String) :
    isAbsolute (join base step) = isAbsolute base := by
  rcases h.join_cases base with ⟨rfl, hjoin⟩ | ⟨front, hjoin, hbase⟩
  · rw [hjoin, h.isAbsolute_eq]
    rfl
  · rw [isAbsolute, isAbsolute, hjoin]
    rcases hbase with hbase | ⟨hbase, hne⟩
    · cases front with
      | nil => simp [hbase]
      | cons c front => simp [hbase]
    · cases front with
      | nil => exact absurd (String.toList_inj.1 hbase) hne
      | cons c front => simp [hbase]

/-- A path joined with a step, taken apart. -/
theorem ofText_join (h : IsStep step) (base : String) :
    ofText (join base step) = ⟨isAbsolute base, parts base ++ [step], false⟩ := by
  have hopen : (join base step).toList.getLast? ≠ some '/' := by
    intro hlast
    have hmem : '/' ∈ step.toList := by
      rcases h.join_cases base with ⟨-, hjoin⟩ | ⟨front, hjoin, -⟩
      · rw [hjoin] at hlast
        exact List.mem_of_getLast? hlast
      · rw [hjoin, List.append_cons, List.getLast?_append_of_ne_nil _ h.toList_ne_nil] at hlast
        exact List.mem_of_getLast? hlast
    exact h.no_slash hmem
  rw [ofText, isAbsolute_join h, parts_join h, decide_eq_false hopen]

/-! ## Paths compared with others -/

theorem parts_ne_nil (hbase : base ≠ "") (h : isAbsolute base = false) : parts base ≠ [] := by
  rw [isAbsolute, decide_eq_false_iff_not] at h
  rw [parts]
  cases htext : base.toList with
  | nil => exact absurd (String.toList_inj.1 htext) hbase
  | cons c text =>
    have hc : c ≠ '/' := fun e => h (by rw [htext, e]; rfl)
    obtain ⟨piece, pieces, hsplit⟩ := List.exists_cons_of_ne_nil (Text.split_ne_nil '/' text)
    rw [Text.split_cons, if_neg hc, hsplit]
    simp

theorem components_join (h : IsStep step) (hdot : step ≠ ".") (hbase : base ≠ "") :
    components (join base step) = components base ++ [step] := by
  rw [components, components, isAbsolute_join h, parts_join h]
  cases habsolute : isAbsolute base with
  | true => simp [hdot]
  | false =>
    cases hparts : parts base with
    | nil => exact absurd hparts (parts_ne_nil hbase habsolute)
    | cons first rest => simp [hdot]

/-! ## The name at the end of a path -/

theorem dropIdleSteps_eq_self {text : List Char} (hslash : text.head? ≠ some '/')
    (hdot : ¬ ['.', '/'] <+: text) : dropIdleSteps text = text := by
  unfold dropIdleSteps
  split
  · simp at hslash
  · next rest => exact absurd ⟨rest, rfl⟩ hdot
  · rfl

/-- Behind a slash, or where nothing stands in front, a step is the name that the path ends in. -/
theorem fileName?_eq_some {path : String} {front : List Char} (h : IsStep step) (hdot : step ≠ ".")
    (hup : step ≠ "..") (hpath : path.toList = front ++ step.toList)
    (hfront : ∀ c ∈ front.getLast?, c = '/') : fileName? path = some step.toList := by
  have hreverse : path.toList.reverse = step.toList.reverse ++ front.reverse := by
    rw [hpath, List.reverse_append]
  have hslash : '/' ∉ step.toList.reverse := by
    rw [List.mem_reverse]
    exact h.no_slash
  have htrimmed : trimmed path = path.toList := by
    have hidle : dropIdleSteps path.toList.reverse = path.toList.reverse := by
      rw [hreverse]
      cases hstep : step.toList.reverse with
      | nil => exact absurd (List.reverse_eq_nil_iff.1 hstep) h.toList_ne_nil
      | cons c rest =>
        rw [hstep] at hslash
        apply dropIdleSteps_eq_self
        · intro hhead
          rw [List.cons_append, List.head?_cons, Option.some.injEq] at hhead
          exact hslash (by simp [hhead])
        · -- a dot with a slash behind it would be all of the step, or the slash would be in it
          intro hprefix
          cases rest with
          | nil =>
            obtain rfl : '.' = c := (List.cons_prefix_cons.1 hprefix).1
            refine hdot (String.toList_inj.1 ?_)
            rw [← List.reverse_inj, hstep]
            rfl
          | cons d rest =>
            obtain rfl : '/' = d :=
              (List.cons_prefix_cons.1 (List.cons_prefix_cons.1 hprefix).2).1
            exact hslash (by simp)
    rw [trimmed, hidle, List.reverse_reverse]
  have hlast : Path.lastPart path.toList = step.toList := by
    have hrun : (step.toList.reverse ++ front.reverse).takeWhile (· ≠ '/') = step.toList.reverse := by
      apply Text.takeWhile_append_of_head?
      · intro c hc
        simp only [ne_eq, decide_eq_true_eq]
        rintro rfl
        exact hslash hc
      · intro c hc
        rw [List.head?_reverse] at hc
        simp [hfront c hc]
    rw [Path.lastPart, hreverse, hrun, List.reverse_reverse]
  have hnamed : ¬ (step.toList = [] ∨ step.toList = ['.'] ∨ step.toList = ['.', '.']) := by
    rintro (hnil | hone | htwo)
    · exact h.toList_ne_nil hnil
    · exact hdot (String.toList_inj.1 hone)
    · exact hup (String.toList_inj.1 htwo)
  simp only [fileName?, htrimmed, hlast]
  rw [if_neg hnamed]

theorem fileName?_join (h : IsStep step) (hdot : step ≠ ".") (hup : step ≠ "..") (base : String) :
    fileName? (join base step) = some step.toList := by
  rcases h.join_cases base with ⟨-, hjoin⟩ | ⟨front, hjoin, -⟩
  · have halone : (join base step).toList = [] ++ step.toList := by rw [hjoin, List.nil_append]
    exact fileName?_eq_some h hdot hup halone (by simp)
  · rw [List.append_cons] at hjoin
    exact fileName?_eq_some h hdot hup hjoin (by simp)

end RollCall.Route
