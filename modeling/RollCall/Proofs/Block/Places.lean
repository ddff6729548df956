import RollCall.Block.Splice
import RollCall.Proofs.Block.Scan
import RollCall.Proofs.Text.Offset

/-!
# Where the blocks of a document are

A scan reports blocks where the text has them (`Block.spans_of_mem_scan`), one behind the other
(`Cut.pairwise_scan`), and it misses none: every opening fence of the text begins a block or stands
within one (`Cut.exists_mem_scan_of_opening`).
-/

namespace RollCall

/-- An opening fence stands at the byte offset, and its word ends there. -/
def FenceAt (text : List Char) (offset : Nat) : Prop :=
  ∃ before rest, text = before ++ openingFence ++ rest ∧ WordEnds rest ∧ Text.bytes before = offset

/-! ## No opening fence is missed -/

/-- Where there is an opening fence, the first one is found there or in front of it. -/
theorem exists_cutOpening? {rest : List Char} (hword : WordEnds rest) (before : List Char) :
    ∃ first behind, cutOpening? (before ++ openingFence ++ rest) = some (first, behind) ∧
      first <+: before := by
  induction before with
  | nil => exact ⟨[], rest, cutOpening?_openingFence hword, List.prefix_rfl⟩
  | cons c before ih =>
    obtain ⟨first, behind, hfirst, hle⟩ := ih
    simp only [List.cons_append, cutOpening?]
    cases hafter : afterOpening? (c :: (before ++ openingFence ++ rest)) with
    | some found => exact ⟨[], found, rfl, List.nil_prefix⟩
    | none =>
      refine ⟨c :: first, behind, ?_, (List.cons_prefix_cons).2 ⟨rfl, hle⟩⟩
      rw [hfirst]
      rfl

namespace Cut

theorem exists_first? {rest : List Char} (hword : WordEnds rest) (before : List Char) :
    ∃ cut, first? (before ++ openingFence ++ rest) = some cut ∧ cut.before <+: before := by
  obtain ⟨first, behind, hopening, hle⟩ := exists_cutOpening? hword before
  cases hclosing : Text.cut? closingFence behind with
  | none =>
    refine ⟨⟨first, behind, false, []⟩, ?_, hle⟩
    simp only [first?, hopening, hclosing]
  | some pieces =>
    refine ⟨⟨first, pieces.1, true, pieces.2⟩, ?_, hle⟩
    simp only [first?, hopening, hclosing]

theorem inside_ne_nil (cut : Cut) : cut.inside ≠ [] := by
  rw [inside, openingFence_eq_cons]
  simp

/-- Two ways to cut a text: the first cut lies within the first piece of the second, or behind it. -/
theorem append_eq_append_cases {a b x y : List Char} (h : a ++ x = b ++ y) :
    (∃ left, left ≠ [] ∧ b = a ++ left) ∨ ∃ further, a = b ++ further ∧ y = further ++ x := by
  rcases List.append_eq_append_iff.1 h with ⟨left, hleft, hx⟩ | ⟨further, hfurther, hy⟩
  · by_cases hnil : left = []
    · subst hnil
      exact .inr ⟨[], by simp [hleft], by simpa using hx.symm⟩
    · exact .inl ⟨left, hnil, hleft⟩
  · exact .inr ⟨further, hfurther, hy⟩

/-- Every opening fence begins a block or stands within one. -/
theorem exists_mem_scan_of_opening {text before rest : List Char}
    (htext : text = before ++ openingFence ++ rest) (hword : WordEnds rest) :
    ∃ cut ∈ scan text, ∃ skipped left, before = cut.before ++ skipped ∧ left ≠ [] ∧
      cut.inside = skipped ++ left := by
  induction text using text_induction generalizing before with
  | plain text hfirst =>
    obtain ⟨found, hfound, -⟩ := exists_first? hword before
    rw [← htext, hfirst] at hfound
    cases hfound
  | block first hleading ih =>
    obtain ⟨found, hfound, skipped, hskipped⟩ := exists_first? hword before
    rw [← htext, hleading.first?_text] at hfound
    obtain rfl := Option.some.inj hfound
    have hsides : skipped ++ (openingFence ++ rest) = first.inside ++ first.after := by
      rw [← hskipped, Cut.text] at htext
      simpa using htext.symm
    rcases append_eq_append_cases hsides with ⟨left, hne, hinside⟩ | ⟨further, hfurther, hafter⟩
    · refine ⟨first, ?_, skipped, left, hskipped.symm, hne, hinside⟩
      rw [hleading.scan_text]
      exact List.mem_cons_self
    · -- the fence stands behind the first block, so it is found in what follows
      have hnext : first.after = further ++ openingFence ++ rest := by
        rw [hafter, List.append_assoc]
      obtain ⟨cut, hcut, skip, left, hskip, hne, hinside⟩ := ih hnext
      refine ⟨cut.shift (first.before ++ first.inside), ?_, skip, left, ?_, hne, hinside⟩
      · rw [hleading.scan_text]
        exact List.mem_cons_of_mem _ (List.mem_map_of_mem hcut)
      · rw [before_shift, List.append_assoc, List.append_assoc, ← hskip, ← hfurther, hskipped]

/-! ## Blocks follow one another -/

/-- Each block is the first one of what follows some text in front of it. -/
theorem exists_leading_of_mem_scan {text : List Char} {cut : Cut} (h : cut ∈ scan text) :
    ∃ lead, ∃ first : Cut, first.Leading ∧ cut = first.shift lead := by
  induction text using text_induction generalizing cut with
  | plain text hfirst => simp [scan_of_first?_eq_none hfirst] at h
  | block first hleading ih =>
    rw [hleading.scan_text, List.mem_cons] at h
    rcases h with rfl | h
    · exact ⟨[], cut, hleading, rfl⟩
    · obtain ⟨inner, hinner, rfl⟩ := List.mem_map.1 h
      obtain ⟨lead, found, hfound, rfl⟩ := ih hinner
      exact ⟨first.before ++ first.inside ++ lead, found, hfound, shift_shift _ _ _⟩

theorem start_shift (lead : List Char) (cut : Cut) :
    (cut.shift lead).start = Text.bytes lead + cut.start := by
  rw [start, start, before_shift, Text.bytes_append]

theorem stop_shift (lead : List Char) (cut : Cut) :
    (cut.shift lead).stop = Text.bytes lead + cut.stop := by
  rw [stop, stop, start_shift, inside_shift]
  omega

theorem stop_eq (cut : Cut) : cut.stop = Text.bytes (cut.before ++ cut.inside) := by
  rw [stop, start, Text.bytes_append]

theorem start_lt_stop (cut : Cut) : cut.start < cut.stop := by
  have := Text.bytes_pos cut.inside_ne_nil
  rw [stop]
  omega

/-- A block that has another one behind it is closed, and ends where that one begins or earlier. -/
theorem pairwise_scan (text : List Char) :
    (scan text).Pairwise fun a b => a.closed = true ∧ a.stop ≤ b.start := by
  induction text using text_induction with
  | plain text hfirst =>
    rw [scan_of_first?_eq_none hfirst]
    exact .nil
  | block first hleading ih =>
    rw [hleading.scan_text, List.pairwise_cons, List.pairwise_map]
    constructor
    · intro cut hcut
      obtain ⟨inner, hinner, rfl⟩ := List.mem_map.1 hcut
      constructor
      · by_contra hopen
        rw [Bool.not_eq_true] at hopen
        simp [(hleading.runs hopen).2, scan_nil] at hinner
      · rw [start_shift, stop_eq]
        omega
    · refine ih.imp fun {a b} hab => ?_
      have hclosed : (a.shift (first.before ++ first.inside)).closed = a.closed := rfl
      rw [hclosed, stop_shift, start_shift]
      exact ⟨hab.1, by omega⟩

end Cut

/-! ## What is reported of a block -/

namespace Block

/-- The block is reported as it stands in the text. -/
inductive Spans (text : List Char) : Block → Prop
  /-- It ends behind the first closing fence that follows its word. -/
  | closed (before body after : List Char)
      (pieces : text = before ++ openingFence ++ body ++ closingFence ++ after)
      (word_ends : WordEnds (body ++ closingFence ++ after))
      (stops : Text.OnlyAtEnd closingFence body) :
      Spans text ⟨Text.bytes before, Text.bytes (before ++ openingFence ++ body ++ closingFence),
        false, Record.ofBody body⟩
  /-- No closing fence follows its word, and it ends with the text. -/
  | unclosed (before body : List Char) (pieces : text = before ++ openingFence ++ body)
      (word_ends : WordEnds body) (runs : ¬ closingFence <:+: body) :
      Spans text ⟨Text.bytes before, Text.bytes text, true, Record.ofBody body⟩

theorem spans_of_mem_scan {text : List Char} {cut : Cut} (h : cut ∈ Cut.scan text) :
    cut.block.Spans text := by
  have hpieces := (Cut.text_of_mem_scan h).1
  obtain ⟨lead, ⟨before, body, closed, after⟩, hleading, rfl⟩ := Cut.exists_leading_of_mem_scan h
  cases closed with
  | true =>
    have hword := (Cut.wordEnds_append_closingFence_iff body after).2 hleading.word_ends
    have htext : text = lead ++ before ++ openingFence ++ body ++ closingFence ++ after := by
      rw [← hpieces]
      simp [Cut.text, Cut.shift, Cut.inside]
    have hspans := Spans.closed _ _ _ htext hword (hleading.stops rfl)
    have hblock : (Cut.shift lead ⟨before, body, true, after⟩).block =
        ⟨Text.bytes (lead ++ before), Text.bytes (lead ++ before ++ openingFence ++ body ++ closingFence),
          false, Record.ofBody body⟩ := by
      simp [Cut.block, Cut.parsed, Cut.stop, Cut.start, Cut.inside, Cut.shift, Nat.add_assoc]
    rw [hblock]
    exact hspans
  | false =>
    obtain ⟨hruns, rfl⟩ := hleading.runs rfl
    have htext : text = lead ++ before ++ openingFence ++ body := by
      rw [← hpieces]
      simp [Cut.text, Cut.shift, Cut.inside]
    have hspans := Spans.unclosed _ _ htext (by simpa using hleading.word_ends) hruns
    have hblock : (Cut.shift lead ⟨before, body, false, []⟩).block =
        ⟨Text.bytes (lead ++ before), Text.bytes text, true, Record.ofBody body⟩ := by
      simp [htext, Cut.block, Cut.parsed, Cut.stop, Cut.start, Cut.inside, Cut.shift, Nat.add_assoc]
    rw [hblock]
    exact hspans

end Block

end RollCall
