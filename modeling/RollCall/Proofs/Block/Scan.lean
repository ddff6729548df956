import RollCall.Block.Scan
import RollCall.Proofs.Text.Occurrence

/-!
# Scanning for blocks

Where a block begins is settled by the text up to the character behind its opening fence, and where
it ends by its body. A cut is therefore the first one of its text by properties of its pieces alone
(`Cut.Leading`), whatever stands behind it, and filling a block anew leaves all other blocks where
they are (`Cut.exists_scan_fill`).
-/

namespace RollCall

/-! ## The opening fence -/

theorem openingFence_eq_cons : openingFence = '`' :: "``attendance".toList := rfl

/-- The word on the fence in front of the text ends there. -/
def WordEnds (text : List Char) : Prop :=
  ∀ c ∈ text.head?, Text.isBlank c = true

/-- Put behind the text, an opening fence is the first one. -/
def OpensAtEnd (text : List Char) : Prop :=
  cutOpening? (text ++ openingFence) = some (text, [])

theorem afterOpening?_eq_some_iff {text rest : List Char} :
    afterOpening? text = some rest ↔ text = openingFence ++ rest ∧ WordEnds rest := by
  rw [← Text.after?_eq_some_iff, afterOpening?]
  cases hafter : Text.after? openingFence text with
  | none => simp
  | some found =>
    have hword : (found.head?.map Text.isBlank).getD true = true ↔ WordEnds found := by
      cases found <;> simp [WordEnds]
    by_cases h : WordEnds found
    · simp only [if_pos (hword.2 h), Option.some.injEq]
      exact ⟨fun he => ⟨he, he ▸ h⟩, fun he => he.1⟩
    · simp only [if_neg (mt hword.1 h), Option.some.injEq, reduceCtorEq, false_iff, not_and]
      rintro rfl
      exact h

/-- One character behind the fence settles whether the fence opens a block. -/
theorem afterOpening?_append {text : List Char} (h : openingFence.length < text.length)
    (more : List Char) :
    afterOpening? (text ++ more) = (afterOpening? text).map (· ++ more) := by
  ext rest
  simp only [Option.map_eq_some_iff, afterOpening?_eq_some_iff]
  constructor
  · rintro ⟨htext, hword⟩
    obtain ⟨found, rfl⟩ : openingFence <+: text :=
      List.prefix_of_prefix_length_le ⟨rest, htext.symm⟩ (List.prefix_append text more) (by omega)
    obtain rfl : found ++ more = rest := List.append_cancel_left ((List.append_assoc ..).symm.trans htext)
    refine ⟨found, ⟨rfl, ?_⟩, rfl⟩
    cases found with
    | nil => simp at h
    | cons c found => simpa [WordEnds] using hword
  · rintro ⟨found, ⟨rfl, hword⟩, rfl⟩
    refine ⟨List.append_assoc .., ?_⟩
    cases found with
    | nil => simp at h
    | cons c found => simpa [WordEnds] using hword

theorem cutOpening?_cons {c : Char} {text : List Char} (h : afterOpening? (c :: text) = none) :
    cutOpening? (c :: text) = (cutOpening? text).map fun (before, rest) => (c :: before, rest) := by
  simp only [cutOpening?, h]

theorem cutOpening?_openingFence {rest : List Char} (h : WordEnds rest) :
    cutOpening? (openingFence ++ rest) = some ([], rest) := by
  have hafter : afterOpening? (openingFence ++ rest) = some rest :=
    afterOpening?_eq_some_iff.2 ⟨rfl, h⟩
  rw [openingFence_eq_cons, List.cons_append] at hafter ⊢
  simp only [cutOpening?, hafter]

/-- In front of the first opening fence, a longer text matters only up to that fence. -/
theorem afterOpening?_eq_none_iff (c : Char) (before rest : List Char) :
    afterOpening? (c :: (before ++ openingFence ++ rest)) = none ↔
      afterOpening? (c :: (before ++ openingFence)) = none := by
  have hlen : openingFence.length < (c :: (before ++ openingFence)).length := by
    simp only [List.length_cons, List.length_append]
    omega
  have := afterOpening?_append hlen rest
  rw [List.cons_append] at this
  rw [this, Option.map_eq_none_iff]

theorem opensAtEnd_nil : OpensAtEnd [] := by
  have := cutOpening?_openingFence (show WordEnds [] by simp [WordEnds])
  rwa [List.append_nil] at this

theorem opensAtEnd_cons_iff {c : Char} {before : List Char} :
    OpensAtEnd (c :: before) ↔
      afterOpening? (c :: (before ++ openingFence)) = none ∧ OpensAtEnd before := by
  unfold OpensAtEnd
  rw [List.cons_append]
  cases hafter : afterOpening? (c :: (before ++ openingFence)) with
  | some rest => simp [cutOpening?, hafter]
  | none =>
    rw [cutOpening?_cons hafter, Option.map_eq_some_iff]
    constructor
    · rintro ⟨⟨found, rest⟩, hfound, he⟩
      simp only [Prod.mk.injEq, List.cons.injEq, true_and] at he
      rw [hfound, he.1, he.2]
      exact ⟨rfl, rfl⟩
    · rintro ⟨-, h⟩
      exact ⟨(before, []), h, rfl⟩

/-- The first opening fence, by what stands on its two sides. -/
theorem cutOpening?_eq_some_iff {text before rest : List Char} :
    cutOpening? text = some (before, rest) ↔
      text = before ++ openingFence ++ rest ∧ WordEnds rest ∧ OpensAtEnd before := by
  induction before generalizing text with
  | nil =>
    constructor
    · intro h
      cases text with
      | nil => simp [cutOpening?] at h
      | cons c text =>
        rw [cutOpening?] at h
        split at h
        · next found hfound =>
          obtain rfl : found = rest := by simpa using h
          exact ⟨(afterOpening?_eq_some_iff.1 hfound).1, (afterOpening?_eq_some_iff.1 hfound).2,
            opensAtEnd_nil⟩
        · obtain ⟨_, _, he⟩ := Option.map_eq_some_iff.1 h
          simp at he
    · rintro ⟨rfl, hword, -⟩
      exact cutOpening?_openingFence hword
  | cons c before ih =>
    rw [opensAtEnd_cons_iff, ← afterOpening?_eq_none_iff c before rest]
    constructor
    · intro h
      cases text with
      | nil => simp [cutOpening?] at h
      | cons d text =>
        rw [cutOpening?] at h
        split at h
        · simp at h
        · next hafter =>
          obtain ⟨⟨found, behind⟩, hfound, he⟩ := Option.map_eq_some_iff.1 h
          simp only [Prod.mk.injEq, List.cons.injEq] at he
          obtain ⟨⟨rfl, rfl⟩, rfl⟩ := he
          obtain ⟨rfl, hword, hopens⟩ := ih.1 hfound
          exact ⟨rfl, hword, hafter, hopens⟩
    · rintro ⟨rfl, hword, hafter, hopens⟩
      have hih := ih.2 ⟨rfl, hword, hopens⟩
      simp only [List.cons_append, cutOpening?_cons hafter, hih, Option.map_some]

/-- A line break in front of a text opens nothing. -/
theorem cutOpening?_newline (text : List Char) :
    cutOpening? ('\n' :: text) =
      (cutOpening? text).map fun (before, rest) => ('\n' :: before, rest) := by
  have hafter : Text.after? openingFence ('\n' :: text) = none := by
    rw [openingFence_eq_cons, Text.after?_cons_cons, if_neg (by decide)]
  exact cutOpening?_cons (by rw [afterOpening?, hafter])

namespace Cut

/-! ## The first block -/

/-- The cut is the first one of its text. Nothing is said about what stands behind a closed block. -/
structure Leading (cut : Cut) : Prop where
  /-- No earlier fence opens a block. -/
  opens : OpensAtEnd cut.before
  /-- The word on the fence ends there. -/
  word_ends : WordEnds (cut.body ++ if cut.closed then closingFence else [])
  /-- A closed block ends at the first closing fence. -/
  stops : cut.closed = true → Text.OnlyAtEnd closingFence cut.body
  /-- A block that is not closed runs to the end of the text. -/
  runs : cut.closed = false → ¬ closingFence <:+: cut.body ∧ cut.after = []

theorem wordEnds_append_closingFence_iff (body after : List Char) :
    WordEnds (body ++ closingFence ++ after) ↔ WordEnds (body ++ closingFence) := by
  cases body <;> simp [WordEnds, closingFence]

theorem text_and_leading_of_first? {text : List Char} {cut : Cut} (h : first? text = some cut) :
    cut.text = text ∧ cut.Leading := by
  rw [first?] at h
  split at h
  · simp at h
  next before rest hopening =>
  obtain ⟨rfl, hword, hopens⟩ := cutOpening?_eq_some_iff.1 hopening
  split at h
  · next body after hclosing =>
    obtain ⟨rfl, hstops⟩ := Text.cut?_eq_some_iff.1 hclosing
    obtain rfl := Option.some.inj h
    exact ⟨by simp [Cut.text, inside], hopens, (wordEnds_append_closingFence_iff body after).1 hword,
      fun _ => hstops, by simp⟩
  · next hclosing =>
    obtain rfl := Option.some.inj h
    exact ⟨by simp [Cut.text, inside], hopens, by simpa using hword, by simp,
      fun _ => ⟨Text.cut?_eq_none_iff.1 hclosing, rfl⟩⟩

theorem Leading.first?_text {cut : Cut} (h : cut.Leading) : first? cut.text = some cut := by
  obtain ⟨before, body, closed, after⟩ := cut
  cases closed with
  | true =>
    have hopening : cutOpening? (before ++ openingFence ++ (body ++ closingFence ++ after)) =
        some (before, body ++ closingFence ++ after) :=
      cutOpening?_eq_some_iff.2
        ⟨rfl, (wordEnds_append_closingFence_iff body after).2 h.word_ends, h.opens⟩
    have hclosing := Text.cut?_append (h.stops rfl) after
    have htext : Cut.text ⟨before, body, true, after⟩ =
        before ++ openingFence ++ (body ++ closingFence ++ after) := by
      simp [Cut.text, inside]
    rw [htext, first?, hopening]
    simp only [hclosing]
  | false =>
    obtain ⟨hbody, rfl⟩ := h.runs rfl
    have hopening : cutOpening? (before ++ openingFence ++ body) = some (before, body) :=
      cutOpening?_eq_some_iff.2 ⟨rfl, by simpa using h.word_ends, h.opens⟩
    have hclosing := Text.cut?_eq_none_iff.2 hbody
    have htext : Cut.text ⟨before, body, false, []⟩ = before ++ openingFence ++ body := by
      simp [Cut.text, inside]
    rw [htext, first?, hopening]
    simp only [hclosing]

theorem first?_eq_some_iff {text : List Char} {cut : Cut} :
    first? text = some cut ↔ cut.text = text ∧ cut.Leading := by
  constructor
  · exact text_and_leading_of_first?
  · rintro ⟨rfl, h⟩
    exact h.first?_text

theorem Leading.not_infix_body {cut : Cut} (h : cut.Leading) : ¬ closingFence <:+: cut.body := by
  cases hclosed : cut.closed with
  | true => exact (h.stops hclosed).not_isInfix (by decide)
  | false => exact (h.runs hclosed).1

theorem Leading.fill {cut : Cut} (h : cut.Leading) {body : List Char}
    (hstops : Text.OnlyAtEnd closingFence body) (hword : WordEnds (body ++ closingFence)) :
    Leading { cut with body := body, closed := true } :=
  ⟨h.opens, hword, fun _ => hstops, by simp⟩

/-! ## The blocks of a text -/

@[simp] theorem shift_nil (cut : Cut) : cut.shift [] = cut := rfl

theorem shift_shift (lead lead' : List Char) (cut : Cut) :
    (cut.shift lead').shift lead = cut.shift (lead ++ lead') := by
  simp [shift]

@[simp] theorem body_shift (lead : List Char) (cut : Cut) : (cut.shift lead).body = cut.body := rfl

@[simp] theorem before_shift (lead : List Char) (cut : Cut) :
    (cut.shift lead).before = lead ++ cut.before := rfl

@[simp] theorem inside_shift (lead : List Char) (cut : Cut) :
    (cut.shift lead).inside = cut.inside := rfl

@[simp] theorem after_shift (lead : List Char) (cut : Cut) :
    (cut.shift lead).after = cut.after := rfl

theorem text_shift (lead : List Char) (cut : Cut) : (cut.shift lead).text = lead ++ cut.text := by
  simp [text]

theorem map_body_map_shift (lead : List Char) (cuts : List Cut) :
    (cuts.map (shift lead)).map body = cuts.map body := by
  rw [List.map_map]
  exact List.map_congr_left fun cut _ => body_shift lead cut

theorem scan_nil : scan [] = [] := by
  rw [scan, scanFrom]
  rfl

/-- What stands in front of a text moves its blocks and changes nothing else. -/
theorem scanFrom_eq (lead text : List Char) : scanFrom lead text = (scan text).map (shift lead) := by
  induction hlen : text.length using Nat.strongRecOn generalizing lead text with
  | ind n ih =>
    subst hlen
    unfold scan
    rw [scanFrom, scanFrom]
    split
    · rfl
    next cut hfirst =>
    have hlt := length_after_lt hfirst
    cases hclosed : cut.closed with
    | false => simp
    | true =>
      simp only [if_true, List.map_cons, shift_nil, List.nil_append]
      rw [ih _ hlt (lead ++ cut.before ++ cut.inside) _ rfl, ih _ hlt (cut.before ++ cut.inside) _ rfl,
        List.map_map]
      simp only [Function.comp_def, shift_shift, List.append_assoc]

theorem scan_of_first?_eq_none {text : List Char} (h : first? text = none) : scan text = [] := by
  rw [scan, scanFrom]
  split
  · rfl
  · next hcut => rw [h] at hcut; cases hcut

/-- The blocks of a text are the first one and those of the text behind it. -/
theorem Leading.scan_text {cut : Cut} (h : cut.Leading) :
    scan cut.text = cut :: (scan cut.after).map (shift (cut.before ++ cut.inside)) := by
  have hfirst := h.first?_text
  rw [scan, scanFrom]
  split
  · next hnone => rw [hfirst] at hnone; cases hnone
  next found hfound =>
  obtain rfl : cut = found := Option.some.inj (hfirst.symm.trans hfound)
  cases hclosed : cut.closed with
  | true => simp [scanFrom_eq]
  | false => simp [(h.runs hclosed).2, scan_nil]

/-- The blocks of a text are none, or the first one and those of the text behind it. -/
theorem scan_cases (text : List Char) :
    scan text = [] ∨ ∃ cut : Cut, cut.Leading ∧ cut.text = text ∧
      scan text = cut :: (scan cut.after).map (shift (cut.before ++ cut.inside)) := by
  cases hfirst : first? text with
  | none => exact .inl (scan_of_first?_eq_none hfirst)
  | some cut =>
    obtain ⟨rfl, hleading⟩ := first?_eq_some_iff.1 hfirst
    exact .inr ⟨cut, hleading, rfl, hleading.scan_text⟩

/-- Induction along the blocks of a text: there is none, or there is one with text in front of it and
further text behind it. -/
@[elab_as_elim]
theorem text_induction {motive : List Char → Prop}
    (plain : ∀ text, first? text = none → motive text)
    (block : ∀ cut : Cut, cut.Leading → motive cut.after → motive cut.text) (text : List Char) :
    motive text := by
  induction hlen : text.length using Nat.strongRecOn generalizing text with
  | ind n ih =>
    subst hlen
    cases hfirst : first? text with
    | none => exact plain text hfirst
    | some cut =>
      have hbehind : motive cut.after := ih _ (length_after_lt hfirst) _ rfl
      obtain ⟨rfl, hleading⟩ := first?_eq_some_iff.1 hfirst
      exact block cut hleading hbehind

/-- A line break in front of a text moves its blocks. -/
theorem scan_newline (text : List Char) : scan ('\n' :: text) = (scan text).map (shift ['\n']) := by
  have hfirst : first? ('\n' :: text) = (first? text).map (shift ['\n']) := by
    rw [first?, first?, cutOpening?_newline]
    cases cutOpening? text with
    | none => rfl
    | some pieces => cases hclosing : Text.cut? closingFence pieces.2 <;> simp [hclosing, shift]
  cases hcut : first? text with
  | none =>
    rw [hcut] at hfirst
    rw [scan_of_first?_eq_none hcut, scan_of_first?_eq_none hfirst, List.map_nil]
  | some cut =>
    rw [hcut] at hfirst
    obtain ⟨htext, hleading⟩ := first?_eq_some_iff.1 hfirst
    obtain ⟨rfl, hcutLeading⟩ := first?_eq_some_iff.1 hcut
    rw [← htext, hleading.scan_text, hcutLeading.scan_text, List.map_cons, List.map_map]
    simp only [Function.comp_def, shift_shift, before_shift, inside_shift, after_shift,
      List.append_assoc]

theorem text_of_mem_scan {text : List Char} {cut : Cut} (h : cut ∈ scan text) :
    cut.text = text ∧ ¬ closingFence <:+: cut.body := by
  induction text using text_induction generalizing cut with
  | plain text hfirst => simp [scan_of_first?_eq_none hfirst] at h
  | block first hleading ih =>
    rw [hleading.scan_text, List.mem_cons] at h
    rcases h with rfl | h
    · exact ⟨rfl, hleading.not_infix_body⟩
    · obtain ⟨inner, hinner, rfl⟩ := List.mem_map.1 h
      obtain ⟨hinnerText, hbody⟩ := ih hinner
      refine ⟨?_, hbody⟩
      rw [text_shift, hinnerText, Cut.text]

/-! ## Filling a block anew -/

/-- The cut with another body, closed. -/
def fill (cut : Cut) (body : List Char) : Cut :=
  { cut with body := body, closed := true }

theorem fill_shift (lead : List Char) (cut : Cut) (body : List Char) :
    (cut.shift lead).fill body = (cut.fill body).shift lead := rfl

/-- A block that is filled anew stays where it is in the list, and all other bodies stay as they
are. -/
theorem scan_fill {text body : List Char} {cut : Cut} {i : Nat} (h : (scan text)[i]? = some cut)
    (hstops : Text.OnlyAtEnd closingFence body) (hword : WordEnds (body ++ closingFence)) :
    (scan (cut.fill body).text)[i]? = some (cut.fill body) ∧
      (scan (cut.fill body).text).map Cut.body = ((scan text).map Cut.body).set i body := by
  induction i generalizing text cut with
  | zero =>
    rcases scan_cases text with hnil | ⟨first, hleading, htext, hscan⟩
    · simp [hnil] at h
    obtain rfl : first = cut := by simpa [hscan] using h
    have hfill := (hleading.fill hstops hword).scan_text
    rw [hscan, fill, hfill]
    simp
  | succ i ih =>
    rcases scan_cases text with hnil | ⟨first, hleading, htext, hscan⟩
    · simp [hnil] at h
    obtain ⟨inner, hinner, rfl⟩ : ∃ inner, (scan first.after)[i]? = some inner ∧
        inner.shift (first.before ++ first.inside) = cut := by
      simpa [hscan] using h
    obtain ⟨hget, hbodies⟩ := ih hinner
    -- the first block has something behind it, so it is closed and ends where it ended before
    have hclosed : first.closed = true := by
      by_contra hopen
      rw [Bool.not_eq_true] at hopen
      simp [(hleading.runs hopen).2, scan_nil] at hinner
    have hfirst : Leading { first with after := (inner.fill body).text } :=
      ⟨hleading.opens, hleading.word_ends, hleading.stops, by simp [hclosed]⟩
    have htext' : ((inner.fill body).shift (first.before ++ first.inside)).text =
        Cut.text { first with after := (inner.fill body).text } := by
      rw [text_shift, Cut.text, Cut.text]
      rfl
    rw [fill_shift, htext', hfirst.scan_text, hscan]
    refine ⟨?_, ?_⟩
    · rw [List.getElem?_cons_succ, List.getElem?_map, hget]
      rfl
    · simp only [List.map_cons, map_body_map_shift, hbodies, List.set_cons_succ]

end Cut

end RollCall
