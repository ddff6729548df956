import RollCall.Proofs.Text.Occurrence
import RollCall.Text.Blank
import Mathlib.Data.List.DropRight
import Mathlib.Data.List.TakeWhile

/-!
# Lines and the blanks around them

The lines of a text are its pieces between line feeds, and each line is read without the blanks
around it. A text that is `Trimmed` keeps everything when it is trimmed.
-/

namespace RollCall.Text

/-! ## Runs of characters -/

section

variable {p : Char → Bool} {front rest : List Char}

theorem takeWhile_append_of_head? (hfront : ∀ c ∈ front, p c = true)
    (hrest : ∀ c ∈ rest.head?, p c = false) : (front ++ rest).takeWhile p = front := by
  rw [List.takeWhile_append_of_pos hfront]
  cases rest with
  | nil => simp
  | cons c rest => simp [hrest c rfl]

/-- A run does not reach across a character that is not of its kind. -/
theorem takeWhile_append_cons {c : Char} (hc : p c = false) :
    (front ++ c :: rest).takeWhile p = front.takeWhile p := by
  induction front with
  | nil => simp [hc]
  | cons d front ih => simp only [List.cons_append, List.takeWhile_cons, ih]

theorem dropWhile_append_of_head? (hfront : ∀ c ∈ front, p c = true)
    (hrest : ∀ c ∈ rest.head?, p c = false) : (front ++ rest).dropWhile p = rest := by
  rw [List.dropWhile_append_of_pos hfront]
  cases rest with
  | nil => simp
  | cons c rest => simp [hrest c rfl]

end

theorem takeWhile_ne_eq_self_iff {c : Char} {text : List Char} :
    text.takeWhile (· ≠ c) = text ↔ c ∉ text := by
  rw [List.takeWhile_eq_self_iff]
  constructor
  · intro h hc
    exact absurd (h c hc) (by simp)
  · intro h d hd
    simpa using ne_of_mem_of_not_mem hd h

/-! ## Trimming -/

/-- A text without blanks around it. -/
def Trimmed (text : List Char) : Prop := trim text = text

instance (text : List Char) : Decidable (Trimmed text) :=
  inferInstanceAs (Decidable (trim text = text))

theorem trimStart_append {blanks : List Char} (h : ∀ c ∈ blanks, isBlank c = true)
    (text : List Char) : trimStart (blanks ++ text) = trimStart text :=
  List.dropWhile_append_of_pos h

/-- Blanks in front, and then nothing or a character that is no blank. -/
theorem exists_blanks_append (text : List Char) :
    ∃ blanks rest, text = blanks ++ rest ∧ (∀ c ∈ blanks, isBlank c = true) ∧
      (∀ c ∈ rest.head?, isBlank c = false) := by
  refine ⟨text.takeWhile isBlank, text.dropWhile isBlank, (List.takeWhile_append_dropWhile).symm,
    fun c hc => List.mem_takeWhile_imp hc, ?_⟩
  intro c hc
  have := List.head?_dropWhile_not isBlank text
  rw [Option.mem_def.1 hc] at this
  simpa using this

theorem trimEnd_append_cons {c : Char} (h : isBlank c = false) (text rest : List Char) :
    trimEnd (text ++ c :: rest) = text ++ c :: trimEnd rest := by
  have hrev : (text ++ c :: rest).reverse = rest.reverse ++ c :: text.reverse := by simp
  rw [trimEnd, hrev, List.dropWhile_append]
  cases hd : rest.reverse.dropWhile isBlank with
  | nil => simp [trimEnd, hd, h]
  | cons d text => simp [trimEnd, hd]

theorem trimEnd_eq_nil {blanks : List Char} (h : ∀ c ∈ blanks, isBlank c = true) :
    trimEnd blanks = [] := by
  rw [trimEnd, List.dropWhile_eq_nil_iff.2 (by simpa using h), List.reverse_nil]

/-- It does not matter which end is trimmed first. -/
theorem trimStart_trimEnd (text : List Char) : trimStart (trimEnd text) = trim text := by
  obtain ⟨blanks, rest, rfl, hb, hr⟩ := exists_blanks_append text
  rw [trim, trimStart_append hb]
  cases rest with
  | nil => rw [List.append_nil, trimEnd_eq_nil hb]; rfl
  | cons c rest =>
    have hc : isBlank c = false := hr c rfl
    have hnil := trimEnd_append_cons hc [] rest
    simp only [List.nil_append] at hnil
    rw [trimEnd_append_cons hc, trimStart_append hb, trimStart_eq_self hc, trimStart_eq_self hc, hnil]

theorem trimStart_trimStart (text : List Char) : trimStart (trimStart text) = trimStart text :=
  List.dropWhile_idempotent ..

theorem trimEnd_trimEnd (text : List Char) : trimEnd (trimEnd text) = trimEnd text := by
  simp only [trimEnd, List.reverse_reverse]
  rw [List.dropWhile_idempotent]

theorem trim_trimStart (text : List Char) : trim (trimStart text) = trim text := by
  rw [trim, trim, trimStart_trimStart]

theorem trim_trimEnd (text : List Char) : trim (trimEnd text) = trim text := by
  rw [← trimStart_trimEnd, trimEnd_trimEnd, trimStart_trimEnd]

theorem trimmed_trim (text : List Char) : Trimmed (trim text) := by
  calc trim (trim text) = trim (trimStart (trimEnd text)) := by rw [trimStart_trimEnd]
    _ = trim text := by rw [trim_trimStart, trim_trimEnd]

theorem trim_cons_of_isBlank {c : Char} (h : isBlank c = true) (text : List Char) :
    trim (c :: text) = trim text := by
  rw [← trim_trimStart (c :: text), ← trim_trimStart text]
  simp [trimStart, h]

/-- Blanks behind a text that starts with no blank are the only ones that trimming takes away. -/
theorem trim_cons_append {c d : Char} (hc : isBlank c = false) (hd : isBlank d = false)
    (text rest : List Char) :
    trim (c :: text ++ d :: rest) = c :: text ++ d :: trimEnd rest := by
  rw [trim, List.cons_append, trimStart_eq_self hc, ← List.cons_append, trimEnd_append_cons hd]

/-- A text is trimmed if its first and its last character are no blanks. -/
theorem trimmed_cons_concat {c d : Char} (hc : isBlank c = false) (hd : isBlank d = false)
    (text : List Char) : Trimmed (c :: text ++ [d]) := by
  rw [Trimmed, trim_cons_append hc hd]
  simp [trimEnd]

theorem trimStart_append_of_ne_nil {text rest : List Char} (hne : text ≠ [])
    (h : ∀ c ∈ text, isBlank c = false) : trimStart (text ++ rest) = text ++ rest := by
  cases text with
  | nil => exact absurd rfl hne
  | cons c text => exact trimStart_eq_self (h c (by simp))

theorem trimStart_of_forall {text : List Char} (h : ∀ c ∈ text, isBlank c = false) :
    trimStart text = text := by
  cases text with
  | nil => rfl
  | cons c text => exact trimStart_eq_self (h c (by simp))

theorem trimmed_of_forall {text : List Char} (h : ∀ c ∈ text, isBlank c = false) :
    Trimmed text := by
  have hstart := trimStart_of_forall h
  rcases List.eq_nil_or_concat' text with rfl | ⟨text, c, rfl⟩
  · rfl
  · rw [Trimmed, trim, hstart]
    exact trimEnd_append_singleton text (h c (by simp))

theorem trimStart_suffix (text : List Char) : trimStart text <:+ text :=
  List.dropWhile_suffix isBlank

theorem trimEnd_isPrefix (text : List Char) : trimEnd text <+: text := by
  rw [← List.reverse_suffix, trimEnd, List.reverse_reverse]
  exact List.dropWhile_suffix isBlank

theorem trimEnd_eq_self_iff {text : List Char} :
    trimEnd text = text ↔ ∀ c ∈ text.getLast?, isBlank c = false := by
  rcases List.eq_nil_or_concat' text with rfl | ⟨text, c, rfl⟩
  · simp [trimEnd]
  · constructor
    · intro h d hd
      obtain rfl : c = d := by simpa using hd
      by_contra hblank
      have hdrop : trimEnd (text ++ [c]) = trimEnd text := by
        simp [trimEnd, Bool.of_not_eq_false hblank]
      have hlen := congrArg List.length (hdrop.symm.trans h)
      have hle := (trimEnd_isPrefix text).length_le
      simp only [List.length_append, List.length_singleton] at hlen
      omega
    · intro h
      exact trimEnd_append_singleton text (h c (by simp))

/-- Nothing is trimmed from the end of what stands at the end of a text from whose end nothing is
trimmed. -/
theorem trimEnd_suffix {text rest : List Char} (h : trimEnd text = text) (hrest : rest <:+ text) :
    trimEnd rest = rest := by
  rw [trimEnd_eq_self_iff]
  intro c hc
  obtain ⟨before, rfl⟩ := hrest
  refine trimEnd_eq_self_iff.1 h c ?_
  rw [Option.mem_def] at hc ⊢
  rw [List.getLast?_append, hc, Option.some_or]

theorem Trimmed.trimEnd_eq {text : List Char} (h : Trimmed text) : trimEnd text = text := by
  rw [← h, trim, trimEnd_trimEnd]

theorem trimStart_eq_iff {text rest : List Char} :
    trimStart text = rest ↔ ∃ blanks, text = blanks ++ rest ∧
      (∀ c ∈ blanks, isBlank c = true) ∧ ∀ c ∈ rest.head?, isBlank c = false := by
  constructor
  · rintro rfl
    obtain ⟨blanks, rest, rfl, hblanks, hrest⟩ := exists_blanks_append text
    have hself : trimStart rest = rest := by
      cases rest with
      | nil => rfl
      | cons c rest => exact trimStart_eq_self (hrest c rfl)
    exact ⟨blanks, by rw [trimStart_append hblanks, hself],
      hblanks, by rwa [trimStart_append hblanks, hself]⟩
  · rintro ⟨blanks, rfl, hblanks, hrest⟩
    rw [trimStart_append hblanks]
    cases rest with
    | nil => rfl
    | cons c rest => exact trimStart_eq_self (hrest c rfl)

theorem trimStart_eq_self_iff {text : List Char} :
    trimStart text = text ↔ ∀ c ∈ text.head?, isBlank c = false := by
  constructor
  · intro h c hc
    obtain ⟨-, -, -, hstart⟩ := trimStart_eq_iff.1 h
    exact hstart c hc
  · intro h
    exact trimStart_eq_iff.2 ⟨[], rfl, by simp, h⟩

theorem trim_isInfix (text : List Char) : trim text <:+: text :=
  (trimEnd_isPrefix _).isInfix.trans (trimStart_suffix text).isInfix

/-! ## Pieces between separators -/

section

variable {separator c : Char} {text piece : List Char} {pieces : List (List Char)}

theorem split_ne_nil (separator : Char) (text : List Char) : split separator text ≠ [] :=
  List.splitOn_ne_nil separator text

theorem split_cons (separator c : Char) (text : List Char) :
    split separator (c :: text) =
      if c = separator then [] :: split separator text
      else (split separator text).modifyHead (c :: ·) := by
  simp [split, List.splitOn_cons_eq_if_modifyHead]

theorem split_append {line : List Char} (h : separator ∉ line) (rest : List Char) :
    split separator (line ++ separator :: rest) = line :: split separator rest :=
  List.splitOn_append_cons_self_of_not_mem h rest

/-- The pieces of two texts with a separator between them are those of the one and of the other. -/
theorem split_append_cons (separator : Char) (front rest : List Char) :
    split separator (front ++ separator :: rest) =
      split separator front ++ split separator rest :=
  List.splitOn_append_cons_self front rest

theorem split_of_not_mem (h : separator ∉ text) : split separator text = [text] :=
  List.splitOn_eq_singleton h

/-- The last piece of a text ends as the text does. -/
theorem exists_split_append {ending : List Char} (h : separator ∉ ending) (front : List Char) :
    ∃ pieces last, split separator (front ++ ending) = pieces ++ [last ++ ending] := by
  induction front with
  | nil => exact ⟨[], [], split_of_not_mem h⟩
  | cons c front ih =>
    obtain ⟨pieces, last, hsplit⟩ := ih
    rw [List.cons_append, split_cons, hsplit]
    by_cases hc : c = separator
    · exact ⟨[] :: pieces, last, by simp [hc]⟩
    · cases pieces with
      | nil => exact ⟨[], c :: last, by simp [hc]⟩
      | cons piece pieces => exact ⟨(c :: piece) :: pieces, last, by simp [hc]⟩

theorem not_mem_of_mem_split (h : piece ∈ split separator text) : separator ∉ piece := by
  induction text generalizing piece with
  | nil =>
    obtain rfl : piece = [] := by simpa [split] using h
    exact List.not_mem_nil
  | cons c text ih =>
    obtain ⟨first, pieces, hsplit⟩ := List.exists_cons_of_ne_nil (split_ne_nil separator text)
    rw [split_cons, hsplit] at h
    rw [hsplit] at ih
    split at h
    · rcases List.mem_cons.1 h with rfl | h
      · exact List.not_mem_nil
      · exact ih h
    · next hc =>
      rcases List.mem_cons.1 h with rfl | h
      · simp [Ne.symm hc, ih List.mem_cons_self]
      · exact ih (List.mem_cons_of_mem _ h)

/-! ## Pieces put together -/

@[simp] theorem join_split (separator : Char) (text : List Char) :
    join separator (split separator text) = text :=
  List.intercalate_splitOn separator

theorem split_join (hne : pieces ≠ []) (h : ∀ piece ∈ pieces, separator ∉ piece) :
    split separator (join separator pieces) = pieces :=
  List.splitOn_intercalate separator h hne

@[simp] theorem join_singleton (separator : Char) (piece : List Char) :
    join separator [piece] = piece :=
  List.intercalate_singleton

theorem join_cons_of_ne_nil (piece : List Char) (h : pieces ≠ []) :
    join separator (piece :: pieces) = piece ++ separator :: join separator pieces := by
  rw [join, List.intercalate_cons_of_ne_nil h, List.append_assoc, List.singleton_append, join]

theorem infix_join_of_mem (separator : Char) (h : piece ∈ pieces) :
    piece <:+: join separator pieces := by
  induction pieces with
  | nil => exact absurd h List.not_mem_nil
  | cons first pieces ih =>
    by_cases hnil : pieces = []
    · obtain rfl : piece = first := by simpa [hnil] using h
      rw [hnil, join_singleton]
    · rw [join_cons_of_ne_nil first hnil]
      rcases List.mem_cons.1 h with rfl | h
      · exact (List.prefix_append _ _).isInfix
      · exact (ih h).trans ((List.suffix_cons _ _).trans (List.suffix_append _ _)).isInfix

/-- A piece lies in the text and does not hold the separator. -/
theorem infix_of_mem_split (h : piece ∈ split separator text) :
    piece <:+: text ∧ separator ∉ piece := by
  have hpart := infix_join_of_mem separator h
  rw [join_split] at hpart
  exact ⟨hpart, not_mem_of_mem_split h⟩

theorem flatMap_append_separator (h : pieces ≠ []) :
    pieces.flatMap (· ++ [separator]) = join separator pieces ++ [separator] := by
  induction pieces with
  | nil => exact absurd rfl h
  | cons piece pieces ih =>
    by_cases hnil : pieces = []
    · simp [hnil]
    · rw [List.flatMap_cons, ih hnil, join_cons_of_ne_nil piece hnil]
      simp

theorem join_append {others : List (List Char)} (h : pieces ≠ []) (hothers : others ≠ []) :
    join separator (pieces ++ others) = join separator pieces ++ separator :: join separator others := by
  induction pieces with
  | nil => exact absurd rfl h
  | cons piece pieces ih =>
    by_cases hnil : pieces = []
    · rw [hnil, List.singleton_append, join_singleton]
      exact join_cons_of_ne_nil piece hothers
    · rw [List.cons_append, join_cons_of_ne_nil piece (by simp [hnil]), ih hnil,
        join_cons_of_ne_nil piece hnil, List.append_assoc, List.cons_append]

theorem join_concat (h : pieces ≠ []) (last : List Char) :
    join separator (pieces ++ [last]) = join separator pieces ++ separator :: last := by
  rw [join_append h (List.cons_ne_nil last []), join_singleton]

theorem mem_join (h : c ∈ join separator pieces) : c = separator ∨ ∃ piece ∈ pieces, c ∈ piece := by
  induction pieces with
  | nil => exact absurd h List.not_mem_nil
  | cons piece pieces ih =>
    by_cases hnil : pieces = []
    · rw [hnil, join_singleton] at h
      exact .inr ⟨piece, List.mem_cons_self, h⟩
    · rw [join_cons_of_ne_nil piece hnil, List.mem_append, List.mem_cons] at h
      rcases h with hpiece | rfl | hjoin
      · exact .inr ⟨piece, List.mem_cons_self, hpiece⟩
      · exact .inl rfl
      · rcases ih hjoin with hsep | ⟨other, hother, hc⟩
        · exact .inl hsep
        · exact .inr ⟨other, List.mem_cons_of_mem _ hother, hc⟩

/-- The last piece ends what is put together. -/
theorem exists_join_concat (separator : Char) (pieces : List (List Char)) (last : List Char) :
    ∃ front, join separator (pieces ++ [last]) = front ++ last := by
  by_cases hnil : pieces = []
  · exact ⟨[], by rw [hnil, List.nil_append, join_singleton, List.nil_append]⟩
  · refine ⟨join separator pieces ++ [separator], ?_⟩
    rw [join_concat hnil, List.append_assoc, List.singleton_append]

end

end RollCall.Text
