import RollCall.Proofs.Block.Entry

/-!
# The forms of an entry

An entry is written in one of three ways: its link alone, its link and its state, or link, state and
note. A text without blanks around it is read as an entry exactly if it has one of these forms
(`Entry.read_eq_ok_iff_form`). Reading is a function, so that no text has two forms.
-/

namespace RollCall.Entry

/-- The forms of an entry, with any blanks around the commas. -/
inductive Form : List Char → Entry → Prop
  | link {link : String} (hlink : Text.OnlyAtEnd "]]".toList link.toList) :
    Form ("[[".toList ++ link.toList ++ "]]".toList) ⟨link, "", ""⟩
  | state {link state : String} {before behind : List Char}
      (hlink : Text.OnlyAtEnd "]]".toList link.toList) (hstate : '"' ∉ state.toList)
      (hbefore : ∀ c ∈ before, Text.isBlank c = true) (hbehind : ∀ c ∈ behind, Text.isBlank c = true) :
    Form ("[[".toList ++ link.toList ++ "]]".toList ++ before ++ [','] ++ behind ++
      ['"'] ++ state.toList ++ ['"']) ⟨link, state, ""⟩
  | note {link state note : String} {before behind before' behind' : List Char}
      (hlink : Text.OnlyAtEnd "]]".toList link.toList) (hstate : '"' ∉ state.toList)
      (hbefore : ∀ c ∈ before, Text.isBlank c = true) (hbehind : ∀ c ∈ behind, Text.isBlank c = true)
      (hbefore' : ∀ c ∈ before', Text.isBlank c = true)
      (hbehind' : ∀ c ∈ behind', Text.isBlank c = true) :
    Form ("[[".toList ++ link.toList ++ "]]".toList ++ before ++ [','] ++ behind ++
      ['"'] ++ state.toList ++ ['"'] ++ before' ++ [','] ++ behind' ++
      ['"'] ++ note.toList ++ ['"']) ⟨link, state, note⟩

variable {entry a b : Entry} {text : List Char}

/-- A form starts with a bracket and ends with a bracket or a quote. -/
theorem Form.trimmed (h : Form text entry) : Text.Trimmed text := by
  have hends : ∃ inner last, text = '[' :: inner ++ [last] ∧ Text.isBlank last = false := by
    cases h with
    | @link link => exact ⟨'[' :: link.toList ++ [']'], ']', by simp, by decide⟩
    | @state link state before behind =>
      exact ⟨'[' :: link.toList ++ "]]".toList ++ before ++ [','] ++ behind ++ ['"'] ++ state.toList,
        '"', by simp, by decide⟩
    | @note link state note before behind before' behind' =>
      exact ⟨'[' :: link.toList ++ "]]".toList ++ before ++ [','] ++ behind ++ ['"'] ++ state.toList ++
        ['"'] ++ before' ++ [','] ++ behind' ++ ['"'] ++ note.toList, '"', by simp, by decide⟩
  obtain ⟨inner, last, rfl, hlast⟩ := hends
  exact Text.trimmed_cons_concat (by decide) hlast inner

theorem Form.written (h : Form text entry) : entry.Written text := by
  cases h with
  | link hlink => exact ⟨hlink, [], [], by simp, by simp, .none⟩
  | @state link state before behind hlink hstate hbefore hbehind =>
    exact ⟨hlink, before, ',' :: behind ++ '"' :: state.toList ++ ['"'], by simp, hbefore,
      .state hbehind hstate⟩
  | @note link state note before behind before' behind' hlink hstate hbefore hbehind hbefore' hbehind' =>
    exact ⟨hlink, before, ',' :: behind ++ '"' :: state.toList ++ '"' :: before' ++ ',' :: behind' ++
      '"' :: note.toList ++ ['"'], by simp, hbefore, .note hbehind hstate hbefore' hbehind'⟩

theorem form_of_written (h : entry.Written text) (htrimmed : Text.Trimmed text) :
    Form text entry := by
  obtain ⟨link, state, note⟩ := entry
  obtain ⟨hlink, before, rest, htext, hbefore, hrest⟩ := h
  generalize hstateChars : state.toList = stateChars at hrest
  generalize hnoteChars : note.toList = noteChars at hrest
  cases hrest with
  | none =>
    -- nothing follows the link, not even a blank
    have hend : Text.trimEnd text = '[' :: '[' :: link.toList ++ [']', ']'] := by
      have hsplit : text = ('[' :: '[' :: link.toList ++ [']']) ++ ']' :: before := by simp [htext]
      rw [hsplit, Text.trimEnd_append_cons (by decide), Text.trimEnd_eq_nil hbefore]
      simp
    obtain rfl : state = "" := String.toList_inj.1 hstateChars
    obtain rfl : note = "" := String.toList_inj.1 hnoteChars
    rw [← htrimmed.trimEnd_eq, hend]
    exact .link hlink
  | @state behind _ hbehind hstate =>
    obtain rfl : note = "" := String.toList_inj.1 hnoteChars
    subst hstateChars
    have hform : Form _ ⟨link, state, ""⟩ := .state hlink hstate hbefore hbehind
    simpa [htext] using hform
  | @note behind _ before' behind' _ hbehind hstate hbefore' hbehind' =>
    subst hstateChars hnoteChars
    have hform : Form _ ⟨link, state, note⟩ :=
      .note hlink hstate hbefore hbehind hbefore' hbehind'
    simpa [htext] using hform

theorem read_eq_ok_iff_form (h : Text.Trimmed text) : read text = .ok entry ↔ Form text entry := by
  rw [read_eq_ok_iff h]
  exact ⟨fun hwritten => form_of_written hwritten h, Form.written⟩

theorem Form.unique (ha : Form text a) (hb : Form text b) : a = b := by
  have hreada : read text = .ok a := (read_eq_ok_iff_form ha.trimmed).2 ha
  have hreadb : read text = .ok b := (read_eq_ok_iff_form hb.trimmed).2 hb
  exact Except.ok.inj (hreada.symm.trans hreadb)

/-- A text without blanks around it is read as the entry whose form it has, and refused if it has
none; no text has two. -/
theorem read_iff_form {text : List Char} (h : Text.Trimmed text) :
    (∀ entry, read text = .ok entry ↔ Form text entry) ∧
      ((∃ fault, read text = .error fault) ↔ ∀ entry, ¬ Form text entry) ∧
        ∀ a b, Form text a → Form text b → a = b := by
  refine ⟨fun entry => read_eq_ok_iff_form h, ?_, fun a b ha hb => ha.unique hb⟩
  constructor
  · rintro ⟨fault, hfault⟩ entry hform
    rw [← read_eq_ok_iff_form h, hfault] at hform
    cases hform
  · intro hnone
    cases hread : read text with
    | error fault => exact ⟨fault, rfl⟩
    | ok entry => exact absurd ((read_eq_ok_iff_form h).1 hread) (hnone entry)

/-- Commas, brackets and quotes inside the fields, and an ideographic space around a comma. -/
theorem read_iff_form_quotes :
    let text := "[[a, \"b\"]\u3000c]] \u3000, \"x, [[y]]\",\"late, said \"no\"\"".toList
    Text.Trimmed text ∧ Form text ⟨"a, \"b\"]\u3000c", "x, [[y]]", "late, said \"no\""⟩ ∧
      ∀ other, Form text other → other = ⟨"a, \"b\"]\u3000c", "x, [[y]]", "late, said \"no\""⟩ := by
  intro text
  have htrimmed : Text.Trimmed text := by decide +kernel
  have hread : read text = .ok ⟨"a, \"b\"]\u3000c", "x, [[y]]", "late, said \"no\""⟩ := by
    decide +kernel
  obtain ⟨hok, -, hunique⟩ := read_iff_form htrimmed
  have hform := (hok _).1 hread
  exact ⟨htrimmed, hform, fun other hother => hunique other _ hother hform⟩

end RollCall.Entry
