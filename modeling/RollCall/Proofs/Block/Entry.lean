import RollCall.Block.Body
import RollCall.Proofs.Text.Line

/-!
# Entry lines

The three forms in which an entry can be written, and the proof that a trimmed text is read as an
entry exactly if it has one of them (`Entry.read_eq_ok_iff`). The link ends at the first closing
brackets and the state at the first quote; the note runs to the last quote, so that it may hold
quotes itself.
-/

namespace RollCall

/-- What may stand behind the link of an entry: nothing, a state, or a state and a note. -/
inductive StateWritten : List Char → List Char → List Char → Prop where
  /-- Neither a state nor a note. -/
  | none : StateWritten [] [] []
  /-- A state. -/
  | state {blanks state : List Char} (hblanks : ∀ c ∈ blanks, Text.isBlank c = true)
      (hstate : '"' ∉ state) :
      StateWritten (',' :: blanks ++ '"' :: state ++ ['"']) state []
  /-- A state and a note. -/
  | note {blanks state before behind note : List Char}
      (hblanks : ∀ c ∈ blanks, Text.isBlank c = true) (hstate : '"' ∉ state)
      (hbefore : ∀ c ∈ before, Text.isBlank c = true)
      (hbehind : ∀ c ∈ behind, Text.isBlank c = true) :
      StateWritten (',' :: blanks ++ '"' :: state ++ '"' :: before ++ ',' :: behind ++ '"' :: note ++
        ['"']) state note

theorem StateWritten.isBlank_head {text state note : List Char} (h : StateWritten text state note) :
    ∀ c ∈ text.head?, Text.isBlank c = false := by
  cases h with
  | none => simp
  | state => simpa using by decide
  | note => simpa using by decide

namespace Entry

/-- The text is a written form of the entry. -/
structure Written (entry : Entry) (text : List Char) : Prop where
  /-- The brackets behind the link are the first ones that close it. -/
  link_closed : Text.OnlyAtEnd [']', ']'] entry.link.toList
  /-- The link is followed by blanks and the state. -/
  exists_state : ∃ blanks rest, text = '[' :: '[' :: entry.link.toList ++ [']', ']'] ++ blanks ++ rest ∧
    (∀ c ∈ blanks, Text.isBlank c = true) ∧
      StateWritten rest entry.state.toList entry.note.toList

/-! ## Fields -/

theorem nextField_eq_ok_iff {text field : List Char} (hend : Text.trimEnd text = text) :
    nextField text = .ok field ↔ ∃ blanks, text = ',' :: blanks ++ field ∧
      (∀ c ∈ blanks, Text.isBlank c = true) ∧ ∀ c ∈ field.head?, Text.isBlank c = false := by
  have htrim : ∀ rest, text = ',' :: rest → Text.trim rest = Text.trimStart rest := by
    rintro rest rfl
    have hrest : Text.trimEnd rest = rest := by
      simpa using (Text.trimEnd_append_cons (by decide) [] rest).symm.trans hend
    rw [← Text.trimStart_trimEnd, hrest]
  unfold nextField
  cases hafter : Text.after? [','] text with
  | none =>
    refine ⟨by simp, ?_⟩
    rintro ⟨blanks, rfl, -⟩
    simp at hafter
  | some rest =>
    have htext : text = ',' :: rest := Text.after?_eq_some_iff.1 hafter
    simp only [Except.ok.injEq, htrim rest htext, Text.trimStart_eq_iff, htext, List.cons_append,
      List.cons.injEq, true_and]

theorem readNote_eq_ok_iff {text note : List Char} :
    readNote text = .ok note ↔ text = '"' :: note ++ ['"'] := by
  unfold readNote
  cases hafter : Text.after? ['"'] text with
  | none =>
    simp only [Option.bind_none, reduceCtorEq, false_iff]
    rintro rfl
    simp at hafter
  | some rest =>
    rw [Text.after?_eq_some_iff] at hafter
    subst hafter
    rw [Option.bind_some]
    cases hbefore : Text.before? ['"'] rest with
    | none =>
      simp only [reduceCtorEq, false_iff]
      intro htext
      have := Text.before?_eq_some_iff.2 (List.cons.inj htext).2
      simp [hbefore] at this
    | some note' =>
      rw [Text.before?_eq_some_iff] at hbefore
      subst hbefore
      simp [eq_comm]

/-- What is read behind the state. -/
def readBehindState (state rest : List Char) : Except EntryFault (List Char × List Char) :=
  if rest = [] then .ok (state, [])
  else (nextField rest).bind fun field => (readNote field).map fun note => (state, note)

theorem readState_quoted {text quoted state rest : List Char} (hne : text ≠ [])
    (hfield : nextField text = .ok ('"' :: quoted))
    (hcut : Text.cut? ['"'] quoted = some (state, rest)) :
    readState text = readBehindState state (Text.trimStart rest) := by
  rw [readState, if_neg hne, hfield, readBehindState]
  simp only [bind, Except.bind, Text.after?_cons_cons, Text.after?_nil, if_true, hcut]
  split
  · rfl
  · cases nextField (Text.trimStart rest) with
    | error fault => rfl
    | ok field => cases readNote field <;> rfl

/-- A state can only be read behind a comma and between two quotes. -/
theorem exists_quoted_of_readState {text state note : List Char} (hne : text ≠ [])
    (h : readState text = .ok (state, note)) : ∃ quoted state rest,
      nextField text = .ok ('"' :: quoted) ∧ Text.cut? ['"'] quoted = some (state, rest) := by
  rw [readState, if_neg hne] at h
  cases hfield : nextField text with
  | error fault => simp [hfield, bind, Except.bind] at h
  | ok field =>
    simp only [hfield, bind, Except.bind] at h
    split at h
    · simp [throw, throwThe, MonadExceptOf.throw] at h
    · next quoted hquoted =>
      have hq : field = '"' :: quoted := Text.after?_eq_some_iff.1 hquoted
      split at h
      · simp [throw, throwThe, MonadExceptOf.throw] at h
      · next state rest hcut => exact ⟨quoted, state, rest, by rw [hq], hcut⟩

theorem readBehindState_eq_ok_iff {start rest state note : List Char}
    (hend : Text.trimEnd rest = rest) :
    readBehindState start rest = .ok (state, note) ↔ start = state ∧
      ((rest = [] ∧ note = []) ∨ ∃ behind, rest = ',' :: behind ++ '"' :: note ++ ['"'] ∧
        ∀ c ∈ behind, Text.isBlank c = true) := by
  unfold readBehindState
  split
  · next hnil =>
    subst hnil
    simp only [Except.ok.injEq, Prod.mk.injEq, true_and]
    constructor
    · rintro ⟨rfl, rfl⟩
      exact ⟨rfl, .inl rfl⟩
    · rintro ⟨rfl, rfl | ⟨behind, hrest, -⟩⟩
      · exact ⟨rfl, rfl⟩
      · simp at hrest
  · next hnil =>
    constructor
    · intro h
      cases hfield : nextField rest with
      | error fault => simp [hfield, Except.bind] at h
      | ok field =>
        cases hnote : readNote field with
        | error fault => simp [hfield, hnote, Except.bind, Except.map] at h
        | ok note' =>
          simp only [hfield, hnote, Except.bind, Except.map, Except.ok.injEq, Prod.mk.injEq] at h
          obtain ⟨rfl, rfl⟩ := h
          obtain ⟨behind, hrest, hbehind, -⟩ := (nextField_eq_ok_iff hend).1 hfield
          rw [readNote_eq_ok_iff.1 hnote] at hrest
          exact ⟨rfl, .inr ⟨behind, by simp [hrest], hbehind⟩⟩
    · rintro ⟨rfl, ⟨rfl, -⟩ | ⟨behind, hrest, hbehind⟩⟩
      · exact absurd rfl hnil
      · have hfield : nextField rest = .ok ('"' :: note ++ ['"']) :=
          (nextField_eq_ok_iff hend).2 ⟨behind, by simp [hrest], hbehind, by simp; decide⟩
        have hnote : readNote ('"' :: note ++ ['"']) = .ok note := readNote_eq_ok_iff.2 rfl
        simp only [hfield, hnote, Except.bind, Except.map]

theorem readState_written {text blanks state : List Char} (rest : List Char)
    (hend : Text.trimEnd text = text)
    (htext : text = ',' :: blanks ++ '"' :: (state ++ '"' :: rest))
    (hblanks : ∀ c ∈ blanks, Text.isBlank c = true) (hstate : '"' ∉ state) :
    readState text = readBehindState state (Text.trimStart rest) := by
  have hfield : nextField text = .ok ('"' :: (state ++ '"' :: rest)) :=
    (nextField_eq_ok_iff hend).2 ⟨blanks, htext, hblanks, by simp; decide⟩
  have hcut := Text.cut?_append (Text.onlyAtEnd_singleton_iff.2 hstate) rest
  rw [List.append_assoc, List.singleton_append] at hcut
  exact readState_quoted (by simp [htext]) hfield hcut

theorem readState_eq_ok_iff {text state note : List Char} (hend : Text.trimEnd text = text) :
    readState text = .ok (state, note) ↔ StateWritten text state note := by
  constructor
  · intro h
    by_cases hnil : text = []
    · subst hnil
      obtain ⟨rfl, rfl⟩ : [] = state ∧ [] = note := by simpa [readState, pure, Except.pure] using h
      exact .none
    obtain ⟨quoted, start, rest, hfield, hcut⟩ := exists_quoted_of_readState hnil h
    obtain ⟨blanks, htext, hblanks, -⟩ := (nextField_eq_ok_iff hend).1 hfield
    obtain ⟨hquoted, hstart⟩ := Text.cut?_eq_some_iff.1 hcut
    have hsplit : text = ',' :: blanks ++ '"' :: start ++ '"' :: rest := by
      simp [htext, hquoted]
    have hrest : Text.trimEnd rest = rest :=
      Text.trimEnd_suffix hend ⟨',' :: blanks ++ '"' :: start ++ ['"'], by simp [hsplit]⟩
    rw [readState_quoted hnil hfield hcut, readBehindState_eq_ok_iff
      (Text.trimEnd_suffix hrest (Text.trimStart_suffix rest))] at h
    obtain ⟨rfl, ⟨hstop, rfl⟩ | ⟨behind, hgo, hbehind⟩⟩ := h
    · obtain ⟨before, hbefore, hblank, -⟩ := Text.trimStart_eq_iff.1 hstop
      have hempty : rest = [] := by
        rw [← hrest]
        exact Text.trimEnd_eq_nil (by simpa [hbefore] using hblank)
      rw [hsplit, hempty]
      exact .state hblanks (Text.onlyAtEnd_singleton_iff.1 hstart)
    · obtain ⟨before, hbefore, hblank, -⟩ := Text.trimStart_eq_iff.1 hgo
      have hwritten : StateWritten _ start note :=
        .note hblanks (Text.onlyAtEnd_singleton_iff.1 hstart) hblank hbehind
      simpa [hsplit, hbefore] using hwritten
  · intro h
    cases h with
    | none => rfl
    | @state blanks state hblanks hstate =>
      rw [readState_written [] hend (by simp) hblanks hstate]
      rfl
    | @note blanks state before behind note hblanks hstate hbefore hbehind =>
      have hgo : Text.trimStart (before ++ (',' :: behind ++ '"' :: note ++ ['"'])) =
          ',' :: behind ++ '"' :: note ++ ['"'] :=
        Text.trimStart_eq_iff.2 ⟨before, rfl, hbefore, by simp; decide⟩
      have hrest : Text.trimEnd (',' :: behind ++ '"' :: note ++ ['"']) =
          ',' :: behind ++ '"' :: note ++ ['"'] :=
        Text.trimEnd_suffix hend ⟨',' :: blanks ++ '"' :: state ++ '"' :: before, by simp⟩
      rw [readState_written (before ++ (',' :: behind ++ '"' :: note ++ ['"'])) hend (by simp) hblanks
        hstate, hgo, readBehindState_eq_ok_iff hrest]
      exact ⟨rfl, .inr ⟨behind, rfl, hbehind⟩⟩

/-! ## Entries -/

/-- A trimmed text is read as an entry exactly if it is a written form of the entry. -/
theorem read_eq_ok_iff {entry : Entry} {text : List Char} (h : Text.Trimmed text) :
    read text = .ok entry ↔ entry.Written text := by
  constructor
  · intro hread
    unfold read at hread
    split at hread
    · simp at hread
    · next inner hinner =>
      have htext : text = '[' :: '[' :: inner := Text.after?_eq_some_iff.1 hinner
      split at hread
      · simp at hread
      · next link rest hcut =>
        obtain ⟨rfl, hclosed⟩ := Text.cut?_eq_some_iff.1 hcut
        cases hstate : readState (Text.trimStart rest) with
        | error fault => simp [hstate, bind, Except.bind] at hread
        | ok found =>
          obtain ⟨state, note⟩ := found
          obtain rfl : ⟨String.ofList link, String.ofList state, String.ofList note⟩ = entry := by
            simpa [hstate, bind, Except.bind, pure, Except.pure] using hread
          have hsuffix : Text.trimStart rest <:+ text :=
            (Text.trimStart_suffix rest).trans
              ⟨'[' :: '[' :: link ++ [']', ']'], by simp [htext]⟩
          obtain ⟨blanks, hrest, hblanks, -⟩ := Text.trimStart_eq_iff.1 (Eq.refl (Text.trimStart rest))
          refine ⟨by simpa using hclosed, blanks, Text.trimStart rest, ?_, hblanks, ?_⟩
          · simp [htext, ← hrest]
          · simpa using (readState_eq_ok_iff (Text.trimEnd_suffix h.trimEnd_eq hsuffix)).1 hstate
  · rintro ⟨hclosed, blanks, rest, htext, hblanks, hwritten⟩
    have hcut := Text.cut?_append hclosed (blanks ++ rest)
    have hrest : Text.trimStart (blanks ++ rest) = rest :=
      Text.trimStart_eq_iff.2 ⟨blanks, rfl, hblanks, hwritten.isBlank_head⟩
    have hsuffix : rest <:+ text :=
      ⟨'[' :: '[' :: entry.link.toList ++ [']', ']'] ++ blanks, by simp [htext]⟩
    have hstate := (readState_eq_ok_iff (Text.trimEnd_suffix h.trimEnd_eq hsuffix)).2 hwritten
    have hinner : Text.after? ['[', '['] text =
        some (entry.link.toList ++ [']', ']'] ++ (blanks ++ rest)) :=
      Text.after?_eq_some_iff.2 (by simp [htext])
    unfold read
    simp only [hinner, hcut, hrest, hstate, bind, Except.bind, pure, Except.pure, String.ofList_toList]

end Entry

end RollCall
