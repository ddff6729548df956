import RollCall.Text.EditDistance
import Mathlib.Order.Bounds.Basic
import Mathlib.Order.MinMax
import Mathlib.Tactic.Common

/-!
# The edit distance is the least number of edits

An edit inserts, deletes or replaces one character anywhere in a text, and the edit distance is the
least number of edits that turn one text into the other (`isLeast_editDistance`).

The rows are found from the front of both texts, so that the entry for two prefixes depends on their
last characters. `backDistance` is that recursion over texts that are written backwards: the rows hold
its values (`editDistance_eq`), and one edit changes its value by one at most (`Edit.backDistance_le`).
-/

namespace RollCall.Text

/-! ## Edits -/

/-- One edit of a text. -/
inductive Edit : List Char → List Char → Prop
  | insert (front rest : List Char) (c : Char) : Edit (front ++ rest) (front ++ c :: rest)
  | delete (front rest : List Char) (c : Char) : Edit (front ++ c :: rest) (front ++ rest)
  | replace (front rest : List Char) (c d : Char) : Edit (front ++ c :: rest) (front ++ d :: rest)

/-- A number of edits of a text, one after another. -/
inductive Edits : Nat → List Char → List Char → Prop
  | none (text : List Char) : Edits 0 text text
  | step {n : Nat} {source middle target : List Char} (edits : Edits n source middle)
      (edit : Edit middle target) : Edits (n + 1) source target

variable {source middle target s t u : List Char} {c d : Char} {m n : Nat}

theorem Edit.edits (h : Edit source target) : Edits 1 source target :=
  .step (.none source) h

theorem Edits.trans (h : Edits m source middle) (hmore : Edits n middle target) :
    Edits (m + n) source target := by
  induction hmore with
  | none => exact h
  | step _ edit ih => exact .step (ih h) edit

theorem Edit.cons (c : Char) (h : Edit source target) : Edit (c :: source) (c :: target) := by
  cases h with
  | insert front rest d => exact .insert (c :: front) rest d
  | delete front rest d => exact .delete (c :: front) rest d
  | replace front rest d e => exact .replace (c :: front) rest d e

theorem Edits.cons (c : Char) (h : Edits n source target) :
    Edits n (c :: source) (c :: target) := by
  induction h with
  | none => exact .none _
  | step _ edit ih => exact .step ih (edit.cons c)

theorem Edit.reverse (h : Edit source target) : Edit source.reverse target.reverse := by
  cases h with
  | insert front rest c => simpa using Edit.insert rest.reverse front.reverse c
  | delete front rest c => simpa using Edit.delete rest.reverse front.reverse c
  | replace front rest c d => simpa using Edit.replace rest.reverse front.reverse c d

theorem Edits.reverse (h : Edits n source target) : Edits n source.reverse target.reverse := by
  induction h with
  | none => exact .none _
  | step _ edit ih => exact .step ih edit.reverse

/-! ## The distance of texts that are written backwards -/

/-- The edit distance of two texts that are written backwards: the first characters are the last. -/
def backDistance : List Char → List Char → Nat
  | [], target => target.length
  | source, [] => source.length
  | c :: source, d :: target =>
    min (min (backDistance (c :: source) target + 1) (backDistance source (d :: target) + 1))
      (backDistance source target + if d = c then 0 else 1)

@[simp] theorem backDistance_nil (target : List Char) : backDistance [] target = target.length := by
  rw [backDistance]

@[simp] theorem backDistance_of_nil (source : List Char) :
    backDistance source [] = source.length := by
  cases source with
  | nil => rw [backDistance]
  | cons c source => rw [backDistance]; exact List.cons_ne_nil c source

theorem backDistance_cons (c d : Char) (source target : List Char) :
    backDistance (c :: source) (d :: target) =
      min (min (backDistance (c :: source) target + 1) (backDistance source (d :: target) + 1))
        (backDistance source target + if d = c then 0 else 1) := by
  rw [backDistance]

theorem backDistance_cons_le_left (c : Char) (s t : List Char) :
    backDistance (c :: s) t ≤ backDistance s t + 1 := by
  cases t with
  | nil => simp
  | cons d t => rw [backDistance_cons]; omega

theorem backDistance_cons_le_right (d : Char) (s t : List Char) :
    backDistance s (d :: t) ≤ backDistance s t + 1 := by
  cases s with
  | nil => simp
  | cons c s => rw [backDistance_cons]; omega

/-- As many edits as the distance are enough. -/
theorem edits_backDistance (s t : List Char) : Edits (backDistance s t) s t := by
  induction s generalizing t with
  | nil =>
    rw [backDistance_nil]
    induction t with
    | nil => exact .none []
    | cons d t ih => exact .step ih (.insert [] t d)
  | cons c s ih =>
    have hdelete : Edits 1 (c :: s) s := (Edit.delete [] s c).edits
    induction t with
    | nil =>
      have hs := ih []
      rw [backDistance_of_nil] at hs ⊢
      rw [List.length_cons, Nat.add_comm]
      exact hdelete.trans hs
    | cons d t iht =>
      -- the last edit inserts `d`, or the first one deletes `c`, or `c` stays or becomes `d`
      have hinsert : Edits (backDistance (c :: s) t + 1) (c :: s) (d :: t) :=
        .step iht (.insert [] t d)
      have hfirst : Edits (1 + backDistance s (d :: t)) (c :: s) (d :: t) := hdelete.trans (ih (d :: t))
      have hkeep : Edits (backDistance s t + if d = c then 0 else 1) (c :: s) (d :: t) := by
        by_cases hdc : d = c
        · subst hdc
          simpa using (ih t).cons d
        · rw [if_neg hdc]
          exact .step ((ih t).cons c) (.replace [] t c d)
      rw [Nat.add_comm 1] at hfirst
      rw [backDistance_cons]
      exact min_rec' (Edits · (c :: s) (d :: t)) (min_rec' (Edits · (c :: s) (d :: t)) hinsert hfirst)
        hkeep

/-! ## One edit changes the distance by one at most -/

theorem backDistance_le_cons (d : Char) (s t : List Char) :
    backDistance s t ≤ backDistance s (d :: t) + 1 := by
  induction s with
  | nil => simp; omega
  | cons c s ih =>
    have hdrop := backDistance_cons_le_left c s t
    rw [backDistance_cons]
    omega

theorem backDistance_replace (d e : Char) (s t : List Char) :
    backDistance s (e :: t) ≤ backDistance s (d :: t) + 1 := by
  induction s with
  | nil => simp
  | cons c s ih =>
    have hinsert := backDistance_cons_le_right e (c :: s) t
    have hdelete := backDistance_cons_le_left c s (e :: t)
    have hkeep : backDistance (c :: s) (e :: t) ≤ backDistance s t + 1 := by
      rw [backDistance_cons]
      split <;> omega
    rw [backDistance_cons c d]
    omega

/-- Texts that are near each other for every source stay so with one more character at the end. -/
theorem backDistance_cons_congr (d : Char) (h : ∀ s, backDistance s u ≤ backDistance s t + 1)
    (s : List Char) : backDistance s (d :: u) ≤ backDistance s (d :: t) + 1 := by
  induction s with
  | nil => simpa using h []
  | cons c s ih =>
    have hinsert := h (c :: s)
    have hkeep := h s
    rw [backDistance_cons, backDistance_cons]
    omega

theorem Edit.backDistance_le (h : Edit t u) (s : List Char) :
    backDistance s u ≤ backDistance s t + 1 := by
  have hfront : ∀ front {t u : List Char}, (∀ s, backDistance s u ≤ backDistance s t + 1) →
      ∀ s, backDistance s (front ++ u) ≤ backDistance s (front ++ t) + 1 := by
    intro front t u hnear
    induction front with
    | nil => exact hnear
    | cons d front ih => exact backDistance_cons_congr d ih
  cases h with
  | insert front rest c => exact hfront front (backDistance_cons_le_right c · rest) s
  | delete front rest c => exact hfront front (backDistance_le_cons c · rest) s
  | replace front rest c d => exact hfront front (backDistance_replace c d · rest) s

theorem backDistance_self (s : List Char) : backDistance s s = 0 := by
  induction s with
  | nil => simp
  | cons c s ih => rw [backDistance_cons, if_pos rfl, ih]; omega

/-- Fewer edits than the distance are not enough. -/
theorem Edits.backDistance_le (h : Edits n s t) : backDistance s t ≤ n := by
  induction h with
  | none text => rw [backDistance_self]
  | step _ edit ih =>
    have hstep := edit.backDistance_le
    exact (hstep _).trans (Nat.succ_le_succ ih)

/-! ## The rows -/

/-- The entries of a row behind those for the prefixes of `read`, which is written backwards. -/
def rowFrom (source : List Char) : (read rest : List Char) → List Nat
  | _, [] => []
  | read, t :: rest => backDistance source (t :: read) :: rowFrom source (t :: read) rest

/-- The row of the distances to all prefixes of the target. -/
def rowOf (source target : List Char) : List Nat :=
  backDistance source [] :: rowFrom source [] target

theorem nextDistances_rowFrom (c : Char) (source read rest : List Char) :
    nextDistances c rest (backDistance (c :: source) read) (backDistance source read)
      (rowFrom source read rest) = rowFrom (c :: source) read rest := by
  induction rest generalizing read with
  | nil => rfl
  | cons t rest ih =>
    rw [rowFrom, nextDistances, rowFrom, ← ih (t :: read), backDistance_cons]

theorem nextRow_rowOf (c : Char) (source target : List Char) :
    nextRow target (rowOf source target) c = rowOf (c :: source) target := by
  have hnext := nextDistances_rowFrom c source [] target
  simp only [backDistance_of_nil, List.length_cons] at hnext
  simp only [rowOf, nextRow, backDistance_of_nil, List.length_cons, hnext]

theorem rowFrom_nil (read rest : List Char) :
    rowFrom [] read rest = List.range' (read.length + 1) rest.length := by
  induction rest generalizing read with
  | nil => rfl
  | cons t rest ih => rw [rowFrom, ih, backDistance_nil, List.length_cons, List.length_cons,
      List.range'_succ]

theorem foldl_nextRow (source read target : List Char) :
    source.foldl (nextRow target) (rowOf read target) = rowOf (source.reverse ++ read) target := by
  induction source generalizing read with
  | nil => rfl
  | cons c source ih => rw [List.foldl_cons, nextRow_rowOf, ih]; simp

theorem getLastD_rowFrom (source read rest : List Char) (other : Nat) :
    (backDistance source read :: rowFrom source read rest).getLastD other =
      backDistance source (rest.reverse ++ read) := by
  induction rest generalizing read other with
  | nil => rfl
  | cons t rest ih =>
    rw [rowFrom, List.getLastD_cons, ih]
    simp

theorem editDistance_eq (source target : List Char) :
    editDistance source target = backDistance source.reverse target.reverse := by
  have hstart : List.range (target.length + 1) = rowOf [] target := by
    rw [rowOf, rowFrom_nil, backDistance_nil, List.range_eq_range', List.range'_succ]
    rfl
  rw [editDistance, hstart, foldl_nextRow, List.append_nil, rowOf, getLastD_rowFrom,
    List.append_nil]

/-- The edit distance is the least number of edits that turn one text into the other. -/
theorem isLeast_editDistance (source target : List Char) :
    IsLeast {n | Edits n source target} (editDistance source target) := by
  rw [editDistance_eq]
  constructor
  · simpa using (edits_backDistance source.reverse target.reverse).reverse
  · exact fun n hedits => hedits.reverse.backDistance_le

theorem editDistance_eq_zero_iff : editDistance source target = 0 ↔ source = target := by
  have hleast := isLeast_editDistance source target
  constructor
  · intro hzero
    have hedits : Edits 0 source target := hzero ▸ hleast.1
    cases hedits
    rfl
  · rintro rfl
    exact Nat.le_zero.1 (hleast.2 (Edits.none source))

end RollCall.Text
