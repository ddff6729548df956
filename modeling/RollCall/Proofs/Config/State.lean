import RollCall.Config.State
import RollCall.Proofs.Names.Suggestion
import RollCall.Proofs.Text.LowerCase
import Mathlib.Data.List.Nodup

/-!
# A state by its name and by its key

With keys that are all different, the key of a state leads to it and so does its name, in whatever case
its letters A to Z are written. A name with the same key that differs in the case of any other letter is
not known, and nothing is suggested in its place (`AttendanceState.named_iff_of_key`).
-/

namespace RollCall

namespace AttendanceState

variable {states : List AttendanceState} {state other : AttendanceState} {name : String}

theorem eq_of_key_eq (hkeys : (states.map key).Nodup) (hstate : state ∈ states) (hother : other ∈ states)
    (h : other.key = state.key) : other = state :=
  List.inj_on_of_nodup_map hkeys hother hstate h

theorem find?_of_unique {p : AttendanceState → Bool} (hstate : state ∈ states) (hp : p state = true)
    (hunique : ∀ other ∈ states, p other = true → other = state) : states.find? p = some state := by
  cases hfind : states.find? p with
  | none => exact absurd hp (List.find?_eq_none.1 hfind state hstate)
  | some found =>
    rw [hunique found (List.mem_of_find?_eq_some hfind) (List.find?_some hfind)]

theorem ofKey?_key (hkeys : (states.map key).Nodup) (hstate : state ∈ states) :
    ofKey? states state.key = some state := by
  refine find?_of_unique hstate (by simp) ?_
  intro other hother hkey
  exact eq_of_key_eq hkeys hstate hother (of_decide_eq_true hkey)

/-- Whoever has the name has the key of the name. -/
theorem key_eq_of_eqIgnoringAsciiCase (h : Text.eqIgnoringAsciiCase state.name name = true) :
    state.key = Text.lowerCase name :=
  Text.lowerCase_eq_of_eqIgnoringAsciiCase h

theorem named_of_eqIgnoringAsciiCase (hkeys : (states.map key).Nodup) (hstate : state ∈ states)
    (h : Text.eqIgnoringAsciiCase state.name name = true) : named states name = .ok state := by
  have hfind : states.find? (fun state => Text.eqIgnoringAsciiCase state.name name) = some state := by
    refine find?_of_unique hstate h fun other hother hname => ?_
    refine eq_of_key_eq hkeys hstate hother ?_
    rw [key_eq_of_eqIgnoringAsciiCase hname, key_eq_of_eqIgnoringAsciiCase h]
  unfold named
  rw [hfind]

theorem named_of_other_case (hkeys : (states.map key).Nodup) (hstate : state ∈ states)
    (hname : Text.lowerCase name = state.key)
    (h : Text.eqIgnoringAsciiCase state.name name = false) :
    named states name = .error ⟨name, none, states.map AttendanceState.name⟩ := by
  have hfind : states.find? (fun state => Text.eqIgnoringAsciiCase state.name name) = none := by
    refine List.find?_eq_none.2 fun other hother hother' => ?_
    -- whoever has the name has its key, and only the state has that
    obtain rfl : other = state := by
      refine eq_of_key_eq hkeys hstate hother ?_
      rw [key_eq_of_eqIgnoringAsciiCase hother', hname]
    rw [h] at hother'
    cases hother'
  have hne : state.name ≠ "" := by
    intro hempty
    have hsame : name = "" := by
      rw [← Text.lowerCase_eq_empty_iff, hname, key, hempty, Text.lowerCase_eq_empty_iff]
    rw [hsame, hempty] at h
    exact absurd h (by decide)
  have hsuggest : suggest? name (states.map AttendanceState.name) = none :=
    suggest?_eq_none (List.mem_map_of_mem hstate) hne hname
  unfold named
  rw [hfind]
  simp only [hsuggest]

/-- The key of a state leads to it, and so does a name with this key if it differs from the name of
the state in the case of A to Z alone. Any other name with this key is refused like a name that is far
from all. -/
theorem named_iff_of_key (states : List AttendanceState) (hkeys : (states.map key).Nodup)
    (state : AttendanceState) (hstate : state ∈ states) (name : String)
    (hname : Text.lowerCase name = state.key) :
    (named states name = .ok state ↔ Text.eqIgnoringAsciiCase state.name name = true) ∧
      (Text.eqIgnoringAsciiCase state.name name = false →
        named states name = .error ⟨name, none, states.map AttendanceState.name⟩) ∧
      ofKey? states state.key = some state ∧
      ∀ found, named states name = .ok found → ofKey? states found.key = some state := by
  have hother := named_of_other_case hkeys hstate hname
  have hsame : Text.eqIgnoringAsciiCase state.name name = true → named states name = .ok state :=
    named_of_eqIgnoringAsciiCase hkeys hstate
  refine ⟨⟨fun hfound => ?_, hsame⟩, hother, ofKey?_key hkeys hstate, fun found hfound => ?_⟩
  · by_contra hcase
    rw [hother (Bool.of_not_eq_true hcase)] at hfound
    cases hfound
  · cases hcase : Text.eqIgnoringAsciiCase state.name name with
    | true =>
      obtain rfl := Except.ok.inj ((hsame hcase).symm.trans hfound)
      exact ofKey?_key hkeys hstate
    | false =>
      rw [hother hcase] at hfound
      cases hfound

/-- A name with a letter outside A to Z, spelled as the state is but for an A. -/
theorem named_iff_of_key_umlaut :
    let states : List AttendanceState := [⟨"Straße", "~", "#a35c00"⟩, ⟨"Übung Am", "*", "#007e91"⟩]
    (states.map key).Nodup ∧ named states "Übung am" = .ok ⟨"Übung Am", "*", "#007e91"⟩ ∧
      ofKey? states "übung am" = some ⟨"Übung Am", "*", "#007e91"⟩ := by
  intro states
  have hkeys : (states.map key).Nodup := by decide +kernel
  have hlookup := named_iff_of_key states hkeys ⟨"Übung Am", "*", "#007e91"⟩ (by simp [states])
    "Übung am" (by decide +kernel)
  exact ⟨hkeys, hlookup.1.2 (by decide +kernel), hlookup.2.2.1⟩

/-- The key itself does not name the state. -/
theorem named_misses_umlaut :
    let states : List AttendanceState := [⟨"Übung", "*", "#007e91"⟩]
    let state : AttendanceState := ⟨"Übung", "*", "#007e91"⟩
    (states.map key).Nodup ∧ state ∈ states ∧ Text.lowerCase "übung" = state.key ∧
      named states "übung" ≠ .ok state := by
  decide +kernel

end AttendanceState

end RollCall
