import RollCall.Query.Resolution
import Mathlib.Tactic.Common

/-!
# What a query resolves to

A query stands for a condition on documents (`Lookup.Selects`), and resolving it gives the documents that
meet the condition. The only thing that can go wrong is a folder that does not exist; of several the
first one in the text is reported, whatever the other terms select (`resolve_exact`).
-/

namespace RollCall

/-- The terms of a query in the order in which they are written. -/
def Query.terms : Query → List Term
  | term t => [t]
  | binary _ left right => left.terms ++ right.terms

namespace Lookup

variable {lookup : Lookup} {folder : String} {terms others : List Term}

/-- The document meets the condition that the query stands for. -/
def Selects (lookup : Lookup) (path : String) : Query → Prop
  | .term (.tag name) => path ∈ lookup.documentsWithTag name
  | .term (.folder folder) => path ∈ lookup.documentsUnder folder
  | .term (.link link) => ∃ target, lookup.linkTarget? link = some target ∧
      (path ∈ (lookup.neighbours target).outgoing ∨ path ∈ (lookup.neighbours target).incoming)
  | .binary .and left right => lookup.Selects path left ∧ lookup.Selects path right
  | .binary .or left right => lookup.Selects path left ∨ lookup.Selects path right

/-- All folders that are named exist. -/
def Complete (lookup : Lookup) (terms : List Term) : Prop :=
  ∀ folder, Term.folder folder ∈ terms → lookup.folderExists folder = true

/-- The folder is the first one that is named and does not exist. -/
def FirstMissing (lookup : Lookup) (folder : String) (terms : List Term) : Prop :=
  ∃ before after, terms = before ++ .folder folder :: after ∧ lookup.folderExists folder = false ∧
    lookup.Complete before

theorem Complete.append (h : lookup.Complete terms) (hothers : lookup.Complete others) :
    lookup.Complete (terms ++ others) := by
  intro folder hfolder
  rcases List.mem_append.1 hfolder with hterm | hother
  · exact h folder hterm
  · exact hothers folder hother

theorem FirstMissing.append (h : lookup.FirstMissing folder terms) (others : List Term) :
    lookup.FirstMissing folder (terms ++ others) := by
  obtain ⟨before, after, rfl, hmissing, hbefore⟩ := h
  exact ⟨before, after ++ others, by simp, hmissing, hbefore⟩

theorem FirstMissing.append_left (h : lookup.FirstMissing folder terms)
    (hothers : lookup.Complete others) : lookup.FirstMissing folder (others ++ terms) := by
  obtain ⟨before, after, rfl, hmissing, hbefore⟩ := h
  exact ⟨others ++ before, after, by simp, hmissing, hothers.append hbefore⟩

theorem FirstMissing.not_complete (h : lookup.FirstMissing folder terms) :
    Term.folder folder ∈ terms ∧ lookup.folderExists folder = false := by
  obtain ⟨before, after, rfl, hmissing, -⟩ := h
  exact ⟨by simp, hmissing⟩

theorem mem_resolveLink_iff {link path : String} :
    path ∈ lookup.resolveLink link ↔ lookup.Selects path (.link link) := by
  unfold resolveLink Selects
  cases lookup.linkTarget? link with
  | none => simp
  | some target => simp

/-- How resolving a query ends: with the documents that it stands for or with the first folder that
does not exist. -/
inductive Resolved (lookup : Lookup) (query : Query) : Except ResolveError NameSet → Prop where
  /-- All folders exist. -/
  | found {documents : NameSet} (hfolders : lookup.Complete query.terms)
      (hmem : ∀ path, path ∈ documents ↔ lookup.Selects path query) :
      Resolved lookup query (.ok documents)
  /-- A folder does not exist. -/
  | missing {folder : String} (suggestion : Option String)
      (hfirst : lookup.FirstMissing folder query.terms) :
      Resolved lookup query (.error (.folderNotFound folder suggestion))

theorem resolved_term (lookup : Lookup) (t : Term) :
    lookup.Resolved (.term t) (lookup.resolveTerm t) := by
  cases t with
  | tag name =>
    refine .found (fun folder hfolder => ?_) fun path => Iff.rfl
    simp [Query.terms] at hfolder
  | folder path =>
    have hresolve : lookup.resolveTerm (.folder path) = lookup.resolveFolder path := rfl
    rw [hresolve, resolveFolder]
    split
    · next hexists =>
      refine .found (fun folder hfolder => ?_) fun path => Iff.rfl
      obtain rfl : folder = path := by simpa [Query.terms] using hfolder
      exact hexists
    · next hmissing =>
      refine .missing _ ⟨[], [], rfl, by simpa using hmissing, fun folder hfolder => ?_⟩
      exact absurd hfolder List.not_mem_nil
  | link target =>
    refine .found (fun folder hfolder => ?_) fun path => mem_resolveLink_iff
    simp [Query.terms] at hfolder

/-- The left operand is resolved first, and the right one even if the left one selects nothing. -/
theorem resolved_resolve (lookup : Lookup) (query : Query) :
    lookup.Resolved query (lookup.resolve query) := by
  induction query with
  | term t => exact lookup.resolved_term t
  | binary operation left right ihleft ihright =>
    unfold resolve
    generalize lookup.resolve left = leftResult at ihleft ⊢
    generalize lookup.resolve right = rightResult at ihright ⊢
    cases ihleft with
    | missing suggestion hfirst => exact .missing suggestion (hfirst.append right.terms)
    | found hleft hmemleft =>
      cases ihright with
      | missing suggestion hfirst => exact .missing suggestion (hfirst.append_left hleft)
      | found hright hmemright =>
        have hfolders : lookup.Complete (Query.binary operation left right).terms :=
          hleft.append hright
        cases operation with
        | and =>
          refine .found hfolders fun path => ?_
          rw [NameSet.mem_inter, hmemleft, hmemright]
          rfl
        | or =>
          refine .found hfolders fun path => ?_
          rw [NameSet.mem_union, hmemleft, hmemright]
          rfl

/-- Resolving a query fails exactly if some folder in it does not exist; the error names the first
such folder in reading order. Otherwise the result holds exactly the documents that meet the condition
the query stands for. -/
theorem resolve_exact (lookup : Lookup) (query : Query) :
    ((∃ error, lookup.resolve query = .error error) ↔
      ∃ folder, Term.folder folder ∈ query.terms ∧ lookup.folderExists folder = false) ∧
    (∀ folder suggestion, lookup.resolve query = .error (.folderNotFound folder suggestion) →
      ∃ before after, query.terms = before ++ .folder folder :: after ∧
        lookup.folderExists folder = false ∧
          ∀ other, Term.folder other ∈ before → lookup.folderExists other = true) ∧
    ∀ documents, lookup.resolve query = .ok documents →
      ∀ path, path ∈ documents ↔ lookup.Selects path query := by
  have hresolved := lookup.resolved_resolve query
  cases hresult : lookup.resolve query with
  | error error =>
    rw [hresult] at hresolved
    cases hresolved with
    | @missing first suggestion hfirst =>
      refine ⟨⟨fun _ => ⟨first, hfirst.not_complete⟩, fun _ => ⟨_, rfl⟩⟩, ?_, fun documents h => ?_⟩
      · rintro folder _ ⟨⟩
        exact hfirst
      · cases h
  | ok found =>
    rw [hresult] at hresolved
    cases hresolved with
    | found hfolders hmem =>
      refine ⟨⟨?_, ?_⟩, fun folder suggestion h => ?_, ?_⟩
      · rintro ⟨error, ⟨⟩⟩
      · rintro ⟨folder, hfolder, hmissing⟩
        rw [hfolders folder hfolder] at hmissing
        cases hmissing
      · cases h
      · rintro documents ⟨⟩
        exact hmem

/-- A link that leads nowhere selects nothing; the first missing folder is reported all the same. -/
theorem resolve_exact_guests :
    let lookup : Lookup := ⟨fun _ => ∅, (· = "choir"), fun _ => .ofList ["choir/ann.md"],
      fun _ => none, fun _ => ⟨∅, ∅⟩, ["choir"]⟩
    let query := Query.binary .and (.link "Nobody") (.binary .or (.folder "guests") (.folder "band"))
    (lookup.resolve query = .error (.folderNotFound "guests" none) ∧
      ∃ before after, query.terms = before ++ .folder "guests" :: after ∧
        lookup.folderExists "guests" = false ∧
          ∀ other, Term.folder other ∈ before → lookup.folderExists other = true) ∧
    lookup.resolve (.folder "choir") = .ok (.ofList ["choir/ann.md"]) ∧
      ∀ path, path ∈ NameSet.ofList ["choir/ann.md"] ↔ lookup.Selects path (.folder "choir") := by
  intro lookup query
  have hmissing : lookup.resolve query = .error (.folderNotFound "guests" none) := by decide +kernel
  have hfound : lookup.resolve (.folder "choir") = .ok (.ofList ["choir/ann.md"]) := by
    decide +kernel
  exact ⟨⟨hmissing, (lookup.resolve_exact query).2.1 _ _ hmissing⟩, hfound,
    (lookup.resolve_exact (.folder "choir")).2.2 _ hfound⟩

end Lookup
end RollCall
