import RollCall.Proofs.Index.Replacement
import RollCall.Proofs.Names.Path
import RollCall.Proofs.Query.Canonical
import RollCall.Proofs.Query.Resolution

/-!
# The wiki link of a document

The link that is written for a document holds its path and its name. Read as a query, it leads back to
the document if the path is one that the text of a link can hold (`Path.Linkable`): the text ends at
the first pair of closing brackets, and what is meant is what stands before a name or a heading,
without blanks around it.
-/

namespace RollCall

namespace Path

variable {path : String}

/-- A path that the text of a link can hold, with the name of the document behind it. -/
structure Linkable (path : String) : Prop where
  /-- A link without a path means no document. -/
  nonempty : path ≠ ""
  /-- A bar stands before the name that is shown. -/
  no_bar : '|' ∉ path.toList
  /-- A number sign stands before a heading. -/
  no_heading : '#' ∉ path.toList
  /-- Blanks around a path do not count. -/
  trimmed : Text.Trimmed path.toList
  /-- The text of a link ends at the first pair of brackets. -/
  not_closed : ¬ [']', ']'] <:+: path.toList
  /-- A bracket at the end of the name would be taken for one of the pair. -/
  name_open : ¬ [']'] <:+ (displayName path).toList

instance (path : String) : Decidable (Linkable path) :=
  decidable_of_iff (path ≠ "" ∧ '|' ∉ path.toList ∧ '#' ∉ path.toList ∧ Text.Trimmed path.toList ∧
      ¬ [']', ']'] <:+: path.toList ∧ ¬ [']'] <:+ (displayName path).toList)
    ⟨fun ⟨h1, h2, h3, h4, h5, h6⟩ => ⟨h1, h2, h3, h4, h5, h6⟩,
      fun ⟨h1, h2, h3, h4, h5, h6⟩ => ⟨h1, h2, h3, h4, h5, h6⟩⟩

/-- What stands between the brackets of the link of a document. -/
def linkText (path : String) : String :=
  path ++ "|" ++ displayName path

theorem toList_linkText (path : String) :
    (linkText path).toList = path.toList ++ '|' :: (displayName path).toList := by
  simp [linkText]

theorem markdown_eq (path : String) : markdown path = (Query.link (linkText path)).render := by
  have hmarkdown : markdown path = "[[" ++ path ++ "|" ++ displayName path ++ "]]" := rfl
  apply String.toList_inj.1
  rw [hmarkdown, Query.render, String.toList_ofList]
  simp [Query.chars, Term.chars, linkText]

/-- The brackets of the link are found where they were written. -/
theorem spellable_linkText_iff : (Term.link (linkText path)).Spellable ↔
    ¬ [']', ']'] <:+: path.toList ∧ ¬ [']'] <:+ (displayName path).toList := by
  have hname : ¬ [']', ']'] <:+: path.toList → ¬ [']', ']'] <:+: (displayName path).toList :=
    fun hpath hwithin => hpath (hwithin.trans (displayName_isInfix path))
  rw [Term.Spellable, toList_linkText, Text.onlyAtEnd_append_cons_iff (by decide) (by decide),
    Text.onlyAtEnd_pair_iff]
  constructor
  · rintro ⟨hpath, -, hend⟩
    exact ⟨hpath, hend⟩
  · rintro ⟨hpath, hend⟩
    exact ⟨hpath, hname hpath, hend⟩

end Path

namespace VaultIndex

variable {index : VaultIndex} {path : String}

/-! ## The path in the text of a link -/

/-- The name behind the bar plays no part. -/
theorem linkPath_linkText (path : String) : linkPath (Path.linkText path) = linkPath path := by
  rw [linkPath, linkPath, Path.toList_linkText, Text.takeWhile_append_cons (by simp)]

/-- A path that is what a link with this text means. -/
theorem linkPath_eq_self_iff : linkPath path = path ↔
    '|' ∉ path.toList ∧ '#' ∉ path.toList ∧ Text.Trimmed path.toList := by
  generalize hbefore : path.toList.takeWhile (· ≠ '|') = before
  generalize hfront : before.takeWhile (· ≠ '#') = front
  have hpath : linkPath path = String.ofList (Text.trim front) := by
    simp only [linkPath, hbefore, hfront]
  rw [hpath]
  constructor
  · intro h
    have htrim : Text.trim front = path.toList := by rw [← h, String.toList_ofList]
    have hlength : path.toList.length ≤ front.length := htrim ▸ (Text.trim_isInfix front).length_le
    have hlonger : before <+: path.toList := hbefore ▸ List.takeWhile_prefix _
    have hshorter : front <+: before := hfront ▸ List.takeWhile_prefix _
    -- nothing was cut off, as what is left is as long as the path
    have hwhole : before = path.toList := hlonger.eq_of_length_le (hlength.trans hshorter.length_le)
    have hkept : front = path.toList :=
      (hshorter.eq_of_length_le (hlonger.length_le.trans hlength)).trans hwhole
    rw [hwhole] at hbefore hfront
    rw [hkept] at hfront htrim
    exact ⟨Text.takeWhile_ne_eq_self_iff.1 hbefore, Text.takeWhile_ne_eq_self_iff.1 hfront, htrim⟩
  · rintro ⟨hbar, hheading, htrim⟩
    have hwhole : before = path.toList := hbefore.symm.trans (Text.takeWhile_ne_eq_self_iff.2 hbar)
    have hkept : front = path.toList := by
      rw [← hfront, hwhole]
      exact Text.takeWhile_ne_eq_self_iff.2 hheading
    rw [hkept, htrim, String.ofList_toList]

/-! ## The way back -/

/-- The link of a document is read as a query, the document is the target of the link, and the query
selects what the document links to and what links to it. -/
def LeadsBack (index : VaultIndex) (path : String) : Prop :=
  ∃ target, Query.parse (Path.markdown path) = .ok (.link target) ∧
    index.linkTarget? target = some path ∧
    ∃ selected, index.resolve (.link target) = .ok selected ∧
      ∀ other, other ∈ selected ↔
        other ∈ (index.neighbours path).outgoing ∨ path ∈ (index.neighbours other).outgoing

theorem parse_markdown_iff {target : String} : Query.parse (Path.markdown path) = .ok (.link target) ↔
    target = Path.linkText path ∧ (Term.link (Path.linkText path)).Spellable := by
  rw [Path.markdown_eq, Query.parse_render_link_iff]

/-- A path that means itself is found before any other document. -/
theorem linkTarget?_of_mem {link : String} (hne : linkPath link ≠ "")
    (hmem : linkPath link ∈ index.documents) : index.linkTarget? link = some (linkPath link) := by
  simp only [linkTarget?, if_neg hne, if_pos hmem]

theorem linkPath_ne_empty {link target : String} (h : index.linkTarget? link = some target) :
    linkPath link ≠ "" := by
  intro hempty
  simp [linkTarget?, hempty] at h

/-- A link with a target selects the neighbours of the target. -/
theorem Tidy.resolve_link (h : index.Tidy) {link target : String}
    (htarget : index.linkTarget? link = some target) :
    ∃ selected, index.resolve (.link link) = .ok selected ∧
      ∀ other, other ∈ selected ↔
        other ∈ (index.neighbours target).outgoing ∨ target ∈ (index.neighbours other).outgoing := by
  refine ⟨index.lookup.resolveLink link, rfl, fun other => ?_⟩
  have hincoming : other ∈ (index.neighbours target).incoming ↔
      target ∈ (index.neighbours other).outgoing := h.mem_incoming_iff
  rw [Lookup.mem_resolveLink_iff, Lookup.Selects, ← hincoming]
  dsimp only [lookup]
  constructor
  · rintro ⟨found, hfound, hother⟩
    obtain rfl : target = found := Option.some.inj (htarget.symm.trans hfound)
    exact hother
  · intro hother
    exact ⟨target, htarget, hother⟩

/-- The links that lead back to a document whatever else is indexed are those of the paths that the
text of a link can hold. For any other path there is an index where the link is not read, means
nothing or means another document. -/
theorem leadsBack_iff (path : String) :
    (∀ changes, path ∈ ((∅ : VaultIndex).changeAll changes).documents →
      ((∅ : VaultIndex).changeAll changes).LeadsBack path) ↔ Path.Linkable path := by
  have hlink := linkPath_linkText path
  constructor
  · intro h
    -- beside the document there is the one that its link means at first
    let changes : List IndexChange :=
      [.upsert (linkPath path) ⟨[], [], []⟩, .upsert path ⟨[], [], []⟩]
    have hdocuments : ((∅ : VaultIndex).changeAll changes).documents =
        ((∅ : NameSet).insert (linkPath path)).insert path := rfl
    have hmem : ∀ other, other ∈ ((∅ : VaultIndex).changeAll changes).documents ↔
        other = path ∨ other = linkPath path ∨ other ∈ (∅ : NameSet) := by
      intro other
      rw [hdocuments, NameSet.mem_insert, NameSet.mem_insert]
    obtain ⟨target, hparse, htarget, -⟩ := h changes ((hmem path).2 (.inl rfl))
    obtain ⟨rfl, hspell⟩ := parse_markdown_iff.1 hparse
    have hne : linkPath (Path.linkText path) ≠ "" := linkPath_ne_empty htarget
    have hfound := linkTarget?_of_mem hne ((hmem _).2 (.inr (.inl hlink)))
    have hself : linkPath path = path := by
      rw [← hlink]
      exact Option.some.inj (hfound.symm.trans htarget)
    rw [hlink, hself] at hne
    obtain ⟨hbar, hheading, htrim⟩ := linkPath_eq_self_iff.1 hself
    obtain ⟨hclosed, hopen⟩ := Path.spellable_linkText_iff.1 hspell
    exact ⟨hne, hbar, hheading, htrim, hclosed, hopen⟩
  · intro h changes hmem
    have htidy := tidy_empty.changeAll changes
    have hself : linkPath path = path := linkPath_eq_self_iff.2 ⟨h.no_bar, h.no_heading, h.trimmed⟩
    rw [hself] at hlink
    have hspell := Path.spellable_linkText_iff.2 ⟨h.not_closed, h.name_open⟩
    have htarget : ((∅ : VaultIndex).changeAll changes).linkTarget? (Path.linkText path) = some path := by
      have hfound := linkTarget?_of_mem (hlink ▸ h.nonempty) (hlink ▸ hmem)
      rwa [hlink] at hfound
    exact ⟨Path.linkText path, parse_markdown_iff.2 ⟨rfl, hspell⟩, htarget, htidy.resolve_link htarget⟩

/-- Three documents have the same name, and one of them links to the one in question. -/
theorem leadsBack_iff_rivals :
    let changes : List IndexChange := [.upsert "ann.md" ⟨[], ["choir/ann.md"], []⟩,
      .upsert "choir/ann.md" ⟨[], ["tenor.md"], []⟩, .upsert "guests/ann.md" ⟨[], [], []⟩]
    let index := (∅ : VaultIndex).changeAll changes
    "choir/ann.md" ∈ index.documents ∧ index.LeadsBack "choir/ann.md" ∧
      Path.markdown "choir/ann.md" = "[[choir/ann.md|ann]]" := by
  intro changes index
  have hmem : "choir/ann.md" ∈ index.documents := by decide +kernel
  have hlinkable : Path.Linkable "choir/ann.md" := by decide +kernel
  exact ⟨hmem, (leadsBack_iff "choir/ann.md").2 hlinkable changes hmem, by decide +kernel⟩

/-- What stands behind a number sign is taken for a heading, so that the link of a document with one in
its path does not lead back. -/
theorem not_leadsBack_number :
    let index := (∅ : VaultIndex).changeAll [.upsert "choir #2.md" ⟨[], ["ann.md"], []⟩]
    "choir #2.md" ∈ index.documents ∧
      Query.parse (Path.markdown "choir #2.md") = .ok (.link "choir #2.md|choir #2") ∧
      index.linkTarget? "choir #2.md|choir #2" = none ∧
      index.resolve (.link "choir #2.md|choir #2") = .ok ∅ ∧
      (index.neighbours "choir #2.md").outgoing = .ofList ["ann.md"] ∧
      ¬ index.LeadsBack "choir #2.md" := by
  intro index
  obtain ⟨hmem, hparse, htarget, hresolve, houtgoing⟩ : "choir #2.md" ∈ index.documents ∧
      Query.parse (Path.markdown "choir #2.md") = .ok (.link "choir #2.md|choir #2") ∧
      index.linkTarget? "choir #2.md|choir #2" = none ∧
      index.resolve (.link "choir #2.md|choir #2") = .ok ∅ ∧
      (index.neighbours "choir #2.md").outgoing = .ofList ["ann.md"] := by
    decide +kernel
  refine ⟨hmem, hparse, htarget, hresolve, houtgoing, ?_⟩
  rintro ⟨target, hread, hfound, -⟩
  cases hparse.symm.trans hread
  exact absurd (htarget.symm.trans hfound) (by simp)

end VaultIndex

end RollCall
