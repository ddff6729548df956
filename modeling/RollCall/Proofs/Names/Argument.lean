import RollCall.Proofs.Names.Path

/-!
# Paths from arguments

The path of an argument ends as documents do and holds no backslash. Whether it is settled, so that it
starts with no slash and is its own path, depends on what is left of the argument once what leads
nowhere is gone from its front (`ofArgument_settled_iff`): that is taken away only once, and before
backslashes become slashes.
-/

namespace RollCall.Path

/-- How the paths of documents end. -/
def documentEnding : List Char := ['.', 'm', 'd']

/-- What is left of a text behind the dots with slashes, and then the slashes, that it starts with. -/
structure LeftOf (text rest : List Char) : Prop where
  split : ∃ dots slashes, text = (List.replicate dots ['.', '/']).flatten ++
    List.replicate slashes '/' ++ rest ∧ (slashes = 0 → ¬ ['.', '/'] <+: rest)
  head : rest.head? ≠ some '/'

/-- A character of a path: a backslash stands for a slash. -/
def forwardSlash (c : Char) : Char := if c = '\\' then '/' else c

variable {argument path : String} {text rest : List Char}

theorem hasExtension_iff : hasExtension path = true ↔ documentEnding <:+ path.toList := by
  rw [hasExtension, Text.endsWith, Option.isSome_iff_exists]
  simp only [Text.before?_eq_some_iff]
  exact exists_congr fun front => eq_comm

/-! ## What is left of an argument -/

theorem exists_dropDotSlashes (text : List Char) :
    (∃ dots, text = (List.replicate dots ['.', '/']).flatten ++ dropDotSlashes text) ∧
      ¬ ['.', '/'] <+: dropDotSlashes text := by
  induction text using dropDotSlashes.induct with
  | case1 text ih =>
    obtain ⟨⟨dots, hdots⟩, hstart⟩ := ih
    rw [dropDotSlashes]
    refine ⟨⟨dots + 1, ?_⟩, hstart⟩
    rw [List.replicate_succ, List.flatten_cons, List.append_assoc, ← hdots]
    rfl
  | case2 text hother =>
    have hself : dropDotSlashes text = text := by
      unfold dropDotSlashes
      split
      · next rest => exact absurd rfl (hother rest)
      · rfl
    rw [hself]
    refine ⟨⟨0, by simp⟩, ?_⟩
    rintro ⟨rest, rfl⟩
    exact hother rest rfl

theorem leftOf_dropWhile (text : List Char) :
    LeftOf text ((dropDotSlashes text).dropWhile (· = '/')) := by
  obtain ⟨⟨dots, hdots⟩, hstart⟩ := exists_dropDotSlashes text
  generalize dropDotSlashes text = inner at hdots hstart ⊢
  have hslashes : inner.takeWhile (· = '/') =
      List.replicate (inner.takeWhile (· = '/')).length '/' :=
    List.eq_replicate_of_mem fun c hc => by simpa using List.mem_takeWhile_imp hc
  have hinner : inner = inner.takeWhile (· = '/') ++ inner.dropWhile (· = '/') :=
    List.takeWhile_append_dropWhile.symm
  refine ⟨⟨dots, (inner.takeWhile (· = '/')).length, ?_, fun hzero => ?_⟩, ?_⟩
  · rw [List.append_assoc, ← hslashes, ← hinner, hdots]
  · rw [List.length_eq_zero_iff.1 hzero, List.nil_append] at hinner
    rwa [← hinner]
  · intro hhead
    have hnot := List.head?_dropWhile_not (fun c => decide (c = '/')) inner
    rw [hhead] at hnot
    simp at hnot

/-- An ending stays when a front that ends in none of its characters is cut away. -/
theorem suffix_of_suffix_append {ending front rest : List Char} (h : ending <:+ front ++ rest)
    (hfront : ∀ c ∈ front.getLast?, c ∉ ending) : ending <:+ rest := by
  rcases List.suffix_or_suffix_of_suffix h (List.suffix_append front rest) with hrest | ⟨more, rfl⟩
  · exact hrest
  rcases List.eq_nil_or_concat' more with rfl | ⟨more, c, rfl⟩
  · exact List.suffix_rfl
  · obtain ⟨before, hbefore⟩ := h
    have hsame : before ++ (more ++ [c]) = front := by
      rw [← List.append_assoc] at hbefore
      exact List.append_cancel_right hbefore
    subst hsame
    exact absurd (by simp) (hfront c (by simp))

theorem LeftOf.suffix (h : LeftOf text rest) : rest <:+ text := by
  obtain ⟨⟨dots, slashes, rfl, -⟩, -⟩ := h
  exact List.suffix_append _ _

theorem LeftOf.documentEnding_suffix (h : LeftOf text rest) (hending : documentEnding <:+ text) :
    documentEnding <:+ rest := by
  obtain ⟨⟨dots, slashes, rfl, -⟩, -⟩ := h
  refine suffix_of_suffix_append hending fun c hc => ?_
  have hslash : c = '/' := by
    rcases Nat.eq_zero_or_pos slashes with rfl | hslashes
    · cases dots with
      | zero => simp at hc
      | succ dots =>
        rw [List.replicate_succ', List.flatten_append] at hc
        simpa [eq_comm] using hc
    · rw [List.getLast?_append, List.getLast?_replicate, if_neg (by omega)] at hc
      simpa [eq_comm] using hc
  rw [hslash]
  decide

theorem LeftOf.eq_iff (h : LeftOf text rest) :
    rest = text ↔ text.head? ≠ some '/' ∧ ¬ ['.', '/'] <+: text := by
  obtain ⟨⟨dots, slashes, hsplit, hstart⟩, hhead⟩ := h
  constructor
  · rintro rfl
    have hlength := congrArg List.length hsplit
    rw [List.length_append, List.length_append, List.length_replicate] at hlength
    exact ⟨hhead, hstart (by omega)⟩
  · rintro ⟨hslash, hdot⟩
    cases dots with
    | succ dots =>
      rw [hsplit, List.replicate_succ, List.flatten_cons, List.append_assoc, List.append_assoc] at hdot
      exact absurd (List.prefix_append _ _) hdot
    | zero =>
      cases slashes with
      | succ slashes => exact absurd (by simp [hsplit, List.replicate_succ]) hslash
      | zero => simpa using hsplit.symm

/-! ## The path of an argument -/

theorem toList_ofArgument (argument : String) :
    ∃ rest, LeftOf (Text.trim argument.toList) rest ∧
      (ofArgument argument).toList =
        if documentEnding <:+ rest.map forwardSlash then rest.map forwardSlash
        else rest.map forwardSlash ++ documentEnding := by
  refine ⟨_, leftOf_dropWhile _, ?_⟩
  unfold ofArgument
  generalize (dropDotSlashes (Text.trim argument.toList)).dropWhile (· = '/') = rest
  have hpath : (String.ofList (rest.map forwardSlash)).toList = rest.map forwardSlash :=
    String.toList_ofList
  have hextension : hasExtension (String.ofList (rest.map forwardSlash)) = true ↔
      documentEnding <:+ rest.map forwardSlash := by
    rw [hasExtension_iff, hpath]
  change (if hasExtension (String.ofList (rest.map forwardSlash)) = true
    then String.ofList (rest.map forwardSlash)
    else withExtension (String.ofList (rest.map forwardSlash))).toList = _
  simp only [hextension]
  split
  · exact hpath
  · rw [withExtension, String.toList_append, hpath]
    rfl

theorem documentEnding_suffix_ofArgument (argument : String) :
    documentEnding <:+ (ofArgument argument).toList := by
  obtain ⟨rest, -, hpath⟩ := toList_ofArgument argument
  rw [hpath]
  split
  · assumption
  · exact List.suffix_append _ _

theorem forwardSlash_ne_backslash (c : Char) : forwardSlash c ≠ '\\' := by
  rw [forwardSlash]
  split
  · decide
  · assumption

theorem backslash_not_mem_ofArgument (argument : String) :
    '\\' ∉ (ofArgument argument).toList := by
  obtain ⟨rest, -, hpath⟩ := toList_ofArgument argument
  have hslashes : '\\' ∉ rest.map forwardSlash := by
    rw [List.mem_map]
    rintro ⟨c, -, hc⟩
    exact forwardSlash_ne_backslash c hc
  rw [hpath]
  split
  · exact hslashes
  · rw [List.mem_append, not_or]
    exact ⟨hslashes, by decide⟩

/-! ## Paths that are settled -/

/-- A path that ends as documents do is its own path exactly if nothing is taken from its front. -/
theorem ofArgument_eq_self_iff (hending : documentEnding <:+ path.toList)
    (hbackslash : '\\' ∉ path.toList) :
    ofArgument path = path ↔ (∀ c ∈ path.toList.head?, Text.isBlank c = false) ∧
      path.toList.head? ≠ some '/' ∧ ¬ ['.', '/'] <+: path.toList := by
  obtain ⟨rest, hleft, hpath⟩ := toList_ofArgument path
  have hend : Text.trimEnd path.toList = path.toList := by
    obtain ⟨front, hfront⟩ := hending
    have hlast := Text.trimEnd_append_singleton (c := 'd') (front ++ ['.', 'm']) (by decide)
    rw [List.append_assoc] at hlast
    rwa [← hfront]
  have htrim : Text.trim path.toList = Text.trimStart path.toList :=
    Text.trimEnd_suffix hend (Text.trimStart_suffix _)
  rw [htrim] at hleft
  have htrimmed : documentEnding <:+ Text.trimStart path.toList := by
    obtain ⟨blanks, hsplit, hblanks, -⟩ :=
      Text.trimStart_eq_iff.1 (rfl : Text.trimStart path.toList = _)
    have hbehind : documentEnding <:+ blanks ++ Text.trimStart path.toList := hsplit ▸ hending
    refine suffix_of_suffix_append hbehind fun c hc hmem => ?_
    have hblank := hblanks c (List.mem_of_mem_getLast? hc)
    simp only [documentEnding, List.mem_cons, List.not_mem_nil, or_false] at hmem
    rcases hmem with rfl | rfl | rfl <;> exact absurd hblank (by decide)
  have hrest : documentEnding <:+ rest := hleft.documentEnding_suffix htrimmed
  have hsuffix : rest <:+ path.toList := hleft.suffix.trans (Text.trimStart_suffix _)
  have hslashes : rest.map forwardSlash = rest := by
    refine (List.map_congr_left fun c hc => ?_).trans (List.map_id rest)
    refine if_neg ?_
    rintro rfl
    exact hbackslash (hsuffix.mem hc)
  rw [hslashes, if_pos hrest] at hpath
  have hself : ofArgument path = path ↔
      Text.trimStart path.toList = path.toList ∧ rest = Text.trimStart path.toList := by
    rw [← String.toList_inj, hpath]
    constructor
    · intro hsame
      have hlength : path.toList.length ≤ (Text.trimStart path.toList).length := by
        calc path.toList.length = rest.length := by rw [hsame]
          _ ≤ (Text.trimStart path.toList).length := hleft.suffix.length_le
      have hkept := (Text.trimStart_suffix path.toList).eq_of_length_le hlength
      exact ⟨hkept, hsame.trans hkept.symm⟩
    · rintro ⟨hkept, hsame⟩
      exact hsame.trans hkept
  rw [hself, hleft.eq_iff, ← Text.trimStart_eq_self_iff]
  exact and_congr_right fun hkept => by rw [hkept]

theorem forwardSlash_eq_slash_iff {c : Char} : forwardSlash c = '/' ↔ c = '/' ∨ c = '\\' := by
  by_cases hc : c = '\\' <;> simp [forwardSlash, hc]

theorem forwardSlash_eq_dot_iff {c : Char} : forwardSlash c = '.' ↔ c = '.' := by
  by_cases hc : c = '\\' <;> simp [forwardSlash, hc]

theorem isBlank_forwardSlash (c : Char) : Text.isBlank (forwardSlash c) = Text.isBlank c := by
  rw [forwardSlash]
  split
  · next hc => subst hc; decide
  · rfl

section

variable {ending : List Char}

/-- How a path starts, with or without the ending added to it. -/
theorem head?_map_forwardSlash (hhead : rest.head? ≠ some '/')
    (hending : ending = [] ∨ ending = documentEnding) :
    (rest.map forwardSlash ++ ending).head? = some '/' ↔ ['\\'] <+: rest := by
  cases rest with
  | nil => rcases hending with rfl | rfl <;> simp [documentEnding]
  | cons c rest =>
    have hc : c ≠ '/' := by simpa using hhead
    rw [List.map_cons, List.cons_append, List.head?_cons, Option.some.injEq,
      forwardSlash_eq_slash_iff, or_iff_right hc]
    simp [List.cons_prefix_cons, eq_comm]

theorem dotSlash_prefix_map_forwardSlash (rest : List Char)
    (hending : ending = [] ∨ ending = documentEnding) :
    ['.', '/'] <+: rest.map forwardSlash ++ ending ↔
      ['.', '/'] <+: rest ∨ ['.', '\\'] <+: rest := by
  have hshort : ¬ ['/'] <+: ending := by rcases hending with rfl | rfl <;> decide
  cases rest with
  | nil => rcases hending with rfl | rfl <;> decide
  | cons c rest =>
    rw [List.map_cons, List.cons_append, List.cons_prefix_cons, List.cons_prefix_cons,
      List.cons_prefix_cons, ← and_or_left, eq_comm, forwardSlash_eq_dot_iff, eq_comm]
    refine and_congr_right fun _ => ?_
    cases rest with
    | nil => simpa using hshort
    | cons d rest =>
      rw [List.map_cons, List.cons_append, List.cons_prefix_cons, List.cons_prefix_cons,
        List.cons_prefix_cons, eq_comm, forwardSlash_eq_slash_iff]
      simp [eq_comm]

theorem isBlank_head?_map_forwardSlash (rest : List Char)
    (hending : ending = [] ∨ ending = documentEnding) :
    (∀ c ∈ (rest.map forwardSlash ++ ending).head?, Text.isBlank c = false) ↔
      ∀ c ∈ rest.head?, Text.isBlank c = false := by
  cases rest with
  | nil => rcases hending with rfl | rfl <;> simp [documentEnding, Text.isBlank]
  | cons c rest => simp [isBlank_forwardSlash]

end

/-- The path of any argument ends as documents do and holds no backslash. It starts with a slash, or a
dot and a slash, or is not its own path, only where the argument goes on with a backslash, a blank or
such a dot behind what leads nowhere. -/
theorem ofArgument_settled_iff (argument : String) :
    ∃ rest, LeftOf (Text.trim argument.toList) rest ∧
      hasExtension (ofArgument argument) = true ∧ '\\' ∉ (ofArgument argument).toList ∧
      ((ofArgument argument).toList.head? = some '/' ↔ ['\\'] <+: rest) ∧
      (['.', '/'] <+: (ofArgument argument).toList ↔
        ['.', '/'] <+: rest ∨ ['.', '\\'] <+: rest) ∧
      (ofArgument (ofArgument argument) = ofArgument argument ↔
        (∀ c ∈ rest.head?, Text.isBlank c = false) ∧ ¬ ['\\'] <+: rest ∧
          ¬ ['.', '/'] <+: rest ∧ ¬ ['.', '\\'] <+: rest) := by
  have hsuffix := documentEnding_suffix_ofArgument argument
  have hbackslash := backslash_not_mem_ofArgument argument
  have hself := ofArgument_eq_self_iff hsuffix hbackslash
  obtain ⟨rest, hleft, hpath⟩ := toList_ofArgument argument
  obtain ⟨ending, hending, hout⟩ : ∃ ending, (ending = [] ∨ ending = documentEnding) ∧
      (ofArgument argument).toList = rest.map forwardSlash ++ ending := by
    split at hpath
    · exact ⟨[], .inl rfl, by rw [hpath, List.append_nil]⟩
    · exact ⟨documentEnding, .inr rfl, hpath⟩
  have hslash := head?_map_forwardSlash hleft.head hending
  have hdot := dotSlash_prefix_map_forwardSlash rest hending
  have hblank := isBlank_head?_map_forwardSlash rest hending
  rw [← hout] at hslash hdot hblank
  refine ⟨rest, hleft, hasExtension_iff.2 hsuffix, hbackslash, hslash, hdot, ?_⟩
  rw [hself, hblank, Ne, hslash, hdot, not_or]

/-- A backslash in front becomes a slash that is not taken away, so the path is not its own. -/
theorem ofArgument_of_backslash :
    (ofArgument "\\ann").toList.head? = some '/' ∧
      ofArgument (ofArgument "\\ann") ≠ ofArgument "\\ann" := by
  decide +kernel

end RollCall.Path
