/-
  EsFeatures.Proofs.Paths

  Paths and their texts.  A slash in a text separates the names before it from those
  behind it, so a file name put behind the text of a directory becomes the last name of
  its path, and the stages of a text spell the paths on the way to its own.
-/
import EsFeatures.Files.Sources
import Mathlib.Data.List.TakeWhile

namespace EsFeatures.Files

/-! ## Names -/

theorem slashPieces_ne_nil (text : List Char) : slashPieces text ≠ [] := by
  cases text with
  | nil => exact List.cons_ne_nil _ _
  | cons c rest =>
    rw [slashPieces]
    split
    · exact List.cons_ne_nil _ _
    · split
      · exact List.cons_ne_nil _ _
      · exact List.cons_ne_nil _ _

/-- A slash ends the last piece before it and begins another one. -/
theorem slashPieces_append (front back : List Char) :
    slashPieces (front ++ '/' :: back) = slashPieces front ++ slashPieces back := by
  induction front with
  | nil => rfl
  | cons c rest ih =>
    rw [List.cons_append, slashPieces, slashPieces, ih]
    by_cases hc : c = '/'
    · rw [if_pos hc, if_pos hc, List.cons_append]
    · rw [if_neg hc, if_neg hc]
      cases hpieces : slashPieces rest with
      | nil => exact absurd hpieces (slashPieces_ne_nil rest)
      | cons piece pieces => rfl

theorem slashPieces_of_notMem {text : List Char} (h : '/' ∉ text) : slashPieces text = [text] := by
  induction text with
  | nil => rfl
  | cons c rest ih =>
    rw [slashPieces, if_neg (Ne.symm (List.ne_of_not_mem_cons h)),
      ih (List.not_mem_of_not_mem_cons h)]

theorem namesWithDots_append (front back : String) :
    namesWithDots (front ++ "/" ++ back) = namesWithDots front ++ namesWithDots back := by
  have htext : (front ++ "/" ++ back).toList = front.toList ++ '/' :: back.toList := by
    simp [String.toList_append]
  rw [namesWithDots, htext, slashPieces_append, List.filter_append, List.map_append, namesWithDots,
    namesWithDots]

theorem namesWithDots_of_notMem {name : String} (hname : name ≠ "") (hslash : '/' ∉ name.toList) :
    namesWithDots name = [name] := by
  have hchars : name.toList ≠ [] := by simpa using hname
  rw [namesWithDots, slashPieces_of_notMem hslash]
  simp [hchars]

theorem slash_notMem_of_mem_namesWithDots {text name : String} (h : name ∈ namesWithDots text) :
    '/' ∉ name.toList := by
  obtain ⟨piece, hpiece, rfl⟩ := List.mem_map.mp h
  rw [String.toList_ofList]
  exact slash_notMem_of_mem_slashPieces (List.mem_filter.mp hpiece).1

/-! ## Slashes in front -/

/-- What stands behind a text counts for the slashes in front only if the text has nothing
    but slashes and they go on. -/
theorem leadOf_append {front back : String}
    (h : (∃ c ∈ front.toList, c ≠ '/') ∨ '/' ∉ back.toList) :
    leadOf (front ++ back) = leadOf front := by
  suffices hslashes : (front ++ back).toList.takeWhile (· == '/') =
      front.toList.takeWhile (· == '/') by
    rw [leadOf, hslashes, leadOf]
  rw [String.toList_append, List.takeWhile_append]
  split
  · rename_i hall
    have hall : front.toList.takeWhile (· == '/') = front.toList :=
      (List.takeWhile_prefix _).eq_of_length hall
    rcases h with ⟨c, hc, hne⟩ | hback
    · rw [List.takeWhile_eq_self_iff] at hall
      exact absurd (by simpa using hall c hc) hne
    · have hnone : back.toList.takeWhile (· == '/') = [] := by
        cases hchars : back.toList with
        | nil => rfl
        | cons c rest =>
          rw [hchars] at hback
          exact List.takeWhile_cons_of_neg (by simpa using Ne.symm (List.ne_of_not_mem_cons hback))
      rw [hnone, List.append_nil, hall]
  · rfl

/-- A file name behind the text of a directory is the last name of the path. -/
theorem ofTextWithDots_joinText {directory name : String} (hdirectory : directory ≠ "")
    (hname : name ≠ "") (hslash : '/' ∉ name.toList) :
    Path.ofTextWithDots (joinText directory name) =
      (Path.ofTextWithDots directory).append [name] := by
  suffices h : leadOf (joinText directory name) = leadOf directory ∧
      namesWithDots (joinText directory name) = namesWithDots directory ++ [name] by
    rw [Path.ofTextWithDots, h.1, h.2]
    rfl
  rw [joinText]
  split
  · rename_i hend
    -- The slash at the end of the directory separates the name as well.
    obtain ⟨front, hfront⟩ := List.getLast?_eq_some_iff.mp (hend.resolve_right hdirectory)
    have hdirectory : directory = String.ofList front ++ "/" := by
      rw [← String.toList_inj, String.toList_append, String.toList_ofList, hfront]
      rfl
    have hnone : namesWithDots (String.ofList front ++ "/") =
        namesWithDots (String.ofList front) := by
      rw [← String.append_empty (s := String.ofList front ++ "/"), namesWithDots_append]
      exact List.append_nil _
    refine ⟨leadOf_append (Or.inr hslash), ?_⟩
    rw [hdirectory, namesWithDots_append, namesWithDots_of_notMem hname hslash, hnone]
  · rename_i hend
    rw [not_or] at hend
    have hchars : directory.toList ≠ [] := by simpa using hdirectory
    have hlast : directory.toList.getLast hchars ≠ '/' := by
      intro hlast
      exact hend.1 (List.getLast?_eq_some_getLast hchars ▸ congrArg some hlast)
    refine ⟨?_, ?_⟩
    · rw [String.append_assoc]
      exact leadOf_append (Or.inl ⟨_, List.getLast_mem hchars, hlast⟩)
    · rw [namesWithDots_append, namesWithDots_of_notMem hname hslash]

/-! ## Stages -/

/-- A text cut behind a name spells a path on the way to its own. -/
theorem isPrefix_of_cut (front back : String) (hfront : ∃ c ∈ front.toList, c ≠ '/')
    (hback : back.toList.head?.all (· == '/') = true) :
    leadOf front = leadOf (front ++ back) ∧
      namesWithDots front <+: namesWithDots (front ++ back) := by
  refine ⟨(leadOf_append (Or.inl hfront)).symm, ?_⟩
  cases hchars : back.toList with
  | nil =>
    obtain rfl : back = "" := by simpa using hchars
    exact ⟨[], by rw [List.append_nil, String.append_empty]⟩
  | cons c rest =>
    rw [hchars] at hback
    obtain rfl : c = '/' := by simpa using hback
    have hslash : back = "/" ++ String.ofList rest := by
      apply String.toList_inj.mp
      simp [hchars]
    rw [hslash, ← String.append_assoc, namesWithDots_append]
    exact List.prefix_append _ _

/-- The stages of a text spell paths on the way to its own. -/
theorem isPrefix_of_mem_stages {text stage : String} (h : stage ∈ FileTree.stages text) :
    leadOf stage = leadOf text ∧ namesWithDots stage <+: namesWithDots text := by
  rw [FileTree.stages, List.mem_append, List.mem_singleton] at h
  rcases h with h | rfl
  · obtain ⟨i, hi, rfl⟩ := List.mem_map.mp h
    have hends : FileTree.endsName text.toList i = true :=
      (List.mem_filter.mp (List.dropLast_subset _ hi)).2
    rw [FileTree.endsName, Bool.and_eq_true, Option.any_eq_true] at hends
    obtain ⟨⟨c, hlast, hc⟩, hnext⟩ := hends
    have htext :
        String.ofList (text.toList.take i) ++ String.ofList (text.toList.drop i) = text := by
      rw [← String.ofList_append, List.take_append_drop, String.ofList_toList]
    have hname : ∃ c ∈ (String.ofList (text.toList.take i)).toList, c ≠ '/' := by
      rw [String.toList_ofList]
      exact ⟨c, List.mem_of_getLast? hlast, by simpa using hc⟩
    have hcut := isPrefix_of_cut (String.ofList (text.toList.take i))
      (String.ofList (text.toList.drop i)) hname (by rwa [String.toList_ofList, List.head?_drop])
    rwa [htext] at hcut
  · exact ⟨rfl, List.prefix_refl _⟩

/-! ## Suffixes and base names -/

/-- The suffix of a name is what is put behind it from a dot on. -/
theorem suffix_append {name : String} (ending : List Char) (hname : name ≠ "")
    (hending : ending ≠ []) (hdot : '.' ∉ ending) :
    suffix (name ++ String.ofList ('.' :: ending)) = String.ofList ('.' :: ending) := by
  have hback : (name ++ String.ofList ('.' :: ending)).toList.reverse =
      ending.reverse ++ '.' :: name.toList.reverse := by
    rw [String.toList_append, String.toList_ofList, List.reverse_append, List.reverse_cons,
      List.append_assoc, List.singleton_append]
  have hplain : ∀ c ∈ ending.reverse, (c != '.') = true := by
    intro c hc
    have hne : c ≠ '.' := fun h => hdot (h ▸ List.mem_reverse.mp hc)
    simpa using hne
  have hfront : name.toList.reverse ≠ [] := by simpa using hname
  obtain ⟨c, rest, hcons⟩ := List.exists_cons_of_ne_nil hfront
  have hextension : (ending.reverse ++ '.' :: name.toList.reverse).takeWhile (· != '.') =
      ending.reverse := by
    rw [List.takeWhile_append_of_pos hplain, List.takeWhile_cons_of_neg (by decide),
      List.append_nil]
  have hrest : (ending.reverse ++ '.' :: name.toList.reverse).dropWhile (· != '.') =
      '.' :: c :: rest := by
    rw [List.dropWhile_append_of_pos hplain, List.dropWhile_cons_of_neg (by decide), hcons]
  simp only [suffix, hback, hextension, hrest, List.reverse_reverse, List.isEmpty_reverse]
  rw [if_neg (by simpa using hending)]

/-- Only names of a path, or the names above it, are left when it is folded. -/
theorem mem_foldl_foldName {absolute : Bool} {names before : List String} {name : String}
    (h : name ∈ names.foldl (foldName absolute) before) : name ∈ before ∨ name ∈ names := by
  induction names generalizing before with
  | nil => exact Or.inl h
  | cons next rest ih =>
    have hstep : ∀ other ∈ foldName absolute before next, other ∈ before ∨ other = next := by
      intro other hother
      rw [foldName.eq_def] at hother
      grind
    rcases ih h with hfold | hrest
    · refine (hstep name hfold).imp_right ?_
      rintro rfl
      exact List.mem_cons_self
    · exact Or.inr (List.mem_cons_of_mem _ hrest)

theorem slash_notMem_baseName (text : String) : '/' ∉ (baseName text).toList := by
  have hnames : ∀ name ∈ (Path.ofText text).names, '/' ∉ name.toList := by
    intro name hname
    exact slash_notMem_of_mem_namesWithDots (List.mem_filter.mp hname).1
  rw [baseName]
  split
  · rename_i name rest hfold
    have hmem : name ∈ (Path.ofText text).names.foldl
        (foldName ((Path.ofText text).lead != 0)) [] := by
      rw [hfold]
      exact List.mem_cons_self
    exact hnames name ((mem_foldl_foldName hmem).resolve_left List.not_mem_nil)
  · split
    · decide
    · decide

/-- A path that ends with the name of a file has that name. -/
theorem baseName_eq {text name : String} {names : List String}
    (hnames : (Path.ofText text).names = names ++ [name]) (hname : name ≠ "..") :
    baseName text = name := by
  have hfold : ∀ absolute before, foldName absolute before name = name :: before := by
    intro absolute before
    rw [foldName.eq_def, if_pos hname]
  simp only [baseName, hnames, List.foldl_append, List.foldl_cons, List.foldl_nil, hfold]

end EsFeatures.Files
