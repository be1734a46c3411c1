/-
  EsFeatures.Proofs.SourceOrder

  The sources below a directory, in whatever order its entries are listed.  Names without
  slashes can be read off the text of a path, so two files below a directory never have the
  same text, and the order of the texts leaves no choice between two lists of the same
  sources.  What counts as a source is said by its names alone: the last one ends with one
  of the suffixes of scripts behind something else, and none of the others is the name of a
  skipped directory.
-/
import EsFeatures.Proofs.Directories
import Mathlib.Data.List.Nodup

namespace EsFeatures.Files

/-! ## Texts of paths below a directory -/

/-- `Nameable names`: names that a file can have below a directory. -/
def Nameable (names : List String) : Prop :=
  names ≠ [] ∧ ∀ name ∈ names, '/' ∉ name.toList

theorem intercalate_append (between : List Char) {front back : List (List Char)}
    (hfront : front ≠ []) (hback : back ≠ []) :
    between.intercalate (front ++ back) =
      between.intercalate front ++ between ++ between.intercalate back := by
  induction front with
  | nil => exact absurd rfl hfront
  | cons first rest ih =>
    rw [List.cons_append,
      List.intercalate_cons_of_ne_nil (List.append_ne_nil_of_right_ne_nil rest hback)]
    by_cases hrest : rest = []
    · rw [hrest, List.nil_append, List.intercalate_singleton]
    · rw [ih hrest, List.intercalate_cons_of_ne_nil hrest]
      simp only [List.append_assoc]

theorem toList_text_append (path : Path) {names : List String} (hnames : names ≠ []) :
    (path.append names).text.toList =
      List.replicate path.lead '/' ++
        ['/'].intercalate (path.names.map String.toList ++ names.map String.toList) := by
  -- A path with names is never written as a single dot.
  have hne : ¬(path.lead = 0 ∧ path.names ++ names = []) := by
    rintro ⟨-, hnil⟩
    exact List.append_ne_nil_of_right_ne_nil path.names hnames hnil
  rw [Path.append, Path.text, if_neg hne, String.toList_append, String.toList_ofList,
    String.toList_intercalate, List.map_append]
  rfl

/-- The text of a path below a directory begins with what stands for the directory and goes
    on with the names below it. -/
theorem exists_front (path : Path) : ∃ front : List Char, ∀ names, names ≠ [] →
    (path.append names).text.toList = front ++ ['/'].intercalate (names.map String.toList) := by
  by_cases hpath : path.names = []
  · -- Nothing but slashes stands for the top or for the working directory.
    refine ⟨List.replicate path.lead '/', fun names hnames => ?_⟩
    rw [toList_text_append path hnames, hpath]
    rfl
  · refine ⟨List.replicate path.lead '/' ++
      (['/'].intercalate (path.names.map String.toList) ++ ['/']), fun names hnames => ?_⟩
    rw [toList_text_append path hnames,
      intercalate_append _ (by simpa using hpath) (by simpa using hnames)]
    simp only [List.append_assoc]

/-- Files below a directory are told apart by the texts of their paths. -/
theorem text_append_inj {path : Path} {names other : List String} (hnames : Nameable names)
    (hother : Nameable other) (h : (path.append names).text = (path.append other).text) :
    names = other := by
  obtain ⟨front, hfront⟩ := exists_front path
  have hchars : ['/'].intercalate (names.map String.toList) =
      ['/'].intercalate (other.map String.toList) := by
    rw [← List.append_cancel_left_eq front, ← hfront names hnames.1, h, hfront other hother.1]
  have hsplit : ∀ names, Nameable names →
      (['/'].intercalate (names.map String.toList)).splitOn '/' = names.map String.toList := by
    intro names hnames
    apply List.splitOn_intercalate
    · intro piece hpiece
      obtain ⟨name, hname, rfl⟩ := List.mem_map.mp hpiece
      exact hnames.2 name hname
    · simpa using hnames.1
  have hpieces := congrArg (List.splitOn '/') hchars
  rw [hsplit names hnames, hsplit other hother] at hpieces
  exact List.map_injective_iff.mpr (fun _ _ => String.toList_inj.mp) hpieces

/-! ## Names of sources -/

/-- A name has a suffix exactly if it ends with it behind something else. -/
theorem suffix_eq_iff {name : String} {ending : List Char} (hending : ending ≠ [])
    (hdot : '.' ∉ ending) :
    suffix name = String.ofList ('.' :: ending) ↔
      ∃ stem, stem ≠ "" ∧ name = stem ++ String.ofList ('.' :: ending) := by
  constructor
  · intro h
    have hnone : String.ofList ('.' :: ending) ≠ "" := by
      intro hempty
      exact absurd (congrArg String.toList hempty) (by simp)
    rw [suffix] at h
    split at h
    · rename_i dot before rest hback
      split at h
      · exact absurd h.symm hnone
      · -- The name was searched backwards, so its stem comes out turned round.
        have hname := congrArg List.reverse
          (List.takeWhile_append_dropWhile (p := (· != '.')) (l := name.toList.reverse))
        rw [hback, List.reverse_append, List.reverse_reverse, List.reverse_cons,
          List.append_assoc] at hname
        refine ⟨String.ofList (before :: rest).reverse, by simp, ?_⟩
        rw [← h, ← String.toList_inj, String.toList_append, String.toList_ofList,
          String.toList_ofList]
        exact hname.symm
    · exact absurd h.symm hnone
  · rintro ⟨stem, hstem, rfl⟩
    exact suffix_append ending hstem hending hdot

/-- `IsScript name`: a name that ends with the suffix of a script behind something else. -/
def IsScript (name : String) : Prop :=
  ∃ stem ending, stem ≠ "" ∧ ending ∈ [".js", ".mjs", ".cjs", ".jsx"] ∧ name = stem ++ ending

theorem suffix_mem_iff (name : String) : suffix name ∈ scriptSuffixes ↔ IsScript name := by
  -- Each suffix is a dot and some further characters, none of them a dot.
  have hform : ∀ ending ∈ scriptSuffixes, ∃ chars : List Char, chars ≠ [] ∧ '.' ∉ chars ∧
      ending = String.ofList ('.' :: chars) := by
    intro ending hending
    refine ⟨ending.toList.tail, ?_⟩
    revert ending
    decide
  have hiff : ∀ ending ∈ scriptSuffixes,
      (suffix name = ending ↔ ∃ stem, stem ≠ "" ∧ name = stem ++ ending) := by
    intro ending hending
    obtain ⟨chars, hne, hdot, rfl⟩ := hform ending hending
    exact suffix_eq_iff hne hdot
  constructor
  · intro h
    obtain ⟨stem, hstem, hname⟩ := (hiff _ h).mp rfl
    exact ⟨stem, suffix name, hstem, h, hname⟩
  · rintro ⟨stem, ending, hstem, hending, hname⟩
    rw [(hiff ending hending).mpr ⟨stem, hstem, hname⟩]
    exact hending

/-- `SourceNames names`: the names from a scanned directory on to a source. -/
structure SourceNames (names : List String) : Prop where
  script : ∃ name, names.getLast? = some name ∧ IsScript name
  outside : ∀ name ∈ names.dropLast, name ∉ ["node_modules", ".git", "bower_components"]

theorem isSource_iff (names : List String) : isSource names = true ↔ SourceNames names := by
  have hlast : (names.getLast?.any fun name => scriptSuffixes.contains (suffix name)) = true ↔
      ∃ name, names.getLast? = some name ∧ IsScript name := by
    rw [Option.any_eq_true]
    refine exists_congr fun name => and_congr_right fun _ => ?_
    rw [List.contains_iff_mem, suffix_mem_iff]
  have hothers : (names.dropLast.all fun name => !skippedDirectories.contains name) = true ↔
      ∀ name ∈ names.dropLast, name ∉ ["node_modules", ".git", "bower_components"] := by
    rw [List.all_eq_true]
    refine forall_congr' fun name => imp_congr_right fun _ => ?_
    rw [Bool.not_eq_true', ← Bool.not_eq_true, List.contains_iff_mem]
    rfl
  rw [isSource, Bool.and_eq_true, hlast, hothers]
  exact ⟨fun h => ⟨h.1, h.2⟩, fun h => ⟨h.script, h.outside⟩⟩

/-! ## Sources in order -/

section Order

variable (directory : Path) {files others : List (List String)}

theorem perm_sourcesAmong (files : List (List String)) :
    (sourcesAmong directory files).Perm ((files.filter isSource).map directory.append) :=
  List.mergeSort_perm _ _

theorem mem_sourcesAmong {path : Path} :
    path ∈ sourcesAmong directory files ↔
      ∃ names ∈ files, SourceNames names ∧ directory.append names = path := by
  rw [(perm_sourcesAmong directory files).mem_iff, List.mem_map]
  refine exists_congr fun names => ?_
  rw [List.mem_filter, isSource_iff, and_assoc]

theorem pairwise_sourcesAmong (files : List (List String)) :
    (sourcesAmong directory files).Pairwise fun a b => a.text ≤ b.text := by
  refine (List.pairwise_mergeSort ?_ ?_ _).imp of_decide_eq_true
  · intro a b c hab hbc
    exact decide_eq_true (String.le_trans (of_decide_eq_true hab) (of_decide_eq_true hbc))
  · intro a b
    rw [Bool.or_eq_true, decide_eq_true_eq, decide_eq_true_eq]
    exact String.le_total a.text b.text

/-- The order of the files makes no difference. -/
theorem sourcesAmong_congr (hfiles : ∀ names ∈ files, Nameable names) (h : files.Perm others) :
    sourcesAmong directory files = sourcesAmong directory others := by
  have hperm : (sourcesAmong directory files).Perm (sourcesAmong directory others) :=
    (perm_sourcesAmong directory files).trans
      (((h.filter isSource).map directory.append).trans (perm_sourcesAmong directory others).symm)
  refine hperm.eq_of_pairwise ?_ (pairwise_sourcesAmong directory files)
    (pairwise_sourcesAmong directory others)
  intro a b ha hb hab hba
  -- Sources whose texts are neither before the other have the same names.
  obtain ⟨names, hnames, -, rfl⟩ := (mem_sourcesAmong directory).mp ha
  obtain ⟨other, hother, -, rfl⟩ := (mem_sourcesAmong directory).mp hb
  rw [text_append_inj (hfiles names hnames) (hfiles other (h.mem_iff.mpr hother))
    (String.le_antisymm hab hba)]

/-- No two sources have the same text. -/
theorem pairwise_text_sourcesAmong (hfiles : ∀ names ∈ files, Nameable names)
    (honce : files.Nodup) : ((sourcesAmong directory files).map Path.text).Pairwise (· < ·) := by
  have hnodup : ((sourcesAmong directory files).map Path.text).Nodup := by
    rw [((perm_sourcesAmong directory files).map Path.text).nodup_iff, List.map_map]
    refine (honce.filter isSource).map_on ?_
    intro names hnames other hother heq
    exact text_append_inj (hfiles names (List.mem_filter.mp hnames).1)
      (hfiles other (List.mem_filter.mp hother).1) heq
  have hsorted : ((sourcesAmong directory files).map Path.text).Pairwise (· ≤ ·) :=
    List.pairwise_map.mpr (pairwise_sourcesAmong directory files)
  refine (hsorted.and hnodup).imp ?_
  rintro a b ⟨hle, hne⟩
  exact String.not_le.mp fun hge => hne (String.le_antisymm hle hge)

end Order

/-! ## Listings -/

namespace FileTree

/-- `tree.Tidy`: nothing has two entries, and no name holds a slash. -/
structure Tidy (tree : FileTree) : Prop where
  once : (tree.entries.map Prod.fst).Nodup
  slashless : ∀ item ∈ tree.entries, ∀ name ∈ item.1, '/' ∉ name.toList

instance (tree : FileTree) : Decidable tree.Tidy :=
  decidable_of_iff
    ((tree.entries.map Prod.fst).Nodup ∧
      ∀ item ∈ tree.entries, ∀ name ∈ item.1, '/' ∉ name.toList)
    ⟨fun h => ⟨h.1, h.2⟩, fun h => ⟨h.once, h.slashless⟩⟩

/-- Whether a file stands at names below a place. -/
def hasFile (tree : FileTree) (place : Place) (names : List String) : Bool :=
  (tree.get? (place ++ names)).any Entry.isFile

theorem hasFile_iff {tree : FileTree} {place : Place} {names : List String} :
    tree.hasFile place names = true ↔
      (∃ bytes, tree.get? (place ++ names) = some (.file bytes)) ∨
        tree.get? (place ++ names) = some .locked := by
  rw [hasFile]
  cases tree.get? (place ++ names) with
  | none => simp
  | some entry => cases entry <;> simp [Entry.isFile]

/-- `tree.Lists place listing`: a listing has everything that stands below a place, each by
    its names from there on and each once, in any order. -/
structure Lists (tree : FileTree) (place : Place) (listing : List (List String)) : Prop where
  once : listing.Nodup
  mem_iff : ∀ names, names ∈ listing ↔ names ≠ [] ∧ (tree.get? (place ++ names)).isSome = true

/-- A listing is checked on its own items and on the entries of the tree. -/
theorem lists_iff {tree : FileTree} {place : Place} {listing : List (List String)} :
    tree.Lists place listing ↔ listing.Nodup ∧
      (∀ names ∈ listing, names ≠ [] ∧ (tree.get? (place ++ names)).isSome = true) ∧
      ∀ item ∈ tree.entries, place <+: item.1 → place ≠ item.1 →
        item.1.drop place.length ∈ listing := by
  constructor
  · intro h
    refine ⟨h.once, fun names => (h.mem_iff names).mp, ?_⟩
    rintro ⟨p, entry⟩ hitem ⟨names, rfl⟩ hne
    rw [List.drop_left, h.mem_iff]
    refine ⟨?_, get?_isSome_of_mem hitem⟩
    rintro rfl
    exact hne (List.append_nil place).symm
  · rintro ⟨honce, hstands, hlisted⟩
    refine ⟨honce, fun names => ⟨hstands names, ?_⟩⟩
    rintro ⟨hnil, hsome⟩
    obtain ⟨entry, hentry⟩ := Option.isSome_iff_exists.mp hsome
    have hitem := mem_entries_of_get? (List.append_ne_nil_of_right_ne_nil place hnil) hentry
    have hmem := hlisted _ hitem (List.prefix_append place names)
      fun heq => hnil (List.self_eq_append_right.mp heq)
    rwa [List.drop_left] at hmem

instance (tree : FileTree) (place : Place) (listing : List (List String)) :
    Decidable (tree.Lists place listing) :=
  decidable_of_iff _ lists_iff.symm

section Tidy

variable {tree : FileTree} (h : tree.Tidy) {place : Place}

include h

theorem Tidy.get?_eq_some_iff (hplace : place ≠ []) {entry : Entry} :
    tree.get? place = some entry ↔ (place, entry) ∈ tree.entries := by
  refine ⟨mem_entries_of_get? hplace, fun hmem => ?_⟩
  obtain ⟨before, after, hentries⟩ := List.append_of_mem hmem
  rw [get?, if_neg hplace, List.lookup_eq_some_iff]
  refine ⟨before, after, hentries, fun item hitem => bne_iff_ne.mpr ?_⟩
  -- An earlier entry for the place would be a second one.
  have honce := h.once
  rw [hentries, List.map_append, List.nodup_append] at honce
  exact (honce.2.2 item.1 (List.mem_map_of_mem hitem) place List.mem_cons_self).symm

/-- The files below a place are those that stand there. -/
theorem Tidy.mem_filesBelow_iff {names : List String} :
    names ∈ tree.filesBelow place ↔ names ≠ [] ∧ tree.hasFile place names = true := by
  rw [filesBelow, List.mem_filterMap, hasFile, Option.any_eq_true]
  constructor
  · rintro ⟨⟨p, entry⟩, hitem, hnames⟩
    obtain ⟨hnil, rfl, hfile⟩ := namesBelow?_eq_some.mp hnames
    have hne := List.append_ne_nil_of_right_ne_nil place hnil
    exact ⟨hnil, entry, (h.get?_eq_some_iff hne).mpr hitem, hfile⟩
  · rintro ⟨hnil, entry, hget, hfile⟩
    have hne := List.append_ne_nil_of_right_ne_nil place hnil
    exact ⟨(place ++ names, entry), (h.get?_eq_some_iff hne).mp hget,
      namesBelow?_eq_some.mpr ⟨hnil, rfl, hfile⟩⟩

theorem Tidy.nodup_filesBelow : (tree.filesBelow place).Nodup := by
  rw [filesBelow, List.Nodup, List.pairwise_filterMap]
  refine (List.pairwise_map.mp h.once).imp ?_
  rintro a b hne names ha other hb rfl
  exact hne ((namesBelow?_eq_some.mp ha).2.1.trans (namesBelow?_eq_some.mp hb).2.1.symm)

theorem Tidy.nameable_of_mem_filesBelow :
    ∀ names ∈ tree.filesBelow place, Nameable names := by
  intro names hnames
  rw [filesBelow, List.mem_filterMap] at hnames
  obtain ⟨item, hitem, hbelow⟩ := hnames
  obtain ⟨hnil, hplace, -⟩ := namesBelow?_eq_some.mp hbelow
  refine ⟨hnil, fun name hname => h.slashless item hitem name ?_⟩
  rw [hplace]
  exact List.mem_append_right place hname

/-- The files of a listing are the files below its place. -/
theorem Tidy.perm_filesBelow {listing : List (List String)} (hlists : tree.Lists place listing) :
    (tree.filesBelow place).Perm (listing.filter (tree.hasFile place)) := by
  rw [List.perm_ext_iff_of_nodup h.nodup_filesBelow (hlists.once.filter _)]
  intro names
  rw [h.mem_filesBelow_iff, List.mem_filter, hlists.mem_iff]
  refine ⟨fun hfile => ⟨⟨hfile.1, ?_⟩, hfile.2⟩, fun hfile => ⟨hfile.1.1, hfile.2⟩⟩
  obtain ⟨entry, hget, -⟩ := (Option.any_eq_true _ _).mp hfile.2
  rw [hget]
  rfl

/-- In another order the entries are as tidy. -/
theorem Tidy.of_perm {other : FileTree} (hperm : other.entries.Perm tree.entries) : other.Tidy where
  once := (hperm.map Prod.fst).nodup_iff.mpr h.once
  slashless item hitem := h.slashless item (hperm.mem_iff.mp hitem)

/-- What stands at a place does not depend on the order of the entries. -/
theorem Tidy.get?_eq_of_perm {other : FileTree} (hperm : other.entries.Perm tree.entries)
    (place : Place) : other.get? place = tree.get? place := by
  by_cases hplace : place = []
  · rw [hplace, get?_nil, get?_nil]
  · ext entry
    rw [(h.of_perm hperm).get?_eq_some_iff hplace, h.get?_eq_some_iff hplace, hperm.mem_iff]

theorem Tidy.extends_of_perm {other : FileTree} (hhome : other.home = tree.home)
    (hperm : other.entries.Perm tree.entries) : Extends tree other where
  home := hhome
  stands place hsome := by rwa [h.get?_eq_of_perm hperm]
  directory place hdirectory := by rwa [isDirectory, h.get?_eq_of_perm hperm]

end Tidy

/-! ## The sources below a directory -/

section Sources

variable {tree : FileTree} {path : Path} {place : Place}

/-- The sources below a directory, exactly and in one order.  The texts of their paths are
    strictly increasing.  They are the texts for the files below the directory, whether these
    may be opened or not, whose name ends with a suffix of scripts behind something else and
    that stand in no directory, below the scanned one, with a name that is skipped; what the
    scanned directory itself is called, and directories that are called like scripts, make no
    difference.  Any listing of what stands below the directory gives the same sources, and
    so does a tree with the same entries in another order. -/
theorem sources_exact_in_any_order (htidy : tree.Tidy) (hplace : tree.place? path = some place)
    (hdirectory : tree.isDirectory place = true) :
    let found := (tree.sources path).map Path.text
    found.Pairwise (· < ·) ∧
    (∀ text, text ∈ found ↔ ∃ names, text = (path.append names).text ∧ SourceNames names ∧
      ((∃ bytes, tree.get? (place ++ names) = some (.file bytes)) ∨
        tree.get? (place ++ names) = some .locked)) ∧
    (∀ listing, tree.Lists place listing →
      sourcesAmong path (listing.filter (tree.hasFile place)) = tree.sources path) ∧
    ∀ other : FileTree, other.home = tree.home → other.entries.Perm tree.entries →
      other.sources path = tree.sources path := by
  intro found
  have hsources := sources_of_directory hplace hdirectory
  have hnameable : ∀ names ∈ tree.filesBelow place, Nameable names :=
    htidy.nameable_of_mem_filesBelow
  refine ⟨?_, ?_, ?_, ?_⟩
  · show ((tree.sources path).map Path.text).Pairwise (· < ·)
    rw [hsources]
    exact pairwise_text_sourcesAmong path hnameable htidy.nodup_filesBelow
  · intro text
    show text ∈ (tree.sources path).map Path.text ↔ _
    rw [hsources, List.mem_map]
    constructor
    · rintro ⟨source, hsource, rfl⟩
      obtain ⟨names, hnames, hcounts, rfl⟩ := (mem_sourcesAmong path).mp hsource
      exact ⟨names, rfl, hcounts, hasFile_iff.mp (htidy.mem_filesBelow_iff.mp hnames).2⟩
    · rintro ⟨names, rfl, hcounts, hfile⟩
      -- A source has a last name, so it is not the directory itself.
      obtain ⟨name, hlast, -⟩ := hcounts.script
      have hnil : names ≠ [] := List.ne_nil_of_mem (List.mem_of_getLast? hlast)
      exact ⟨path.append names, (mem_sourcesAmong path).mpr
        ⟨names, htidy.mem_filesBelow_iff.mpr ⟨hnil, hasFile_iff.mpr hfile⟩, hcounts, rfl⟩, rfl⟩
  · intro listing hlists
    rw [hsources]
    exact (sourcesAmong_congr path hnameable (htidy.perm_filesBelow hlists)).symm
  · intro other hhome hperm
    -- The path leads to the same place, below which the same files are listed otherwise.
    have hextends := htidy.extends_of_perm hhome hperm
    rw [hsources, sources_of_directory (hextends.place? hplace)
      (hextends.directory place hdirectory)]
    exact (sourcesAmong_congr path hnameable (hperm.symm.filterMap (namesBelow? place))).symm

end Sources

/-! ### A package inside another one -/

/-- A package in a directory that is skipped where it is not scanned itself, with a script
    that may not be opened, a directory that is called like a script and a package of its
    own. -/
def nestedPackage : FileTree :=
  { entries :=
      [(["node_modules"], .directory), (["node_modules", "p"], .directory),
        (["node_modules", "p", "a"], .directory), (["node_modules", "p", "a", "b.js"], .file []),
        (["node_modules", "p", "a.js"], .locked), (["node_modules", "p", "d.js"], .directory),
        (["node_modules", "p", "d.js", ".git"], .file []),
        (["node_modules", "p", "node_modules"], .directory),
        (["node_modules", "p", "node_modules", "c.js"], .file [])]
    home := ["node_modules"] }

/-- A listing of the package that begins at the end. -/
def nestedListing : List (List String) :=
  [["node_modules", "c.js"], ["node_modules"], ["d.js", ".git"], ["d.js"], ["a.js"],
    ["a", "b.js"], ["a"]]

/-- The script in the inner directory is found, its text being behind that of the script
    next to the directory, which is found though it may not be opened, and the listing gives
    the same sources. -/
theorem sources_exact_in_any_order_nestedPackage :
    nestedPackage.Tidy ∧
    nestedPackage.place? (.ofText "p") = some ["node_modules", "p"] ∧
    nestedPackage.isDirectory ["node_modules", "p"] = true ∧
    ((nestedPackage.sources (.ofText "p")).map Path.text).Pairwise (· < ·) ∧
    "p/a.js" ∈ (nestedPackage.sources (.ofText "p")).map Path.text ∧
    "p/a/b.js" ∈ (nestedPackage.sources (.ofText "p")).map Path.text ∧
    nestedPackage.Lists ["node_modules", "p"] nestedListing ∧
    sourcesAmong (.ofText "p")
        (nestedListing.filter (nestedPackage.hasFile ["node_modules", "p"])) =
      nestedPackage.sources (.ofText "p") := by
  have htidy : nestedPackage.Tidy := by decide
  have hplace : nestedPackage.place? (.ofText "p") = some ["node_modules", "p"] := by decide
  have hdirectory : nestedPackage.isDirectory ["node_modules", "p"] = true := by decide
  have hlists : nestedPackage.Lists ["node_modules", "p"] nestedListing := by decide
  obtain ⟨hincreasing, hfound, hlisted, -⟩ :=
    sources_exact_in_any_order htidy hplace hdirectory
  have houter : SourceNames ["a.js"] :=
    ⟨⟨"a.js", rfl, "a", ".js", by decide, by decide, by decide⟩, by decide⟩
  have hinner : SourceNames ["a", "b.js"] :=
    ⟨⟨"b.js", rfl, "b", ".js", by decide, by decide, by decide⟩, by decide⟩
  exact ⟨htidy, hplace, hdirectory, hincreasing,
    (hfound "p/a.js").mpr ⟨["a.js"], by decide, houter, Or.inr (by decide)⟩,
    (hfound "p/a/b.js").mpr ⟨["a", "b.js"], by decide, hinner, Or.inl ⟨[], by decide⟩⟩, hlists,
    hlisted nestedListing hlists⟩

end FileTree

end EsFeatures.Files
