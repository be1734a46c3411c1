/-
  EsFeatures.Proofs.Directories

  Trees of files that are sound, and how they change.  In a sound tree whatever stands at a
  place stands in a directory, so every path to it can be followed.  Directories are made
  only where nothing stands, at places on the way along the names of the path, and a file
  that is written changes what stands at one place.
-/
import EsFeatures.Proofs.Paths
import Mathlib.Data.List.Induction

namespace EsFeatures.Files

/-! ## Ways -/

/-- The place to which names lead lies on the way along any names that go on from there. -/
theorem Place.foldl_step_mem_way {names all : List String} (h : names <+: all) (place : Place) :
    names.foldl step place ∈ way place all := by
  induction names generalizing place all with
  | nil =>
    cases all with
    | nil => exact List.mem_singleton.mpr rfl
    | cons name rest => exact List.mem_cons_self
  | cons name names ih =>
    obtain ⟨rest, rfl⟩ := h
    exact List.mem_cons_of_mem _ (ih (List.prefix_append names rest) _)

theorem Place.step_of_regular (place : Place) {name : String} (h : name ≠ "." ∧ name ≠ "..") :
    step place name = place ++ [name] := by
  rw [step, if_neg h.1, if_neg h.2]

theorem Place.concat_ne_nil (place : Place) (name : String) : place ++ [name] ≠ [] :=
  List.append_ne_nil_of_right_ne_nil place (List.cons_ne_nil name [])

namespace FileTree

/-! ## Following names -/

section Follow

variable {tree : FileTree} {place : Place}

theorem isDirectory_iff : tree.isDirectory place = true ↔ tree.get? place = some .directory := by
  rw [isDirectory, beq_iff_eq]

/-- A file is no directory. -/
theorem isDirectory_of_isFile {entry : Entry} (hget : tree.get? place = some entry)
    (hfile : entry.isFile = true) : tree.isDirectory place = false := by
  rw [isDirectory, hget]
  cases entry with
  | file bytes => rfl
  | locked => rfl
  | directory => cases hfile
  | device => cases hfile

theorem isSome_of_isDirectory (h : tree.isDirectory place = true) :
    (tree.get? place).isSome = true := by
  rw [isDirectory_iff.mp h]
  rfl

theorem get?_nil : tree.get? [] = some .directory := if_pos rfl

theorem ne_nil_of_get?_eq_none (h : tree.get? place = none) : place ≠ [] := by
  rintro rfl
  rw [get?_nil] at h
  cases h

theorem mem_entries_of_get? {entry : Entry} (hplace : place ≠ [])
    (h : tree.get? place = some entry) : (place, entry) ∈ tree.entries := by
  rw [get?, if_neg hplace, List.lookup_eq_some_iff] at h
  obtain ⟨before, after, hentries, -⟩ := h
  rw [hentries]
  exact List.mem_append_right _ List.mem_cons_self

theorem get?_isSome_of_mem {entry : Entry} (h : (place, entry) ∈ tree.entries) :
    (tree.get? place).isSome = true := by
  rw [get?]
  split
  · rfl
  · rw [List.lookup_isSome_iff]
    exact ⟨_, h, beq_self_eq_true place⟩

/-- Names that lead from one place to another, and further names from there. -/
theorem follow?_append (names rest : List String) :
    tree.follow? place (names ++ rest) = (tree.follow? place names).bind (tree.follow? · rest) := by
  induction names generalizing place with
  | nil =>
    rw [List.nil_append, follow?]
    split
    · rfl
    · -- Where nothing stands no name leads on.
      rename_i hnone
      have hnone : tree.get? place = none := by simpa using hnone
      cases rest with
      | nil => simp [follow?, hnone]
      | cons name rest => simp [follow?, isDirectory, hnone]
  | cons name names ih =>
    rw [List.cons_append, follow?, follow?]
    split
    · exact ih
    · rfl

/-- Names lead step by step. -/
theorem eq_foldl_of_follow? {names : List String} {found : Place}
    (h : tree.follow? place names = some found) :
    found = names.foldl Place.step place ∧ (tree.get? found).isSome = true := by
  induction names generalizing place with
  | nil =>
    rw [follow?] at h
    split at h
    · rename_i hsome
      obtain rfl := Option.some.inj h
      exact ⟨rfl, hsome⟩
    · cases h
  | cons name names ih =>
    rw [follow?] at h
    split at h
    · exact ih h
    · cases h

theorem place?_append (path : Path) (names : List String) :
    tree.place? (path.append names) = (tree.place? path).bind (tree.follow? · names) :=
  follow?_append path.names names

/-- The last name of a path leads on from the directory in which it stands. -/
theorem follow?_singleton (h : tree.isDirectory place = true) (name : String) :
    tree.follow? place [name] =
      if (tree.get? (Place.step place name)).isSome then some (Place.step place name)
      else none := by
  rw [follow?, if_pos h, follow?]

end Follow

/-! ## Sound trees -/

/-- A tree of files as it stands on a disk: relative paths start in a directory, everything
    stands in a directory, and no name is one that leads back. -/
structure Sound (tree : FileTree) : Prop where
  home : tree.isDirectory tree.home = true
  parent : ∀ item ∈ tree.entries, tree.isDirectory item.1.dropLast = true
  regular : ∀ item ∈ tree.entries, ∀ name ∈ item.1, name ≠ "." ∧ name ≠ ".."

instance (tree : FileTree) : Decidable tree.Sound :=
  decidable_of_iff
    (tree.isDirectory tree.home = true ∧
      (∀ item ∈ tree.entries, tree.isDirectory item.1.dropLast = true) ∧
      ∀ item ∈ tree.entries, ∀ name ∈ item.1, name ≠ "." ∧ name ≠ "..")
    ⟨fun h => ⟨h.1, h.2.1, h.2.2⟩, fun h => ⟨h.home, h.parent, h.regular⟩⟩

section Sound

variable {tree : FileTree} (h : tree.Sound) {place : Place}

include h

/-- What stands somewhere stands in a directory. -/
theorem Sound.isDirectory_dropLast (hplace : (tree.get? place).isSome = true) :
    tree.isDirectory place.dropLast = true := by
  by_cases hnil : place = []
  · rw [hnil]
    rfl
  · obtain ⟨entry, hentry⟩ := Option.isSome_iff_exists.mp hplace
    exact h.parent _ (mem_entries_of_get? hnil hentry)

theorem Sound.regular_of_get? (hplace : (tree.get? place).isSome = true) :
    ∀ name ∈ place, name ≠ "." ∧ name ≠ ".." := by
  by_cases hnil : place = []
  · rw [hnil]
    exact fun name hname => absurd hname List.not_mem_nil
  · obtain ⟨entry, hentry⟩ := Option.isSome_iff_exists.mp hplace
    exact h.regular _ (mem_entries_of_get? hnil hentry)

theorem Sound.origin_isDirectory (path : Path) : tree.isDirectory (tree.origin path) = true := by
  rw [origin]
  split
  · exact h.home
  · rfl

/-- Everything above a place where something stands is a directory. -/
theorem Sound.isDirectory_of_append {names : List String} (hnames : names ≠ [])
    (hplace : (tree.get? (place ++ names)).isSome = true) : tree.isDirectory place = true := by
  induction names using List.reverseRecOn with
  | nil => exact absurd rfl hnames
  | append_singleton names name ih =>
    have hparent := h.isDirectory_dropLast hplace
    rw [← List.append_assoc, List.dropLast_concat] at hparent
    by_cases hnil : names = []
    · rwa [hnil, List.append_nil] at hparent
    · exact ih hnil (isSome_of_isDirectory hparent)

/-- The names of a place lead to it. -/
theorem Sound.follow?_eq {names : List String}
    (hplace : (tree.get? (place ++ names)).isSome = true) :
    tree.follow? place names = some (place ++ names) := by
  induction names generalizing place with
  | nil =>
    rw [List.append_nil] at hplace ⊢
    exact if_pos hplace
  | cons name names ih =>
    have hname := h.regular_of_get? hplace name (List.mem_append_right _ List.mem_cons_self)
    rw [follow?, if_pos (h.isDirectory_of_append (List.cons_ne_nil _ _) hplace),
      Place.step_of_regular place hname]
    rw [List.append_cons] at hplace
    rw [ih hplace, ← List.append_cons]

/-- A name that leads back leads to a directory. -/
theorem Sound.isDirectory_step (hplace : tree.isDirectory place = true) {name : String}
    (hname : ¬(name ≠ "." ∧ name ≠ "..")) : tree.isDirectory (Place.step place name) = true := by
  rw [Place.step]
  split
  · exact hplace
  · split
    · exact h.isDirectory_dropLast (isSome_of_isDirectory hplace)
    · exact absurd ⟨by assumption, by assumption⟩ hname

end Sound

/-! ## Trees that grow -/

/-- `Extends before after`: what stood somewhere still stands there, as a directory if it
    was one. -/
structure Extends (before after : FileTree) : Prop where
  home : after.home = before.home
  stands : ∀ place, (before.get? place).isSome = true → (after.get? place).isSome = true
  directory : ∀ place, before.isDirectory place = true → after.isDirectory place = true

theorem Extends.refl (tree : FileTree) : Extends tree tree :=
  ⟨rfl, fun _ h => h, fun _ h => h⟩

theorem Extends.trans {first second third : FileTree} (h : Extends first second)
    (h' : Extends second third) : Extends first third where
  home := h'.home.trans h.home
  stands place hsome := h'.stands place (h.stands place hsome)
  directory place hdirectory := h'.directory place (h.directory place hdirectory)

theorem Extends.follow? {before after : FileTree} (h : Extends before after) {place found : Place}
    {names : List String} (hfound : before.follow? place names = some found) :
    after.follow? place names = some found := by
  induction names generalizing place with
  | nil =>
    rw [FileTree.follow?] at hfound ⊢
    split at hfound
    · rename_i hsome
      rwa [if_pos (h.stands place hsome)]
    · cases hfound
  | cons name names ih =>
    rw [FileTree.follow?] at hfound ⊢
    split at hfound
    · rename_i hdirectory
      rw [if_pos (h.directory place hdirectory)]
      exact ih hfound
    · cases hfound

theorem Extends.origin_eq {before after : FileTree} (h : Extends before after) (path : Path) :
    after.origin path = before.origin path := by
  rw [origin, h.home, origin]

/-- A path leads where it led before. -/
theorem Extends.place? {before after : FileTree} (h : Extends before after) {path : Path}
    {place : Place} (hplace : before.place? path = some place) :
    after.place? path = some place := by
  rw [FileTree.place?, h.origin_eq]
  exact h.follow? hplace

/-- `Furnishes places before after`: the second tree is the first with more directories,
    each at one of the places. -/
structure Furnishes (places : List Place) (before after : FileTree) : Prop where
  home : after.home = before.home
  kept : ∀ place entry, before.get? place = some entry → after.get? place = some entry
  added : ∀ place, before.get? place = none →
    after.get? place = none ∨ after.get? place = some .directory ∧ place ∈ places
  files : ∀ place, after.filesBelow place = before.filesBelow place

namespace Furnishes

variable {places : List Place} {first second third : FileTree}

theorem refl (places : List Place) (tree : FileTree) : Furnishes places tree tree :=
  ⟨rfl, fun _ _ h => h, fun _ h => Or.inl h, fun _ => rfl⟩

theorem trans (h : Furnishes places first second) (h' : Furnishes places second third) :
    Furnishes places first third where
  home := h'.home.trans h.home
  kept place entry hentry := h'.kept place entry (h.kept place entry hentry)
  added place hnone := by
    obtain hnone' | ⟨hmade, hplace⟩ := h.added place hnone
    · exact h'.added place hnone'
    · exact Or.inr ⟨h'.kept place _ hmade, hplace⟩
  files place := (h'.files place).trans (h.files place)

theorem toExtends (h : Furnishes places first second) : Extends first second where
  home := h.home
  stands place hsome := by
    obtain ⟨entry, hentry⟩ := Option.isSome_iff_exists.mp hsome
    rw [h.kept place entry hentry]
    rfl
  directory place hdirectory := by
    rw [isDirectory_iff] at hdirectory ⊢
    exact h.kept place _ hdirectory

end Furnishes

section Insert

variable {tree : FileTree} {place : Place}

theorem get?_insert (entry : Entry) (hplace : place ≠ []) (other : Place) :
    (tree.insert place entry).get? other =
      if other = place then some entry else tree.get? other := by
  split
  · rename_i heq
    rw [heq, get?_insert_self tree entry hplace]
  · rename_i hne
    exact get?_insert_of_ne tree entry hne

/-- A directory where nothing stood is all that is new. -/
theorem furnishes_insert {places : List Place} (hnone : tree.get? place = none)
    (hplace : place ∈ places) : Furnishes places tree (tree.insert place .directory) := by
  have hnil : place ≠ [] := ne_nil_of_get?_eq_none hnone
  have hentries : tree.entries.filter (·.1 != place) = tree.entries := by
    rw [get?, if_neg hnil, List.lookup_eq_none_iff] at hnone
    refine List.filter_eq_self.mpr fun item hitem => ?_
    exact bne_iff_ne.mpr (bne_iff_ne.mp (hnone item hitem)).symm
  refine ⟨rfl, ?_, ?_, ?_⟩
  · intro other entry hentry
    rw [get?_insert _ hnil, if_neg, hentry]
    rintro rfl
    rw [hnone] at hentry
    cases hentry
  · intro other hother
    rw [get?_insert _ hnil]
    split
    · rename_i heq
      exact Or.inr ⟨rfl, heq ▸ hplace⟩
    · exact Or.inl hother
  · intro other
    rw [filesBelow, insert, hentries]
    rfl

/-- A tree with a directory more is sound if that stands in a directory. -/
theorem Sound.insert (h : tree.Sound) {parent : Place} {name : String}
    (hparent : tree.isDirectory parent = true) (hname : name ≠ "." ∧ name ≠ "..")
    (hnone : tree.get? (parent ++ [name]) = none) :
    (tree.insert (parent ++ [name]) .directory).Sound := by
  have hgrows := (furnishes_insert hnone (List.mem_singleton.mpr rfl)).toExtends
  have hmem : ∀ item ∈ (tree.insert (parent ++ [name]) .directory).entries,
      item.1 = parent ++ [name] ∨ item ∈ tree.entries := by
    intro item hitem
    rcases List.mem_cons.mp hitem with rfl | hold
    · exact Or.inl rfl
    · exact Or.inr (List.mem_filter.mp hold).1
  refine ⟨hgrows.directory _ h.home, ?_, ?_⟩
  · intro item hitem
    rcases hmem item hitem with hnew | hold
    · rw [hnew, List.dropLast_concat]
      exact hgrows.directory _ hparent
    · exact hgrows.directory _ (h.parent item hold)
  · intro item hitem other hother
    rcases hmem item hitem with hnew | hold
    · rw [hnew, List.mem_append, List.mem_singleton] at hother
      rcases hother with hother | rfl
      · exact h.regular_of_get? (isSome_of_isDirectory hparent) other hother
      · exact hname
    · exact h.regular item hold other hother

end Insert

/-! ## Making directories -/

section Make

variable {tree made : FileTree} {text : String}

/-- The place of a new entry is a place in a directory. -/
theorem newPlace_eq_ok {place : Place} (h : tree.newPlace text = .ok place) :
    ∃ parent name, place = parent ++ [name] ∧ tree.isDirectory parent = true ∧
      tree.place? (Path.ofTextWithDots text).parent = some parent ∧
      (Path.ofTextWithDots text).names = (Path.ofTextWithDots text).parent.names ++ [name] := by
  rw [newPlace] at h
  split at h
  · cases h
  · rename_i parent hparent
    split at h
    · rename_i hdirectory
      split at h
      · rename_i name hname
        obtain rfl := Except.ok.inj h
        obtain ⟨front, hfront⟩ := List.getLast?_eq_some_iff.mp hname
        refine ⟨parent, name, rfl, hdirectory, hparent, ?_⟩
        rw [Path.parent, hfront, List.dropLast_concat]
      · cases h
    · cases h

/-- The place of a new entry with a given name in a directory. -/
theorem newPlace_joinText {directory name : String} {parent : Place} (hdirectory : directory ≠ "")
    (hname : name ≠ "") (hslash : '/' ∉ name.toList)
    (hparent : tree.place? (.ofTextWithDots directory) = some parent)
    (hplace : tree.isDirectory parent = true) :
    tree.newPlace (joinText directory name) = .ok (parent ++ [name]) := by
  have hpath := ofTextWithDots_joinText hdirectory hname hslash
  have hfront : ((Path.ofTextWithDots directory).append [name]).parent =
      Path.ofTextWithDots directory := by
    rw [Path.append, Path.parent, List.dropLast_concat]
  have hlast : ((Path.ofTextWithDots directory).append [name]).names.getLast? = some name :=
    List.getLast?_concat
  simp only [newPlace, hpath, hfront, hparent, hplace, hlast, if_true]

/-- The last name of a path leads on from the directory to which the names before it
    lead. -/
theorem place?_eq_follow? {path : Path} {parent : Place} {name : String}
    (hnames : path.names = path.parent.names ++ [name])
    (hparent : tree.place? path.parent = some parent) :
    tree.place? path = tree.follow? parent [name] := by
  have hpath : path = path.parent.append [name] := by
    rw [Path.append, ← hnames]
    rfl
  rw [hpath, place?_append, hparent]
  rfl

/-- One directory is made: something stands there, or the directory is new, stands in a
    directory and has a name that does not lead back. -/
theorem makeDirectory_cases (hsound : tree.Sound) (h : tree.makeDirectory text = .ok made) :
    made = tree ∧ (tree.place? (.ofTextWithDots text)).isSome = true ∨
      ∃ parent name, made = tree.insert (parent ++ [name]) .directory ∧
        tree.isDirectory parent = true ∧ (name ≠ "." ∧ name ≠ "..") ∧
        tree.get? (parent ++ [name]) = none ∧
        tree.place? (Path.ofTextWithDots text).parent = some parent ∧
        (Path.ofTextWithDots text).names = (Path.ofTextWithDots text).parent.names ++ [name] := by
  rw [makeDirectory] at h
  split at h
  · rename_i hsome
    exact Or.inl ⟨(Except.ok.inj h).symm, hsome⟩
  · rename_i hnone
    cases hnew : tree.newPlace text with
    | error e =>
      rw [hnew] at h
      cases h
    | ok place =>
      rw [hnew] at h
      obtain ⟨parent, name, rfl, hdirectory, hparent, hnames⟩ := newPlace_eq_ok hnew
      rw [place?_eq_follow? hnames hparent, follow?_singleton hdirectory] at hnone
      have hnone : tree.get? (Place.step parent name) = none := by
        by_contra hne
        rw [if_pos (Option.isSome_iff_ne_none.mpr hne)] at hnone
        exact hnone rfl
      -- A name that leads back would lead to a directory.
      have hname : name ≠ "." ∧ name ≠ ".." := by
        by_contra hback
        rw [isDirectory_iff.mp (hsound.isDirectory_step hdirectory hback)] at hnone
        cases hnone
      rw [Place.step_of_regular parent hname] at hnone
      exact Or.inr ⟨parent, name, (Except.ok.inj h).symm, hdirectory, hname, hnone, hparent, hnames⟩

/-- `Stands tree text`: something stands where the text leads. -/
def Stands (tree : FileTree) (text : String) : Prop :=
  (tree.place? (.ofTextWithDots text)).isSome = true

theorem Extends.stands_text {before after : FileTree} (h : Extends before after)
    (hstands : before.Stands text) : after.Stands text := by
  obtain ⟨place, hplace⟩ := Option.isSome_iff_exists.mp hstands
  rw [Stands, h.place? hplace]
  rfl

/-- Making a directory on the way along a path keeps a tree sound, adds nothing but places
    on that way, and leaves something where the directory was to be. -/
theorem makeDirectory_eq_ok {target : Path} (hsound : tree.Sound)
    (hlead : leadOf text = target.lead) (hnames : namesWithDots text <+: target.names)
    (h : tree.makeDirectory text = .ok made) :
    made.Sound ∧ Furnishes (Place.way (tree.origin target) target.names) tree made ∧
      made.Stands text := by
  obtain ⟨rfl, hstands⟩ | ⟨parent, name, rfl, hdirectory, hname, hnone, hparent, hlast⟩ :=
    makeDirectory_cases hsound h
  · exact ⟨hsound, Furnishes.refl _ _, hstands⟩
  · have hstep := Place.step_of_regular parent hname
    have hmem : parent ++ [name] ∈ Place.way (tree.origin target) target.names := by
      have hplace : parent ++ [name] = (Path.ofTextWithDots text).names.foldl Place.step
          (tree.origin (.ofTextWithDots text)) := by
        rw [← hstep, (eq_foldl_of_follow? hparent).1, hlast, List.foldl_append]
        rfl
      have horigin : tree.origin (.ofTextWithDots text) = tree.origin target := by
        rw [origin, origin, ← hlead]
        rfl
      rw [hplace, horigin]
      exact Place.foldl_step_mem_way hnames _
    have hfurnishes := furnishes_insert hnone hmem
    have hgrows := hfurnishes.toExtends
    refine ⟨hsound.insert hdirectory hname hnone, hfurnishes, ?_⟩
    -- The path can be followed now: its last name leads to the new directory.
    have hnew := get?_insert_self tree .directory (ne_nil_of_get?_eq_none hnone)
    rw [Stands, place?_eq_follow? hlast (hgrows.place? hparent),
      follow?_singleton (hgrows.directory parent hdirectory), hstep, hnew]
    rfl

/-- The same for all directories on the way. -/
theorem foldlM_makeDirectory_eq_ok (target : Path) {texts : List String} (hsound : tree.Sound)
    (htexts : ∀ text ∈ texts, leadOf text = target.lead ∧ namesWithDots text <+: target.names)
    (h : texts.foldlM makeDirectory tree = .ok made) :
    made.Sound ∧ Furnishes (Place.way (tree.origin target) target.names) tree made ∧
      ∀ text ∈ texts, made.Stands text := by
  induction texts generalizing tree with
  | nil =>
    obtain rfl : tree = made := Except.ok.inj h
    exact ⟨hsound, Furnishes.refl _ _, fun text htext => absurd htext List.not_mem_nil⟩
  | cons text texts ih =>
    obtain ⟨hlead, hnames⟩ := htexts text List.mem_cons_self
    rw [List.foldlM_cons] at h
    cases hfirst : tree.makeDirectory text with
    | error e =>
      rw [hfirst] at h
      cases h
    | ok next =>
      rw [hfirst] at h
      obtain ⟨hsound', hfurnishes, hstands⟩ := makeDirectory_eq_ok hsound hlead hnames hfirst
      obtain ⟨hmade, hfurnishes', hrest⟩ :=
        ih hsound' (fun text htext => htexts text (List.mem_cons_of_mem _ htext)) h
      -- The next tree starts its paths where the first one does, so the way is the same.
      rw [hfurnishes.toExtends.origin_eq] at hfurnishes'
      refine ⟨hmade, hfurnishes.trans hfurnishes', ?_⟩
      intro other hother
      rcases List.mem_cons.mp hother with rfl | hother
      · exact hfurnishes'.toExtends.stands_text hstands
      · exact hrest other hother

/-- What making a directory and those on the way to it leaves behind. -/
structure Made (text : String) (before after : FileTree) (place : Place) : Prop where
  furnishes : Furnishes (Place.way (before.origin (.ofTextWithDots text)) (namesWithDots text))
    before after
  stages : ∀ stage ∈ FileTree.stages text, after.Stands stage
  leads : after.place? (.ofTextWithDots text) = some place
  directory : after.isDirectory place = true

theorem makeDirectories_eq_ok (hsound : tree.Sound) (h : tree.makeDirectories text = .ok made) :
    ∃ place, Made text tree made place := by
  rw [makeDirectories] at h
  cases hfold : (FileTree.stages text).foldlM makeDirectory tree with
  | error e =>
    rw [hfold] at h
    cases h
  | ok next =>
    rw [hfold] at h
    simp only [bind, Except.bind] at h
    split at h
    · rename_i hfind
      obtain rfl : next = made := Except.ok.inj h
      obtain ⟨-, hfurnishes, hstages⟩ := foldlM_makeDirectory_eq_ok (.ofTextWithDots text) hsound
        (fun stage hstage => isPrefix_of_mem_stages hstage) hfold
      obtain ⟨place, hplace, hget⟩ := Option.bind_eq_some_iff.mp hfind
      exact ⟨place, hfurnishes, hstages, hplace, isDirectory_iff.mpr hget⟩
    · cases h

/-- Where all directories stand none is made. -/
theorem makeDirectories_eq_self {place : Place}
    (hstages : ∀ stage ∈ FileTree.stages text, tree.Stands stage)
    (hplace : tree.place? (.ofTextWithDots text) = some place)
    (hdirectory : tree.isDirectory place = true) : tree.makeDirectories text = .ok tree := by
  have hfold : ∀ texts : List String, (∀ stage ∈ texts, tree.Stands stage) →
      texts.foldlM makeDirectory tree = .ok tree := by
    intro texts htexts
    induction texts with
    | nil => rfl
    | cons text texts ih =>
      have hfirst : tree.makeDirectory text = .ok tree := if_pos (htexts text List.mem_cons_self)
      rw [List.foldlM_cons, hfirst]
      exact ih fun stage hstage => htexts stage (List.mem_cons_of_mem _ hstage)
  have hfind : tree.find? (.ofTextWithDots text) = some .directory := by
    rw [find?, hplace]
    exact isDirectory_iff.mp hdirectory
  rw [makeDirectories, hfold _ hstages]
  exact if_pos hfind

end Make

/-! ## Files below a place -/

theorem namesBelow?_eq_some {place : Place} {item : Place × Entry} {names : List String} :
    namesBelow? place item = some names ↔
      names ≠ [] ∧ item.1 = place ++ names ∧ item.2.isFile = true := by
  obtain ⟨p, entry⟩ := item
  rw [namesBelow?]
  constructor
  · intro h
    split at h
    · rename_i hbelow
      obtain ⟨hfile, hfront, hne⟩ := hbelow
      obtain ⟨rest, rfl⟩ := List.isPrefixOf_iff_prefix.mp hfront
      rw [List.drop_left, Option.some.injEq] at h
      subst h
      exact ⟨fun hnil => hne (by rw [hnil, List.append_nil]), rfl, hfile⟩
    · cases h
  · rintro ⟨hnil, rfl, hfile⟩
    have hfront := List.isPrefixOf_iff_prefix.mpr (List.prefix_append place names)
    rw [if_pos ⟨hfile, hfront, fun heq => hnil (List.self_eq_append_right.mp heq)⟩,
      List.drop_left]

theorem mem_filesBelow {tree : FileTree} {place : Place} {names : List String}
    (h : names ∈ tree.filesBelow place) :
    names ≠ [] ∧ (tree.get? (place ++ names)).isSome = true := by
  obtain ⟨item, hitem, hnames⟩ := List.mem_filterMap.mp h
  obtain ⟨hnil, hplace, -⟩ := namesBelow?_eq_some.mp hnames
  refine ⟨hnil, ?_⟩
  rw [← hplace]
  exact get?_isSome_of_mem hitem

/-! ## Sources -/

section Sources

variable {tree : FileTree} {path : Path} {place : Place} (hplace : tree.place? path = some place)

include hplace

theorem sources_of_file {entry : Entry} (hget : tree.get? place = some entry)
    (hfile : entry.isFile = true) : tree.sources path = [path] := by
  cases entry with
  | file bytes => simp only [sources, hplace, hget]
  | locked => simp only [sources, hplace, hget]
  | directory => cases hfile
  | device => cases hfile

theorem sources_of_directory (hget : tree.isDirectory place = true) :
    tree.sources path = sourcesAmong path (tree.filesBelow place) := by
  simp only [sources, hplace, isDirectory_iff.mp hget]

theorem perm_sources (hget : tree.isDirectory place = true) :
    (tree.sources path).Perm (((tree.filesBelow place).filter isSource).map path.append) := by
  rw [sources_of_directory hplace hget]
  exact List.mergeSort_perm _ _

end Sources

/-- Sources are found only where a path leads to a file or a directory. -/
theorem exists_place_of_sources_ne_nil {tree : FileTree} {path : Path}
    (h : tree.sources path ≠ []) :
    ∃ place, tree.place? path = some place ∧
      ((∃ entry, tree.get? place = some entry ∧ entry.isFile = true) ∨
        tree.isDirectory place = true) := by
  rw [sources] at h
  split at h
  · exact absurd rfl h
  · rename_i place hplace
    refine ⟨place, hplace, ?_⟩
    split at h
    · rename_i bytes hget
      exact Or.inl ⟨.file bytes, hget, rfl⟩
    · rename_i hget
      exact Or.inl ⟨.locked, hget, rfl⟩
    · rename_i hget
      exact Or.inr (isDirectory_iff.mpr hget)
    · exact absurd rfl h

/-! ## Writing files -/

section Write

variable {tree saved : FileTree} {text : String} {place : Place} {bytes : List UInt8}

/-- A file that does not count makes no difference to those that do. -/
theorem filter_filesBelow_insert (tree : FileTree) (bytes : List UInt8) {directory : Place}
    {counts : List String → Bool} (h : ∀ names, place = directory ++ names → counts names = false) :
    ((tree.insert place (.file bytes)).filesBelow directory).filter counts =
      (tree.filesBelow directory).filter counts := by
  rw [filesBelow, filesBelow, List.filter_filterMap, List.filter_filterMap]
  -- Neither the new entry nor those that it replaces count.
  have hnone : ∀ item : Place × Entry, item.1 = place →
      (namesBelow? directory item).filter counts = none := by
    intro item hitem
    rw [Option.filter_eq_none_iff]
    intro names hnames
    rw [h names (hitem.symm.trans (namesBelow?_eq_some.mp hnames).2.1)]
    decide
  have hothers : (fun item : Place × Entry =>
      if item.1 != place then (namesBelow? directory item).filter counts else none) =
        fun item => (namesBelow? directory item).filter counts := by
    funext item
    split
    · rfl
    · rename_i heq
      exact (hnone item (by simpa using heq)).symm
  show List.filterMap _ ((place, .file bytes) :: tree.entries.filter (·.1 != place)) = _
  rw [List.filterMap_cons, hnone (place, .file bytes) rfl, List.filterMap_filter, hothers]

/-- A file that takes no directory's place stands in nobody's way. -/
theorem extends_insert_file (bytes : List UInt8) (hplace : place ≠ [])
    (h : tree.isDirectory place = false) : Extends tree (tree.insert place (.file bytes)) := by
  refine ⟨rfl, ?_, ?_⟩
  · intro other hother
    rw [get?_insert _ hplace]
    split
    · rfl
    · exact hother
  · intro other hother
    rw [isDirectory_iff] at hother ⊢
    rw [get?_insert _ hplace, if_neg, hother]
    rintro rfl
    rw [isDirectory_iff.mpr hother] at h
    cases h

theorem insert_insert (entry entry' : Entry) :
    (tree.insert place entry).insert place entry' = tree.insert place entry' := by
  have hfilter : ((place, entry) :: tree.entries.filter (·.1 != place)).filter (·.1 != place) =
      tree.entries.filter (·.1 != place) := by
    rw [List.filter_cons_of_neg (by simp), List.filter_filter]
    simp
  rw [insert, insert, insert]
  exact congrArg (fun entries => FileTree.mk ((place, entry') :: entries) tree.home) hfilter

/-- A file is written in place of another one that may be opened or where nothing stood; a
    device keeps nothing. -/
theorem write_cases (hplace : tree.newPlace text = .ok place)
    (h : tree.write text bytes = .ok saved) :
    tree.get? place = some .device ∧ saved = tree ∨
      tree.isDirectory place = false ∧ saved = tree.insert place (.file bytes) := by
  rw [write, hplace] at h
  simp only [bind, Except.bind] at h
  split at h
  · cases h
  · cases h
  · rename_i hdevice
    exact Or.inl ⟨hdevice, (Except.ok.inj h).symm⟩
  · rename_i hdirectory _ _
    refine Or.inr ⟨?_, (Except.ok.inj h).symm⟩
    rw [← Bool.not_eq_true, isDirectory_iff]
    exact hdirectory

/-- What is written once more leaves the tree as it is. -/
theorem write_again (hplace : tree.newPlace text = .ok place)
    (hplace' : saved.newPlace text = .ok place) (h : tree.write text bytes = .ok saved) :
    saved.write text bytes = .ok saved := by
  obtain ⟨hdevice, rfl⟩ | ⟨-, rfl⟩ := write_cases hplace h
  · exact h
  · obtain ⟨parent, name, rfl, -⟩ := newPlace_eq_ok hplace
    have hnew := get?_insert_self tree (.file bytes) (Place.concat_ne_nil parent name)
    rw [write, hplace']
    simp only [bind, Except.bind, hnew, insert_insert]
    rfl

end Write

end FileTree

end EsFeatures.Files
