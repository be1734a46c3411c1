/-
  EsFeatures.Proofs.PrunedSearch

  What the search for faults finds, whatever the marks of a tree say.  `places` lists all
  nodes of a tree in pre-order, each with the path to it.  The search goes down a path as
  long as the nodes on it are marked and not too deep, so what it finds is this list,
  filtered by what can be seen of a path.  Where the marks are consistent no fault lies
  below an unmarked node, and going down marked nodes only loses nothing.
-/
import EsFeatures.Proofs.FaultSearch

namespace EsFeatures.Cst

open Text (ByteMap)

/-! ## All nodes of a tree -/

mutual

/-- The nodes of a tree with the paths to them, each node before those below it, in
    document order. -/
def places : Cst → List (List Nat × Cst)
  | .node label children => ([], .node label children) :: placesIn 0 children

/-- The same for the children of a node from position `i` on. -/
def placesIn (i : Nat) : List Cst → List (List Nat × Cst)
  | [] => []
  | tree :: rest => (places tree).map (fun x => (i :: x.1, x.2)) ++ placesIn (i + 1) rest

end

theorem mem_placesIn {i : Nat} {trees : List Cst} {x : List Nat × Cst} :
    x ∈ placesIn i trees ↔
      ∃ k tree path, trees[k]? = some tree ∧ (path, x.2) ∈ tree.places ∧ x.1 = (i + k) :: path := by
  induction trees generalizing i with
  | nil => simp [placesIn]
  | cons t ts ih =>
    rw [placesIn, List.mem_append, List.mem_map, ih]
    constructor
    · rintro (⟨y, hy, rfl⟩ | ⟨k, tree, path, hget, hmem, hpath⟩)
      · exact ⟨0, t, y.1, rfl, hy, rfl⟩
      · refine ⟨k + 1, tree, path, hget, hmem, ?_⟩
        rw [hpath, Nat.add_right_comm, Nat.add_assoc]
    · rintro ⟨k, tree, path, hget, hmem, hpath⟩
      cases k with
      | zero =>
        obtain rfl : t = tree := Option.some.inj hget
        exact Or.inl ⟨(path, x.2), hmem, Prod.ext hpath.symm rfl⟩
      | succ k =>
        refine Or.inr ⟨k, tree, path, hget, hmem, ?_⟩
        rw [hpath, Nat.add_right_comm, Nat.add_assoc]

/-- The places of a tree are its paths, each with the node to which it leads. -/
theorem mem_places {tree node : Cst} {path : List Nat} :
    (path, node) ∈ tree.places ↔ tree.at? path = some node := by
  induction path generalizing tree with
  | nil =>
    cases tree with
    | node label children =>
      rw [places, List.mem_cons, mem_placesIn, at?, Option.some.injEq]
      constructor
      · rintro (heq | ⟨k, tree, path, -, -, hpath⟩)
        · exact (Prod.mk.inj heq).2.symm
        · cases hpath
      · rintro rfl
        exact Or.inl rfl
  | cons i path ih =>
    cases tree with
    | node label children =>
      rw [places, List.mem_cons, mem_placesIn, at?, Option.bind_eq_some_iff]
      constructor
      · rintro (heq | ⟨k, child, path', hget, hmem, hpath⟩)
        · cases heq
        · rw [Nat.zero_add, List.cons.injEq] at hpath
          obtain ⟨rfl, rfl⟩ := hpath
          exact ⟨child, hget, ih.mp hmem⟩
      · rintro ⟨child, hget, hat⟩
        refine Or.inr ⟨i, child, path, hget, ih.mpr hat, ?_⟩
        rw [Nat.zero_add]

mutual

/-- The paths of a tree increase: a node comes before those below it, and what stands
    further to the left before what stands further to the right. -/
theorem pairwise_places : (tree : Cst) → (tree.places.map Prod.fst).Pairwise (· < ·)
  | .node label children => by
    rw [places, List.map_cons, List.pairwise_cons]
    refine ⟨?_, pairwise_placesIn 0 children⟩
    intro path hpath
    obtain ⟨x, hx, rfl⟩ := List.mem_map.mp hpath
    obtain ⟨k, tree, path, -, -, heq⟩ := mem_placesIn.mp hx
    rw [heq]
    exact List.nil_lt_cons _ _

theorem pairwise_placesIn (i : Nat) : (trees : List Cst) →
    ((placesIn i trees).map Prod.fst).Pairwise (· < ·)
  | [] => List.Pairwise.nil
  | tree :: rest => by
    rw [placesIn, List.map_append, List.map_map, List.pairwise_append]
    refine ⟨?_, pairwise_placesIn (i + 1) rest, ?_⟩
    · have hbelow := List.pairwise_map.mp (pairwise_places tree)
      refine List.pairwise_map.mpr (hbelow.imp ?_)
      intro x y hlt
      exact List.cons_lt_cons_iff.mpr (Or.inr ⟨rfl, hlt⟩)
    · -- Of two children the position decides.
      intro path hpath later hlater
      obtain ⟨x, -, rfl⟩ := List.mem_map.mp hpath
      obtain ⟨y, hy, rfl⟩ := List.mem_map.mp hlater
      obtain ⟨k, child, path', -, -, heq⟩ := mem_placesIn.mp hy
      rw [heq]
      exact List.cons_lt_cons_iff.mpr (Or.inl (by omega))

end

/-! ## Marked paths -/

/-- Whether the search goes down to a node: it is marked, or a token that the source
    lacks. -/
def isMarked (node : Cst) : Bool :=
  node.label.hasError || node.label.missing

/-- `tree.MarkedDown path`: every node on the path is marked, the last one included and
    the root of the tree aside. -/
def MarkedDown (tree : Cst) (path : List Nat) : Prop :=
  ∀ way node, way ≠ [] → way <+: path → tree.at? way = some node → node.isMarked = true

theorem markedDown_nil (tree : Cst) : tree.MarkedDown [] := by
  intro way node hne hway _
  exact absurd (List.prefix_nil.mp hway) hne

theorem markedDown_cons {tree child : Cst} {i : Nat} {path : List Nat}
    (hget : tree.children[i]? = some child) :
    tree.MarkedDown (i :: path) ↔ child.isMarked = true ∧ child.MarkedDown path := by
  have hat : ∀ way, tree.at? (i :: way) = child.at? way := by
    intro way
    rw [at?, hget]
    rfl
  constructor
  · intro h
    constructor
    · exact h [i] child (List.cons_ne_nil _ _) (List.cons_prefix_cons.mpr ⟨rfl, List.nil_prefix⟩)
        (hat [])
    · intro way node hne hway hnode
      refine h (i :: way) node (List.cons_ne_nil _ _) ?_ ((hat way).trans hnode)
      exact List.cons_prefix_cons.mpr ⟨rfl, hway⟩
  · rintro ⟨hmarked, hdown⟩ way node hne hway hnode
    cases way with
    | nil => exact absurd rfl hne
    | cons j way =>
      obtain ⟨rfl, hrest⟩ := List.cons_prefix_cons.mp hway
      rw [hat way] at hnode
      cases way with
      | nil =>
        obtain rfl : child = node := Option.some.inj hnode
        exact hmarked
      | cons k way => exact hdown (k :: way) node (List.cons_ne_nil _ _) hrest hnode

/-- The test for marked paths. -/
def isMarkedDown (tree : Cst) : List Nat → Bool
  | [] => true
  | i :: path => tree.children[i]?.all fun child => child.isMarked && child.isMarkedDown path

theorem isMarkedDown_iff {tree : Cst} {path : List Nat} :
    tree.isMarkedDown path = true ↔ tree.MarkedDown path := by
  induction path generalizing tree with
  | nil => exact iff_of_true rfl (markedDown_nil tree)
  | cons i path ih =>
    rw [isMarkedDown]
    cases hget : tree.children[i]? with
    | none =>
      -- The path leaves the tree at once, so no node lies on it.
      refine iff_of_true rfl ?_
      intro way node hne hway hnode
      cases way with
      | nil => exact absurd rfl hne
      | cons j way =>
        obtain ⟨rfl, -⟩ := List.cons_prefix_cons.mp hway
        rw [at?, hget] at hnode
        cases hnode
    | some child => rw [Option.all_some, Bool.and_eq_true, ih, markedDown_cons hget]

instance (tree : Cst) : DecidablePred tree.MarkedDown := fun _ =>
  decidable_of_iff _ isMarkedDown_iff

/-- Where the marks are consistent every path to a fault is marked. -/
theorem FlagsConsistent.markedDown {tree fault : Cst} {path : List Nat} (h : tree.FlagsConsistent)
    (hat : tree.at? path = some fault) (hfault : fault.isFault = true) : tree.MarkedDown path := by
  intro way node _ hway hnode
  obtain ⟨rest, rfl⟩ := hway
  have hbelow : node.at? rest = some fault := by
    rw [at?_append, hnode] at hat
    exact hat
  have hmark : node.label.hasError = true := (h way node hnode).mpr ⟨rest, fault, hbelow, hfault⟩
  rw [isMarked, hmark, Bool.true_or]

/-! ## The search -/

/-- `FoundAt maxDepth depth tree x`: the search of a tree whose root lies at `depth` comes
    to the place `x` and finds a fault there. -/
structure FoundAt (maxDepth depth : Int) (tree : Cst) (x : List Nat × Cst) : Prop where
  fault : x.2.isFault = true
  within : depth + x.1.length ≤ maxDepth
  marked : tree.MarkedDown x.1

theorem foundAt_iff {maxDepth depth : Int} {tree : Cst} {x : List Nat × Cst} :
    x.2.isFault = true ∧ depth + x.1.length ≤ maxDepth ∧ tree.MarkedDown x.1 ↔
      FoundAt maxDepth depth tree x := by
  constructor
  · rintro ⟨hfault, hwithin, hmarked⟩
    exact ⟨hfault, hwithin, hmarked⟩
  · rintro ⟨hfault, hwithin, hmarked⟩
    exact ⟨hfault, hwithin, hmarked⟩

instance (maxDepth depth : Int) (tree : Cst) : DecidablePred (FoundAt maxDepth depth tree) :=
  fun _ => decidable_of_iff _ foundAt_iff

/-- What the search notes of a place: the node, its depth, and its text up to the first
    hundred characters. -/
def noteAt (map : ByteMap) (depth : Int) (x : List Nat × Cst) : Fault :=
  let text := map.text x.2.startByte x.2.endByte
  { label := x.2.label
    depth := depth + x.1.length
    text := if text.length > 100 then String.ofList (text.toList.take 100) ++ "..." else text }

section Step

variable {map : ByteMap} {maxDepth depth : Int} {tree child : Cst} {i : Nat}

/-- Below a child that is marked the search goes on one level deeper. -/
theorem foundAt_cons (hget : tree.children[i]? = some child) (x : List Nat × Cst) :
    FoundAt maxDepth depth tree (i :: x.1, x.2) ↔
      child.isMarked = true ∧ FoundAt maxDepth (depth + 1) child x := by
  have hdepth : depth + ((i :: x.1).length : Int) = depth + 1 + x.1.length := by
    rw [List.length_cons]
    omega
  rw [← foundAt_iff, ← foundAt_iff, markedDown_cons hget, hdepth]
  constructor
  · rintro ⟨hfault, hwithin, hmarked, hdown⟩
    exact ⟨hmarked, hfault, hwithin, hdown⟩
  · rintro ⟨hmarked, hfault, hwithin, hdown⟩
    exact ⟨hfault, hwithin, hmarked, hdown⟩

theorem noteAt_cons (x : List Nat × Cst) :
    noteAt map depth (i :: x.1, x.2) = noteAt map (depth + 1) x := by
  have hdepth : depth + ((i :: x.1).length : Int) = depth + 1 + x.1.length := by
    rw [List.length_cons]
    omega
  simp only [noteAt, hdepth]

/-- What is found below a child: nothing if the child is not marked. -/
theorem filter_places_child (hget : tree.children[i]? = some child) :
    ((child.places.map fun x => (i :: x.1, x.2)).filter (FoundAt maxDepth depth tree)).map
        (noteAt map depth) =
      if child.isMarked then
        (child.places.filter (FoundAt maxDepth (depth + 1) child)).map (noteAt map (depth + 1))
      else [] := by
  rw [List.filter_map, List.map_map]
  split
  · rename_i hmarked
    have hfilter : child.places.filter
          ((fun x => decide (FoundAt maxDepth depth tree x)) ∘ fun x => (i :: x.1, x.2)) =
        child.places.filter (FoundAt maxDepth (depth + 1) child) := by
      apply List.filter_congr
      intro x _
      rw [Function.comp_apply, decide_eq_decide, foundAt_cons hget]
      exact and_iff_right hmarked
    rw [hfilter]
    apply List.map_congr_left
    intro x _
    exact noteAt_cons x
  · rename_i hmarked
    rw [List.map_eq_nil_iff, List.filter_eq_nil_iff]
    intro x _ hfound
    exact hmarked ((foundAt_cons hget x).mp (of_decide_eq_true hfound)).1

end Step

section Search

variable (map : ByteMap) (maxDepth : Int)

mutual

/-- The search finds the faults at places whose paths it can go down. -/
theorem faults_eq_filter (depth : Int) : (tree : Cst) →
    faults map maxDepth depth tree =
      (tree.places.filter (FoundAt maxDepth depth tree)).map (noteAt map depth)
  | .node label children => by
    have hbelow := faultsIn_eq_filter depth (.node label children) 0 children
      fun k child hget => by rwa [Nat.zero_add]
    rw [faults_node]
    by_cases hdepth : depth > maxDepth
    · -- All places of the tree lie deeper still.
      rw [if_pos hdepth, eq_comm, List.map_eq_nil_iff, List.filter_eq_nil_iff]
      intro x _ hfound
      have hwithin := (of_decide_eq_true hfound).within
      omega
    · have hroot : FoundAt maxDepth depth (.node label children) ([], .node label children) ↔
          (label.kind == "ERROR" || label.missing) = true := by
        constructor
        · intro hfound
          exact hfound.fault
        · intro hfault
          refine ⟨hfault, ?_, markedDown_nil _⟩
          show depth + 0 ≤ maxDepth
          omega
      have hnote : noteAt map depth ([], .node label children) =
          ⟨label, depth, faultText map label⟩ := by
        rw [noteAt, faultText, List.length_nil]
        show Fault.mk label (depth + 0) _ = _
        rw [Int.add_zero]
        rfl
      rw [if_neg hdepth, places, List.filter_cons]
      by_cases hfault : (label.kind == "ERROR" || label.missing) = true
      · rw [if_pos hfault, if_pos (decide_eq_true (hroot.mpr hfault)), List.map_cons, hnote, hbelow]
      · rw [if_neg hfault, if_neg fun h => hfault (hroot.mp (of_decide_eq_true h)), hbelow]

/-- The same for children of a tree, those from position `i` on. -/
theorem faultsIn_eq_filter (depth : Int) (tree : Cst) (i : Nat) : (trees : List Cst) →
    (∀ k child, trees[k]? = some child → tree.children[i + k]? = some child) →
    faultsIn map maxDepth (depth + 1) trees =
      ((placesIn i trees).filter (FoundAt maxDepth depth tree)).map (noteAt map depth)
  | [], _ => rfl
  | child :: rest, hget => by
    have hchild : tree.children[i]? = some child := hget 0 child rfl
    have hrest := faultsIn_eq_filter depth tree (i + 1) rest fun k other hother => by
      rw [Nat.add_assoc, Nat.add_comm 1 k]
      exact hget (k + 1) other hother
    rw [faultsIn_cons, placesIn, List.filter_append, List.map_append, ← hrest,
      filter_places_child hchild, ← faults_eq_filter (depth + 1) child]
    rfl

end

end Search

/-- The search adds to what it is given, in pre-order and each once, the faults at places
    that are not too deep and whose paths are marked; of each it notes the node, the depth
    and the text.  Where the marks are consistent these are all faults that are not too
    deep.  The paths of a tree lead to all of its nodes, and they are listed in increasing
    order. -/
theorem search_finds_marked_faults (map : ByteMap) (maxDepth depth : Int) (found : Array Fault)
    (tree : Cst) :
    (addFaults map maxDepth depth found tree).toList =
        found.toList ++
          (tree.places.filter (FoundAt maxDepth depth tree)).map (noteAt map depth) ∧
      (∀ path node, (path, node) ∈ tree.places ↔ tree.at? path = some node) ∧
      (tree.places.map Prod.fst).Pairwise (· < ·) ∧
      (tree.FlagsConsistent →
        (addFaults map maxDepth depth found tree).toList =
          found.toList ++
            (tree.places.filter fun x =>
              x.2.isFault ∧ depth + x.1.length ≤ maxDepth).map (noteAt map depth)) := by
  have hadded : (addFaults map maxDepth depth found tree).toList =
      found.toList ++
        (tree.places.filter (FoundAt maxDepth depth tree)).map (noteAt map depth) := by
    rw [toList_addFaults, ← faults_eq_filter]
    rfl
  refine ⟨hadded, fun path node => mem_places, pairwise_places tree, ?_⟩
  intro hflags
  have hfilter : tree.places.filter (FoundAt maxDepth depth tree) =
      tree.places.filter fun x => x.2.isFault ∧ depth + x.1.length ≤ maxDepth := by
    apply List.filter_congr
    intro x hx
    rw [decide_eq_decide]
    constructor
    · intro hfound
      exact ⟨hfound.fault, hfound.within⟩
    · rintro ⟨hfault, hwithin⟩
      exact ⟨hfault, hwithin, hflags.markedDown (mem_places.mp hx) hfault⟩
  rw [hadded, hfilter]

/-- A call that is not closed, with a stray character in place of its argument. -/
def openCallSource : String := "f(#;"

/-- The tree of `openCallSource`.  The stray character and the missing bracket lie at depth
    four, and below the stray character something is missing once more. -/
def openCall : Cst :=
  .node ⟨"program", 0, 4, true, false, true, none⟩
    [.node ⟨"expression_statement", 0, 4, true, false, true, none⟩
      [.node ⟨"call_expression", 0, 3, true, false, true, none⟩
        [.node ⟨"identifier", 0, 1, true, false, false, some "function"⟩ [],
         .node ⟨"arguments", 1, 3, true, false, true, some "arguments"⟩
          [.node ⟨"(", 1, 2, false, false, false, none⟩ [],
           .node ⟨"ERROR", 2, 3, true, false, true, none⟩
            [.node ⟨"#", 2, 3, false, false, false, none⟩ [],
             .node ⟨"identifier", 3, 3, true, true, true, none⟩ []],
           .node ⟨")", 3, 3, false, true, true, none⟩ []]],
       .node ⟨";", 3, 4, false, false, false, none⟩ []]]

/-- The search down to depth four finds both faults there, behind what was found
    before. -/
theorem search_finds_marked_faults_openCall :
    openCall.FlagsConsistent ∧
      (addFaults (.ofSource openCallSource) 4 0
          #[⟨⟨"ERROR", 0, 1, true, false, true, none⟩, 0, "f"⟩] openCall).toList =
        [⟨⟨"ERROR", 0, 1, true, false, true, none⟩, 0, "f"⟩,
         ⟨⟨"ERROR", 2, 3, true, false, true, none⟩, 4, "#"⟩,
         ⟨⟨")", 3, 3, false, true, true, none⟩, 4, ""⟩] := by
  have hflags : openCall.FlagsConsistent := by decide +kernel
  have hadded := (search_finds_marked_faults (.ofSource openCallSource) 4 0
    #[⟨⟨"ERROR", 0, 1, true, false, true, none⟩, 0, "f"⟩] openCall).2.2.2 hflags
  refine ⟨hflags, hadded.trans ?_⟩
  decide +kernel

end EsFeatures.Cst
