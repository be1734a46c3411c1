/-
  EsFeatures.Proofs.FaultSearch

  The search for faults against the list of all faulty nodes.  The search goes down only
  where a node is marked, and only to a given depth.  Where the marks are consistent the
  first restriction loses nothing: what is found are the faulty nodes within the depth.
-/
import EsFeatures.Cst.Faults
import EsFeatures.Proofs.Sites

namespace EsFeatures.Cst

open Text (ByteMap)

/-! ## All faulty nodes -/

mutual

/-- The faulty nodes of a tree whose root lies at `depth`, each with its depth, in
    document order. -/
def faultNodes (depth : Nat) : Cst → List (Nat × Cst)
  | .node label children =>
    if isFault (.node label children) then
      (depth, .node label children) :: faultNodesIn (depth + 1) children
    else faultNodesIn (depth + 1) children

/-- The faulty nodes of a list of trees. -/
def faultNodesIn (depth : Nat) : List Cst → List (Nat × Cst)
  | [] => []
  | tree :: rest => faultNodes depth tree ++ faultNodesIn depth rest

end

theorem mem_faultNodesIn {depth : Nat} {trees : List Cst} {x : Nat × Cst} :
    x ∈ faultNodesIn depth trees ↔ ∃ tree ∈ trees, x ∈ faultNodes depth tree := by
  induction trees with
  | nil => simp [faultNodesIn]
  | cons t ts ih => simp [faultNodesIn, ih]

theorem mem_faultNodes_node {depth : Nat} {tree : Cst} {x : Nat × Cst} :
    x ∈ faultNodes depth tree ↔
      tree.isFault = true ∧ x = (depth, tree) ∨ ∃ child ∈ tree.children, x ∈ faultNodes (depth + 1) child := by
  cases tree with
  | node label children =>
    rw [faultNodes]
    split
    · rename_i hfault
      rw [List.mem_cons, mem_faultNodesIn]
      simp [hfault]
    · rename_i hfault
      rw [mem_faultNodesIn]
      simp [hfault]

/-- The faulty nodes are those at some path, at the depth that is the path's length. -/
theorem mem_faultNodes {depth : Nat} {tree : Cst} {x : Nat × Cst} :
    x ∈ faultNodes depth tree ↔
      ∃ path, tree.at? path = some x.2 ∧ x.2.isFault = true ∧ x.1 = depth + path.length := by
  induction hsize : tree.size using Nat.strongRecOn generalizing tree depth with
  | _ size ih =>
    rw [mem_faultNodes_node]
    constructor
    · rintro (⟨hfault, rfl⟩ | ⟨child, hchild, hx⟩)
      · exact ⟨[], rfl, hfault, rfl⟩
      · obtain ⟨path, hat, hfault, hdepth⟩ :=
          (ih child.size (hsize ▸ size_lt_of_mem_children hchild) rfl).mp hx
        obtain ⟨i, hi⟩ := List.getElem?_of_mem hchild
        refine ⟨i :: path, ?_, hfault, ?_⟩
        · rw [at?, hi]
          exact hat
        · rw [hdepth, List.length_cons]
          omega
    · rintro ⟨path, hat, hfault, hdepth⟩
      cases path with
      | nil =>
        cases hat
        exact Or.inl ⟨hfault, Prod.ext hdepth rfl⟩
      | cons i path =>
        obtain ⟨child, hchild, hbelow⟩ := Option.bind_eq_some_iff.mp hat
        have hmem := List.mem_of_getElem? hchild
        refine Or.inr ⟨child, hmem,
          (ih child.size (hsize ▸ size_lt_of_mem_children hmem) rfl).mpr ⟨path, hbelow, hfault, ?_⟩⟩
        rw [hdepth, List.length_cons]
        omega

/-! ## Consistent marks -/

/-- A tree that is faulty itself or holds something faulty. -/
def HoldsFault (tree : Cst) : Prop :=
  ∃ path fault, tree.at? path = some fault ∧ fault.isFault = true

/-- A node is marked exactly when it or something below it is faulty. -/
def FlagsConsistent (tree : Cst) : Prop :=
  ∀ path node, tree.at? path = some node → (node.label.hasError = true ↔ node.HoldsFault)

theorem holdsFault_iff {tree : Cst} :
    tree.HoldsFault ↔ tree.isFault = true ∨ ∃ child ∈ tree.children, child.HoldsFault := by
  constructor
  · rintro ⟨path, fault, hat, hfault⟩
    cases path with
    | nil =>
      cases hat
      exact Or.inl hfault
    | cons i path =>
      obtain ⟨child, hchild, hbelow⟩ := Option.bind_eq_some_iff.mp hat
      exact Or.inr ⟨child, List.mem_of_getElem? hchild, path, fault, hbelow, hfault⟩
  · rintro (hfault | ⟨child, hchild, path, fault, hat, hfault⟩)
    · exact ⟨[], tree, rfl, hfault⟩
    · obtain ⟨i, hi⟩ := List.getElem?_of_mem hchild
      refine ⟨i :: path, fault, ?_, hfault⟩
      rw [at?, hi]
      exact hat

theorem FlagsConsistent.child {tree child : Cst} (h : tree.FlagsConsistent)
    (hchild : child ∈ tree.children) : child.FlagsConsistent := by
  intro path node hat
  obtain ⟨i, hi⟩ := List.getElem?_of_mem hchild
  refine h (i :: path) node ?_
  rw [at?, hi]
  exact hat

/-- A node agrees with the marks of its children. -/
def isMarkedRight (node : Cst) : Bool :=
  node.label.hasError == (node.isFault || node.children.any fun child => child.label.hasError)

theorem isMarkedRight_iff {tree : Cst} (h : ∀ child ∈ tree.children, child.FlagsConsistent) :
    tree.isMarkedRight = true ↔ (tree.label.hasError = true ↔ tree.HoldsFault) := by
  have hmarks : (tree.isFault || tree.children.any fun child => child.label.hasError) = true ↔
      tree.HoldsFault := by
    rw [holdsFault_iff, Bool.or_eq_true, List.any_eq_true]
    refine or_congr Iff.rfl (exists_congr fun child => and_congr_right fun hchild => ?_)
    exact h child hchild [] child rfl
  rw [isMarkedRight, beq_iff_eq, Bool.eq_iff_iff, hmarks]

theorem flagsConsistent_iff {tree : Cst} :
    tree.FlagsConsistent ↔
      tree.isMarkedRight = true ∧ ∀ child ∈ tree.children, child.FlagsConsistent := by
  constructor
  · intro h
    have hchildren : ∀ child ∈ tree.children, child.FlagsConsistent := fun child hchild => h.child hchild
    exact ⟨(isMarkedRight_iff hchildren).mpr (h [] tree rfl), hchildren⟩
  · rintro ⟨hmark, hchildren⟩ path node hat
    cases path with
    | nil =>
      cases hat
      exact (isMarkedRight_iff hchildren).mp hmark
    | cons i path =>
      obtain ⟨child, hchild, hbelow⟩ := Option.bind_eq_some_iff.mp hat
      exact hchildren child (List.mem_of_getElem? hchild) path node hbelow

/-- Consistency is a test of each node against its children. -/
theorem every_isMarkedRight {tree : Cst} :
    tree.every isMarkedRight = true ↔ tree.FlagsConsistent := by
  induction hsize : tree.size using Nat.strongRecOn generalizing tree with
  | _ size ih =>
    cases tree with
    | node label children =>
      rw [every, Bool.and_eq_true, everyIn_iff, flagsConsistent_iff]
      refine and_congr_right fun _ => forall₂_congr fun child hchild => ?_
      exact ih child.size (hsize ▸ size_lt_of_mem_children hchild) rfl

instance : DecidablePred FlagsConsistent := fun tree =>
  decidable_of_iff (tree.every isMarkedRight = true) every_isMarkedRight

/-- A tree that is not marked holds no fault. -/
theorem FlagsConsistent.faultNodes_eq_nil {tree : Cst} (h : tree.FlagsConsistent)
    (hmark : tree.label.hasError = false) (depth : Nat) : faultNodes depth tree = [] := by
  rw [List.eq_nil_iff_forall_not_mem]
  intro x hx
  obtain ⟨path, hat, hfault, -⟩ := mem_faultNodes.mp hx
  have hmarked := (h [] tree rfl).mpr ⟨path, x.2, hat, hfault⟩
  rw [hmark] at hmarked
  cases hmarked

theorem FlagsConsistent.exists_faultNodes {tree : Cst} (h : tree.FlagsConsistent)
    (hmark : tree.label.hasError = true) : ∃ first rest, faultNodes 0 tree = first :: rest := by
  obtain ⟨path, fault, hat, hfault⟩ := (h [] tree rfl).mp hmark
  have hmem : (0 + path.length, fault) ∈ faultNodes 0 tree :=
    mem_faultNodes.mpr ⟨path, hat, hfault, rfl⟩
  cases hnodes : faultNodes 0 tree with
  | nil =>
    rw [hnodes] at hmem
    cases hmem
  | cons first rest => exact ⟨first, rest, rfl⟩

/-! ## The search -/

section Added

variable (map : ByteMap) (maxDepth : Int)

mutual

/-- The search leaves what was found before it as it is, and what it adds does not depend
    on that. -/
theorem toList_addFaults (depth : Int) (found : Array Fault) : (tree : Cst) →
    (addFaults map maxDepth depth found tree).toList =
      found.toList ++ (addFaults map maxDepth depth #[] tree).toList
  | .node label children => by
    rw [addFaults, addFaults]
    split
    · simp
    · split
      · rw [toList_addFaultsIn _ _ children, toList_addFaultsIn _ (#[].push _) children]
        simp
      · exact toList_addFaultsIn (depth + 1) found children

theorem toList_addFaultsIn (depth : Int) (found : Array Fault) : (trees : List Cst) →
    (addFaultsIn map maxDepth depth found trees).toList =
      found.toList ++ (addFaultsIn map maxDepth depth #[] trees).toList
  | [] => by simp [addFaultsIn]
  | .node label children :: rest => by
    rw [addFaultsIn, addFaultsIn]
    split
    · rw [toList_addFaultsIn _ _ rest, toList_addFaults _ found, List.append_assoc,
        ← toList_addFaultsIn _ (addFaults map maxDepth depth #[] _) rest]
    · exact toList_addFaultsIn depth found rest

end

/-- The faulty nodes below the marked ones of a list of trees. -/
def faultsIn (depth : Int) (trees : List Cst) : List Fault :=
  (addFaultsIn map maxDepth depth #[] trees).toList

theorem faults_node (depth : Int) (label : Label) (children : List Cst) :
    faults map maxDepth depth (.node label children) =
      if depth > maxDepth then []
      else if label.kind == "ERROR" || label.missing then
        ⟨label, depth, faultText map label⟩ :: faultsIn map maxDepth (depth + 1) children
      else faultsIn map maxDepth (depth + 1) children := by
  rw [faults, addFaults]
  split
  · rfl
  · split
    · rw [toList_addFaultsIn]
      rfl
    · rfl

theorem faultsIn_cons (depth : Int) (tree : Cst) (rest : List Cst) :
    faultsIn map maxDepth depth (tree :: rest) =
      (if tree.label.hasError || tree.label.missing then faults map maxDepth depth tree else []) ++
        faultsIn map maxDepth depth rest := by
  cases tree with
  | node label children =>
    rw [faultsIn, addFaultsIn, label_node]
    split
    · rw [toList_addFaultsIn]
      rfl
    · rfl

end Added

/-- What the search notes of a faulty node at a depth. -/
def noteFault (map : ByteMap) (x : Nat × Cst) : Fault :=
  ⟨x.2.label, x.1, faultText map x.2.label⟩

/-- Faulty nodes within a depth, as the search notes them. -/
def faultsWithin (map : ByteMap) (maxDepth : Int) (nodes : List (Nat × Cst)) : List Fault :=
  (nodes.filter fun x => (x.1 : Int) ≤ maxDepth).map (noteFault map)

theorem faultsWithin_append (map : ByteMap) (maxDepth : Int) (xs ys : List (Nat × Cst)) :
    faultsWithin map maxDepth (xs ++ ys) =
      faultsWithin map maxDepth xs ++ faultsWithin map maxDepth ys := by
  rw [faultsWithin, List.filter_append, List.map_append]
  rfl

/-- Below the greatest depth nothing is found. -/
theorem faultsWithin_eq_nil (map : ByteMap) {maxDepth : Int} {depth : Nat} {tree : Cst}
    (h : (depth : Int) > maxDepth) : faultsWithin map maxDepth (faultNodes depth tree) = [] := by
  rw [faultsWithin, List.map_eq_nil_iff, List.filter_eq_nil_iff]
  intro x hx
  obtain ⟨path, -, -, hdepth⟩ := mem_faultNodes.mp hx
  simp only [decide_eq_true_eq, hdepth]
  omega

/-- The search in a list of trees passes over those that are not marked; there is
    nothing to find in them. -/
theorem faultsIn_eq (map : ByteMap) (maxDepth : Int) (depth : Nat) {trees : List Cst}
    (hflags : ∀ tree ∈ trees, tree.FlagsConsistent)
    (hfaults : ∀ tree ∈ trees, faults map maxDepth depth tree =
      faultsWithin map maxDepth (faultNodes depth tree)) :
    faultsIn map maxDepth depth trees = faultsWithin map maxDepth (faultNodesIn depth trees) := by
  induction trees with
  | nil => rfl
  | cons t ts ih =>
    have htail := ih (fun tree h => hflags tree (List.mem_cons_of_mem _ h))
      fun tree h => hfaults tree (List.mem_cons_of_mem _ h)
    cases t with
    | node label children =>
      rw [faultsIn_cons, faultNodesIn, faultsWithin_append, label_node]
      split
      · rw [hfaults _ List.mem_cons_self, htail]
      · rename_i hmark
        have hunmarked : label.hasError = false := by
          cases hlabel : label.hasError with
          | false => rfl
          | true => simp [hlabel] at hmark
        rw [(hflags _ List.mem_cons_self).faultNodes_eq_nil hunmarked, htail]
        rfl

/-- Where the marks are consistent, the search finds all faulty nodes within the
    depth. -/
theorem faults_eq (map : ByteMap) (maxDepth : Int) {tree : Cst} (h : tree.FlagsConsistent)
    (depth : Nat) :
    faults map maxDepth depth tree = faultsWithin map maxDepth (faultNodes depth tree) := by
  induction hsize : tree.size using Nat.strongRecOn generalizing tree depth with
  | _ size ih =>
    by_cases hdepth : (depth : Int) > maxDepth
    · -- Too deep: nothing is searched, and all faults lie deeper still.
      rw [faultsWithin_eq_nil map hdepth]
      cases tree with
      | node label children => rw [faults_node, if_pos hdepth]
    · have hchildren : faultsIn map maxDepth (depth + 1) tree.children =
          faultsWithin map maxDepth (faultNodesIn (depth + 1) tree.children) := by
        refine faultsIn_eq map maxDepth (depth + 1) (fun child hchild => h.child hchild) ?_
        intro child hchild
        exact ih child.size (hsize ▸ size_lt_of_mem_children hchild) (h.child hchild) _ rfl
      cases tree with
      | node label children =>
        rw [faults_node, if_neg hdepth, faultNodes]
        rw [children_node] at hchildren
        have hfault : isFault (.node label children) = (label.kind == "ERROR" || label.missing) := rfl
        rw [hfault]
        split
        · rw [hchildren]
          simp only [faultsWithin, List.filter_cons]
          rw [if_pos (by simpa using hdepth)]
          rfl
        · exact hchildren

end EsFeatures.Cst
