/-
  EsFeatures.Proofs.Sites

  Where the nodes of an abstract tree come from.  `sites` lists, in the pre-order of the
  abstract tree and without converting anything, the nodes that the conversion of a
  concrete tree makes: each with the path to the construct that it belongs to, and
  with its origin there.  `Handed` and `Makes` say what one construct contributes.
-/
import EsFeatures.Proofs.Conversion

namespace EsFeatures

/-! ## Paths -/

namespace Cst

/-- The subtree at a path of child positions. -/
def at? (tree : Cst) : List Nat → Option Cst
  | [] => some tree
  | i :: path => tree.children[i]?.bind fun child => child.at? path

theorem at?_append (tree : Cst) (path path' : List Nat) :
    tree.at? (path ++ path') = (tree.at? path).bind fun child => child.at? path' := by
  induction path generalizing tree with
  | nil => rfl
  | cons i path ih =>
    rw [List.cons_append, at?, at?]
    cases tree.children[i]? with
    | none => rfl
    | some child => exact ih child

theorem exists_at?_cons {tree child : Cst} (h : child ∈ tree.children) :
    ∃ i, ∀ path, tree.at? (i :: path) = child.at? path := by
  obtain ⟨i, hi⟩ := List.getElem?_of_mem h
  refine ⟨i, fun path => ?_⟩
  rw [at?, hi]
  rfl

theorem size_le_sizes_of_mem {tree : Cst} {trees : List Cst} (h : tree ∈ trees) :
    tree.size ≤ sizes trees := by
  induction trees with
  | nil => cases h
  | cons t ts ih =>
    rw [sizes]
    rcases List.mem_cons.mp h with rfl | h
    · omega
    · have := ih h
      omega

theorem size_lt_of_mem_children {tree child : Cst} (h : child ∈ tree.children) :
    child.size < tree.size := by
  obtain ⟨label, children⟩ := tree
  have := size_le_sizes_of_mem h
  rw [children_node] at this
  rw [size]
  omega

/-- What lies below a tree is smaller than the tree. -/
theorem size_lt_of_at? {tree child : Cst} {i : Nat} {path : List Nat}
    (h : tree.at? (i :: path) = some child) : child.size < tree.size := by
  induction path generalizing tree i with
  | nil =>
    rw [at?] at h
    obtain ⟨t, ht, h⟩ := Option.bind_eq_some_iff.mp h
    cases h
    exact size_lt_of_mem_children (List.mem_of_getElem? ht)
  | cons j path ih =>
    rw [at?] at h
    obtain ⟨t, ht, h⟩ := Option.bind_eq_some_iff.mp h
    exact Nat.lt_trans (ih h) (size_lt_of_mem_children (List.mem_of_getElem? ht))

mutual

/-- Whether all nodes of a tree pass a test. -/
def every (test : Cst → Bool) : Cst → Bool
  | .node label children => test (.node label children) && everyIn test children

/-- Whether all nodes of a list of trees pass a test. -/
def everyIn (test : Cst → Bool) : List Cst → Bool
  | [] => true
  | tree :: rest => every test tree && everyIn test rest

end

theorem everyIn_iff {test : Cst → Bool} {trees : List Cst} :
    everyIn test trees = true ↔ ∀ tree ∈ trees, tree.every test = true := by
  induction trees with
  | nil => simp [everyIn]
  | cons t ts ih => simp [everyIn, ih]

/-- A test of all nodes is a test along all paths. -/
theorem every_iff {test : Cst → Bool} {tree : Cst} :
    tree.every test = true ↔ ∀ path node, tree.at? path = some node → test node = true := by
  constructor
  · intro h path
    induction path generalizing tree with
    | nil =>
      intro node hat
      cases hat
      cases tree with
      | node label children => exact (Bool.and_eq_true_iff.mp h).1
    | cons i path ih =>
      intro node hat
      obtain ⟨child, hchild, hbelow⟩ := Option.bind_eq_some_iff.mp hat
      cases tree with
      | node label children =>
        have hchildren := everyIn_iff.mp (Bool.and_eq_true_iff.mp h).2
        exact ih (hchildren child (List.mem_of_getElem? hchild)) node hbelow
  · induction hsize : tree.size using Nat.strongRecOn generalizing tree with
    | _ size ih =>
      intro h
      cases tree with
      | node label children =>
        refine Bool.and_eq_true_iff.mpr ⟨h [] _ rfl, everyIn_iff.mpr ?_⟩
        intro child hchild
        obtain ⟨i, hi⟩ := List.getElem?_of_mem hchild
        refine ih child.size (hsize ▸ size_lt_of_mem_children hchild) rfl ?_
        intro path node hat
        refine h (i :: path) node ?_
        rw [at?]
        exact Option.bind_eq_some_iff.mpr ⟨child, hi, hat⟩

/-- The position of the first child that stands under the field `name`. -/
def childIndex? (tree : Cst) (name : String) : Option Nat :=
  tree.children.findIdx? (hasField name)

theorem childIndex?_eq_some {tree : Cst} {name : String} {i : Nat}
    (h : tree.childIndex? name = some i) :
    ∃ child, tree.children[i]? = some child ∧ tree.child? name = some child ∧
      child.hasField name = true := by
  rw [childIndex?, List.findIdx?_eq_some_iff_getElem] at h
  obtain ⟨hlt, hfield, hbefore⟩ := h
  refine ⟨tree.children[i], List.getElem?_eq_getElem hlt, ?_, hfield⟩
  rw [child?, List.find?_eq_some_iff_getElem]
  exact ⟨hfield, i, hlt, rfl, fun j hj => by simpa using hbefore j hj⟩

theorem child?_eq_some {tree child : Cst} {name : String} (h : tree.child? name = some child) :
    ∃ i, tree.childIndex? name = some i ∧ tree.children[i]? = some child := by
  cases hindex : tree.childIndex? name with
  | none =>
    rw [childIndex?, List.findIdx?_eq_none_iff] at hindex
    have hfield := List.find?_some h
    rw [hindex child (List.mem_of_find?_eq_some h)] at hfield
    cases hfield
  | some i =>
    obtain ⟨child', hget, hchild, -⟩ := childIndex?_eq_some hindex
    rw [h, Option.some.injEq] at hchild
    exact ⟨i, rfl, hchild ▸ hget⟩

/-- A child stands under one field only. -/
theorem childIndex?_ne {tree : Cst} {name name' : String} {i : Nat} (hne : name ≠ name')
    (h : tree.childIndex? name = some i) : tree.childIndex? name' ≠ some i := by
  intro h'
  obtain ⟨child, hget, -, hfield⟩ := childIndex?_eq_some h
  obtain ⟨child', hget', -, hfield'⟩ := childIndex?_eq_some h'
  rw [hget, Option.some.injEq] at hget'
  subst hget'
  simp only [hasField, beq_iff_eq] at hfield hfield'
  rw [hfield, Option.some.injEq] at hfield'
  exact hne hfield'

end Cst

namespace Ast

/-! ## Origins -/

/-- What a node of an abstract tree is made from. -/
inductive Origin where
  /-- A construct. -/
  | construct (tree : Cst)
  /-- The keyword of a loop with its variable, up to the end of `last`. -/
  | declaration (keyword last : Cst)
  /-- The variable of a loop with a keyword, up to the end of `last`. -/
  | declarator (left last : Cst)
  /-- The piece of text of a template with the given number, between two bytes. -/
  | segment (index : Nat) (start stop : Int)

/-- What an origin is to the construct that it belongs to. -/
inductive Role where
  | construct
  | declaration
  | declarator
  | segment (index : Nat)
deriving DecidableEq

namespace Origin

/-- The role of an origin. -/
def role : Origin → Role
  | .construct _ => .construct
  | .declaration _ _ => .declaration
  | .declarator _ _ => .declarator
  | .segment index _ _ => .segment index

/-- The head of the node that is made from an origin. -/
def head (source : String) : Origin → Head
  | .construct tree => headOf source tree
  | .declaration keyword last =>
    spanHead source "VariableDeclaration" keyword.startByte last.endByte
      [("kind", .text keyword.kind)]
  | .declarator left last => spanHead source "VariableDeclarator" left.startByte last.endByte []
  | .segment _ start stop => segmentHead source start stop

/-- The error with which an origin is refused. -/
def refusal? (source : String) : Origin → Option SyntaxError
  | .construct tree => Ast.refusal? source tree
  | _ => none

end Origin

/-- A node that the conversion of a tree makes: the path to the construct that it
    belongs to, and its origin. -/
structure Site where
  path : List Nat
  origin : Origin

/-- The site as seen from a tree in which its own one stands at `way`. -/
def Site.under (way : List Nat) (site : Site) : Site :=
  { site with path := way ++ site.path }

/-! ## Parts of a construct -/

/-- What stands below a construct, in the pre-order of the abstract tree: nodes that
    belong to the construct itself, and trees further down. -/
inductive Part where
  | made (origin : Origin)
  | below (way : List Nat) (tree : Cst)

/-- The constructs among the children of the tree at `way`. -/
def constructParts (way : List Nat) (tree : Cst) : List Part :=
  (tree.children.zipIdx.filter fun x => x.1.label.named).map fun x => .below (way ++ [x.2]) x.1

/-- What stands in the place of a loop's variable `left`, the child at position `i`. -/
def variableParts (tree left : Cst) (i : Nat) : List Part :=
  match tree.child? "kind" with
  | none => [.below [i] left]
  | some keyword =>
    match tree.childIndex? "value", tree.child? "value" with
    | some v, some value =>
      .made (.declaration keyword value) :: .made (.declarator left value) ::
        .below [i] left :: constructParts [v] value
    | _, _ => [.made (.declaration keyword left), .made (.declarator left left), .below [i] left]

/-- What a child of a loop becomes. -/
def loopPart (tree : Cst) (x : Cst × Nat) : List Part :=
  if tree.childIndex? "left" = some x.2 then
    if x.1.label.named then variableParts tree x.1 x.2 else []
  else if tree.childIndex? "value" = some x.2 then []
  else if x.1.label.named then [.below [x.2] x.1]
  else []

/-- What stands below a template from a child on, when the next piece of text is the
    one with number `index` and begins at byte `start`. -/
def templateParts (stop : Int) (index : Nat) (start : Int) : List (Cst × Nat) → List Part
  | [] => [.made (.segment index start stop)]
  | (child, i) :: rest =>
    if isSubstitution child then
      .made (.segment index start child.startByte) ::
        (constructParts [i] child ++ templateParts stop (index + 1) child.endByte rest)
    else templateParts stop index start rest

/-- What stands below a construct. -/
def partsOf (tree : Cst) : List Part :=
  if tree.kind = "for_in_statement" then tree.children.zipIdx.flatMap (loopPart tree)
  else if tree.kind = "template_string" then
    templateParts (tree.endByte - 1) 0 (tree.startByte + 1) tree.children.zipIdx
  else constructParts [] tree

theorem mem_constructParts {way : List Nat} {tree : Cst} {part : Part} :
    part ∈ constructParts way tree ↔
      ∃ i child, tree.children[i]? = some child ∧ child.label.named = true ∧
        part = .below (way ++ [i]) child := by
  simp only [constructParts, List.mem_map, List.mem_filter, Prod.exists, List.mem_zipIdx_iff_getElem?]
  constructor
  · rintro ⟨child, i, ⟨hget, hnamed⟩, rfl⟩
    exact ⟨i, child, hget, hnamed, rfl⟩
  · rintro ⟨i, child, hget, hnamed, rfl⟩
    exact ⟨child, i, ⟨hget, hnamed⟩, rfl⟩

/-- `Handed tree way child`: the conversion goes on from `tree` to the construct `child`
    at `way` below it. -/
inductive Handed (tree : Cst) : List Nat → Cst → Prop
  /-- A child, unless it is the initial value of a loop or belongs to a template. -/
  | child {i : Nat} {child : Cst} : tree.children[i]? = some child → child.label.named = true →
    tree.kind ≠ "template_string" →
    ¬(tree.kind = "for_in_statement" ∧ tree.childIndex? "value" = some i) →
    Handed tree [i] child
  /-- What stands below the initial value of a loop with a keyword and a variable. -/
  | value {i j : Nat} {keyword left value child : Cst} : tree.kind = "for_in_statement" →
    tree.child? "kind" = some keyword → tree.child? "left" = some left →
    left.label.named = true → tree.childIndex? "value" = some i →
    tree.children[i]? = some value → value.children[j]? = some child →
    child.label.named = true → Handed tree [i, j] child
  /-- What stands below a substitution of a template. -/
  | substitution {i j : Nat} {outer child : Cst} : tree.kind = "template_string" →
    tree.children[i]? = some outer → isSubstitution outer = true →
    outer.children[j]? = some child → child.label.named = true → Handed tree [i, j] child

/-- The conversion goes on to trees below. -/
theorem Handed.at? {tree child : Cst} {way : List Nat} (h : Handed tree way child) :
    tree.at? way = some child := by
  cases h with
  | child hget => simp [Cst.at?, hget]
  | value _ _ _ _ _ hvalue hget => simp [Cst.at?, hvalue, hget]
  | substitution _ houter _ hget => simp [Cst.at?, houter, hget]

theorem Handed.size_lt {tree child : Cst} {way : List Nat} (h : Handed tree way child) :
    child.size < tree.size := by
  have hat := h.at?
  cases h with
  | child => exact Cst.size_lt_of_at? hat
  | value => exact Cst.size_lt_of_at? hat
  | substitution => exact Cst.size_lt_of_at? hat

/-- `Makes tree origin`: a node that belongs to the construct `tree` itself, beside its
    own one, is made from `origin`. -/
inductive Makes (tree : Cst) : Origin → Prop
  | declaration {keyword left : Cst} : tree.kind = "for_in_statement" →
    tree.child? "kind" = some keyword → tree.child? "left" = some left →
    Makes tree (.declaration keyword ((tree.child? "value").getD left))
  | declarator {keyword left : Cst} : tree.kind = "for_in_statement" →
    tree.child? "kind" = some keyword → tree.child? "left" = some left →
    Makes tree (.declarator left ((tree.child? "value").getD left))
  | segment {index : Nat} {start stop : Int} : tree.kind = "template_string" →
    index ≤ tree.children.countP isSubstitution → Makes tree (.segment index start stop)

/-! ### Parts of a loop -/

/-- The parts in the place of a loop's variable. -/
theorem mem_variableParts {tree left : Cst} {i : Nat} {part : Part} :
    part ∈ variableParts tree left i ↔
      part = .below [i] left ∨
        ∃ keyword, tree.child? "kind" = some keyword ∧
          (part = .made (.declaration keyword ((tree.child? "value").getD left)) ∨
            part = .made (.declarator left ((tree.child? "value").getD left)) ∨
            ∃ v value, tree.childIndex? "value" = some v ∧ tree.children[v]? = some value ∧
              part ∈ constructParts [v] value) := by
  rw [variableParts]
  cases hkind : tree.child? "kind" with
  | none => simp
  | some keyword =>
    cases hindex : tree.childIndex? "value" with
    | none =>
      have hvalue : tree.child? "value" = none := by
        cases hvalue : tree.child? "value" with
        | none => rfl
        | some value =>
          obtain ⟨v, hv, -⟩ := Cst.child?_eq_some hvalue
          rw [hindex] at hv
          cases hv
      simp [hvalue]
      grind
    | some v =>
      obtain ⟨value, hget, hvalue, -⟩ := Cst.childIndex?_eq_some hindex
      simp [hvalue, hget]
      grind

theorem mem_loopParts {tree : Cst} {part : Part} :
    part ∈ tree.children.zipIdx.flatMap (loopPart tree) ↔
      ∃ i child, tree.children[i]? = some child ∧ part ∈ loopPart tree (child, i) := by
  simp only [List.mem_flatMap, Prod.exists, List.mem_zipIdx_iff_getElem?]
  constructor
  · rintro ⟨child, i, hget, hpart⟩
    exact ⟨i, child, hget, hpart⟩
  · rintro ⟨i, child, hget, hpart⟩
    exact ⟨child, i, hget, hpart⟩

theorem loopPart_of_left {tree child : Cst} {i : Nat} (h : tree.childIndex? "left" = some i)
    (hnamed : child.label.named = true) :
    loopPart tree (child, i) = variableParts tree child i := by
  rw [loopPart, if_pos h, if_pos hnamed]

theorem loopPart_of_other {tree child : Cst} {i : Nat} (hleft : tree.childIndex? "left" ≠ some i)
    (hvalue : tree.childIndex? "value" ≠ some i) (hnamed : child.label.named = true) :
    loopPart tree (child, i) = [.below [i] child] := by
  rw [loopPart, if_neg hleft, if_neg hvalue, if_pos hnamed]

/-- Everything that a child of a loop can become. -/
theorem mem_loopPart {tree child : Cst} {i : Nat} {part : Part}
    (h : part ∈ loopPart tree (child, i)) :
    child.label.named = true ∧ tree.childIndex? "value" ≠ some i ∧
      (part = .below [i] child ∨
        tree.childIndex? "left" = some i ∧ part ∈ variableParts tree child i) := by
  rw [loopPart] at h
  split at h
  · rename_i hleft
    split at h
    · rename_i hnamed
      exact ⟨hnamed, Cst.childIndex?_ne (by decide) hleft, Or.inr ⟨hleft, h⟩⟩
    · cases h
  · split at h
    · cases h
    · rename_i hvalue
      split at h
      · rename_i hnamed
        exact ⟨hnamed, hvalue, Or.inl (List.mem_singleton.mp h)⟩
      · cases h

/-! ### Parts of a template -/

/-- The parts of a template are pieces of text and what stands below substitutions. -/
theorem mem_templateParts {stop start : Int} {index : Nat} {xs : List (Cst × Nat)} {part : Part}
    (h : part ∈ templateParts stop index start xs) :
    (∃ k a b, part = .made (.segment k a b) ∧ index ≤ k ∧
        k ≤ index + xs.countP fun x => isSubstitution x.1) ∨
      ∃ x ∈ xs, isSubstitution x.1 = true ∧ part ∈ constructParts [x.2] x.1 := by
  fun_induction templateParts stop index start xs with
  | case1 index start =>
    obtain rfl := List.mem_singleton.mp h
    exact Or.inl ⟨index, start, stop, rfl, by omega, by omega⟩
  | case2 index start child i rest hsub ih =>
    simp only [List.countP_cons, hsub, if_true]
    rcases List.mem_cons.mp h with rfl | h
    · exact Or.inl ⟨index, start, _, rfl, by omega, by omega⟩
    · rcases List.mem_append.mp h with h | h
      · exact Or.inr ⟨(child, i), List.mem_cons_self, hsub, h⟩
      · rcases ih h with ⟨k, a, b, rfl, hle, hle'⟩ | ⟨x, hx, hpart⟩
        · exact Or.inl ⟨k, a, b, rfl, by omega, by omega⟩
        · exact Or.inr ⟨x, List.mem_cons_of_mem _ hx, hpart⟩
  | case3 index start child i rest hsub ih =>
    simp only [List.countP_cons, hsub]
    rcases ih h with hmade | ⟨x, hx, hpart⟩
    · exact Or.inl hmade
    · exact Or.inr ⟨x, List.mem_cons_of_mem _ hx, hpart⟩

/-- What stands below a substitution is part of the template. -/
theorem mem_templateParts_of_substitution {stop start : Int} {index : Nat} {xs : List (Cst × Nat)}
    {part : Part} {x : Cst × Nat} (hx : x ∈ xs) (hsub : isSubstitution x.1 = true)
    (h : part ∈ constructParts [x.2] x.1) : part ∈ templateParts stop index start xs := by
  fun_induction templateParts stop index start xs with
  | case1 index start => cases hx
  | case2 index start child i rest hsub' ih =>
    rcases List.mem_cons.mp hx with rfl | hx
    · exact List.mem_cons_of_mem _ (List.mem_append_left _ h)
    · exact List.mem_cons_of_mem _ (List.mem_append_right _ (ih hx))
  | case3 index start child i rest hsub' ih =>
    rcases List.mem_cons.mp hx with rfl | hx
    · exact absurd hsub hsub'
    · exact ih hx

/-! ### All parts -/

theorem below_mem_loopParts {tree child : Cst} {way : List Nat}
    (hfor : tree.kind = "for_in_statement") :
    .below way child ∈ tree.children.zipIdx.flatMap (loopPart tree) ↔ Handed tree way child := by
  have htemplate : tree.kind ≠ "template_string" := by
    rw [hfor]
    decide
  rw [mem_loopParts]
  constructor
  · rintro ⟨i, c, hget, hpart⟩
    obtain ⟨hnamed, hvalue, heq | ⟨hleft, hpart⟩⟩ := mem_loopPart hpart
    · cases heq
      exact .child hget hnamed htemplate fun h => hvalue h.2
    · rcases mem_variableParts.mp hpart with heq | ⟨keyword, hkind, heq | heq | ⟨v, value, hv, hget', h⟩⟩
      · cases heq
        exact .child hget hnamed htemplate fun h => hvalue h.2
      · cases heq
      · cases heq
      · obtain ⟨left, hget'', hleft', -⟩ := Cst.childIndex?_eq_some hleft
        rw [hget, Option.some.injEq] at hget''
        subst hget''
        obtain ⟨j, d, hd, hdnamed, heq⟩ := mem_constructParts.mp h
        cases heq
        exact .value hfor hkind hleft' hnamed hv hget' hd hdnamed
  · intro h
    cases h with
    | @child i _ hget hnamed _ hvalue =>
      refine ⟨i, child, hget, ?_⟩
      by_cases hleft : tree.childIndex? "left" = some i
      · rw [loopPart_of_left hleft hnamed]
        exact mem_variableParts.mpr (Or.inl rfl)
      · rw [loopPart_of_other hleft (fun h => hvalue ⟨hfor, h⟩) hnamed]
        exact List.mem_singleton.mpr rfl
    | value _ hkind hleft hleftnamed hv hget hd hdnamed =>
      -- What stands below the initial value is found in the place of the variable.
      obtain ⟨i, hi, hgeti⟩ := Cst.child?_eq_some hleft
      refine ⟨i, _, hgeti, ?_⟩
      rw [loopPart_of_left hi hleftnamed]
      refine mem_variableParts.mpr (Or.inr ⟨_, hkind, Or.inr (Or.inr ⟨_, _, hv, hget, ?_⟩)⟩)
      exact mem_constructParts.mpr ⟨_, _, hd, hdnamed, rfl⟩
    | substitution h => exact absurd h htemplate

theorem below_mem_templateParts {tree child : Cst} {way : List Nat} {stop start : Int} {index : Nat}
    (htemplate : tree.kind = "template_string") :
    .below way child ∈ templateParts stop index start tree.children.zipIdx ↔
      Handed tree way child := by
  have hfor : tree.kind ≠ "for_in_statement" := by
    rw [htemplate]
    decide
  constructor
  · intro h
    rcases mem_templateParts h with ⟨k, a, b, heq, -⟩ | ⟨⟨outer, i⟩, hx, hsub, h⟩
    · cases heq
    · obtain ⟨j, d, hd, hdnamed, heq⟩ := mem_constructParts.mp h
      cases heq
      exact .substitution htemplate (List.mem_zipIdx_iff_getElem?.mp hx) hsub hd hdnamed
  · intro h
    cases h with
    | child _ _ h => exact absurd htemplate h
    | value h => exact absurd h hfor
    | @substitution i j outer _ _ houter hsub hd hdnamed =>
      have hmem : (outer, i) ∈ tree.children.zipIdx := List.mem_zipIdx_iff_getElem?.mpr houter
      exact mem_templateParts_of_substitution hmem hsub
        (mem_constructParts.mpr ⟨_, _, hd, hdnamed, rfl⟩)

theorem below_mem_constructParts {tree child : Cst} {way : List Nat}
    (hfor : tree.kind ≠ "for_in_statement") (htemplate : tree.kind ≠ "template_string") :
    .below way child ∈ constructParts [] tree ↔ Handed tree way child := by
  rw [mem_constructParts]
  constructor
  · rintro ⟨i, c, hget, hnamed, heq⟩
    cases heq
    exact .child hget hnamed htemplate fun h => hfor h.1
  · intro h
    cases h with
    | child hget hnamed => exact ⟨_, _, hget, hnamed, rfl⟩
    | value h => exact absurd h hfor
    | substitution h => exact absurd h htemplate

/-- The trees among the parts of a construct are those that the conversion goes on
    to. -/
theorem below_mem_partsOf {tree child : Cst} {way : List Nat} :
    .below way child ∈ partsOf tree ↔ Handed tree way child := by
  rw [partsOf]
  split
  · exact below_mem_loopParts ‹_›
  · split
    · exact below_mem_templateParts ‹_›
    · exact below_mem_constructParts ‹_› ‹_›

theorem made_not_mem_constructParts {tree : Cst} {way : List Nat} {origin : Origin} :
    .made origin ∉ constructParts way tree := by
  intro h
  obtain ⟨j, d, -, -, heq⟩ := mem_constructParts.mp h
  cases heq

theorem countP_zipIdx (trees : List Cst) (test : Cst → Bool) :
    trees.zipIdx.countP (fun x => test x.1) = trees.countP test := by
  have hfst := List.zipIdx_map_fst 0 trees
  calc trees.zipIdx.countP (fun x => test x.1)
      = (trees.zipIdx.map Prod.fst).countP test := by
        rw [List.countP_map]
        rfl
    _ = trees.countP test := by rw [hfst]

/-- The nodes among the parts of a construct are made from what it makes nodes of. -/
theorem makes_of_mem_partsOf {tree : Cst} {origin : Origin} (h : .made origin ∈ partsOf tree) :
    Makes tree origin := by
  rw [partsOf] at h
  split at h
  · rename_i hfor
    obtain ⟨i, c, hget, hpart⟩ := mem_loopParts.mp h
    obtain ⟨-, -, heq | ⟨hleft, hpart⟩⟩ := mem_loopPart hpart
    · cases heq
    · obtain ⟨left, hget', hleft', -⟩ := Cst.childIndex?_eq_some hleft
      rw [hget, Option.some.injEq] at hget'
      subst hget'
      rcases mem_variableParts.mp hpart with heq | ⟨keyword, hkind, heq | heq | ⟨v, value, -, -, h⟩⟩
      · cases heq
      · cases heq
        exact .declaration hfor hkind hleft'
      · cases heq
        exact .declarator hfor hkind hleft'
      · exact absurd h made_not_mem_constructParts
  · split at h
    · rename_i htemplate
      rcases mem_templateParts h with ⟨k, a, b, heq, -, hle⟩ | ⟨x, -, -, h⟩
      · cases heq
        refine .segment htemplate ?_
        rwa [countP_zipIdx, Nat.zero_add] at hle
      · exact absurd h made_not_mem_constructParts
    · exact absurd h made_not_mem_constructParts

/-! ## Sites -/

/-- The nodes that the conversion of a tree makes, in the pre-order of the abstract
    tree. -/
def sites (tree : Cst) : List Site :=
  if isKept tree then
    ⟨[], .construct tree⟩ :: (partsOf tree).attach.flatMap fun x =>
      match x with
      | ⟨.made origin, _⟩ => [⟨[], origin⟩]
      | ⟨.below way child, _⟩ => (sites child).map (Site.under way)
  else []
termination_by tree.size
decreasing_by exact (below_mem_partsOf.mp ‹_›).size_lt

/-- The sites of a part. -/
def Part.sites : Part → List Site
  | .made origin => [⟨[], origin⟩]
  | .below way child => (Ast.sites child).map (Site.under way)

theorem sites_of_isKept {tree : Cst} (h : isKept tree = true) :
    sites tree = ⟨[], .construct tree⟩ :: (partsOf tree).flatMap Part.sites := by
  have hpart : ∀ part (hmem : part ∈ partsOf tree),
      (match (⟨part, hmem⟩ : { part // part ∈ partsOf tree }) with
        | ⟨.made origin, _⟩ => [⟨[], origin⟩]
        | ⟨.below way child, _⟩ => (sites child).map (Site.under way)) = part.sites := by
    intro part hmem
    cases part with
    | made origin => rfl
    | below way child => rfl
  rw [sites, if_pos h, List.flatMap_subtype hpart, List.unattach_attach]

theorem sites_of_not_isKept {tree : Cst} (h : isKept tree = false) : sites tree = [] := by
  rw [sites, h]
  rfl

/-- What holds of a tree whenever it holds of all trees that it hands on, holds of
    every tree. -/
theorem handed_induction {P : Cst → Prop}
    (h : ∀ tree, (∀ way child, Handed tree way child → P child) → P tree) (tree : Cst) : P tree := by
  induction hsize : tree.size using Nat.strongRecOn generalizing tree with
  | _ size ih =>
    apply h
    intro way child hhanded
    exact ih child.size (hsize ▸ hhanded.size_lt) child rfl

end Ast

end EsFeatures
