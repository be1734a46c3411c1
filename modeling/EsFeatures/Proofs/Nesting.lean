/-
  EsFeatures.Proofs.Nesting

  Spans of converted trees.  The work of the conversion is put together end to end as
  rows are: `RowOf` says that what comes of a list of work lies in a row, and there is
  one lemma for each way in which a construct hands work on.  In a tree that fits its
  source all nodes are therefore well nested, those that the conversion makes up
  included, and a walk comes to them in the order of the source.
-/
import EsFeatures.Proofs.DocumentOrder
import EsFeatures.Proofs.Findings
import EsFeatures.Proofs.Rows

namespace EsFeatures

/-! ## Trees that fit their source -/

namespace Cst

/-- A node that lies as a parser places it in a source of the given number of bytes. -/
structure FitsIn (size : Nat) (node : Cst) : Prop extends WellPlaced node where
  inside : node.endByte ≤ size
  /-- A template begins and ends with a quote, and its substitutions stand between
      them. -/
  quotes : node.kind = "template_string" → node.startByte + 2 ≤ node.endByte ∧
    ∀ child ∈ node.children, Ast.isSubstitution child = true →
      node.startByte + 1 ≤ child.startByte ∧ child.endByte + 1 ≤ node.endByte
  /-- The keyword of a loop stands before its variable, and so do only tokens and
      comments. -/
  keyword : node.kind = "for_in_statement" → ∀ i ∈ node.childIndex? "left",
    (∀ k ∈ node.childIndex? "kind", k < i) ∧
      ∀ x ∈ node.children.zipIdx, x.2 < i → Ast.isKept x.1 = false

instance (size : Nat) : DecidablePred (FitsIn size) := fun node =>
  decidable_of_iff
    (node.WellPlaced ∧ node.endByte ≤ size ∧
      (node.kind = "template_string" → node.startByte + 2 ≤ node.endByte ∧
        ∀ child ∈ node.children, Ast.isSubstitution child = true →
          node.startByte + 1 ≤ child.startByte ∧ child.endByte + 1 ≤ node.endByte) ∧
      (node.kind = "for_in_statement" → ∀ i ∈ node.childIndex? "left",
        (∀ k ∈ node.childIndex? "kind", k < i) ∧
          ∀ x ∈ node.children.zipIdx, x.2 < i → Ast.isKept x.1 = false))
    ⟨fun ⟨h₁, h₂, h₃, h₄⟩ => ⟨h₁, h₂, h₃, h₄⟩, fun ⟨h₁, h₂, h₃, h₄⟩ => ⟨h₁, h₂, h₃, h₄⟩⟩

/-- A tree all of whose nodes lie in a source as a parser places them. -/
def FitsSource (source : String) (tree : Cst) : Prop :=
  ∀ path node, tree.at? path = some node → node.FitsIn (Ast.byteLength source)

instance (source : String) : DecidablePred (FitsSource source) := fun tree =>
  decidable_of_iff (tree.every (fun node => decide (node.FitsIn (Ast.byteLength source))) = true) (by
    simp only [every_iff, decide_eq_true_eq]
    rfl)

theorem FitsSource.root {source : String} {tree : Cst} (h : tree.FitsSource source) :
    tree.FitsIn (Ast.byteLength source) :=
  h [] tree rfl

theorem FitsSource.child {source : String} {tree child : Cst} (h : tree.FitsSource source)
    (hchild : child ∈ tree.children) : child.FitsSource source := by
  obtain ⟨i, hi⟩ := exists_at?_cons hchild
  intro path node hat
  exact h (i :: path) node ((hi path).trans hat)

/-- Children further to the left end before those further to the right. -/
theorem WellPlaced.endByte_le {node child child' : Cst} {i j : Nat} (h : node.WellPlaced) (hlt : i < j)
    (hi : node.children[i]? = some child) (hj : node.children[j]? = some child') :
    child.endByte ≤ child'.startByte := by
  obtain ⟨hilt, rfl⟩ := List.getElem?_eq_some_iff.mp hi
  obtain ⟨hjlt, rfl⟩ := List.getElem?_eq_some_iff.mp hj
  exact List.pairwise_iff_getElem.mp h.apart i j hilt hjlt hlt

/-- No child before the first one under a field stands under that field. -/
theorem hasField_of_lt {node child : Cst} {name : String} {i : Nat}
    (h : ∀ v ∈ node.childIndex? name, i < v) (hget : node.children[i]? = some child) :
    child.hasField name = false := by
  obtain ⟨hilt, rfl⟩ := List.getElem?_eq_some_iff.mp hget
  cases hindex : node.childIndex? name with
  | none =>
    rw [childIndex?, List.findIdx?_eq_none_iff] at hindex
    exact hindex _ (List.getElem_mem hilt)
  | some v =>
    have hlt := h v hindex
    rw [childIndex?, List.findIdx?_eq_some_iff_getElem] at hindex
    obtain ⟨_, -, hbefore⟩ := hindex
    simpa using hbefore i hlt

section Loops

variable {node child : Cst} {size i v : Nat}

theorem FitsIn.before_variable (h : node.FitsIn size) (hkind : node.kind = "for_in_statement")
    (hi : node.childIndex? "left" = some i) (hchild : child ∈ node.children.take i) :
    Ast.isKept child = false ∧ child.hasField "left" = false ∧ child.hasField "value" = false := by
  obtain ⟨j, hj, rfl⟩ := List.mem_take_iff_getElem.mp hchild
  have hlt : j < i := by omega
  have hget : node.children[j]? = some (node.children[j]) := List.getElem?_eq_getElem (by omega)
  obtain ⟨-, hkept⟩ := h.keyword hkind i hi
  refine ⟨hkept (_, j) (List.mem_zipIdx_iff_getElem?.mpr hget) hlt,
    hasField_of_lt ?_ hget, hasField_of_lt ?_ hget⟩
  · intro v hv
    rw [hi, Option.mem_some_iff] at hv
    omega
  · intro v hv
    have hiv := (h.value hkind i hi v hv).1
    omega

theorem WellPlaced.before_value (h : node.WellPlaced) (hkind : node.kind = "for_in_statement")
    (hi : node.childIndex? "left" = some i) (hv : node.childIndex? "value" = some v)
    (hchild : child ∈ (node.children.drop (i + 1)).take (v - (i + 1))) :
    Ast.isKept child = false ∧ child.hasField "value" = false := by
  obtain ⟨j, hj, rfl⟩ := List.mem_take_iff_getElem.mp hchild
  rw [List.length_drop] at hj
  have hget : node.children[i + 1 + j]? = some ((node.children.drop (i + 1))[j]) := by
    rw [← List.getElem?_drop, List.getElem?_eq_getElem]
  obtain ⟨-, hkept⟩ := h.value hkind i hi v hv
  refine ⟨hkept (_, i + 1 + j) (List.mem_zipIdx_iff_getElem?.mpr hget) (by omega) (by omega),
    hasField_of_lt ?_ hget⟩
  intro v' hv'
  rw [hv, Option.mem_some_iff] at hv'
  omega

end Loops

end Cst

namespace Ast

/-! ## Rows of work -/

/-- `RowOf source lo hi items`: whatever comes of a list of work lies in a row between
    two offsets. -/
def RowOf (source : String) (lo hi : Int) (items : List Pending) : Prop :=
  ∀ nodes, convItems source items = .ok nodes → InRow lo hi nodes

section RowOf

variable {source : String} {lo mid hi : Int}

theorem rowOf_nil (h : lo ≤ hi) : RowOf source lo hi [] := by
  intro nodes hconv
  cases hconv
  exact .nil h

theorem RowOf.mono {lo' hi' : Int} {items : List Pending} (h : RowOf source lo hi items)
    (hlo : lo' ≤ lo) (hhi : hi ≤ hi') : RowOf source lo' hi' items := by
  intro nodes hconv
  exact (h nodes hconv).mono hlo hhi

theorem RowOf.append {xs ys : List Pending} (hx : RowOf source lo mid xs)
    (hy : RowOf source mid hi ys) : RowOf source lo hi (xs ++ ys) := by
  intro nodes hconv
  rw [convItems_append] at hconv
  obtain ⟨front, back, hfront, hback, rfl⟩ := followedBy_eq_ok.mp hconv
  exact (hx front hfront).append (hy back hback)

theorem RowOf.cons {item : Pending} {items : List Pending} (hx : RowOf source lo mid [item])
    (hy : RowOf source mid hi items) : RowOf source lo hi (item :: items) :=
  hx.append hy

theorem convItems_singleton (source : String) (item : Pending) :
    convItems source [item] = convItem source item := by
  rw [convItems, convItems]
  cases convItem source item with
  | error e => rfl
  | ok nodes =>
    show Except.ok (nodes ++ []) = _
    rw [List.append_nil]

/-- A piece of text. -/
theorem rowOf_element {head : Head} {start stop : Int} (hstart : head.start = some start)
    (hstop : head.stop = some stop) (h : start ≤ stop) :
    RowOf source start stop [.element head] := by
  intro nodes hconv
  rw [convItems_singleton] at hconv
  cases hconv
  exact .single hstart hstop (.nil h)

/-- A declaration around a declarator. -/
theorem rowOf_declaration {head declarator : Head} {inside : List Cst} {start start' stop : Int}
    (hstart : head.start = some start) (hstop : head.stop = some stop)
    (hstart' : declarator.start = some start') (hstop' : declarator.stop = some stop)
    (hle : start ≤ start') (h : RowOf source start' stop (inside.map .convert)) :
    RowOf source start stop [.declaration head declarator inside] := by
  intro nodes hconv
  rw [convItems_singleton, convItem] at hconv
  cases hinside : convAll source inside with
  | error e =>
    rw [hinside] at hconv
    cases hconv
  | ok below =>
    rw [hinside] at hconv
    cases hconv
    rw [← convItems_map_convert] at hinside
    have hdeclarator := InRow.single hstart' hstop' (h below hinside)
    exact .single hstart hstop (hdeclarator.mono hle (Int.le_refl _))

/-- Tokens and comments leave no trace. -/
theorem rowOf_skipped {trees : List Cst} (hskipped : ∀ tree ∈ trees, isKept tree = false)
    (h : lo ≤ hi) : RowOf source lo hi (trees.map .convert) := by
  induction trees with
  | nil => exact rowOf_nil h
  | cons t ts ih =>
    have hfirst : RowOf source lo lo [.convert t] := by
      intro nodes hconv
      rw [convItems_singleton, convItem, conv_of_not_isKept (hskipped t List.mem_cons_self)] at hconv
      cases hconv
      exact .nil (Int.le_refl _)
    exact hfirst.cons (ih fun tree htree => hskipped tree (List.mem_cons_of_mem _ htree))

end RowOf

/-- What comes of a tree lies within the bytes of the tree. -/
def StaysWithin (source : String) (tree : Cst) : Prop :=
  RowOf source (charOffset source tree.startByte) (charOffset source tree.endByte) [.convert tree]

/-- Trees one behind the other give rows one behind the other. -/
theorem rowOf_trees {source : String} {lo hi : Nat} {trees : List Cst} (hle : lo ≤ hi)
    (hwithin : ∀ tree ∈ trees, lo ≤ tree.startByte ∧ tree.endByte ≤ hi)
    (hapart : trees.Pairwise fun tree later => tree.endByte ≤ later.startByte)
    (hrows : ∀ tree ∈ trees, StaysWithin source tree) :
    RowOf source (charOffset source lo) (charOffset source hi) (trees.map .convert) := by
  -- The row of the rest begins where the first tree ends.
  induction trees generalizing lo with
  | nil => exact rowOf_nil (charOffset_mono source hle)
  | cons t ts ih =>
    obtain ⟨hstart, hend⟩ := hwithin t List.mem_cons_self
    obtain ⟨hbehind, htail⟩ := List.pairwise_cons.mp hapart
    have hfirst : RowOf source (charOffset source lo) (charOffset source t.endByte) [.convert t] :=
      (hrows t List.mem_cons_self).mono (charOffset_mono source hstart) (Int.le_refl _)
    refine hfirst.cons (ih hend ?_ htail ?_)
    · intro tree htree
      exact ⟨hbehind tree htree, (hwithin tree (List.mem_cons_of_mem _ htree)).2⟩
    · intro tree htree
      exact hrows tree (List.mem_cons_of_mem _ htree)

/-- What is known of the children of a construct, and of theirs, when the work below the
    construct is looked at. -/
structure ChildrenStay (source : String) (tree : Cst) : Prop where
  placed : ∀ child ∈ tree.children, child.WellPlaced
  rows : ∀ child ∈ tree.children, StaysWithin source child
  below : ∀ child ∈ tree.children, ∀ grandchild ∈ child.children, StaysWithin source grandchild

/-! ## Work below a construct -/

section Below

variable {source : String} {tree : Cst}

/-- Some of the children of a node, in order. -/
theorem rowOf_sublist (hplaced : tree.WellPlaced) {trees : List Cst}
    (htrees : trees.Sublist tree.children) (hrows : ∀ child ∈ tree.children, StaysWithin source child) :
    RowOf source (charOffset source tree.startByte) (charOffset source tree.endByte)
      (trees.map .convert) := by
  refine rowOf_trees hplaced.forward ?_ (hplaced.apart.sublist htrees) ?_
  · intro child hchild
    exact hplaced.within child (htrees.subset hchild)
  · intro child hchild
    exact hrows child (htrees.subset hchild)

theorem getElem_cons_drop_sublist {trees : List Cst} {i : Nat} (h : i < trees.length) :
    (trees[i] :: trees.drop (i + 1)).Sublist trees := by
  rw [List.getElem_cons_drop]
  exact List.drop_sublist i trees

/-- Some of the children behind a child of a node, in order. -/
theorem rowOf_behind (hplaced : tree.WellPlaced) {first : Cst} {rest trees : List Cst}
    (hrest : (first :: rest).Sublist tree.children) (htrees : trees.Sublist rest)
    (hrows : ∀ child ∈ tree.children, StaysWithin source child) :
    RowOf source (charOffset source first.endByte) (charOffset source tree.endByte)
      (trees.map .convert) := by
  obtain ⟨hbehind, hapart⟩ := List.pairwise_cons.mp (hplaced.apart.sublist hrest)
  have hmem : ∀ child ∈ trees, child ∈ tree.children :=
    fun child hchild => hrest.subset (List.mem_cons_of_mem _ (htrees.subset hchild))
  refine rowOf_trees (hplaced.within first (hrest.subset List.mem_cons_self)).2 ?_
    (hapart.sublist htrees) ?_
  · intro child hchild
    exact ⟨hbehind child (htrees.subset hchild), (hplaced.within child (hmem child hchild)).2⟩
  · intro child hchild
    exact hrows child (hmem child hchild)

theorem rowOf_constructsOf (hplaced : tree.WellPlaced)
    (hrows : ∀ child ∈ tree.children, StaysWithin source child) :
    RowOf source (charOffset source tree.startByte) (charOffset source tree.endByte)
      (constructsOf tree) :=
  rowOf_sublist hplaced List.filter_sublist hrows

/-! ### Templates -/

/-- The pieces of text of a template alternate with its substitutions. -/
theorem rowOf_templateItemsOf {stop start : Int} {trees : List Cst} (hstart : 0 ≤ start)
    (hle : start ≤ stop)
    (hwithin : ∀ child ∈ trees, isSubstitution child = true →
      start ≤ child.startByte ∧ (child.endByte : Int) ≤ stop)
    (hapart : trees.Pairwise fun child later => child.endByte ≤ later.startByte)
    (hplaced : ∀ child ∈ trees, child.WellPlaced)
    (hrows : ∀ child ∈ trees, ∀ below ∈ child.children, StaysWithin source below) :
    RowOf source (charOffset source start) (charOffset source stop)
      (templateItemsOf source stop start trees) := by
  -- `start` is where the text behind the last substitution begins.
  induction trees generalizing start with
  | nil => exact rowOf_element rfl rfl (charOffset_le source hstart hle)
  | cons t ts ih =>
    obtain ⟨hbehind, htail⟩ := List.pairwise_cons.mp hapart
    have hplaced' : ∀ child ∈ ts, child.WellPlaced :=
      fun child hchild => hplaced child (List.mem_cons_of_mem _ hchild)
    have hrows' : ∀ child ∈ ts, ∀ below ∈ child.children, StaysWithin source below :=
      fun child hchild => hrows child (List.mem_cons_of_mem _ hchild)
    rw [templateItemsOf]
    split
    · rename_i hsub
      obtain ⟨hfront, hend⟩ := hwithin t List.mem_cons_self hsub
      -- The text in front, what stands in the substitution, and the rest behind it.
      have htext : RowOf source (charOffset source start) (charOffset source t.startByte)
          [.element (segmentHead source start t.startByte)] :=
        rowOf_element rfl rfl (charOffset_le source hstart hfront)
      have hbelow := rowOf_constructsOf (hplaced t List.mem_cons_self)
        (hrows t List.mem_cons_self)
      have hrest : RowOf source (charOffset source t.endByte) (charOffset source stop)
          (templateItemsOf source stop t.endByte ts) := by
        refine ih (by omega) hend ?_ htail hplaced' hrows'
        intro child hchild hsub'
        have hlater := hbehind child hchild
        have hstop := (hwithin child (List.mem_cons_of_mem _ hchild) hsub').2
        exact ⟨by omega, hstop⟩
      exact htext.cons (hbelow.append hrest)
    · refine ih hstart hle ?_ htail hplaced' hrows'
      intro child hchild
      exact hwithin child (List.mem_cons_of_mem _ hchild)

/-! ### Loops -/

/-- Up to the next child that counts, the work below a loop is that of its constructs. -/
theorem loopItems_append {declaration : Option Pending} {leftOpen valueOpen : Bool}
    {front rest : List Cst}
    (hleft : ∀ child ∈ front, ¬(leftOpen && child.hasField "left") = true)
    (hvalue : ∀ child ∈ front, ¬(valueOpen && child.hasField "value") = true) :
    loopItems declaration leftOpen valueOpen (front ++ rest) =
      (front.filter fun child => child.label.named).map .convert ++
        loopItems declaration leftOpen valueOpen rest := by
  induction front with
  | nil => rfl
  | cons t ts ih =>
    have htail := ih (fun child h => hleft child (List.mem_cons_of_mem _ h))
      fun child h => hvalue child (List.mem_cons_of_mem _ h)
    rw [List.cons_append, loopItems, if_neg (hleft t List.mem_cons_self),
      if_neg (hvalue t List.mem_cons_self), htail, List.filter_cons]
    split
    · rw [List.map_cons, List.cons_append]
    · rfl

/-- Where no child counts, only constructs are left. -/
theorem loopItems_eq_constructs {declaration : Option Pending} {leftOpen valueOpen : Bool}
    {trees : List Cst} (hleft : ∀ child ∈ trees, ¬(leftOpen && child.hasField "left") = true)
    (hvalue : ∀ child ∈ trees, ¬(valueOpen && child.hasField "value") = true) :
    loopItems declaration leftOpen valueOpen trees =
      (trees.filter fun child => child.label.named).map .convert := by
  have hitems := @loopItems_append declaration leftOpen valueOpen trees [] hleft hvalue
  rw [List.append_nil, loopItems, List.append_nil] at hitems
  exact hitems

/-- A loop that declares nothing hands on some of its children, in order. -/
theorem exists_sublist_loopItems (declaration : Option Pending) (leftOpen valueOpen : Bool)
    (trees : List Cst)
    (h : declaration = none ∨
      (leftOpen = true → ∀ left, trees.find? (Cst.hasField "left") = some left →
        left.label.named = false)) :
    ∃ kept : List Cst, kept.Sublist trees ∧
      loopItems declaration leftOpen valueOpen trees = kept.map .convert := by
  -- A child that is not the variable leaves the search for the variable as it is.
  have hskip : ∀ {leftOpen : Bool} {t : Cst} {ts : List Cst},
      ¬(leftOpen && t.hasField "left") = true →
      (declaration = none ∨ (leftOpen = true → ∀ left,
        (t :: ts).find? (Cst.hasField "left") = some left → left.label.named = false)) →
      declaration = none ∨ (leftOpen = true → ∀ left,
        ts.find? (Cst.hasField "left") = some left → left.label.named = false) := by
    intro leftOpen t ts hleft
    refine Or.imp_right fun hnamed hopen left hfind => hnamed hopen left ?_
    rw [List.find?_cons_of_neg (by simpa [hopen] using hleft)]
    exact hfind
  fun_induction loopItems declaration leftOpen valueOpen trees with
  | case1 => exact ⟨[], .slnil, rfl⟩
  | case2 leftOpen valueOpen t ts hleft hnamed ih =>
    obtain ⟨hopen, hfield⟩ := Bool.and_eq_true_iff.mp hleft
    rcases h with rfl | h
    · obtain ⟨kept, hkept, hitems⟩ := ih (Or.inl rfl)
      exact ⟨t :: kept, hkept.cons_cons t, by rw [hitems, Option.getD_none, List.map_cons]⟩
    · have hunnamed := h hopen t (List.find?_cons_of_pos hfield)
      rw [hnamed] at hunnamed
      cases hunnamed
  | case3 leftOpen valueOpen t ts hleft hnamed ih =>
    obtain ⟨kept, hkept, hitems⟩ := ih (Or.inr (by simp))
    exact ⟨kept, hkept.cons t, hitems⟩
  | case4 leftOpen valueOpen t ts hleft hvalue ih =>
    obtain ⟨kept, hkept, hitems⟩ := ih (hskip hleft h)
    exact ⟨kept, hkept.cons t, hitems⟩
  | case5 leftOpen valueOpen t ts hleft hvalue hnamed ih =>
    obtain ⟨kept, hkept, hitems⟩ := ih (hskip hleft h)
    exact ⟨t :: kept, hkept.cons_cons t, by rw [hitems, List.map_cons]⟩
  | case6 leftOpen valueOpen t ts hleft hvalue hnamed ih =>
    obtain ⟨kept, hkept, hitems⟩ := ih (hskip hleft h)
    exact ⟨kept, hkept.cons t, hitems⟩

/-- Children that are passed over do not change the row of those behind them. -/
theorem rowOf_loopItems_append {lo hi : Int} {declaration : Option Pending}
    {leftOpen valueOpen : Bool} {front rest : List Cst}
    (hleft : ∀ child ∈ front, ¬(leftOpen && child.hasField "left") = true)
    (hvalue : ∀ child ∈ front, ¬(valueOpen && child.hasField "value") = true)
    (hskipped : ∀ child ∈ front, isKept child = false)
    (hrest : RowOf source lo hi (loopItems declaration leftOpen valueOpen rest)) :
    RowOf source lo hi (loopItems declaration leftOpen valueOpen (front ++ rest)) := by
  rw [loopItems_append hleft hvalue]
  refine RowOf.append (rowOf_skipped ?_ (Int.le_refl lo)) hrest
  intro child hchild
  exact hskipped child (List.mem_of_mem_filter hchild)

/-- The declaration in the place of a loop's variable reaches from the keyword to the
    end of the variable, or of its initial value. -/
theorem exists_loopDeclaration {keyword left : Cst} (hkeyword : tree.child? "kind" = some keyword)
    (hleft : tree.child? "left" = some left) (horder : keyword.startByte ≤ left.startByte)
    (hrow : StaysWithin source left)
    (hvalue : ∀ value ∈ tree.child? "value", left.endByte ≤ value.startByte ∧ value.WellPlaced ∧
      ∀ below ∈ value.children, StaysWithin source below) :
    ∃ item, loopDeclaration? source tree = some item ∧
      RowOf source (charOffset source keyword.startByte)
        (charOffset source ((tree.child? "value").getD left).endByte) [item] := by
  rw [loopDeclaration?, loopHeads?, hkeyword, hleft]
  refine ⟨_, rfl, ?_⟩
  refine rowOf_declaration rfl rfl rfl rfl (charOffset_mono source horder) ?_
  -- The declarator holds the variable and what stands in the value, not the value itself.
  cases hchild : tree.child? "value" with
  | none => exact hrow
  | some value =>
    obtain ⟨hbehind, hplaced, hrows⟩ := hvalue value hchild
    have hinside := rowOf_constructsOf hplaced hrows
    exact hrow.cons (hinside.mono (charOffset_mono source hbehind) (Int.le_refl _))

/-- What stands behind the variable of a loop comes behind its declaration. -/
theorem rowOf_behindVariable (hplaced : tree.WellPlaced) (hkind : tree.kind = "for_in_statement")
    (hrows : ∀ child ∈ tree.children, StaysWithin source child) {left : Cst} {i : Nat}
    (hi : tree.childIndex? "left" = some i) (hget : tree.children[i]? = some left)
    (declaration : Option Pending) :
    RowOf source (charOffset source ((tree.child? "value").getD left).endByte)
      (charOffset source tree.endByte)
      (loopItems declaration false true (tree.children.drop (i + 1))) := by
  obtain ⟨hlt, rfl⟩ := List.getElem?_eq_some_iff.mp hget
  cases hvalue : tree.child? "value" with
  | none =>
    have hnone : ∀ child ∈ tree.children.drop (i + 1), ¬(true && child.hasField "value") = true := by
      intro child hchild
      exact List.find?_eq_none.mp hvalue child (List.mem_of_mem_drop hchild)
    rw [loopItems_eq_constructs (by simp) hnone]
    exact rowOf_behind hplaced (getElem_cons_drop_sublist hlt) List.filter_sublist hrows
  | some value =>
    obtain ⟨v, hv, hgetv⟩ := Cst.child?_eq_some hvalue
    have hfield : value.hasField "value" = true := List.find?_some hvalue
    have hiv : i < v := (hplaced.value hkind i hi v hv).1
    obtain ⟨hvlt, rfl⟩ := List.getElem?_eq_some_iff.mp hgetv
    have hsplit : tree.children.drop (i + 1) =
        (tree.children.drop (i + 1)).take (v - (i + 1)) ++
          tree.children[v] :: tree.children.drop (v + 1) := by
      conv_lhs => rw [← List.take_append_drop (v - (i + 1)) (tree.children.drop (i + 1))]
      rw [List.drop_drop, Nat.add_sub_cancel' hiv, ← List.drop_eq_getElem_cons hvlt]
    rw [hsplit]
    -- Nothing between variable and value is converted, and the value is passed over here.
    refine rowOf_loopItems_append (by simp) ?_ ?_ ?_
    · intro child hchild
      simp [(hplaced.before_value hkind hi hv hchild).2]
    · intro child hchild
      exact (hplaced.before_value hkind hi hv hchild).1
    · rw [loopItems, if_neg (by simp), if_pos (by simpa using hfield),
        loopItems_eq_constructs (by simp) (by simp)]
      exact rowOf_behind hplaced (getElem_cons_drop_sublist hvlt) List.filter_sublist hrows

/-- A loop with a keyword and a variable: the declaration, and what stands behind it. -/
theorem rowOf_declaringLoop {size : Nat} (hfits : tree.FitsIn size)
    (hkind : tree.kind = "for_in_statement") (hstay : ChildrenStay source tree)
    {keyword left : Cst} (hkeyword : tree.child? "kind" = some keyword)
    (hleft : tree.child? "left" = some left) (hnamed : left.label.named = true) :
    RowOf source (charOffset source tree.startByte) (charOffset source tree.endByte)
      (loopItems (loopDeclaration? source tree) true true tree.children) := by
  obtain ⟨k, hk, hgetk⟩ := Cst.child?_eq_some hkeyword
  obtain ⟨i, hi, hgeti⟩ := Cst.child?_eq_some hleft
  have hfield : left.hasField "left" = true := List.find?_some hleft
  have hmemk := List.mem_of_getElem? hgetk
  have hstart := (hfits.within keyword hmemk).1
  have horder : keyword.startByte ≤ left.startByte := by
    have hforward := (hstay.placed keyword hmemk).forward
    have hapart := hfits.toWellPlaced.endByte_le ((hfits.keyword hkind i hi).1 k hk) hgetk hgeti
    omega
  have hvalue : ∀ value ∈ tree.child? "value", left.endByte ≤ value.startByte ∧ value.WellPlaced ∧
      ∀ below ∈ value.children, StaysWithin source below := by
    intro value hvalue
    obtain ⟨v, hv, hgetv⟩ := Cst.child?_eq_some hvalue
    have hmemv := List.mem_of_getElem? hgetv
    have hiv := (hfits.value hkind i hi v hv).1
    exact ⟨hfits.endByte_le hiv hgeti hgetv, hstay.placed value hmemv, hstay.below value hmemv⟩
  obtain ⟨item, hitem, hhead⟩ := exists_loopDeclaration hkeyword hleft horder
    (hstay.rows left (List.mem_of_getElem? hgeti)) hvalue
  have hbehind := rowOf_behindVariable hfits.toWellPlaced hkind hstay.rows hi hgeti (some item)
  obtain ⟨hlt, rfl⟩ := List.getElem?_eq_some_iff.mp hgeti
  -- Nothing in front of the variable is converted, so the row begins with the declaration.
  rw [hitem, ← List.take_append_drop i tree.children, List.drop_eq_getElem_cons hlt]
  refine rowOf_loopItems_append ?_ ?_ ?_ ?_
  · intro child hchild
    simp [(hfits.before_variable hkind hi hchild).2.1]
  · intro child hchild
    simp [(hfits.before_variable hkind hi hchild).2.2]
  · intro child hchild
    exact (hfits.before_variable hkind hi hchild).1
  · rw [loopItems, if_pos (by simpa using hfield), if_pos hnamed]
    exact (hhead.mono (charOffset_mono source hstart) (Int.le_refl _)).cons hbehind

/-- The work below a loop. -/
theorem rowOf_loop {size : Nat} (hfits : tree.FitsIn size) (hkind : tree.kind = "for_in_statement")
    (hstay : ChildrenStay source tree) :
    RowOf source (charOffset source tree.startByte) (charOffset source tree.endByte)
      (loopItems (loopDeclaration? source tree) true true tree.children) := by
  by_cases hdeclares : ∃ keyword left, tree.child? "kind" = some keyword ∧
      tree.child? "left" = some left ∧ left.label.named = true
  · obtain ⟨keyword, left, hkeyword, hleft, hnamed⟩ := hdeclares
    exact rowOf_declaringLoop hfits hkind hstay hkeyword hleft hnamed
  · -- There is no declaration, or no child that it could stand for.
    obtain ⟨kept, hkept, hitems⟩ := exists_sublist_loopItems (loopDeclaration? source tree) true true
      tree.children (by
        cases hkeyword : tree.child? "kind" with
        | none => exact Or.inl (by simp only [loopDeclaration?, loopHeads?, hkeyword])
        | some keyword =>
          refine Or.inr fun _ left hleft => ?_
          exact Bool.eq_false_iff.mpr fun hnamed => hdeclares ⟨keyword, left, hkeyword, hleft, hnamed⟩)
    rw [hitems]
    exact rowOf_sublist hfits.toWellPlaced hkept hstay.rows

/-- The work below a construct lies within its span. -/
theorem rowOf_itemsOf {size : Nat} (hfits : tree.FitsIn size) (hstay : ChildrenStay source tree) :
    RowOf source (charOffset source tree.startByte) (charOffset source tree.endByte)
      (itemsOf source tree) := by
  rw [itemsOf]
  split
  · rename_i hkind
    exact rowOf_loop hfits hkind hstay
  · split
    · rename_i hkind
      obtain ⟨htwo, hsubstitutions⟩ := hfits.quotes hkind
      -- The row lies between the quotes.
      have htemplate : RowOf source (charOffset source (tree.startByte + 1))
          (charOffset source (tree.endByte - 1))
          (templateItemsOf source (tree.endByte - 1) (tree.startByte + 1) tree.children) := by
        refine rowOf_templateItemsOf (by omega) (by omega) ?_ hfits.apart hstay.placed hstay.below
        intro child hchild hsub
        have hinside := hsubstitutions child hchild hsub
        omega
      exact htemplate.mono (charOffset_le source (by omega) (by omega))
        (charOffset_le source (by omega) (by omega))
    · exact rowOf_constructsOf hfits.toWellPlaced hstay.rows

end Below

/-! ## Trees -/

/-- What a tree that fits its source is converted to lies in its span. -/
theorem staysWithin {source : String} {tree : Cst} (h : tree.FitsSource source) :
    StaysWithin source tree := by
  -- By induction on the size, since a template and a loop look two levels down.
  induction hsize : tree.size using Nat.strongRecOn generalizing tree with
  | _ n ih =>
    have hstay : ChildrenStay source tree := by
      constructor
      · intro child hchild
        exact (h.child hchild).root.toWellPlaced
      · intro child hchild
        have hlt := Cst.size_lt_of_mem_children hchild
        exact ih child.size (by omega) (h.child hchild) rfl
      · intro child hchild grandchild hgrandchild
        have hlt := Cst.size_lt_of_mem_children hchild
        have hlt' := Cst.size_lt_of_mem_children hgrandchild
        exact ih grandchild.size (by omega) ((h.child hchild).child hgrandchild) rfl
    intro nodes hconv
    rw [convItems_singleton, convItem, conv_eq] at hconv
    split at hconv
    · split at hconv
      · cases hconv
      · cases hok : convItems source (itemsOf source tree) with
        | error e =>
          rw [hok] at hconv
          cases hconv
        | ok below =>
          rw [hok] at hconv
          cases hconv
          exact .single rfl rfl (rowOf_itemsOf h.root hstay below hok)
    · cases hconv
      exact .nil (charOffset_mono source h.root.forward)

/-- The program that comes of a tree that fits its source lies in the source. -/
theorem inRow_of_build_eq_ok {source : String} {tree : Cst} {program : Ast}
    (h : tree.FitsSource source) (hbuild : build source tree = .ok program) :
    InRow 0 source.length [program] := by
  rcases build_eq_ok hbuild with rfl | hconv
  · exact .single rfl rfl (.nil (by omega))
  · have hrow := staysWithin h [program] (by rw [convItems_singleton, convItem, hconv])
    exact hrow.mono (charOffset_nonneg source (by omega))
      (charOffset_le_length source (by omega) (Int.ofNat_le.mpr h.root.inside))

end Ast

/-- Findings come in the order in which their nodes start. -/
theorem Detection.pairwise_offset {options : Options} {source : String} {program : Ast}
    (h : (program.preorder.map Ast.head).Pairwise Ast.Head.StartsBefore) :
    ((ofProgram options source program).findings.map Finding.offset).Pairwise (· ≤ ·) := by
  rw [ofProgram_eq, List.pairwise_map]
  refine List.Pairwise.sublist (List.take_sublist _ _) ?_
  rw [List.pairwise_filterMap]
  refine h.imp ?_
  rintro head later ⟨start, start', hstart, hstart', hle⟩ f hf f' hf'
  rw [Ast.Head.offset_of_finding?_eq_some hf, Ast.Head.offset_of_finding?_eq_some hf', hstart, hstart']
  exact hle

namespace Ast

/-- In a tree that fits its source the spans of all nodes are well nested, those of made
    up nodes included, and findings come in the order of the source. -/
theorem spans_well_nested {source : String} {tree : Cst} (h : tree.FitsSource source) :
    (∀ program, build source tree = .ok program →
      ∀ node ∈ program.preorder, node.WellNested source.length) ∧
    ∀ options d, Detection.ofSource options source tree = .ok d →
      (d.findings.map Finding.offset).Pairwise (· ≤ ·) := by
  constructor
  · intro program hbuild node hnode
    have hrow := inRow_of_build_eq_ok h hbuild
    rw [← Walk.preorders_singleton] at hnode
    exact hrow.wellNested (Int.le_refl 0) (Int.le_refl _) node hnode
  · intro options d hd
    obtain ⟨program, hbuild, rfl⟩ := Detection.ofSource_eq_ok hd
    have hrow := inRow_of_build_eq_ok h hbuild
    have horder := hrow.pairwise_start
    rw [Walk.preorders_singleton] at horder
    exact Detection.pairwise_offset horder

/-- A loop with an initial value, in which a template stands. -/
def loopOverKeysSource : String :=
  "for (var é = [`ü$\x7bx\x7d`] in y);"

/-- The tree of `loopOverKeysSource`. -/
def loopOverKeys : Cst :=
  .node ⟨"program", 0, 31, true, false, false, none⟩
    [.node ⟨"for_in_statement", 0, 31, true, false, false, none⟩
      [.node ⟨"for", 0, 3, false, false, false, none⟩ [],
       .node ⟨"var", 5, 8, false, false, false, some "kind"⟩ [],
       .node ⟨"identifier", 9, 11, true, false, false, some "left"⟩ [],
       .node ⟨"=", 12, 13, false, false, false, none⟩ [],
       .node ⟨"array", 14, 24, true, false, false, some "value"⟩
        [.node ⟨"template_string", 15, 23, true, false, false, none⟩
          [.node ⟨"string_fragment", 16, 18, true, false, false, none⟩ [],
           .node ⟨"template_substitution", 18, 22, true, false, false, none⟩
            [.node ⟨"identifier", 20, 21, true, false, false, none⟩ []]]],
       .node ⟨"in", 25, 27, false, false, false, some "operator"⟩ [],
       .node ⟨"identifier", 28, 29, true, false, false, some "right"⟩ [],
       .node ⟨"empty_statement", 30, 31, true, false, false, some "body"⟩ []]]

theorem fitsSource_loopOverKeys : loopOverKeys.FitsSource loopOverKeysSource := by
  decide +kernel

/-- The findings in `loopOverKeys`: the pieces of text around a substitution. -/
def loopOverKeysFindings : List Finding :=
  [⟨.templateElement, "template literal", .null, "ü", 15⟩,
   ⟨.templateElement, "template literal", .null, "", 20⟩]

theorem ofSource_loopOverKeys :
    Detection.ofSource {} loopOverKeysSource loopOverKeys =
      .ok { findings := loopOverKeysFindings, visited := 11, kind := "Program" } := by
  rw [Detection.ofSource_eq]
  simp only [Detection.ofProgram_eq]
  decide +kernel

theorem spans_well_nested_loopOverKeys :
    loopOverKeys.FitsSource loopOverKeysSource ∧
      (∃ program, build loopOverKeysSource loopOverKeys = .ok program ∧
        ∀ node ∈ program.preorder, node.WellNested loopOverKeysSource.length) ∧
      (loopOverKeysFindings.map Finding.offset).Pairwise (· ≤ ·) := by
  obtain ⟨program, hbuild, -⟩ := Detection.ofSource_eq_ok ofSource_loopOverKeys
  obtain ⟨hnested, horder⟩ := spans_well_nested fitsSource_loopOverKeys
  exact ⟨fitsSource_loopOverKeys, ⟨program, hbuild, hnested program hbuild⟩,
    horder _ _ ofSource_loopOverKeys⟩

end Ast

end EsFeatures
