/-
  EsFeatures.Proofs.Provenance

  The nodes of a converted tree and the sites of the concrete one are the same, in the
  same order, and no two sites are alike: a conversion that succeeds makes the node of
  every site exactly once, and one that fails does so with the first refusal among the
  sites.
-/
import Mathlib.Data.List.Nodup
import EsFeatures.Proofs.Sites
import EsFeatures.Proofs.Walk

namespace EsFeatures.Ast

/-! ## Heads in pre-order -/

/-- The heads of the nodes of a conversion, in pre-order. -/
def headsOf (result : Except SyntaxError (List Ast)) : Except SyntaxError (List Head) :=
  result.map fun nodes => (preorders nodes).map Ast.head

theorem headsOf_followedBy (x y : Except SyntaxError (List Ast)) :
    headsOf (followedBy x y) = followedBy (headsOf x) (headsOf y) := by
  cases x with
  | error e => rfl
  | ok xs =>
    cases y with
    | error e => rfl
    | ok ys =>
      show Except.ok ((preorders (xs ++ ys)).map Ast.head) = _
      rw [preorders_append, List.map_append]
      rfl

theorem headsOf_node (head : Head) (below : Except SyntaxError (List Ast)) :
    headsOf (below.map fun nodes => [.node head nodes]) =
      followedBy (.ok [head]) (headsOf below) := by
  cases below with
  | error e => rfl
  | ok nodes =>
    show Except.ok ((preorders [.node head nodes]).map Ast.head) = _
    rw [preorders_cons, List.append_nil]
    rfl

/-- The heads of the nodes that are made from some origins, or the first refusal among
    them. -/
def verdict (source : String) (origins : List Origin) : Except SyntaxError (List Head) :=
  match origins.findSome? (Origin.refusal? source) with
  | some e => .error e
  | none => .ok (origins.map (Origin.head source))

theorem verdict_append (source : String) (xs ys : List Origin) :
    verdict source (xs ++ ys) = followedBy (verdict source xs) (verdict source ys) := by
  rw [verdict, verdict, verdict, List.findSome?_append]
  cases xs.findSome? (Origin.refusal? source) with
  | some e => rfl
  | none =>
    cases ys.findSome? (Origin.refusal? source) with
    | some e => rfl
    | none =>
      rw [List.map_append]
      rfl

/-! ## Pieces of work in pre-order -/

/-- A piece of work in pre-order: heads of nodes already made, and trees. -/
def Pending.pieces : Pending → List (Head ⊕ Cst)
  | .convert tree => [.inr tree]
  | .element head => [.inl head]
  | .declaration head declarator inside => .inl head :: .inl declarator :: inside.map .inr

/-- The same of a part of a construct. -/
def Part.piece (source : String) : Part → Head ⊕ Cst
  | .made origin => .inl (origin.head source)
  | .below _ tree => .inr tree

/-- The heads that pieces of work come to, in pre-order. -/
def pieceHeads (source : String) : List (Head ⊕ Cst) → Except SyntaxError (List Head)
  | [] => .ok []
  | .inl head :: rest => followedBy (.ok [head]) (pieceHeads source rest)
  | .inr tree :: rest => followedBy (headsOf (conv source tree)) (pieceHeads source rest)

theorem pieceHeads_append (source : String) (xs ys : List (Head ⊕ Cst)) :
    pieceHeads source (xs ++ ys) = followedBy (pieceHeads source xs) (pieceHeads source ys) := by
  fun_induction pieceHeads source xs with
  | case1 => rw [List.nil_append, ok_nil_followedBy]
  | case2 head rest ih => rw [List.cons_append, pieceHeads, ih, followedBy_assoc]
  | case3 tree rest ih => rw [List.cons_append, pieceHeads, ih, followedBy_assoc]

theorem pieceHeads_map_inr (source : String) (trees : List Cst) :
    pieceHeads source (trees.map .inr) = headsOf (convAll source trees) := by
  induction trees with
  | nil => rfl
  | cons t ts ih => rw [List.map_cons, pieceHeads, ih, convAll, headsOf_followedBy]

theorem pieceHeads_pieces (source : String) (item : Pending) :
    pieceHeads source item.pieces = headsOf (convItem source item) := by
  cases item with
  | convert tree =>
    show followedBy (headsOf (conv source tree)) (.ok []) = _
    rw [convItem]
    cases conv source tree with
    | error e => rfl
    | ok nodes =>
      show Except.ok (_ ++ []) = _
      rw [List.append_nil]
      rfl
  | element head => rfl
  | declaration head declarator inside =>
    rw [Pending.pieces, pieceHeads, pieceHeads, pieceHeads_map_inr, convItem]
    cases convAll source inside with
    | error e => rfl
    | ok nodes =>
      show Except.ok (head :: declarator :: (preorders nodes).map Ast.head) =
        Except.ok ((preorders [.node head [.node declarator nodes]]).map Ast.head)
      rw [preorders_cons, List.append_nil, preorders_cons, List.append_nil]
      rfl

/-- The nodes of a list of work are those of its pieces. -/
theorem headsOf_convItems (source : String) (items : List Pending) :
    headsOf (convItems source items) = pieceHeads source (items.flatMap Pending.pieces) := by
  induction items with
  | nil => rfl
  | cons item rest ih =>
    rw [convItems, headsOf_followedBy, ih, List.flatMap_cons, pieceHeads_append, pieceHeads_pieces]

/-! ## Work and parts -/

theorem map_piece_constructParts (source : String) (way : List Nat) (tree : Cst) :
    (constructParts way tree).map (Part.piece source) = tree.namedChildren.map .inr := by
  have hfst := List.zipIdx_map_fst 0 tree.children
  calc (constructParts way tree).map (Part.piece source)
      = ((tree.children.zipIdx.filter fun x => x.1.label.named).map Prod.fst).map .inr := by
        rw [constructParts, List.map_map, List.map_map]
        rfl
    _ = ((tree.children.zipIdx.map Prod.fst).filter fun t => t.label.named).map .inr := by
        rw [List.filter_map]
        rfl
    _ = tree.namedChildren.map .inr := by
        rw [hfst]
        rfl

theorem pieces_constructsOf (tree : Cst) :
    (constructsOf tree).flatMap Pending.pieces = tree.namedChildren.map .inr := by
  rw [constructsOf, List.flatMap_map]
  exact List.flatMap_pure_eq_map Sum.inr tree.namedChildren

theorem pieces_templateItemsOf (source : String) (stop start : Int) (index : Nat)
    (xs : List (Cst × Nat)) :
    (templateItemsOf source stop start (xs.map Prod.fst)).flatMap Pending.pieces =
      (templateParts stop index start xs).map (Part.piece source) := by
  fun_induction templateParts stop index start xs with
  | case1 index start => rfl
  | case2 index start child i rest hsub ih =>
    rw [List.map_cons, templateItemsOf, if_pos hsub, List.flatMap_cons, List.flatMap_append,
      pieces_constructsOf, ih, List.map_cons, List.map_append, map_piece_constructParts]
    rfl
  | case3 index start child i rest hsub ih =>
    rw [List.map_cons, templateItemsOf, if_neg hsub, ih]

/-- `FirstFrom name index? isOpen k trees`: of the trees at the positions from `k` on,
    the one at the position `index?` is the first under the field `name`, as long as
    the search for it is still open. -/
def FirstFrom (name : String) (index? : Option Nat) (isOpen : Bool) (k : Nat)
    (trees : List Cst) : Prop :=
  ∀ i, k ≤ i → (index? = some i ↔
    isOpen = true ∧ (trees.findIdx? (Cst.hasField name)).map (· + k) = some i)

theorem firstFrom_children (tree : Cst) (name : String) :
    FirstFrom name (tree.childIndex? name) true 0 tree.children := by
  intro i _
  simp [Cst.childIndex?]

section FirstFrom

variable {name : String} {index? : Option Nat} {isOpen : Bool} {k : Nat} {t : Cst} {ts : List Cst}

theorem FirstFrom.head_iff (h : FirstFrom name index? isOpen k (t :: ts)) :
    index? = some k ↔ (isOpen && t.hasField name) = true := by
  rw [h k (Nat.le_refl k), Bool.and_eq_true, List.findIdx?_cons]
  cases ht : t.hasField name with
  | true => simp
  | false =>
    -- A position found further on is not `k`.
    constructor
    · rintro ⟨-, hfind⟩
      obtain ⟨i, hi, hk⟩ := Option.map_eq_some_iff.mp hfind
      obtain ⟨j, -, rfl⟩ := Option.map_eq_some_iff.mp hi
      omega
    · rintro ⟨-, hfound⟩
      cases hfound

/-- Once the tree is found the search is closed. -/
theorem FirstFrom.found (h : FirstFrom name index? isOpen k (t :: ts))
    (hfound : (isOpen && t.hasField name) = true) : FirstFrom name index? false (k + 1) ts := by
  intro i hi
  rw [h.head_iff.mpr hfound]
  simp only [Option.some.injEq, Bool.false_eq_true, false_and, iff_false]
  omega

theorem FirstFrom.skip (h : FirstFrom name index? isOpen k (t :: ts))
    (hskip : ¬(isOpen && t.hasField name) = true) : FirstFrom name index? isOpen (k + 1) ts := by
  intro i hi
  rw [h i (by omega)]
  cases isOpen with
  | false => simp
  | true =>
    have ht : t.hasField name = false := by simpa using hskip
    rw [List.findIdx?_cons, ht]
    simp only [Bool.false_eq_true, if_false, Option.map_map]
    rw [show ((fun i => i + k) ∘ fun i => i + 1) = fun i => i + (k + 1) from by
      funext j
      simp only [Function.comp_apply]
      omega]

end FirstFrom

/-- The declaration in the place of a loop's variable has the parts of the variable. -/
theorem pieces_loopDeclaration? (source : String) {tree left : Cst} {i : Nat}
    (hleft : tree.child? "left" = some left) :
    ((loopDeclaration? source tree).getD (.convert left)).pieces =
      (variableParts tree left i).map (Part.piece source) := by
  rw [loopDeclaration?, loopHeads?, hleft, variableParts]
  cases hkind : tree.child? "kind" with
  | none => rfl
  | some keyword =>
    cases hvalue : tree.child? "value" with
    | none =>
      cases hindex : tree.childIndex? "value" with
      | none => rfl
      | some v => rfl
    | some value =>
      obtain ⟨v, hindex, -⟩ := Cst.child?_eq_some hvalue
      rw [hindex]
      simp only [List.map_cons, map_piece_constructParts]
      rfl

/-- The work below a loop has the parts of its children.  Both go through the children
    in order; the work remembers whether the variable and the initial value have been
    seen, the parts know their positions. -/
theorem pieces_loopItems (source : String) (tree : Cst) (leftOpen valueOpen : Bool) (k : Nat)
    (trees : List Cst) (hleft : FirstFrom "left" (tree.childIndex? "left") leftOpen k trees)
    (hvalue : FirstFrom "value" (tree.childIndex? "value") valueOpen k trees)
    (hget : ∀ i t, trees[i]? = some t → tree.children[k + i]? = some t) :
    (loopItems (loopDeclaration? source tree) leftOpen valueOpen trees).flatMap Pending.pieces =
      ((trees.zipIdx k).flatMap (loopPart tree)).map (Part.piece source) := by
  induction trees generalizing leftOpen valueOpen k with
  | nil => rfl
  | cons t ts ih =>
    have ht : tree.children[k]? = some t := hget 0 t rfl
    have hrest : ∀ i u, ts[i]? = some u → tree.children[k + 1 + i]? = some u := by
      intro i u hu
      rw [Nat.add_assoc, Nat.add_comm 1 i]
      exact hget (i + 1) u hu
    rw [loopItems, List.zipIdx_cons, List.flatMap_cons, List.map_append, loopPart]
    by_cases hl : (leftOpen && t.hasField "left") = true
    · -- The variable: a child stands under one field only, so it is not the initial value.
      have hv : ¬(valueOpen && t.hasField "value") = true := by
        simp [not_hasField_value_of_left (Bool.and_eq_true_iff.mp hl).2]
      have hindex := hleft.head_iff.mpr hl
      have htail := ih false valueOpen (k + 1) (hleft.found hl) (hvalue.skip hv) hrest
      obtain ⟨left, hget', hchild, -⟩ := Cst.childIndex?_eq_some hindex
      rw [ht, Option.some.injEq] at hget'
      subst hget'
      rw [if_pos hl, if_pos hindex]
      split
      · rw [List.flatMap_cons, htail, pieces_loopDeclaration? source hchild]
      · exact htail
    · have hindex : tree.childIndex? "left" ≠ some k := fun h => hl (hleft.head_iff.mp h)
      rw [if_neg hl, if_neg hindex]
      by_cases hv : (valueOpen && t.hasField "value") = true
      · -- The initial value: it leaves no work of its own.
        have htail := ih leftOpen false (k + 1) (hleft.skip hl) (hvalue.found hv) hrest
        rw [if_pos hv, if_pos (hvalue.head_iff.mpr hv)]
        exact htail
      · have htail := ih leftOpen valueOpen (k + 1) (hleft.skip hl) (hvalue.skip hv) hrest
        rw [if_neg hv, if_neg fun h => hv (hvalue.head_iff.mp h)]
        split
        · rw [List.flatMap_cons, htail]
          rfl
        · exact htail

/-- The work below a construct has the construct's parts. -/
theorem pieces_itemsOf (source : String) (tree : Cst) :
    (itemsOf source tree).flatMap Pending.pieces = (partsOf tree).map (Part.piece source) := by
  rw [itemsOf, partsOf]
  split
  · exact pieces_loopItems source tree true true 0 tree.children (firstFrom_children tree "left")
      (firstFrom_children tree "value") fun i t ht => by rwa [Nat.zero_add]
  · split
    · have hparts := pieces_templateItemsOf source (tree.endByte - 1) (tree.startByte + 1) 0
        tree.children.zipIdx
      rwa [List.zipIdx_map_fst] at hparts
    · rw [pieces_constructsOf, map_piece_constructParts]

/-! ## The nodes of a conversion -/

theorem origin_under (way : List Nat) (sites : List Site) :
    (sites.map (Site.under way)).map Site.origin = sites.map Site.origin := by
  rw [List.map_map]
  rfl

/-- Only constructs are refused. -/
theorem Makes.refusal?_eq {tree : Cst} {origin : Origin} (h : Makes tree origin)
    (source : String) : origin.refusal? source = none := by
  cases h with
  | declaration => rfl
  | declarator => rfl
  | segment => rfl

theorem pieceHeads_parts (source : String) (parts : List Part)
    (hmade : ∀ origin, .made origin ∈ parts → origin.refusal? source = none)
    (hbelow : ∀ way child, .below way child ∈ parts →
      headsOf (conv source child) = verdict source ((sites child).map Site.origin)) :
    pieceHeads source (parts.map (Part.piece source)) =
      verdict source ((parts.flatMap Part.sites).map Site.origin) := by
  induction parts with
  | nil => rfl
  | cons part parts ih =>
    have htail := ih (fun origin h => hmade origin (List.mem_cons_of_mem _ h))
      fun way child h => hbelow way child (List.mem_cons_of_mem _ h)
    rw [List.flatMap_cons, List.map_append, verdict_append, ← htail, List.map_cons]
    cases part with
    | made origin =>
      have hone : verdict source [origin] = .ok [origin.head source] := by
        rw [verdict, List.findSome?_cons, hmade origin List.mem_cons_self]
        rfl
      rw [Part.piece, pieceHeads]
      show _ = followedBy (verdict source [origin]) _
      rw [hone]
    | below way child =>
      rw [Part.piece, pieceHeads, hbelow way child List.mem_cons_self, Part.sites, origin_under]

/-- A conversion makes the nodes of the tree's sites, in order, or fails with the first
    refusal among them. -/
theorem headsOf_conv (source : String) (tree : Cst) :
    headsOf (conv source tree) = verdict source ((sites tree).map Site.origin) := by
  induction tree using handed_induction with
  | _ tree ih =>
    rw [conv_eq]
    cases hkept : isKept tree with
    | false =>
      rw [sites_of_not_isKept hkept]
      rfl
    | true =>
      have hparts := pieceHeads_parts source (partsOf tree)
        (fun origin h => (makes_of_mem_partsOf h).refusal?_eq source)
        fun way child h => ih way child (below_mem_partsOf.mp h)
      have hcons : (sites tree).map Site.origin =
          [Origin.construct tree] ++ ((partsOf tree).flatMap Part.sites).map Site.origin := by
        rw [sites_of_isKept hkept]
        rfl
      rw [if_pos rfl, hcons, verdict_append, ← hparts, ← pieces_itemsOf, ← headsOf_convItems, verdict,
        List.findSome?_cons, Origin.refusal?]
      cases refusal? source tree with
      | some e => rfl
      | none => exact headsOf_node (headOf source tree) _

/-! ## No site twice -/

/-- `Ahead tree way way'`: of two trees that `tree` hands on, the one at `way` comes
    before the one at `way'`. -/
inductive Ahead (tree : Cst) : List Nat → List Nat → Prop
  /-- It stands further to the left. -/
  | fork {i j : Nat} (way rest rest' : List Nat) : i < j →
    Ahead tree (way ++ i :: rest) (way ++ j :: rest')
  /-- It stands below the initial value of a loop, and the other one between that and
      the variable with which it goes. -/
  | hoisted {i j v k : Nat} : tree.childIndex? "left" = some i →
    tree.childIndex? "value" = some v → i < j → j < v → Ahead tree [v, k] [j]
  /-- The other one stands below an initial value to the left of its variable. -/
  | lowered {i j v k : Nat} : tree.childIndex? "left" = some i →
    tree.childIndex? "value" = some v → v < j → j ≤ i → Ahead tree [j] [v, k]

theorem not_cons_prefix_cons {i j : Nat} (h : i ≠ j) (way way' : List Nat) :
    ¬ i :: way <+: j :: way' := fun hprefix => h (List.cons_prefix_cons.mp hprefix).1

/-- Neither of two such trees stands below the other. -/
theorem Ahead.apart {tree : Cst} {way way' : List Nat} (h : Ahead tree way way') :
    ¬ way <+: way' ∧ ¬ way' <+: way := by
  cases h with
  | fork way rest rest' hlt =>
    rw [List.prefix_append_right_inj, List.prefix_append_right_inj]
    exact ⟨not_cons_prefix_cons (by omega) _ _, not_cons_prefix_cons (by omega) _ _⟩
  | hoisted =>
    exact ⟨not_cons_prefix_cons (by omega) _ _, not_cons_prefix_cons (by omega) _ _⟩
  | lowered =>
    exact ⟨not_cons_prefix_cons (by omega) _ _, not_cons_prefix_cons (by omega) _ _⟩

/-- What tells a part of a tree from the later ones: another role, or its place. -/
def Part.Ahead (tree : Cst) : Part → Part → Prop
  | .made origin, .made origin' => origin.role ≠ origin'.role
  | .below way _, .below way' _ => Ast.Ahead tree way way'
  | _, _ => True

theorem pairwise_zipIdx {α : Type} (xs : List α) :
    xs.zipIdx.Pairwise fun x y => x.2 < y.2 := by
  have hrange : (xs.zipIdx.map Prod.snd).Pairwise (· < ·) := by
    rw [List.zipIdx_map_snd]
    exact List.pairwise_lt_range'
  exact List.pairwise_map.mp hrange

theorem pairwise_constructParts (tree : Cst) (way : List Nat) (inner : Cst) :
    (constructParts way inner).Pairwise (Part.Ahead tree) := by
  refine List.pairwise_map.mpr (((pairwise_zipIdx inner.children).filter _).imp ?_)
  intro x y hlt
  exact .fork way [] [] hlt

theorem pairwise_variableParts {tree left : Cst} {i : Nat}
    (hleft : tree.childIndex? "left" = some i) :
    (variableParts tree left i).Pairwise (Part.Ahead tree) := by
  rw [variableParts]
  split
  · exact List.pairwise_singleton _ _
  · split
    · rename_i v value hv hvalue
      have hne : i ≠ v := by
        intro heq
        exact Cst.childIndex?_ne (by decide) hleft (heq ▸ hv)
      refine List.pairwise_cons.mpr ⟨?_, List.pairwise_cons.mpr ⟨?_, List.pairwise_cons.mpr ⟨?_, ?_⟩⟩⟩
      · intro part hpart
        rcases List.mem_cons.mp hpart with rfl | hpart
        · simp [Part.Ahead, Origin.role]
        · rcases List.mem_cons.mp hpart with rfl | hpart
          · trivial
          · obtain ⟨j, child, -, -, rfl⟩ := mem_constructParts.mp hpart
            trivial
      · intro part hpart
        rcases List.mem_cons.mp hpart with rfl | hpart
        · trivial
        · obtain ⟨j, child, -, -, rfl⟩ := mem_constructParts.mp hpart
          trivial
      · intro part hpart
        obtain ⟨j, child, -, -, rfl⟩ := mem_constructParts.mp hpart
        rcases Nat.lt_or_gt_of_ne hne with hlt | hlt
        · exact .fork [] [] [j] hlt
        · exact .lowered hleft hv hlt (Nat.le_refl i)
      · exact pairwise_constructParts tree [v] value
    · simp [Part.Ahead, Origin.role]

theorem pairwise_loopPart (tree : Cst) (x : Cst × Nat) :
    (loopPart tree x).Pairwise (Part.Ahead tree) := by
  rw [loopPart]
  split
  · rename_i hleft
    split
    · exact pairwise_variableParts hleft
    · exact List.Pairwise.nil
  · split
    · exact List.Pairwise.nil
    · split
      · exact List.pairwise_singleton _ _
      · exact List.Pairwise.nil

/-- What goes with a loop's variable comes before the children behind the variable. -/
theorem ahead_of_mem_variableParts {tree left child : Cst} {i j : Nat} {part : Part}
    (hleft : tree.childIndex? "left" = some i) (hlt : i < j)
    (hj : tree.childIndex? "value" ≠ some j) (h : part ∈ variableParts tree left i) :
    part.Ahead tree (.below [j] child) := by
  rcases mem_variableParts.mp h with rfl | ⟨keyword, -, rfl | rfl | ⟨v, value, hv, -, h⟩⟩
  · exact .fork [] [] [] hlt
  · trivial
  · trivial
  · obtain ⟨k, d, -, -, rfl⟩ := mem_constructParts.mp h
    -- The initial value may stand on either side of the child.
    have hne : v ≠ j := fun heq => hj (heq ▸ hv)
    rcases Nat.lt_or_gt_of_ne hne with hvj | hvj
    · exact .fork [] [k] [] hvj
    · exact .hoisted hleft hv hlt hvj

/-- What goes with a loop's variable comes behind the children before the variable. -/
theorem ahead_mem_variableParts {tree left child : Cst} {i j : Nat} {part : Part}
    (hleft : tree.childIndex? "left" = some i) (hlt : j < i)
    (hj : tree.childIndex? "value" ≠ some j) (h : part ∈ variableParts tree left i) :
    Part.Ahead tree (.below [j] child) part := by
  rcases mem_variableParts.mp h with rfl | ⟨keyword, -, rfl | rfl | ⟨v, value, hv, -, h⟩⟩
  · exact .fork [] [] [] hlt
  · trivial
  · trivial
  · obtain ⟨k, d, -, -, rfl⟩ := mem_constructParts.mp h
    have hne : v ≠ j := fun heq => hj (heq ▸ hv)
    rcases Nat.lt_or_gt_of_ne hne with hvj | hvj
    · exact .lowered hleft hv hvj (Nat.le_of_lt hlt)
    · exact .fork [] [] [k] hvj

theorem pairwise_loopParts (tree : Cst) :
    (tree.children.zipIdx.flatMap (loopPart tree)).Pairwise (Part.Ahead tree) := by
  refine List.pairwise_flatMap.mpr ⟨fun x _ => pairwise_loopPart tree x, ?_⟩
  refine (pairwise_zipIdx tree.children).imp ?_
  rintro ⟨c, i⟩ ⟨d, j⟩ hlt p hp q hq
  obtain ⟨-, hi, rfl | ⟨hleft, hp⟩⟩ := mem_loopPart hp
  · obtain ⟨-, hj, rfl | ⟨hleft', hq⟩⟩ := mem_loopPart hq
    · exact .fork [] [] [] hlt
    · exact ahead_mem_variableParts hleft' hlt hi hq
  · obtain ⟨-, hj, rfl | ⟨hleft', hq⟩⟩ := mem_loopPart hq
    · exact ahead_of_mem_variableParts hleft hlt hj hp
    · rw [hleft, Option.some.injEq] at hleft'
      exact absurd hleft' (Nat.ne_of_lt hlt)

theorem pairwise_templateParts (tree : Cst) (stop start : Int) (index : Nat)
    (xs : List (Cst × Nat)) (hxs : xs.Pairwise fun x y => x.2 < y.2) :
    (templateParts stop index start xs).Pairwise (Part.Ahead tree) := by
  fun_induction templateParts stop index start xs with
  | case1 index start => exact List.pairwise_singleton _ _
  | case2 index start child i rest hsub ih =>
    obtain ⟨hlt, hrest⟩ := List.pairwise_cons.mp hxs
    refine List.pairwise_cons.mpr ⟨?_, List.pairwise_append.mpr
      ⟨pairwise_constructParts tree [i] child, ih hrest, ?_⟩⟩
    · intro part hpart
      rcases List.mem_append.mp hpart with hpart | hpart
      · obtain ⟨j, d, -, -, rfl⟩ := mem_constructParts.mp hpart
        trivial
      · rcases mem_templateParts hpart with ⟨k, a, b, rfl, hle, -⟩ | ⟨x, -, -, hpart⟩
        · simp only [Part.Ahead, Origin.role, ne_eq, Role.segment.injEq]
          omega
        · obtain ⟨j, d, -, -, rfl⟩ := mem_constructParts.mp hpart
          trivial
    · intro p hp q hq
      obtain ⟨j, d, -, -, rfl⟩ := mem_constructParts.mp hp
      rcases mem_templateParts hq with ⟨k, a, b, rfl, -, -⟩ | ⟨x, hx, -, hq⟩
      · trivial
      · obtain ⟨j', d', -, -, rfl⟩ := mem_constructParts.mp hq
        exact .fork [] [j] [j'] (hlt x hx)
  | case3 index start child i rest hsub ih => exact ih (List.pairwise_cons.mp hxs).2

/-- The parts of a construct follow one another. -/
theorem pairwise_partsOf (tree : Cst) : (partsOf tree).Pairwise (Part.Ahead tree) := by
  rw [partsOf]
  split
  · exact pairwise_loopParts tree
  · split
    · exact pairwise_templateParts tree _ _ _ _ (pairwise_zipIdx tree.children)
    · exact pairwise_constructParts tree [] tree

/-- What tells a site from all others of its tree. -/
def Site.key (site : Site) : List Nat × Role :=
  (site.path, site.origin.role)

theorem Makes.role_ne {tree : Cst} {origin : Origin} (h : Makes tree origin) :
    origin.role ≠ .construct := by
  cases h with
  | declaration => exact Role.noConfusion
  | declarator => exact Role.noConfusion
  | segment => exact Role.noConfusion

theorem Handed.way_ne_nil {tree child : Cst} {way : List Nat} (h : Handed tree way child) :
    way ≠ [] := by
  cases h with
  | child => exact List.cons_ne_nil _ _
  | value => exact List.cons_ne_nil _ _
  | substitution => exact List.cons_ne_nil _ _

/-- The sites of parts that follow one another have no key in common. -/
theorem disjoint_keys {tree : Cst} {p q : Part} (hp : p ∈ partsOf tree) (hq : q ∈ partsOf tree)
    (h : p.Ahead tree q) : List.Disjoint (p.sites.map Site.key) (q.sites.map Site.key) := by
  intro key hpkey hqkey
  obtain ⟨site, hsite, rfl⟩ := List.mem_map.mp hpkey
  obtain ⟨site', hsite', heq⟩ := List.mem_map.mp hqkey
  rw [Site.key, Site.key, Prod.mk.injEq] at heq
  cases p with
  | made origin =>
    obtain rfl := List.mem_singleton.mp hsite
    cases q with
    | made origin' =>
      obtain rfl := List.mem_singleton.mp hsite'
      exact h heq.2.symm
    | below way child =>
      obtain ⟨inner, -, rfl⟩ := List.mem_map.mp hsite'
      have hway := (below_mem_partsOf.mp hq).way_ne_nil
      exact hway (List.append_eq_nil_iff.mp heq.1).1
  | below way child =>
    obtain ⟨inner, -, rfl⟩ := List.mem_map.mp hsite
    cases q with
    | made origin' =>
      obtain rfl := List.mem_singleton.mp hsite'
      have hway := (below_mem_partsOf.mp hp).way_ne_nil
      exact hway (List.append_eq_nil_iff.mp heq.1.symm).1
    | below way' child' =>
      obtain ⟨inner', -, rfl⟩ := List.mem_map.mp hsite'
      -- One of two ways to the same path goes on where the other ends.
      rcases List.append_eq_append_iff.mp heq.1 with ⟨rest, hrest, -⟩ | ⟨rest, hrest, -⟩
      · exact (Ahead.apart h).2 ⟨rest, hrest.symm⟩
      · exact (Ahead.apart h).1 ⟨rest, hrest.symm⟩

/-- No two sites of a tree have the same path and the same role. -/
theorem nodup_keys (tree : Cst) : ((sites tree).map Site.key).Nodup := by
  induction tree using handed_induction with
  | _ tree ih =>
    cases hkept : isKept tree with
    | false =>
      rw [sites_of_not_isKept hkept]
      exact List.nodup_nil
    | true =>
      rw [sites_of_isKept hkept, List.map_cons, List.map_flatMap, List.nodup_cons, List.nodup_flatMap]
      refine ⟨?_, ?_, ?_⟩
      · -- A part has another role than the construct itself, or lies below it.
        intro hmem
        obtain ⟨part, hpart, hkey⟩ := List.mem_flatMap.mp hmem
        obtain ⟨site, hsite, heq⟩ := List.mem_map.mp hkey
        rw [Site.key, Site.key, Prod.mk.injEq] at heq
        cases part with
        | made origin =>
          obtain rfl := List.mem_singleton.mp hsite
          exact (makes_of_mem_partsOf hpart).role_ne heq.2
        | below way child =>
          obtain ⟨inner, -, rfl⟩ := List.mem_map.mp hsite
          exact (below_mem_partsOf.mp hpart).way_ne_nil (List.append_eq_nil_iff.mp heq.1).1
      · intro part hpart
        cases part with
        | made origin => exact List.nodup_singleton _
        | below way child =>
          have hinner := ih way child (below_mem_partsOf.mp hpart)
          have hmap : ((sites child).map (Site.under way)).map Site.key =
              ((sites child).map Site.key).map fun key => (way ++ key.1, key.2) := by
            rw [List.map_map, List.map_map]
            rfl
          rw [Part.sites, hmap]
          refine hinner.map ?_
          rintro ⟨path, role⟩ ⟨path', role'⟩ heq
          rw [Prod.mk.injEq] at heq
          exact Prod.ext (List.append_cancel_left heq.1) heq.2
      · exact (pairwise_partsOf tree).imp_of_mem fun hp hq hahead => disjoint_keys hp hq hahead

/-! ## The sites of a tree -/

/-- `Converted tree path node`: the conversion of `tree` comes to the construct `node`
    at `path`. -/
inductive Converted : Cst → List Nat → Cst → Prop
  | root {tree : Cst} : isKept tree = true → Converted tree [] tree
  | onward {tree child node : Cst} {way path : List Nat} : isKept tree = true →
    Handed tree way child → Converted child path node → Converted tree (way ++ path) node

theorem Converted.at? {tree node : Cst} {path : List Nat} (h : Converted tree path node) :
    tree.at? path = some node := by
  induction h with
  | root => rfl
  | onward _ hhanded _ ih =>
    rw [Cst.at?_append, hhanded.at?]
    exact ih

theorem Converted.isKept {tree node : Cst} {path : List Nat} (h : Converted tree path node) :
    isKept node = true := by
  induction h with
  | root hkept => exact hkept
  | onward _ _ _ ih => exact ih

/-- The sites of a tree are the constructs that its conversion comes to and the parts
    that these make beside their own node. -/
theorem exists_part_of_mem_sites {tree : Cst} {site : Site} :
    site ∈ sites tree → ∃ node, Converted tree site.path node ∧
      (site.origin = .construct node ∨ .made site.origin ∈ partsOf node) := by
  induction tree using handed_induction generalizing site with
  | _ tree ih =>
    intro h
    cases hkept : isKept tree with
    | false =>
      rw [sites_of_not_isKept hkept] at h
      cases h
    | true =>
      rw [sites_of_isKept hkept] at h
      rcases List.mem_cons.mp h with rfl | h
      · exact ⟨tree, .root hkept, Or.inl rfl⟩
      · obtain ⟨part, hpart, hsite⟩ := List.mem_flatMap.mp h
        cases part with
        | made origin =>
          obtain rfl := List.mem_singleton.mp hsite
          exact ⟨tree, .root hkept, Or.inr hpart⟩
        | below way child =>
          obtain ⟨inner, hinner, rfl⟩ := List.mem_map.mp hsite
          have hhanded := below_mem_partsOf.mp hpart
          obtain ⟨node, hconverted, horigin⟩ := ih way child hhanded hinner
          exact ⟨node, .onward hkept hhanded hconverted, horigin⟩

theorem mem_sites {tree : Cst} {site : Site} (h : site ∈ sites tree) :
    ∃ node, Converted tree site.path node ∧
      (site.origin = .construct node ∨ Makes node site.origin) := by
  obtain ⟨node, hconverted, horigin⟩ := exists_part_of_mem_sites h
  exact ⟨node, hconverted, horigin.imp_right makes_of_mem_partsOf⟩

theorem converted_of_mem_sites {tree node : Cst} {site : Site} (h : site ∈ sites tree)
    (hnode : site.origin = .construct node) : Converted tree site.path node := by
  obtain ⟨node', hconverted, horigin | hmakes⟩ := mem_sites h
  · rw [hnode] at horigin
    cases horigin
    exact hconverted
  · rw [hnode] at hmakes
    cases hmakes

theorem Converted.mem_sites {tree node : Cst} {path : List Nat} (h : Converted tree path node) :
    ⟨path, .construct node⟩ ∈ sites tree := by
  induction h with
  | root hkept =>
    rw [sites_of_isKept hkept]
    exact List.mem_cons_self
  | onward hkept hhanded _ ih =>
    rw [sites_of_isKept hkept]
    refine List.mem_cons_of_mem _ (List.mem_flatMap.mpr ⟨_, below_mem_partsOf.mpr hhanded, ?_⟩)
    exact List.mem_map.mpr ⟨_, ih, rfl⟩

end EsFeatures.Ast
