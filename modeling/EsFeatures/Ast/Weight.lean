/-
  EsFeatures.Ast.Weight

  A weight for work still to be done, which every step of the conversion lowers.
  A concrete tree weighs two for each of its nodes: one for the round that takes the
  node up, and one for a node that may be made on the way, a piece of text of a
  template or the declaration in a loop's head.
-/
import EsFeatures.Ast.Expand

namespace EsFeatures.Ast

/-- The weight of one piece of work. -/
def Pending.weight : Pending → Nat
  | .convert tree => 2 * tree.size
  | .element _ => 1
  | .declaration _ _ inside => 1 + 2 * Cst.sizes inside

/-- The weight of a list of work. -/
def Pending.weights : List Pending → Nat
  | [] => 0
  | item :: rest => item.weight + Pending.weights rest

/-! ## Sizes of concrete trees -/

theorem size_eq (tree : Cst) : tree.size = 1 + Cst.sizes tree.children := by
  cases tree with
  | node l cs => rfl

theorem sizes_filter_le (p : Cst → Bool) (trees : List Cst) :
    Cst.sizes (trees.filter p) ≤ Cst.sizes trees := by
  induction trees with
  | nil => simp
  | cons t ts ih =>
    by_cases h : p t
    · rw [List.filter_cons_of_pos h]
      simp only [Cst.sizes]
      omega
    · rw [List.filter_cons_of_neg h]
      simp only [Cst.sizes]
      omega

theorem sizes_namedChildren_lt (tree : Cst) : Cst.sizes tree.namedChildren < tree.size := by
  have h := sizes_filter_le (·.label.named) tree.children
  rw [size_eq, Cst.namedChildren]
  omega

/-! ## Lists of work -/

theorem weights_append (xs ys : List Pending) :
    Pending.weights (xs ++ ys) = Pending.weights xs + Pending.weights ys := by
  induction xs with
  | nil => simp [Pending.weights]
  | cons x xs ih => simp only [List.cons_append, Pending.weights, ih]; omega

theorem weights_map_convert (trees : List Cst) :
    Pending.weights (trees.map .convert) = 2 * Cst.sizes trees := by
  induction trees with
  | nil => rfl
  | cons t ts ih =>
    simp only [List.map_cons, Pending.weights, Pending.weight, Cst.sizes, ih]
    omega

theorem weights_constructsOf_le (tree : Cst) :
    Pending.weights (constructsOf tree) ≤ 2 * Cst.sizes tree.children := by
  rw [constructsOf, weights_map_convert]
  exact Nat.mul_le_mul_left 2 (sizes_filter_le _ _)

/-- A computation of two steps succeeds when both do. -/
theorem bind_eq_ok {ε α β : Type} {x : Except ε α} {f : α → Except ε β} {b : β} :
    (x >>= f) = .ok b ↔ ∃ a, x = .ok a ∧ f a = .ok b := by
  cases x with
  | error e =>
    constructor
    · intro h
      cases h
    · rintro ⟨a, ha, -⟩
      cases ha
  | ok a =>
    constructor
    · intro h
      exact ⟨a, rfl, h⟩
    · rintro ⟨a', ha, h⟩
      cases ha
      exact h

/-! ## Loops -/

/-- The weight of the first tree under the field `name`, as long as the field is
    `open_` to be found. -/
def fieldWeight (open_ : Bool) (name : String) (trees : List Cst) : Nat :=
  if open_ then ((trees.find? (Cst.hasField name)).map fun tree => 2 * tree.size).getD 0 else 0

theorem fieldWeight_cons_of_pos {name : String} {t : Cst} (ts : List Cst)
    (h : t.hasField name = true) : fieldWeight true name (t :: ts) = 2 * t.size := by
  simp [fieldWeight, List.find?_cons_of_pos h]

theorem fieldWeight_cons_of_neg {open_ : Bool} {name : String} {t : Cst} (ts : List Cst)
    (h : ¬(open_ && t.hasField name) = true) :
    fieldWeight open_ name (t :: ts) = fieldWeight open_ name ts := by
  cases open_ with
  | false => rfl
  | true => simp [fieldWeight, List.find?_cons_of_neg (by simpa using h : ¬t.hasField name = true)]

/-- A tree stands under one field only. -/
theorem not_hasField_value_of_left {tree : Cst} (h : tree.hasField "left" = true) :
    ¬tree.hasField "value" = true := by
  simp only [Cst.hasField, beq_iff_eq] at h ⊢
  simp [h]

/-- Without a declaration a loop's work weighs at most its children. -/
theorem weights_loopItems_none_le (leftOpen valueOpen : Bool) (trees : List Cst) :
    Pending.weights (loopItems none leftOpen valueOpen trees) ≤ 2 * Cst.sizes trees := by
  fun_induction loopItems none leftOpen valueOpen trees with
  | case1 => simp [Pending.weights]
  | case2 leftOpen valueOpen t ts _ _ ih =>
    simp only [Option.getD_none, Pending.weights, Pending.weight, Cst.sizes]
    omega
  | case3 leftOpen valueOpen t ts _ _ ih => simp only [Cst.sizes]; omega
  | case4 leftOpen valueOpen t ts _ _ ih => simp only [Cst.sizes]; omega
  | case5 leftOpen valueOpen t ts _ _ _ ih =>
    simp only [Pending.weights, Pending.weight, Cst.sizes]
    omega
  | case6 leftOpen valueOpen t ts _ _ _ ih => simp only [Cst.sizes]; omega

/-- With a declaration a loop's work, together with the variable and the initial
    value that the declaration stands for, weighs at most the children and the
    declaration. -/
theorem weights_loopItems_some_le (declaration : Pending) (leftOpen valueOpen : Bool)
    (trees : List Cst) :
    Pending.weights (loopItems (some declaration) leftOpen valueOpen trees) +
        fieldWeight leftOpen "left" trees + fieldWeight valueOpen "value" trees ≤
      2 * Cst.sizes trees + if leftOpen then declaration.weight else 0 := by
  fun_induction loopItems (some declaration) leftOpen valueOpen trees with
  | case1 leftOpen valueOpen => simp [Pending.weights, fieldWeight, Cst.sizes]
  | case2 leftOpen valueOpen t ts h _ ih =>
    obtain ⟨rfl, hleft⟩ := Bool.and_eq_true_iff.mp h
    rw [fieldWeight_cons_of_pos ts hleft,
      fieldWeight_cons_of_neg ts (by simp [not_hasField_value_of_left hleft])]
    simp only [Option.getD_some, Pending.weights, Cst.sizes, if_true, Bool.false_eq_true,
      if_false] at ih ⊢
    omega
  | case3 leftOpen valueOpen t ts h _ ih =>
    obtain ⟨rfl, hleft⟩ := Bool.and_eq_true_iff.mp h
    rw [fieldWeight_cons_of_pos ts hleft,
      fieldWeight_cons_of_neg ts (by simp [not_hasField_value_of_left hleft])]
    simp only [Cst.sizes, if_true, Bool.false_eq_true, if_false] at ih ⊢
    omega
  | case4 leftOpen valueOpen t ts hleft h ih =>
    obtain ⟨rfl, hvalue⟩ := Bool.and_eq_true_iff.mp h
    rw [fieldWeight_cons_of_neg ts hleft, fieldWeight_cons_of_pos ts hvalue]
    simp only [Cst.sizes] at ih ⊢
    omega
  | case5 leftOpen valueOpen t ts hleft hvalue _ ih =>
    have hconvert : (Pending.convert t).weight = 2 * t.size := rfl
    rw [fieldWeight_cons_of_neg ts hleft, fieldWeight_cons_of_neg ts hvalue]
    simp only [Pending.weights, Cst.sizes]
    omega
  | case6 leftOpen valueOpen t ts hleft hvalue _ ih =>
    rw [fieldWeight_cons_of_neg ts hleft, fieldWeight_cons_of_neg ts hvalue]
    simp only [Cst.sizes]
    omega

/-- The declaration in a loop's head weighs at most the loop's variable, its initial
    value and one more. -/
theorem weight_of_headDeclaration {ctx : Context} {keyword left : Cst} {value : Option Cst}
    {item : Pending} (h : headDeclaration ctx keyword left value = .ok item) :
    item.weight ≤ 1 + 2 * left.size + (value.map fun tree => 2 * tree.size).getD 0 := by
  obtain ⟨declarator, -, h⟩ := bind_eq_ok.mp h
  obtain ⟨declaration, -, h⟩ := bind_eq_ok.mp h
  cases h
  cases value with
  | none =>
    simp only [Pending.weight, Cst.sizes, Option.map_none, Option.getD_none]
    omega
  | some v =>
    have hv := sizes_namedChildren_lt v
    simp only [Pending.weight, Cst.sizes, Option.map_some, Option.getD_some]
    omega

theorem weights_expandLoop {ctx : Context} {tree : Cst} {head : Head} {items : List Pending}
    (h : expandLoop ctx tree = .ok (head, items)) :
    Pending.weights items ≤ 2 * Cst.sizes tree.children + 1 := by
  obtain ⟨_, -, h⟩ := bind_eq_ok.mp h
  obtain ⟨declaration, hd, h⟩ := bind_eq_ok.mp h
  cases h
  cases declaration with
  | none =>
    have := weights_loopItems_none_le true true tree.children
    omega
  | some item =>
    have hitems := weights_loopItems_some_le item true true tree.children
    unfold headDeclaration? at hd
    split at hd
    · rename_i keyword left _ hl
      obtain ⟨_, hitem, hd⟩ := bind_eq_ok.mp hd
      cases hd
      have hw := weight_of_headDeclaration hitem
      have hleft : fieldWeight true "left" tree.children = 2 * left.size := by
        rw [Cst.child?] at hl
        simp [fieldWeight, hl]
      have hvalue : fieldWeight true "value" tree.children =
          ((tree.child? "value").map fun tree => 2 * tree.size).getD 0 := rfl
      simp only [if_true] at hitems
      omega
    · cases hd

/-! ## Templates -/

theorem weight_of_templateElement {ctx : Context} {start stop : Int} {item : Pending}
    (h : templateElement ctx start stop = .ok item) : item.weight = 1 := by
  obtain ⟨head, -, h⟩ := bind_eq_ok.mp h
  cases h
  rfl

/-- A template's work weighs at most its children and one more piece of text. -/
theorem weights_templateItems_le {ctx : Context} {stop start : Int} {trees : List Cst}
    {items : List Pending} (h : templateItems ctx stop start trees = .ok items) :
    Pending.weights items ≤ 2 * Cst.sizes trees + 1 := by
  induction trees generalizing start items with
  | nil =>
    obtain ⟨element, he, h⟩ := bind_eq_ok.mp h
    cases h
    have := weight_of_templateElement he
    simp only [Pending.weights, Cst.sizes]
    omega
  | cons t ts ih =>
    rw [templateItems] at h
    split at h
    · obtain ⟨element, he, h⟩ := bind_eq_ok.mp h
      obtain ⟨rest, hr, h⟩ := bind_eq_ok.mp h
      cases h
      have helement := weight_of_templateElement he
      have hrest := ih hr
      have hinside := weights_constructsOf_le t
      have hsize := size_eq t
      simp only [Pending.weights, weights_append, Cst.sizes]
      omega
    · have := ih h
      simp only [Cst.sizes]
      omega

theorem weights_expandTemplate {ctx : Context} {tree : Cst} {head : Head} {items : List Pending}
    (h : expandTemplate ctx tree = .ok (head, items)) :
    Pending.weights items ≤ 2 * Cst.sizes tree.children + 1 := by
  obtain ⟨_, -, h⟩ := bind_eq_ok.mp h
  obtain ⟨_, hitems, h⟩ := bind_eq_ok.mp h
  cases h
  exact weights_templateItems_le hitems

/-! ## One step -/

theorem weights_expandPlain {ctx : Context} {tree : Cst} {kind : String}
    {attrs : List (String × Scalar)} {head : Head} {items : List Pending}
    (h : expandPlain ctx tree kind attrs = .ok (head, items)) :
    Pending.weights items ≤ 2 * Cst.sizes tree.children := by
  obtain ⟨_, -, h⟩ := bind_eq_ok.mp h
  cases h
  exact weights_constructsOf_le tree

theorem weights_expandDeclaration {ctx : Context} {tree : Cst} {keyword : String} {head : Head}
    {items : List Pending} (h : expandDeclaration ctx tree keyword = .ok (head, items)) :
    Pending.weights items ≤ 2 * Cst.sizes tree.children := by
  obtain ⟨_, -, h⟩ := bind_eq_ok.mp h
  obtain ⟨_, -, h⟩ := bind_eq_ok.mp h
  cases h
  exact weights_constructsOf_le tree

theorem weights_expandKept {ctx : Context} {tree : Cst} {head : Head} {items : List Pending}
    (h : expandKept ctx tree = .ok (head, items)) :
    Pending.weights items ≤ 2 * Cst.sizes tree.children + 1 := by
  unfold expandKept at h
  split at h
  · exact Nat.le_succ_of_le (weights_expandDeclaration h)
  · exact Nat.le_succ_of_le (weights_expandDeclaration h)
  · exact Nat.le_succ_of_le (weights_expandPlain h)
  · exact Nat.le_succ_of_le (weights_expandPlain h)
  · exact Nat.le_succ_of_le (weights_expandPlain h)
  · exact Nat.le_succ_of_le (weights_expandPlain h)
  · exact Nat.le_succ_of_le (weights_expandPlain h)
  · exact Nat.le_succ_of_le (weights_expandPlain h)
  · exact Nat.le_succ_of_le (weights_expandPlain h)
  · exact Nat.le_succ_of_le (weights_expandPlain h)
  · exact weights_expandLoop h
  · exact weights_expandTemplate h
  · exact Nat.le_succ_of_le (weights_expandPlain h)

/-- One step leaves work that weighs less than the tree it took. -/
theorem weights_expand_lt {ctx : Context} {tree : Cst} {head : Head} {items : List Pending}
    (h : expand ctx tree = .ok (some (head, items))) :
    Pending.weights items < 2 * tree.size := by
  have hsize := size_eq tree
  rw [expand] at h
  split at h
  · split at h
    · rename_i expanded he
      cases h
      have := weights_expandKept he
      omega
    · cases h
  · cases h

end EsFeatures.Ast
