/-
  EsFeatures.Proofs.Placement

  What a stack of work appends to each of the lists under construction, and what the
  work below a new node adds to the store and to the stack.

  The nodes of the store are unfinished while the stack is not empty, so `final` gives
  every address the tree that it will have in the end.  `Placed` says that the finished
  children of a new node are its children so far, followed by what the new work still
  appends to them.
-/
import EsFeatures.Proofs.Conversion

namespace EsFeatures.Ast

/-! ## What a stack appends -/

/-- The nodes of a conversion that succeeds. -/
def nodesOf : Except SyntaxError (List Ast) → List Ast
  | .ok nodes => nodes
  | .error _ => []

/-- The nodes that an item appends to its list, given the finished trees of the store. -/
def Item.nodes (source : String) (final : Nat → Ast) : Item → List Ast
  | .tree t => nodesOf (conv source t)
  | .node address => [final address]

/-- The nodes that a stack of work appends to the list `target`. -/
def yields (source : String) (final : Nat → Ast) (target : Target) : List Work → List Ast
  | [] => []
  | work :: rest =>
    if work.target = target then
      work.item.nodes source final ++ yields source final target rest
    else yields source final target rest

/-- The first error of the trees on a stack. -/
def outcome (source : String) : List Work → Except SyntaxError Unit
  | [] => .ok ()
  | ⟨.tree tree, _⟩ :: rest => (conv source tree).bind fun _ => outcome source rest
  | ⟨.node _, _⟩ :: rest => outcome source rest

section Yields

variable {source : String} {final : Nat → Ast} {target : Target}

theorem yields_append (xs ys : List Work) :
    yields source final target (xs ++ ys) =
      yields source final target xs ++ yields source final target ys := by
  induction xs with
  | nil => rfl
  | cons x xs ih =>
    rw [List.cons_append, yields, yields]
    split
    · rw [ih, List.append_assoc]
    · exact ih

theorem yields_eq_nil {works : List Work} (h : ∀ work ∈ works, work.target ≠ target) :
    yields source final target works = [] := by
  induction works with
  | nil => rfl
  | cons x xs ih =>
    rw [yields, if_neg (h x List.mem_cons_self)]
    exact ih fun work hwork => h work (List.mem_cons_of_mem x hwork)

/-- Only the finished trees of the nodes on a stack matter. -/
theorem yields_congr {final' : Nat → Ast} {works : List Work}
    (h : ∀ work ∈ works, ∀ address, work.item = .node address → final' address = final address) :
    yields source final' target works = yields source final target works := by
  induction works with
  | nil => rfl
  | cons x xs ih =>
    have hitem : x.item.nodes source final' = x.item.nodes source final := by
      cases hx : x.item with
      | tree tree => rfl
      | node address =>
        rw [Item.nodes, Item.nodes, h x List.mem_cons_self address hx]
    rw [yields, yields, hitem, ih fun work hwork => h work (List.mem_cons_of_mem x hwork)]

end Yields

theorem outcome_append (source : String) (xs ys : List Work) :
    outcome source (xs ++ ys) = (outcome source xs).bind fun _ => outcome source ys := by
  fun_induction outcome source xs with
  | case1 => rfl
  | case2 tree target rest ih =>
    rw [List.cons_append, outcome]
    cases conv source tree with
    | error e => rfl
    | ok nodes => exact ih
  | case3 address target rest ih =>
    rw [List.cons_append, outcome]
    exact ih

theorem outcome_map_tree (source : String) (target : Target) (trees : List Cst) :
    outcome source (trees.map fun tree => ⟨.tree tree, target⟩) =
      (convAll source trees).map fun _ => () := by
  induction trees with
  | nil => rfl
  | cons t ts ih =>
    rw [List.map_cons, outcome, ih, convAll]
    cases conv source t with
    | error e => rfl
    | ok xs =>
      cases convAll source ts with
      | error e => rfl
      | ok ys => rfl

/-! ## Addresses in the store -/

/-- A list under construction that lies in a store of the given size. -/
def Target.InStore (size : Nat) : Target → Prop
  | .top => True
  | .below parent => parent < size

/-- Work whose list lies in the store, and whose node lies there behind the node that it
    is appended to. -/
def Work.InStore (size : Nat) : Work → Prop
  | ⟨.tree _, target⟩ => target.InStore size
  | ⟨.node address, target⟩ => address < size ∧ target.InStore address

section InStore

variable {size size' : Nat} {target : Target} {work : Work} {works : List Work}
  {source : String} {final final' : Nat → Ast}

theorem Target.InStore.mono (h : target.InStore size) (hsize : size ≤ size') :
    target.InStore size' := by
  cases target with
  | top => trivial
  | below parent => exact Nat.lt_of_lt_of_le h hsize

theorem Target.InStore.ne_below (h : target.InStore size) {address : Nat}
    (haddress : size ≤ address) : target ≠ .below address := by
  rintro rfl
  exact Nat.not_lt.mpr haddress h

theorem Work.InStore.mono (h : work.InStore size) (hsize : size ≤ size') :
    work.InStore size' := by
  obtain ⟨item, target⟩ := work
  cases item with
  | tree tree => exact Target.InStore.mono h hsize
  | node address => exact ⟨Nat.lt_of_lt_of_le h.1 hsize, h.2⟩

theorem Work.InStore.target_inStore (h : work.InStore size) : work.target.InStore size := by
  obtain ⟨item, target⟩ := work
  cases item with
  | tree tree => exact h
  | node address => exact h.2.mono (Nat.le_of_lt h.1)

/-- Work in the store is appended to no list behind it. -/
theorem yields_below_eq_nil (h : ∀ work ∈ works, work.InStore size) {address : Nat}
    (haddress : size ≤ address) : yields source final (.below address) works = [] :=
  yields_eq_nil fun work hwork => (h work hwork).target_inStore.ne_below haddress

/-- Finished trees that agree on the store agree on what work in the store appends. -/
theorem yields_congr_final (h : ∀ work ∈ works, work.InStore size)
    (hfinal : ∀ address < size, final' address = final address) :
    yields source final' target works = yields source final target works := by
  apply yields_congr
  rintro ⟨item, list⟩ hwork address rfl
  exact hfinal address (h _ hwork).1

theorem map_congr_final {addresses : Array Nat} (h : ∀ address ∈ addresses, address < size)
    (hfinal : ∀ address < size, final' address = final address) :
    addresses.toList.map final' = addresses.toList.map final := by
  apply List.map_congr_left
  intro address haddress
  exact hfinal address (h address (Array.mem_toList_iff.mp haddress))

end InStore

/-! ## Nodes under construction -/

/-- The node at an address is finished once the work on the stack is done: its finished
    children are those so far, followed by what the work appends to them. -/
structure Cell.Fits (source : String) (final : Nat → Ast) (works : List Work) (size : Nat)
    (address : Nat) (cell : Cell) : Prop where
  final_eq : final address = .node cell.head
    (cell.children.toList.map final ++ yields source final (.below address) works)
  behind : ∀ child ∈ cell.children, address < child ∧ child < size

/-- New nodes do not disturb an old one to which nothing more is appended than before. -/
theorem Cell.Fits.mono {source : String} {final final' : Nat → Ast} {works works' : List Work}
    {size size' address : Nat} {cell : Cell} (h : cell.Fits source final works size address)
    (haddress : address < size) (hsize : size ≤ size')
    (hfinal : ∀ address < size, final' address = final address)
    (hyields : yields source final' (.below address) works' =
      yields source final (.below address) works) :
    cell.Fits source final' works' size' address := by
  have hchildren := map_congr_final (fun child hchild => (h.behind child hchild).2) hfinal
  refine ⟨?_, ?_⟩
  · rw [hfinal address haddress, h.final_eq, hchildren, hyields]
  · intro child hchild
    have hbehind := h.behind child hchild
    exact ⟨hbehind.1, Nat.lt_of_lt_of_le hbehind.2 hsize⟩

/-! ## Work below a new node -/

/-- What comes of work that appends `nodes` to the list `target`: a store that goes on
    from `cells`, the finished trees of the new nodes, and work that appends to the old
    lists the nodes it should. -/
structure Placed (source : String) (target : Target) (nodes : List Ast) (cells : Array Cell)
    (final : Nat → Ast) (cells' : Array Cell) (final' : Nat → Ast) (works : List Work) : Prop where
  size_le : cells.size ≤ cells'.size
  cells_eq : ∀ address < cells.size, cells'[address]? = cells[address]?
  final_eq : ∀ address < cells.size, final' address = final address
  fits : ∀ address cell, cells.size ≤ address → cells'[address]? = some cell →
    cell.Fits source final' works cells'.size address
  appends : ∀ list : Target, list.InStore cells.size →
    yields source final' list works = if list = target then nodes else []
  inStore : ∀ work ∈ works, work.InStore cells'.size

section Placed

variable {source : String} {target : Target} {nodes : List Ast} {cells cells' : Array Cell}
  {final final' : Nat → Ast} {works : List Work}

/-- Work that has made no node leaves the store as it is. -/
theorem placed_self (final : Nat → Ast)
    (happends : ∀ list : Target, list.InStore cells.size →
      yields source final list works = if list = target then nodes else [])
    (hstore : ∀ work ∈ works, work.InStore cells.size) :
    Placed source target nodes cells final cells final works := by
  refine ⟨Nat.le_refl _, fun _ _ => rfl, fun _ _ => rfl, ?_, happends, hstore⟩
  intro address cell hge hcell
  exact absurd (Array.getElem?_eq_some_iff.mp hcell).1 (Nat.not_lt.mpr hge)

theorem placed_nil (source : String) (target : Target) (cells : Array Cell) (final : Nat → Ast) :
    Placed source target [] cells final cells final [] :=
  placed_self final (fun list _ => by rw [ite_self]; rfl) (by simp)

/-- A tree appends the nodes that it becomes. -/
theorem placed_tree (final : Nat → Ast) {tree : Cst} (htarget : target.InStore cells.size)
    (h : conv source tree = .ok nodes) :
    Placed source target nodes cells final cells final [⟨.tree tree, target⟩] := by
  refine placed_self final ?_ ?_
  · intro list _
    simp only [yields, Item.nodes, h, nodesOf, List.append_nil, eq_comm]
  · intro work hwork
    obtain rfl := List.mem_singleton.mp hwork
    exact htarget

/-- Work that is placed one piece after the other. -/
theorem Placed.append {nodes₁ nodes₂ : List Ast} {cells₁ cells₂ : Array Cell}
    {final₁ final₂ : Nat → Ast} {works₁ works₂ : List Work} (htarget : target.InStore cells.size)
    (h₁ : Placed source target nodes₁ cells final cells₁ final₁ works₁)
    (h₂ : Placed source target nodes₂ cells₁ final₁ cells₂ final₂ works₂) :
    Placed source target (nodes₁ ++ nodes₂) cells final cells₂ final₂ (works₁ ++ works₂) := by
  have hsize₁ := h₁.size_le
  have hsize₂ := h₂.size_le
  refine ⟨Nat.le_trans hsize₁ hsize₂, ?_, ?_, ?_, ?_, ?_⟩
  · intro address hlt
    rw [h₂.cells_eq address (by omega), h₁.cells_eq address hlt]
  · intro address hlt
    rw [h₂.final_eq address (by omega), h₁.final_eq address hlt]
  · intro address cell hge hcell
    by_cases hlt : address < cells₁.size
    · -- A node of the first part: the second part appends nothing to it.
      rw [h₂.cells_eq address hlt] at hcell
      refine (h₁.fits address cell hge hcell).mono hlt hsize₂ h₂.final_eq ?_
      rw [yields_append, yields_congr_final h₁.inStore h₂.final_eq, h₂.appends (.below address) hlt,
        if_neg (htarget.ne_below hge).symm, List.append_nil]
    · -- A node of the second part: the first part knows nothing of it.
      have hfits := h₂.fits address cell (by omega) hcell
      refine ⟨?_, hfits.behind⟩
      rw [yields_append, yields_congr_final h₁.inStore h₂.final_eq,
        yields_below_eq_nil h₁.inStore (by omega), List.nil_append]
      exact hfits.final_eq
  · intro list hlist
    rw [yields_append, yields_congr_final h₁.inStore h₂.final_eq, h₁.appends list hlist,
      h₂.appends list (hlist.mono hsize₁)]
    split
    · rfl
    · rfl
  · intro work hwork
    rcases List.mem_append.mp hwork with hwork | hwork
    · exact (h₁.inStore work hwork).mono hsize₂
    · exact h₂.inStore work hwork

theorem placed_trees (final : Nat → Ast) {trees : List Cst} (htarget : target.InStore cells.size)
    (h : convAll source trees = .ok nodes) :
    Placed source target nodes cells final cells final
      (trees.map fun tree => ⟨.tree tree, target⟩) := by
  induction trees generalizing nodes with
  | nil =>
    cases h
    exact placed_nil source target cells final
  | cons t ts ih =>
    obtain ⟨xs, ys, hx, hy, rfl⟩ := followedBy_eq_ok.mp h
    exact (placed_tree final htarget hx).append htarget (ih hy)

/-- The finished trees of a store with one more node. -/
def extend (final : Nat → Ast) (size : Nat) (tree : Ast) : Nat → Ast :=
  fun address => if address = size then tree else final address

@[simp] theorem extend_self (final : Nat → Ast) (size : Nat) (tree : Ast) :
    extend final size tree size = tree := if_pos rfl

theorem extend_of_ne (final : Nat → Ast) {size address : Nat} (tree : Ast) (h : address ≠ size) :
    extend final size tree address = final address := if_neg h

/-- A new node with the work below it, which goes to no older list. -/
theorem Placed.store {cell : Cell} {tree : Ast} (target : Target)
    (h : Placed source (.below cells.size) nodes (cells.push cell)
      (extend final cells.size tree) cells' final' works)
    (htree : tree = .node cell.head (cell.children.toList.map final' ++ nodes))
    (hbehind : ∀ child ∈ cell.children, cells.size < child ∧ child < cells'.size) :
    Placed source target [] cells final cells' final' works := by
  have hsize := h.size_le
  have hpush : cells.size < (cells.push cell).size := by
    rw [Array.size_push]
    omega
  refine ⟨by omega, ?_, ?_, ?_, ?_, h.inStore⟩
  · intro address hlt
    rw [h.cells_eq address (by omega), Array.getElem?_push, if_neg (by omega)]
  · intro address hlt
    rw [h.final_eq address (by omega), extend_of_ne _ _ (by omega)]
  · intro address cell' hge hcell
    -- The first new address is that of the stored node, the others belong to the work.
    rcases Nat.eq_or_lt_of_le hge with rfl | hgt
    · rw [h.cells_eq _ hpush, Array.getElem?_push, if_pos rfl, Option.some.injEq] at hcell
      subst hcell
      refine ⟨?_, hbehind⟩
      rw [h.final_eq _ hpush, extend_self, htree, h.appends (.below cells.size) hpush, if_pos rfl]
    · exact h.fits address cell' (by rw [Array.size_push]; omega) hcell
  · intro list hlist
    rw [h.appends list (hlist.mono (by omega)), if_neg (hlist.ne_below (Nat.le_refl _)), ite_self]

/-- A new node on the stack, to be appended to the list before everything else. -/
theorem Placed.cons_node {address : Nat} (h : Placed source target nodes cells final cells' final' works)
    (htarget : target.InStore cells.size) (hge : cells.size ≤ address)
    (hlt : address < cells'.size) :
    Placed source target (final' address :: nodes) cells final cells' final'
      (⟨.node address, target⟩ :: works) := by
  refine ⟨h.size_le, h.cells_eq, h.final_eq, ?_, ?_, ?_⟩
  · intro place cell hplace hcell
    have hfits := h.fits place cell hplace hcell
    refine ⟨?_, hfits.behind⟩
    rw [yields, if_neg (htarget.ne_below hplace)]
    exact hfits.final_eq
  · intro list hlist
    rw [yields, h.appends list hlist]
    by_cases heq : target = list
    · rw [if_pos heq, if_pos heq.symm, if_pos heq.symm]
      rfl
    · rw [if_neg heq, if_neg fun h => heq h.symm, if_neg fun h => heq h.symm]
  · intro work hwork
    rcases List.mem_cons.mp hwork with rfl | hwork
    · exact ⟨hlt, htarget.mono hge⟩
    · exact h.inStore work hwork

/-- A new node is finished when the work below it is, and is appended to its list. -/
theorem Placed.node (head : Head) (htarget : target.InStore cells.size)
    (h : Placed source (.below cells.size) nodes (cells.push { head })
      (extend final cells.size (.node head nodes)) cells' final' works) :
    Placed source target [.node head nodes] cells final cells' final'
      (⟨.node cells.size, target⟩ :: works) := by
  have hpush : cells.size < (cells.push { head }).size := by
    rw [Array.size_push]
    omega
  have hnew : final' cells.size = .node head nodes := by
    rw [h.final_eq _ hpush, extend_self]
  have hstored := h.store target rfl (by simp)
  rw [← hnew]
  exact hstored.cons_node htarget (Nat.le_refl _) (Nat.lt_of_lt_of_le hpush h.size_le)

/-- A declaration is stored with its declarator, and the work goes below the
    declarator. -/
theorem placed_declaration (final : Nat → Ast) (head declarator : Head) {inside : List Cst}
    (htarget : target.InStore cells.size) (hinside : convAll source inside = .ok nodes) :
    ∃ final', Placed source target [.node head [.node declarator nodes]] cells final
      ((cells.push { head, children := #[cells.size + 1] }).push { head := declarator }) final'
      (⟨.node cells.size, target⟩ ::
        inside.map fun tree => ⟨.tree tree, .below (cells.size + 1)⟩) := by
  obtain ⟨outer, houter, hsize⟩ : ∃ outer : Array Cell,
      outer = cells.push { head, children := #[cells.size + 1] } ∧ outer.size = cells.size + 1 :=
    ⟨_, rfl, by rw [Array.size_push]⟩
  rw [← houter, ← hsize]
  let final₁ := extend final cells.size (.node head [.node declarator nodes])
  let final₂ := extend final₁ outer.size (.node declarator nodes)
  have hold : final₂ cells.size = .node head [.node declarator nodes] := by
    show extend final₁ outer.size (.node declarator nodes) cells.size = _
    rw [extend_of_ne _ _ (by omega)]
    exact extend_self final cells.size _
  -- The declarator is stored last, so it comes first in the argument.
  have hdeclarator : Placed source (.below cells.size) [] outer final₁
      (outer.push { head := declarator }) final₂
      (inside.map fun tree => ⟨.tree tree, .below outer.size⟩) := by
    have htrees := placed_trees final₂ (show (Target.below outer.size).InStore
      (outer.push { head := declarator }).size by simp [Target.InStore]) hinside
    exact htrees.store (.below cells.size) rfl (by simp)
  rw [houter] at hdeclarator
  have hdeclaration := hdeclarator.store target (by simp [final₂, ← hsize]) (by simp)
  rw [← houter] at hdeclaration
  refine ⟨final₂, ?_⟩
  rw [← hold]
  exact hdeclaration.cons_node htarget (Nat.le_refl _) (by simp; omega)

end Placed

/-- A piece of work appends to its parent the nodes that it becomes. -/
theorem placed_place {source : String} {parent : Nat} {cells : Array Cell} (final : Nat → Ast)
    {item : Pending} {nodes : List Ast} (hparent : parent < cells.size)
    (h : convItem source item = .ok nodes) :
    ∃ final', Placed source (.below parent) nodes cells final (place parent cells item).1 final'
      (place parent cells item).2 := by
  have htarget : (Target.below parent).InStore cells.size := hparent
  cases item with
  | convert tree => exact ⟨final, placed_tree final htarget h⟩
  | element head =>
    cases h
    exact ⟨_, .node head htarget (placed_nil _ _ _ _)⟩
  | declaration head declarator inside =>
    rw [convItem] at h
    cases hinside : convAll source inside with
    | error e =>
      rw [hinside] at h
      cases h
    | ok xs =>
      rw [hinside] at h
      cases h
      exact placed_declaration final head declarator htarget hinside

theorem placeAll_cons (parent : Nat) (cells : Array Cell) (item : Pending) (rest : List Pending) :
    placeAll parent cells (item :: rest) =
      ((placeAll parent (place parent cells item).1 rest).1,
        (place parent cells item).2 ++ (placeAll parent (place parent cells item).1 rest).2) := rfl

/-- A list of work appends to its parent the nodes that it becomes, in order. -/
theorem placed_placeAll {source : String} {parent : Nat} {cells : Array Cell} (final : Nat → Ast)
    {items : List Pending} {nodes : List Ast} (hparent : parent < cells.size)
    (h : convItems source items = .ok nodes) :
    ∃ final', Placed source (.below parent) nodes cells final (placeAll parent cells items).1 final'
      (placeAll parent cells items).2 := by
  induction items generalizing cells final nodes with
  | nil =>
    cases h
    exact ⟨final, placed_nil source (.below parent) cells final⟩
  | cons item rest ih =>
    obtain ⟨xs, ys, hx, hy, rfl⟩ := followedBy_eq_ok.mp h
    obtain ⟨final₁, h₁⟩ := placed_place final hparent hx
    obtain ⟨final₂, h₂⟩ := ih final₁ (Nat.lt_of_lt_of_le hparent h₁.size_le) hy
    rw [placeAll_cons]
    exact ⟨final₂, h₁.append hparent h₂⟩

/-- Work below a node is never appended to the list at the top. -/
theorem target_ne_top_of_mem_placeAll {parent : Nat} {cells : Array Cell} {items : List Pending}
    {work : Work} (h : work ∈ (placeAll parent cells items).2) : work.target ≠ .top := by
  induction items generalizing cells with
  | nil => cases h
  | cons item rest ih =>
    rw [placeAll_cons] at h
    rcases List.mem_append.mp h with h | h
    · cases item with
      | convert tree =>
        obtain rfl := List.mem_singleton.mp h
        simp
      | element head =>
        obtain rfl := List.mem_singleton.mp h
        simp
      | declaration head declarator inside =>
        rcases List.mem_cons.mp h with rfl | h
        · simp
        · obtain ⟨tree, -, rfl⟩ := List.mem_map.mp h
          simp
    · exact ih h

theorem outcome_place (source : String) (parent : Nat) (cells : Array Cell) (item : Pending) :
    outcome source (place parent cells item).2 = (convItem source item).map fun _ => () := by
  cases item with
  | convert tree =>
    show (conv source tree).bind (fun _ => .ok ()) = _
    rw [convItem]
    cases conv source tree <;> rfl
  | element head => rfl
  | declaration head declarator inside =>
    show outcome source (inside.map fun tree => ⟨.tree tree, .below (cells.size + 1)⟩) = _
    rw [outcome_map_tree, convItem]
    cases convAll source inside <;> rfl

/-- The first error of the work that a list of work puts on the stack is the first
    error of the list. -/
theorem outcome_placeAll (source : String) (parent : Nat) (cells : Array Cell)
    (items : List Pending) :
    outcome source (placeAll parent cells items).2 = (convItems source items).map fun _ => () := by
  induction items generalizing cells with
  | nil => rfl
  | cons item rest ih =>
    rw [placeAll_cons, outcome_append, outcome_place, ih, convItems]
    cases convItem source item with
    | error e => rfl
    | ok xs =>
      cases convItems source rest with
      | error e => rfl
      | ok ys => rfl

end EsFeatures.Ast
