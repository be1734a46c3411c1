/-
  EsFeatures.Proofs.WorkStack

  The conversion by a stack of work gives the tree of the recursion on the concrete
  tree.

  `Fits` says of a machine that the finished children of each of its nodes are the
  children so far, followed by what the stack still appends to them.  No round changes
  the finished tree of an address: it only adds addresses, and moves nodes from the
  stack into the lists.
-/
import EsFeatures.Proofs.Placement

namespace EsFeatures.Ast

/-! ## One round -/

namespace Machine

/-- The machine with one more piece of work on its stack. -/
def push (m : Machine) (work : Work) : Machine :=
  { m with stack := work :: m.stack }

@[simp] theorem top_push (m : Machine) (work : Work) : (m.push work).top = m.top := rfl

@[simp] theorem stack_push (m : Machine) (work : Work) :
    (m.push work).stack = work :: m.stack := rfl

theorem step_push_node (ctx : Context) (m : Machine) (address : Nat) (target : Target) :
    (m.push ⟨.node address, target⟩).step ctx = some (.ok (m.append target address)) := rfl

theorem step_push_tree (source : String) (m : Machine) (tree : Cst) (target : Target) :
    (m.push ⟨.tree tree, target⟩).step (.ofSource source) =
      some (if isKept tree then
        match refusal? source tree with
        | some e => .error (.invalid e)
        | none =>
          .ok ((m.unfold (headOf source tree) (itemsOf source tree)).append target m.cells.size)
        else .ok m) := by
  simp only [step, stack_push, expand_ofSource]
  cases isKept tree with
  | false => rfl
  | true =>
    cases refusal? source tree with
    | none => rfl
    | some e => rfl

/-- Everything that a round can do: append a node, drop a token or a comment, refuse a
    declaration, or make a node and put the work below it on the stack. -/
theorem step_cases {source : String} {m : Machine} {result : Except Failure Machine}
    (h : m.step (.ofSource source) = some result) :
    (∃ m₀ address target, m = push m₀ ⟨.node address, target⟩ ∧
      result = .ok (m₀.append target address)) ∨
    (∃ m₀ tree target, m = push m₀ ⟨.tree tree, target⟩ ∧ isKept tree = false ∧
      result = .ok m₀) ∨
    (∃ m₀ tree target e, m = push m₀ ⟨.tree tree, target⟩ ∧ isKept tree = true ∧
      refusal? source tree = some e ∧ result = .error (.invalid e)) ∨
    ∃ m₀ tree target, m = push m₀ ⟨.tree tree, target⟩ ∧ isKept tree = true ∧
      refusal? source tree = none ∧
      result = .ok ((m₀.unfold (headOf source tree) (itemsOf source tree)).append target
        m₀.cells.size) := by
  -- A machine with work on its stack is one with less work, and the first piece.
  obtain ⟨top, cells, stack⟩ := m
  cases stack with
  | nil => cases h
  | cons work stack =>
    obtain ⟨item, target⟩ := work
    change (push ⟨top, cells, stack⟩ ⟨item, target⟩).step (.ofSource source) = some result at h
    cases item with
    | node address =>
      rw [step_push_node, Option.some.injEq] at h
      exact Or.inl ⟨⟨top, cells, stack⟩, address, target, rfl, h.symm⟩
    | tree tree =>
      rw [step_push_tree, Option.some.injEq] at h
      cases hkept : isKept tree with
      | false =>
        rw [hkept] at h
        exact Or.inr (Or.inl ⟨⟨top, cells, stack⟩, tree, target, rfl, hkept, h.symm⟩)
      | true =>
        rw [hkept, if_pos rfl] at h
        cases hrefusal : refusal? source tree with
        | some e =>
          rw [hrefusal] at h
          exact Or.inr (Or.inr (Or.inl
            ⟨⟨top, cells, stack⟩, tree, target, e, rfl, hkept, hrefusal, h.symm⟩))
        | none =>
          rw [hrefusal] at h
          exact Or.inr (Or.inr (Or.inr
            ⟨⟨top, cells, stack⟩, tree, target, rfl, hkept, hrefusal, h.symm⟩))

/-! ## The invariant -/

/-- The store and the stack fit together: every node is finished once the stack is
    empty, and no address leads out of the store. -/
structure Fits (source : String) (final : Nat → Ast) (m : Machine) : Prop where
  fits : ∀ address (cell : Cell), m.cells[address]? = some cell →
    cell.Fits source final m.stack m.cells.size address
  top_lt : ∀ address ∈ m.top, address < m.cells.size
  inStore : ∀ work ∈ m.stack, work.InStore m.cells.size

/-- The trees that the list at the top holds in the end. -/
def finalTop (source : String) (final : Nat → Ast) (m : Machine) : List Ast :=
  m.top.toList.map final ++ yields source final .top m.stack

theorem fits_start (source : String) (tree : Cst) (final : Nat → Ast) :
    Fits source final (start tree) := by
  refine ⟨?_, ?_, ?_⟩
  · intro address cell hcell
    simp [start] at hcell
  · intro address haddress
    simp [start] at haddress
  · intro work hwork
    obtain rfl := List.mem_singleton.mp hwork
    trivial

theorem finalTop_start (source : String) (tree : Cst) (final : Nat → Ast) :
    finalTop source final (start tree) = nodesOf (conv source tree) := by
  simp [finalTop, start, yields, Item.nodes]

section Fits

variable {source : String} {final final' : Nat → Ast} {m : Machine} {work : Work}
  {cells : Array Cell} {works : List Work}

/-- The old lists get from new work what they would have got from the work that it
    replaces. -/
theorem yields_replace (h : Fits source final (m.push work))
    (hplaced : Placed source work.target (work.item.nodes source final) m.cells final cells final'
      works) {list : Target} (hlist : list.InStore m.cells.size) :
    yields source final' list (works ++ m.stack) = yields source final list (work :: m.stack) := by
  have hstack : yields source final' list m.stack = yields source final list m.stack :=
    yields_congr_final (fun x hx => h.inStore x (List.mem_cons_of_mem _ hx)) hplaced.final_eq
  rw [yields_append, hplaced.appends list hlist, hstack, yields]
  by_cases heq : list = work.target
  · rw [if_pos heq, if_pos heq.symm]
  · rw [if_neg heq, if_neg fun h => heq h.symm]
    rfl

/-- Work on the stack may be replaced by other work that appends the same nodes. -/
theorem Fits.replace (h : Fits source final (m.push work))
    (hplaced : Placed source work.target (work.item.nodes source final) m.cells final cells final'
      works) :
    Fits source final' { m with cells, stack := works ++ m.stack } ∧
      finalTop source final' { m with cells, stack := works ++ m.stack } =
        finalTop source final (m.push work) := by
  have hrest : ∀ x ∈ m.stack, x.InStore m.cells.size :=
    fun x hx => h.inStore x (List.mem_cons_of_mem _ hx)
  refine ⟨⟨?_, ?_, ?_⟩, ?_⟩
  · intro address cell hcell
    by_cases hlt : address < m.cells.size
    · rw [hplaced.cells_eq address hlt] at hcell
      exact (h.fits address cell hcell).mono hlt hplaced.size_le hplaced.final_eq
        (yields_replace h hplaced hlt)
    · -- Only new work is appended to a new node.
      have hfits := hplaced.fits address cell (Nat.le_of_not_lt hlt) hcell
      refine ⟨?_, hfits.behind⟩
      rw [yields_append, yields_below_eq_nil hrest (Nat.le_of_not_lt hlt), List.append_nil]
      exact hfits.final_eq
  · intro address haddress
    exact Nat.lt_of_lt_of_le (h.top_lt address haddress) hplaced.size_le
  · intro x hx
    rcases List.mem_append.mp hx with hx | hx
    · exact hplaced.inStore x hx
    · exact (hrest x hx).mono hplaced.size_le
  · have htop : m.top.toList.map final' = m.top.toList.map final :=
      map_congr_final h.top_lt hplaced.final_eq
    have hyields := yields_replace h hplaced (show Target.InStore m.cells.size .top from trivial)
    show m.top.toList.map final' ++ yields source final' .top (works ++ m.stack) = _
    rw [htop, hyields]
    rfl

end Fits

/-- The nodes of the store after one of them has got another child. -/
theorem getElem?_append_below {m : Machine} {parent address place : Nat} {cell : Cell}
    (h : (m.append (.below parent) address).cells[place]? = some cell) :
    ∃ cell₀, m.cells[place]? = some cell₀ ∧ cell.head = cell₀.head ∧
      cell.children = if place = parent then cell₀.children.push address else cell₀.children := by
  simp only [Machine.append, Array.getElem?_modify] at h
  by_cases hplace : parent = place
  · rw [if_pos hplace, Option.map_eq_some_iff] at h
    obtain ⟨cell₀, hcell₀, rfl⟩ := h
    exact ⟨cell₀, hcell₀, rfl, by rw [if_pos hplace.symm]⟩
  · rw [if_neg hplace] at h
    exact ⟨cell, h, rfl, by rw [if_neg fun heq => hplace heq.symm]⟩

theorem size_cells_append (m : Machine) (target : Target) (address : Nat) :
    (m.append target address).cells.size = m.cells.size := by
  cases target with
  | top => rfl
  | below parent => exact Array.size_modify

/-- A node that gets the first node on the stack as its child stays finished in the end,
    and so does every other one. -/
theorem Fits.fits_append {source : String} {final : Nat → Ast} {m : Machine} {address : Nat}
    {target : Target} (h : Fits source final (m.push ⟨.node address, target⟩)) {place : Nat}
    {cell : Cell} (hcell : (m.append target address).cells[place]? = some cell) :
    cell.Fits source final m.stack m.cells.size place := by
  obtain ⟨hlt, hbehind⟩ := h.inStore _ List.mem_cons_self
  cases target with
  | top =>
    have hfits := h.fits place cell hcell
    exact ⟨hfits.final_eq, hfits.behind⟩
  | below parent =>
    obtain ⟨cell₀, hcell₀, hhead, hchildren⟩ := getElem?_append_below hcell
    have hfits := h.fits place cell₀ hcell₀
    by_cases hplace : place = parent
    · -- The first node on the stack is now the last of the children so far.
      subst hplace
      rw [if_pos rfl] at hchildren
      refine ⟨?_, ?_⟩
      · rw [hfits.final_eq, stack_push, yields, if_pos rfl, hhead, hchildren]
        simp [Item.nodes]
      · intro child hchild
        rw [hchildren] at hchild
        rcases Array.mem_push.mp hchild with hchild | rfl
        · exact hfits.behind child hchild
        · exact ⟨hbehind, hlt⟩
    · rw [if_neg hplace] at hchildren
      have hother : Target.below parent ≠ .below place := by
        intro heq
        cases heq
        exact hplace rfl
      refine ⟨?_, ?_⟩
      · rw [hfits.final_eq, stack_push, yields, if_neg hother, hhead, hchildren]
      · rw [hchildren]
        exact hfits.behind

/-- A node that is appended to its list moves from the stack to the end of that list. -/
theorem Fits.append {source : String} {final : Nat → Ast} {m : Machine} {address : Nat}
    {target : Target} (h : Fits source final (m.push ⟨.node address, target⟩)) :
    Fits source final (m.append target address) ∧
      finalTop source final (m.append target address) =
        finalTop source final (m.push ⟨.node address, target⟩) := by
  have hrest : ∀ work ∈ m.stack, work.InStore m.cells.size :=
    fun work hwork => h.inStore work (List.mem_cons_of_mem _ hwork)
  refine ⟨⟨?_, ?_, ?_⟩, ?_⟩
  · intro place cell hcell
    rw [stack_append, size_cells_append]
    exact h.fits_append hcell
  · intro child hchild
    rw [size_cells_append]
    cases target with
    | top =>
      rcases Array.mem_push.mp hchild with hchild | rfl
      · exact h.top_lt child hchild
      · exact (h.inStore _ List.mem_cons_self).1
    | below parent => exact h.top_lt child hchild
  · rw [stack_append, size_cells_append]
    exact hrest
  · rw [finalTop, finalTop, stack_append, stack_push, yields]
    cases target with
    | top =>
      rw [if_pos rfl]
      simp [Machine.append, Item.nodes]
    | below parent =>
      rw [if_neg (by simp)]
      rfl

/-- A round that succeeds keeps the invariant and the trees at the top, as long as
    nothing on the stack is refused. -/
theorem Fits.step {source : String} {final : Nat → Ast} {m m' : Machine}
    (h : Fits source final m) (hstep : m.step (.ofSource source) = some (.ok m'))
    (houtcome : outcome source m.stack = .ok ()) :
    ∃ final', Fits source final' m' ∧
      finalTop source final' m' = finalTop source final m := by
  rcases step_cases hstep with ⟨m₀, address, target, rfl, heq⟩ | ⟨m₀, tree, target, rfl, hkept, heq⟩ |
    ⟨m₀, tree, target, e, rfl, -, -, heq⟩ | ⟨m₀, tree, target, rfl, hkept, hrefusal, heq⟩
  · cases heq
    exact ⟨final, h.append⟩
  · cases heq
    have hnone : (Item.tree tree).nodes source final = [] := by
      rw [Item.nodes, conv_of_not_isKept hkept]
      rfl
    exact ⟨final, h.replace (hnone ▸ placed_nil source target m'.cells final)⟩
  · cases heq
  · cases heq
    have hconv : conv source tree = (convItems source (itemsOf source tree)).map
        fun nodes => [.node (headOf source tree) nodes] := by
      rw [conv_eq, hkept, if_pos rfl, hrefusal]
    cases hitems : convItems source (itemsOf source tree) with
    | error e =>
      rw [stack_push, outcome, hconv, hitems] at houtcome
      cases houtcome
    | ok nodes =>
      have hnodes : (Item.tree tree).nodes source final = [.node (headOf source tree) nodes] := by
        rw [Item.nodes, hconv, hitems]
        rfl
      -- The new node is finished from the start: its children are those of the recursion.
      obtain ⟨final', hplaced⟩ := placed_placeAll
        (extend final m₀.cells.size (.node (headOf source tree) nodes))
        (by simp : m₀.cells.size < (m₀.cells.push { head := headOf source tree }).size) hitems
      have htarget : target.InStore m₀.cells.size := h.inStore _ List.mem_cons_self
      obtain ⟨hfits, htop⟩ := h.replace (hnodes ▸ hplaced.node (headOf source tree) htarget)
      exact ⟨final', hfits.append.1, hfits.append.2.trans htop⟩

/-- A round leaves the first error on the stack as it is, or ends with it. -/
theorem outcome_step {source : String} {m : Machine} {result : Except Failure Machine}
    (hstep : m.step (.ofSource source) = some result) :
    (∃ m', result = .ok m' ∧ outcome source m'.stack = outcome source m.stack) ∨
      ∃ e, result = .error (.invalid e) ∧ outcome source m.stack = .error e := by
  rcases step_cases hstep with ⟨m₀, address, target, rfl, heq⟩ | ⟨m₀, tree, target, rfl, hkept, heq⟩ |
    ⟨m₀, tree, target, e, rfl, hkept, hrefusal, heq⟩ | ⟨m₀, tree, target, rfl, hkept, hrefusal, heq⟩
  · refine Or.inl ⟨_, heq, ?_⟩
    rw [stack_append, stack_push, outcome]
  · refine Or.inl ⟨_, heq, ?_⟩
    rw [stack_push, outcome, conv_of_not_isKept hkept]
    rfl
  · refine Or.inr ⟨e, heq, ?_⟩
    rw [stack_push, outcome, conv_eq, hkept, if_pos rfl, hrefusal]
    rfl
  · refine Or.inl ⟨_, heq, ?_⟩
    rw [stack_append, stack_push, outcome, conv_eq, hkept, if_pos rfl, hrefusal]
    show outcome source (_ ++ m₀.stack) = _
    rw [outcome_append, outcome_placeAll]
    cases convItems source (itemsOf source tree) with
    | error e => rfl
    | ok nodes => rfl

/-! ## All rounds -/

theorem step_eq_none {ctx : Context} {m : Machine} (h : m.step ctx = none) : m.stack = [] := by
  unfold step at h
  split at h
  · assumption
  · cases h
  · split at h
    all_goals cases h

/-- The rounds end with the first error on the stack. -/
theorem run_error {source : String} {m : Machine} {e : SyntaxError}
    (h : outcome source m.stack = .error e) :
    m.run (.ofSource source) = .error (.invalid e) := by
  fun_induction run (.ofSource source) m with
  | case1 m hstep =>
    rw [step_eq_none hstep] at h
    cases h
  | case2 m failure hstep =>
    rcases outcome_step hstep with ⟨m', heq, -⟩ | ⟨e', heq, houtcome⟩
    · cases heq
    · rw [h] at houtcome
      cases houtcome
      exact heq
  | case3 m m' hstep ih =>
    rcases outcome_step hstep with ⟨_, heq, houtcome⟩ | ⟨e', heq, -⟩
    · cases heq
      exact ih (houtcome.trans h)
    · cases heq

/-- Where nothing is refused, the rounds end with an empty stack and the same trees at
    the top. -/
theorem run_ok {source : String} {final : Nat → Ast} {m : Machine} (hfits : Fits source final m)
    (h : outcome source m.stack = .ok ()) :
    ∃ m' final', m.run (.ofSource source) = .ok m' ∧ m'.stack = [] ∧ Fits source final' m' ∧
      finalTop source final' m' = finalTop source final m := by
  fun_induction run (.ofSource source) m generalizing final with
  | case1 m hstep => exact ⟨m, final, rfl, step_eq_none hstep, hfits, rfl⟩
  | case2 m failure hstep =>
    rcases outcome_step hstep with ⟨m', heq, -⟩ | ⟨e, -, houtcome⟩
    · cases heq
    · rw [h] at houtcome
      cases houtcome
  | case3 m m' hstep ih =>
    obtain ⟨final₁, hfits₁, htop₁⟩ := hfits.step hstep h
    have houtcome : outcome source m'.stack = .ok () := by
      rcases outcome_step hstep with ⟨_, heq, houtcome⟩ | ⟨e, heq, -⟩
      · cases heq
        exact houtcome.trans h
      · cases heq
    obtain ⟨m₂, final₂, hrun, hstack, hfits₂, htop₂⟩ := ih hfits₁ houtcome
    exact ⟨m₂, final₂, hrun, hstack, hfits₂, htop₂.trans htop₁⟩

/-! ## Reading the store -/

/-- Once the stack is empty, the trees read from the end of the store on are the
    finished ones: each node is read after its children, which stand behind it. -/
theorem foldr_read {source : String} {final : Nat → Ast} {m : Machine}
    (h : Fits source final m) (hstack : m.stack = []) (before after : List Cell)
    (hcells : m.cells.toList = before ++ after) :
    (after.foldr (read m.cells.size) #[]).size = after.length ∧
      ∀ i < after.length,
        (after.foldr (read m.cells.size) #[])[i]? = some (final (m.cells.size - 1 - i)) := by
  have hsize : m.cells.size = before.length + after.length := by
    rw [← Array.length_toList, hcells, List.length_append]
  induction after generalizing before with
  | nil => exact ⟨rfl, fun i hi => absurd hi (Nat.not_lt_zero i)⟩
  | cons cell after ih =>
    rw [List.length_cons] at hsize
    obtain ⟨hlength, hdone⟩ := ih (before ++ [cell]) (by simp [hcells])
      (by rw [hsize, List.length_append, List.length_singleton]; omega)
    have hcell : m.cells[before.length]? = some cell := by
      rw [← Array.getElem?_toList, hcells]
      simp
    -- All children have been read, since they stand behind the node.
    have hread : (cell :: after).foldr (read m.cells.size) #[] =
        (after.foldr (read m.cells.size) #[]).push (final before.length) := by
      rw [List.foldr_cons, read, (h.fits before.length cell hcell).final_eq, hstack, yields, List.append_nil]
      congr 2
      apply List.map_congr_left
      intro child hchild
      have hbehind := (h.fits before.length cell hcell).behind child (by simpa using hchild)
      have hindex := hdone (m.cells.size - 1 - child) (by omega)
      rw [Array.getD_eq_getD_getElem?, hindex, Option.getD_some]
      congr 1
      omega
    rw [hread]
    refine ⟨by rw [Array.size_push, hlength, List.length_cons], ?_⟩
    intro i hi
    rw [List.length_cons] at hi
    rw [Array.getElem?_push, hlength]
    split
    · rename_i heq
      congr 2
      omega
    · exact hdone i (by omega)

/-- Once the stack is empty, an address stands for its finished tree. -/
theorem tree_eq {source : String} {final : Nat → Ast} {m : Machine} {address : Nat}
    (h : Fits source final m) (hstack : m.stack = []) (hlt : address < m.cells.size) :
    m.tree address = final address := by
  obtain ⟨-, htrees⟩ := foldr_read h hstack [] m.cells.toList rfl
  have hindex := htrees (m.cells.size - 1 - address) (by simp; omega)
  rw [Array.foldr_toList] at hindex
  rw [tree, trees, Array.getD_eq_getD_getElem?, hindex, Option.getD_some]
  congr 1
  omega

/-! ## The number of rounds and the list at the top -/

/-- `Reaches ctx n m m'`: after `n` rounds that succeed, `m` has become `m'`. -/
inductive Reaches (ctx : Context) : Nat → Machine → Machine → Prop
  | refl (m : Machine) : Reaches ctx 0 m m
  | round {n : Nat} {m m₁ m' : Machine} :
    m.step ctx = some (.ok m₁) → Reaches ctx n m₁ m' → Reaches ctx (n + 1) m m'

/-- There are no more rounds than there is weight on the stack. -/
theorem Reaches.weights_le {ctx : Context} {n : Nat} {m m' : Machine} (h : Reaches ctx n m m') :
    n + Work.weights m'.stack ≤ Work.weights m.stack := by
  induction h with
  | refl m => omega
  | round hstep _ ih =>
    have := weights_step_lt hstep
    omega

/-- The rounds come to an end: at an empty stack or at a refusal, whichever the result
    tells. -/
theorem run_reaches (ctx : Context) (m : Machine) :
    ∃ n m', Reaches ctx n m m' ∧
      ((m'.step ctx = none ∧ m.run ctx = .ok m') ∨
        ∃ e, m'.step ctx = some (.error e) ∧ m.run ctx = .error e) := by
  fun_induction run ctx m with
  | case1 m hstep => exact ⟨0, m, .refl m, Or.inl ⟨hstep, rfl⟩⟩
  | case2 m e hstep => exact ⟨0, m, .refl m, Or.inr ⟨e, hstep, rfl⟩⟩
  | case3 m m₁ hstep ih =>
    obtain ⟨n, m', hreaches, hend⟩ := ih
    exact ⟨n + 1, m', .round hstep hreaches, hend⟩

/-- The length that the list at the top can still reach. -/
def room (m : Machine) : Nat :=
  m.top.size + m.stack.countP (·.target = .top)

theorem room_append (m : Machine) (item : Item) (target : Target) (address : Nat) :
    (m.append target address).room = (m.push ⟨item, target⟩).room := by
  cases target with
  | top =>
    simp [room, Machine.append]
    omega
  | below parent => simp [room, Machine.append]

theorem room_unfold (m : Machine) (head : Head) (items : List Pending) :
    (m.unfold head items).room = m.room := by
  have hworks : (placeAll m.cells.size (m.cells.push { head }) items).2.countP
      (·.target = .top) = 0 := by
    rw [List.countP_eq_zero]
    intro work hwork
    simpa using target_ne_top_of_mem_placeAll hwork
  show m.top.size + List.countP _ (_ ++ m.stack) = _
  rw [List.countP_append, hworks, Nat.zero_add, room]

/-- No round gives the list at the top more room. -/
theorem room_step {source : String} {m m' : Machine}
    (h : m.step (.ofSource source) = some (.ok m')) : m'.room ≤ m.room := by
  rcases step_cases h with ⟨m₀, address, target, rfl, heq⟩ | ⟨m₀, tree, target, rfl, -, heq⟩ |
    ⟨m₀, tree, target, e, rfl, -, -, heq⟩ | ⟨m₀, tree, target, rfl, -, -, heq⟩
  · cases heq
    exact Nat.le_of_eq (room_append m₀ (.node address) target address)
  · cases heq
    simp only [room, top_push, stack_push, List.countP_cons]
    omega
  · cases heq
  · cases heq
    rw [room_append _ (.tree tree)]
    simp only [room, top_push, stack_push, List.countP_cons]
    have hunfold := room_unfold m₀ (headOf source tree) (itemsOf source tree)
    simp only [room] at hunfold
    omega

theorem Reaches.room_le {source : String} {n : Nat} {m m' : Machine}
    (h : Reaches (.ofSource source) n m m') : m'.room ≤ m.room := by
  induction h with
  | refl m => exact Nat.le_refl _
  | round hstep _ ih => exact Nat.le_trans ih (room_step hstep)

/-- The list at the top never holds more than one node. -/
theorem Reaches.top_size_le {source : String} {tree : Cst} {n : Nat} {m : Machine}
    (h : Reaches (.ofSource source) n (start tree) m) : m.top.size ≤ 1 := by
  have hroom : m.top.size + _ ≤ (start tree).room := h.room_le
  have hstart : (start tree).room = 1 := rfl
  omega

end Machine

/-! ## The conversion -/

/-- The tree of a conversion is the first one in the list at the top. -/
theorem build_of_run {source : String} {tree : Cst} {m : Machine}
    (h : (Machine.start tree).run (.ofSource source) = .ok m) :
    build source tree = .ok ((m.top[0]?.map m.tree).getD (emptyProgram source)) := by
  rw [build, h]
  cases hget : m.top[0]? with
  | none =>
    simp only [bind, Except.bind, hget]
    rfl
  | some address =>
    simp only [bind, Except.bind, hget]
    rfl

/-- Once the stack is empty, the list at the top stands for its finished trees. -/
theorem Machine.map_tree_top {source : String} {final : Nat → Ast} {m : Machine}
    (h : m.Fits source final) (hstack : m.stack = []) : m.top[0]?.map m.tree = m.top[0]?.map final := by
  cases hget : m.top[0]? with
  | none => rfl
  | some address =>
    have hlt := h.top_lt address (Array.mem_of_getElem? hget)
    rw [Option.map_some, Option.map_some, Machine.tree_eq h hstack hlt]

/-- The conversion by a stack of work gives the tree of the recursion, or its first
    error. -/
theorem build_eq (source : String) (tree : Cst) :
    build source tree = (convert source tree).mapError .invalid := by
  have houtcome : outcome source (Machine.start tree).stack =
      (conv source tree).map fun _ => () := by
    show (conv source tree).bind (fun _ => .ok ()) = _
    cases conv source tree with
    | error e => rfl
    | ok nodes => rfl
  cases hconv : conv source tree with
  | error e =>
    rw [hconv] at houtcome
    rw [build, convert, Machine.run_error houtcome, hconv]
    rfl
  | ok nodes =>
    rw [hconv] at houtcome
    obtain ⟨m, final, hrun, hstack, hfits, htop⟩ :=
      Machine.run_ok (Machine.fits_start source tree default) houtcome
    -- With an empty stack the trees at the top are those of the recursion.
    rw [Machine.finalTop_start, Machine.finalTop, hstack, yields, List.append_nil, hconv] at htop
    have hnodes : nodes = m.top.toList.map final := htop.symm
    rw [build_of_run hrun, Machine.map_tree_top hfits hstack, convert, hconv]
    show _ = Except.ok (nodes.headD (emptyProgram source))
    rw [hnodes, List.headD_eq_head?_getD, List.head?_map, List.head?_eq_getElem?,
      Array.getElem?_toList]

/-- The conversion by a stack of work refines the recursion on the tree: it gives the
    same tree or the same error.  It does so in at most two rounds for each node of the
    concrete tree, after which the stack is empty or a declaration is refused, and the
    list at the top never holds more than one node. -/
theorem build_refines_convert (source : String) (tree : Cst) :
    build source tree = (convert source tree).mapError .invalid ∧
      (∀ rounds m, Machine.Reaches (.ofSource source) rounds (.start tree) m →
        rounds ≤ 2 * tree.size ∧ m.top.size ≤ 1) ∧
      ∃ rounds m, Machine.Reaches (.ofSource source) rounds (.start tree) m ∧
        (m.stack = [] ∨ ∃ e, m.step (.ofSource source) = some (.error e)) := by
  refine ⟨build_eq source tree, ?_, ?_⟩
  · intro rounds m hreaches
    have hweights : rounds + Work.weights m.stack ≤ 2 * tree.size + 0 := hreaches.weights_le
    exact ⟨by omega, hreaches.top_size_le⟩
  · obtain ⟨rounds, m, hreaches, hend⟩ := Machine.run_reaches (.ofSource source) (.start tree)
    refine ⟨rounds, m, hreaches, ?_⟩
    rcases hend with ⟨hnone, -⟩ | ⟨e, herror, -⟩
    · exact Or.inl (Machine.step_eq_none hnone)
    · exact Or.inr ⟨e, herror⟩

end EsFeatures.Ast
