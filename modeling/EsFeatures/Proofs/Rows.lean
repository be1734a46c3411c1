/-
  EsFeatures.Proofs.Rows

  Trees in a row.  `InRow lo hi nodes` says that trees lie one behind the other between
  two offsets, each with what stands below it nested in its own span.  Rows are put
  together end to end.  All nodes of a row within a text are well nested, and a walk comes
  to them in the order in which they start.
-/
import EsFeatures.Proofs.Walk

namespace EsFeatures.Ast

/-! ## Rows of trees -/

/-- `node.Spans start stop`: both ends of the node's span are known. -/
def Spans (node : Ast) (start stop : Int) : Prop :=
  node.head.start = some start ∧ node.head.stop = some stop

/-- `InRow lo hi nodes`: the trees lie one behind the other between two offsets, and so
    does what stands below each of them within its span. -/
inductive InRow : Int → Int → List Ast → Prop
  | nil {lo hi : Int} : lo ≤ hi → InRow lo hi []
  | cons {lo hi start stop : Int} {node : Ast} {rest : List Ast} : node.Spans start stop →
    lo ≤ start → InRow start stop node.children → InRow stop hi rest → InRow lo hi (node :: rest)

theorem InRow.le {lo hi : Int} {nodes : List Ast} (h : InRow lo hi nodes) : lo ≤ hi := by
  induction h with
  | nil hle => exact hle
  | cons _ hlo _ _ ihbelow ihrest => omega

theorem InRow.mono {lo lo' hi hi' : Int} {nodes : List Ast} (h : InRow lo hi nodes)
    (hlo : lo' ≤ lo) (hhi : hi ≤ hi') : InRow lo' hi' nodes := by
  induction h generalizing lo' with
  | nil hle => exact .nil (by omega)
  | cons hspan hstart hbelow _ _ ihrest =>
    exact .cons hspan (by omega) hbelow (ihrest (Int.le_refl _) hhi)

theorem InRow.append {lo mid hi : Int} {xs ys : List Ast} (hx : InRow lo mid xs)
    (hy : InRow mid hi ys) : InRow lo hi (xs ++ ys) := by
  induction hx with
  | nil hle => exact hy.mono hle (Int.le_refl _)
  | cons hspan hstart hbelow _ _ ihrest => exact .cons hspan hstart hbelow (ihrest hy)

/-- A single tree in a row. -/
theorem InRow.single {start stop : Int} {head : Head} {children : List Ast}
    (hstart : head.start = some start) (hstop : head.stop = some stop)
    (h : InRow start stop children) : InRow start stop [.node head children] :=
  .cons ⟨hstart, hstop⟩ (Int.le_refl _) h (.nil (Int.le_refl _))

/-- The trees of a row lie between its ends. -/
theorem InRow.spans {lo hi : Int} {nodes : List Ast} (h : InRow lo hi nodes) {node : Ast}
    (hnode : node ∈ nodes) :
    ∃ start stop, node.Spans start stop ∧ lo ≤ start ∧ start ≤ stop ∧ stop ≤ hi := by
  induction h with
  | nil => cases hnode
  | cons hspan hstart hbelow hrest _ ihrest =>
    have hforward := hbelow.le
    have hbehind := hrest.le
    rcases List.mem_cons.mp hnode with rfl | hnode
    · exact ⟨_, _, hspan, hstart, hforward, hbehind⟩
    · obtain ⟨start', stop', hspan', hlo, hle, hhi⟩ := ihrest hnode
      exact ⟨start', stop', hspan', by omega, hle, hhi⟩

/-- All nodes of a row start between its ends. -/
theorem InRow.start_of_mem {lo hi : Int} {nodes : List Ast} (h : InRow lo hi nodes) {node : Ast}
    (hnode : node ∈ preorders nodes) :
    ∃ start, node.head.start = some start ∧ lo ≤ start ∧ start ≤ hi := by
  induction h with
  | nil => cases hnode
  | @cons lo hi start stop first rest hspan hstart hbelow hrest ihbelow ihrest =>
    have hforward := hbelow.le
    have hbehind := hrest.le
    obtain ⟨head, children⟩ := first
    rw [preorders_cons, preorders_append, List.mem_cons, List.mem_append] at hnode
    rcases hnode with rfl | hnode | hnode
    · exact ⟨start, hspan.1, hstart, by omega⟩
    · obtain ⟨s, hs, hlo, hhi⟩ := ihbelow hnode
      exact ⟨s, hs, by omega, by omega⟩
    · obtain ⟨s, hs, hlo, hhi⟩ := ihrest hnode
      exact ⟨s, hs, by omega, hhi⟩

/-! ## Well-nested nodes -/

/-- `node.Inside outer`: the span of a node lies within that of another. -/
def Inside (node outer : Ast) : Prop :=
  ∃ start stop start' stop', node.Spans start stop ∧ outer.Spans start' stop' ∧
    start' ≤ start ∧ stop ≤ stop'

/-- `node.EndsBefore later`: the span of a node ends before that of another begins. -/
def EndsBefore (node later : Ast) : Prop :=
  ∃ start stop start' stop', node.Spans start stop ∧ later.Spans start' stop' ∧ stop ≤ start'

/-- A node whose span lies in a text of the given length, with its children one behind
    the other within it. -/
structure WellNested (length : Nat) (node : Ast) : Prop where
  bounded : ∃ start stop, node.Spans start stop ∧ 0 ≤ start ∧ start ≤ stop ∧ stop ≤ length
  inside : ∀ child ∈ node.children, child.Inside node
  apart : node.children.Pairwise EndsBefore

/-- The trees of a row end before the later ones start. -/
theorem InRow.apart {lo hi : Int} {nodes : List Ast} (h : InRow lo hi nodes) :
    nodes.Pairwise EndsBefore := by
  induction h with
  | nil => exact List.Pairwise.nil
  | @cons _ _ start stop _ _ hspan _ _ hrest _ ihrest =>
    refine List.pairwise_cons.mpr ⟨?_, ihrest⟩
    intro later hlater
    obtain ⟨start', stop', hspan', hlo, -, -⟩ := hrest.spans hlater
    exact ⟨start, stop, start', stop', hspan, hspan', hlo⟩

/-- Every node of a row within a text is well nested. -/
theorem InRow.wellNested {length : Nat} {lo hi : Int} {nodes : List Ast} (h : InRow lo hi nodes)
    (hlo : 0 ≤ lo) (hhi : hi ≤ length) : ∀ node ∈ preorders nodes, node.WellNested length := by
  induction h with
  | nil =>
    intro node hnode
    cases hnode
  | @cons lo hi start stop first rest hspan hstart hbelow hrest ihbelow ihrest =>
    have hforward := hbelow.le
    have hbehind := hrest.le
    obtain ⟨head, children⟩ := first
    intro node hnode
    rw [preorders_cons, preorders_append, List.mem_cons, List.mem_append] at hnode
    rcases hnode with rfl | hnode | hnode
    · refine ⟨⟨start, stop, hspan, by omega, hforward, by omega⟩, ?_, hbelow.apart⟩
      intro child hchild
      obtain ⟨start', stop', hspan', hlo', -, hhi'⟩ := hbelow.spans hchild
      exact ⟨start', stop', start, stop, hspan', hspan, hlo', hhi'⟩
    · exact ihbelow (by omega) (by omega) node hnode
    · exact ihrest (by omega) hhi node hnode

/-- `head.StartsBefore later`: both starts are known, and the first is not the greater
    one. -/
def Head.StartsBefore (head later : Head) : Prop :=
  ∃ start start', head.start = some start ∧ later.start = some start' ∧ start ≤ start'

/-- The nodes of a row start in pre-order. -/
theorem InRow.pairwise_start {lo hi : Int} {nodes : List Ast} (h : InRow lo hi nodes) :
    ((preorders nodes).map Ast.head).Pairwise Head.StartsBefore := by
  rw [List.pairwise_map]
  induction h with
  | nil => exact List.Pairwise.nil
  | @cons lo hi start stop first rest hspan hstart hbelow hrest ihbelow ihrest =>
    have hforward := hbelow.le
    obtain ⟨head, children⟩ := first
    rw [preorders_cons, preorders_append, List.pairwise_cons, List.pairwise_append]
    -- The first tree starts before all that is below it or behind it; what is below it starts
    -- before its end, and what is behind it after its end.
    refine ⟨?_, ihbelow, ihrest, ?_⟩
    · intro node hnode
      rcases List.mem_append.mp hnode with hnode | hnode
      · obtain ⟨s, hs, hlo, -⟩ := hbelow.start_of_mem hnode
        exact ⟨start, s, hspan.1, hs, hlo⟩
      · obtain ⟨s, hs, hlo, -⟩ := hrest.start_of_mem hnode
        exact ⟨start, s, hspan.1, hs, by omega⟩
    · intro node hnode later hlater
      obtain ⟨s, hs, -, hhi⟩ := hbelow.start_of_mem hnode
      obtain ⟨s', hs', hlo', -⟩ := hrest.start_of_mem hlater
      exact ⟨s, s', hs, hs', by omega⟩

end EsFeatures.Ast
