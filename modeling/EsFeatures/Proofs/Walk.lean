/-
  EsFeatures.Proofs.Walk

  What a walk does with the nodes of its trees.  The stack of the walk holds trees that
  are still to be visited, so a walk is a fold of `visit` over their nodes in
  pre-order, and the collector keeps the first matches as long as there is room.
-/
import EsFeatures.Feature.Walk

namespace EsFeatures

theorem Ast.preorders_append (xs ys : List Ast) :
    Ast.preorders (xs ++ ys) = Ast.preorders xs ++ Ast.preorders ys := by
  induction xs with
  | nil => rfl
  | cons x xs ih => rw [List.cons_append, preorders, preorders, ih, List.append_assoc]

theorem Ast.preorders_cons (head : Ast.Head) (children rest : List Ast) :
    Ast.preorders (.node head children :: rest) =
      .node head children :: Ast.preorders (children ++ rest) := by
  rw [preorders, preorder, preorders_append, List.cons_append]

mutual

/-- A tree has as many nodes in pre-order as its size says. -/
theorem Ast.length_preorder : (tree : Ast) → tree.preorder.length = tree.size
  | .node head children => by
    rw [preorder, size, List.length_cons, Ast.length_preorders children, Nat.add_comm]

theorem Ast.length_preorders : (trees : List Ast) → (preorders trees).length = sizes trees
  | [] => rfl
  | tree :: rest => by
    rw [preorders, sizes, List.length_append, Ast.length_preorder tree, Ast.length_preorders rest]

end

/-! ## The collector -/

namespace Collector

/-- What a collector notes of a match. -/
def findingOf (c : Collector) (found : Match) : Finding :=
  c.finding found.feature found.node.head found.qualifier

/-- A snippet reaches to the end of its node, or as far as a snippet may; a node whose span
    is not known has an empty one. -/
theorem snippet_eq_getD (c : Collector) (head : Ast.Head) :
    c.snippet head = (head.start.bind fun start => head.stop.map fun stop =>
      Text.substring c.source start (min stop (start + c.options.snippetMaxLength))).getD "" := by
  rw [snippet]
  cases head.start with
  | none => rfl
  | some start =>
    cases head.stop with
    | none => rfl
    | some stop =>
      rw [Option.bind_some, Option.map_some, Option.getD_some]
      by_cases hle : stop - start ≤ c.options.snippetMaxLength
      · rw [Int.min_eq_left (by omega)]
        exact if_pos hle
      · rw [Int.min_eq_right (by omega)]
        exact if_neg hle

/-- What is noted of a match, field by field. -/
theorem findingOf_eq (c : Collector) (found : Match) :
    c.findingOf found =
      { feature := found.feature
        label := found.feature.label
        qualifier := found.qualifier
        snippet := (found.node.head.start.bind fun start => found.node.head.stop.map fun stop =>
          Text.substring c.source start (min stop (start + c.options.snippetMaxLength))).getD ""
        offset := found.node.head.start.getD (-1) } := by
  rw [findingOf, finding, snippet_eq_getD, unknownOffset]

/-- How many more findings a collector keeps. -/
def room (c : Collector) : Nat :=
  (c.options.resultLimit - c.findings.size).toNat

/-- Without room a match is passed over. -/
theorem report_of_full {c : Collector} (found : Match) (h : c.room = 0) :
    c.report found.feature found.node.head found.qualifier = c := by
  rw [report, if_pos]
  rw [room] at h
  simp only [isFull, decide_eq_true_eq]
  omega

/-- With room left a match is noted behind the findings so far. -/
theorem report_of_room {c : Collector} (found : Match) {n : Nat} (h : c.room = n + 1) :
    c.report found.feature found.node.head found.qualifier =
      { c with findings := c.findings.push (c.findingOf found) } := by
  rw [report, if_neg, findingOf]
  rw [room] at h
  simp only [isFull, decide_eq_true_eq]
  omega

theorem room_push (c : Collector) (finding : Finding) :
    room { c with findings := c.findings.push finding } = c.room - 1 := by
  simp only [room, Array.size_push]
  omega

/-- The collector after a match has been reported to it. -/
def offer (c : Collector) (found : Match) : Collector :=
  c.report found.feature found.node.head found.qualifier

/-- Of matches reported one after the other a collector notes the first ones, as many as
    it has room for, and leaves all else as it was. -/
theorem foldl_offer (c : Collector) (offered : List Match) :
    offered.foldl offer c =
      { c with findings := c.findings ++ ((offered.take c.room).map c.findingOf).toArray } := by
  induction offered generalizing c with
  | nil => simp
  | cons found offered ih =>
    rw [List.foldl_cons, offer]
    cases hroom : c.room with
    | zero =>
      -- A full collector stays full, so nothing is ever noted.
      rw [report_of_full found hroom, ih c, hroom, List.take_zero, List.take_zero]
    | succ n =>
      have hrest : room { c with findings := c.findings.push (c.findingOf found) } = n := by
        rw [room_push, hroom, Nat.add_sub_cancel]
      rw [report_of_room found hroom, ih, hrest, List.take_succ_cons, List.map_cons]
      -- What is noted of a match does not depend on the findings before it.
      have hnoted : findingOf { c with findings := c.findings.push (c.findingOf found) } =
          c.findingOf := rfl
      rw [hnoted]
      congr 1
      apply Array.toList_inj.mp
      rw [Array.toList_append, Array.toList_append, Array.toList_push, List.append_assoc]
      rfl

end Collector

/-! ## The walk -/

namespace Walk

/-- A walk visits the nodes of its stack in pre-order. -/
theorem run_eq_foldl (rules : RuleTable) (walk : Walk) (stack : List Ast) :
    run rules walk stack = (Ast.preorders stack).foldl (visit rules) walk := by
  fun_induction run rules walk stack with
  | case1 walk => rfl
  | case2 walk node rest ih =>
    obtain ⟨head, children⟩ := node
    rw [ih, Ast.preorders_cons, List.foldl_cons]
    rfl

/-- Every visit counts. -/
theorem visited_foldl_visit (rules : RuleTable) (walk : Walk) (nodes : List Ast) :
    (nodes.foldl (visit rules) walk).visited = walk.visited + nodes.length := by
  induction nodes generalizing walk with
  | nil => rfl
  | cons node nodes ih =>
    have hvisit : (walk.visit rules node).visited = walk.visited + 1 := by
      rw [visit]
      split
      · rfl
      · rfl
    rw [List.foldl_cons, ih, hvisit, List.length_cons]
    omega

/-- The matches after some visits are the ones before, followed by what the rules say
    about the visited nodes. -/
theorem matched_foldl_visit (rules : RuleTable) (walk : Walk) (nodes : List Ast) :
    (nodes.foldl (visit rules) walk).matched.toList =
      walk.matched.toList ++ nodes.filterMap rules.match? := by
  induction nodes generalizing walk with
  | nil => simp
  | cons node nodes ih =>
    rw [List.foldl_cons, ih, visit]
    cases hmatch : rules.match? node with
    | none => rw [List.filterMap_cons_none hmatch]
    | some found =>
      rw [List.filterMap_cons_some hmatch, Array.toList_push, List.append_assoc]
      rfl

/-- The collector after some visits is the one before, with the matches reported to it one
    after the other. -/
theorem collector_foldl_visit (rules : RuleTable) (walk : Walk) (nodes : List Ast) :
    (nodes.foldl (visit rules) walk).collector =
      (nodes.filterMap rules.match?).foldl Collector.offer walk.collector := by
  induction nodes generalizing walk with
  | nil => rfl
  | cons node nodes ih =>
    rw [List.foldl_cons, ih, visit]
    cases hmatch : rules.match? node with
    | none => rw [List.filterMap_cons_none hmatch]
    | some found =>
      rw [List.filterMap_cons_some hmatch, List.foldl_cons]
      rfl

/-- The findings after some visits are the ones before, followed by the first matches
    for which there is room. -/
theorem findings_foldl_visit (rules : RuleTable) (walk : Walk) (nodes : List Ast) :
    (nodes.foldl (visit rules) walk).collector.findings.toList =
      walk.collector.findings.toList ++
        ((nodes.filterMap rules.match?).map walk.collector.findingOf).take walk.collector.room := by
  rw [collector_foldl_visit, Collector.foldl_offer, Array.toList_append, List.map_take]

theorem preorders_singleton (tree : Ast) : Ast.preorders [tree] = tree.preorder := by
  rw [Ast.preorders, Ast.preorders, List.append_nil]

/-- A walk visits all nodes of its tree. -/
theorem visited_ofTree (rules : RuleTable) (collector : Collector) (tree : Ast) :
    (ofTree rules collector tree).visited = tree.preorder.length := by
  rw [ofTree, run_eq_foldl, visited_foldl_visit, preorders_singleton]
  exact Nat.zero_add _

/-- The findings of a walk over one tree, from an empty collector on. -/
theorem findings_ofTree (rules : RuleTable) (source : String) (options : Options) (tree : Ast) :
    (ofTree rules { source, options } tree).collector.findings.toList =
      ((tree.preorder.filterMap rules.match?).map
        (Collector.findingOf { source, options })).take options.resultLimit.toNat := by
  have hroom : Collector.room { source, options } = options.resultLimit.toNat := by
    simp [Collector.room]
  rw [ofTree, run_eq_foldl, findings_foldl_visit, preorders_singleton, hroom]
  rfl

theorem ofTree_eq_foldl (rules : RuleTable) (collector : Collector) (tree : Ast) :
    ofTree rules collector tree = tree.preorder.foldl (visit rules) { collector } := by
  rw [ofTree, run_eq_foldl, preorders_singleton]

/-- The nodes that the rules report are those with a rule whose guard they pass. -/
theorem map_node_filterMap_match? (rules : RuleTable) (nodes : List Ast) :
    (nodes.filterMap rules.match?).map Match.node =
      nodes.filter fun node => (rules.lookup node.kind).any fun rule => rule.guard node := by
  induction nodes with
  | nil => rfl
  | cons node nodes ih =>
    rw [List.filter_cons]
    cases hlookup : rules.lookup node.kind with
    | none =>
      have hmatch : rules.match? node = none := by rw [RuleTable.match?, hlookup]
      rw [List.filterMap_cons_none hmatch, ih]
      rfl
    | some rule =>
      by_cases hguard : rule.guard node = true
      · have hmatch : rules.match? node = some ⟨rule.feature, node, rule.qualifier node⟩ := by
          simp only [RuleTable.match?, hlookup, hguard, if_true]
        rw [List.filterMap_cons_some hmatch, List.map_cons, ih, Option.any_some, if_pos hguard]
      · have hmatch : rules.match? node = none := by
          simp only [RuleTable.match?, hlookup, if_neg hguard]
        rw [List.filterMap_cons_none hmatch, ih, Option.any_some, if_neg hguard]

/-- What a rule reports of a node. -/
theorem match?_eq_some {rules : RuleTable} {node : Ast} {found : Match}
    (h : rules.match? node = some found) :
    ∃ rule, rules.lookup found.node.kind = some rule ∧ rule.guard found.node = true ∧
      found.feature = rule.feature ∧ found.qualifier = rule.qualifier found.node := by
  rw [RuleTable.match?] at h
  split at h
  · rename_i rule hlookup
    split at h
    · rename_i hguard
      cases h
      exact ⟨rule, hlookup, hguard, rfl, rfl⟩
    · cases h
  · cases h

/-- A walk visits each node once and reports, in pre-order, those that have a rule whose
    guard they pass, with the feature and the qualifier of that rule.  The collector has no
    part in this; afterwards it holds its own findings, as they were, and behind them one for
    each of the first reports, as many as its limit leaves room for.  Such a finding has the
    feature with its label, the qualifier, the offset of the node, or -1, and the source of
    the node up to the longest snippet, or nothing if its span is not known. -/
theorem walk_reports_matches (rules : RuleTable) (collector : Collector) (tree : Ast) :
    (ofTree rules collector tree).visited = tree.size ∧
      (ofTree rules collector tree).matched.toList.map Match.node =
        tree.preorder.filter (fun node =>
          (rules.lookup node.kind).any fun rule => rule.guard node) ∧
      (∀ found ∈ (ofTree rules collector tree).matched.toList,
        ∃ rule, rules.lookup found.node.kind = some rule ∧ rule.guard found.node = true ∧
          found.feature = rule.feature ∧ found.qualifier = rule.qualifier found.node) ∧
      (ofTree rules collector tree).collector =
        (ofTree rules collector tree).matched.toList.foldl (fun c found =>
          c.report found.feature found.node.head found.qualifier) collector ∧
      (ofTree rules collector tree).collector =
        { collector with
          findings := collector.findings ++
            (((ofTree rules collector tree).matched.toList.take
              (collector.options.resultLimit - collector.findings.size).toNat).map fun found =>
                { feature := found.feature
                  label := found.feature.label
                  qualifier := found.qualifier
                  snippet := (found.node.head.start.bind fun start =>
                    found.node.head.stop.map fun stop => Text.substring collector.source start
                      (min stop (start + collector.options.snippetMaxLength))).getD ""
                  offset := found.node.head.start.getD (-1) }).toArray } := by
  have hmatched : (ofTree rules collector tree).matched.toList =
      tree.preorder.filterMap rules.match? := by
    rw [ofTree_eq_foldl, matched_foldl_visit]
    rfl
  have hoffered : (ofTree rules collector tree).collector =
      (ofTree rules collector tree).matched.toList.foldl Collector.offer collector := by
    rw [hmatched, ofTree_eq_foldl, collector_foldl_visit]
  refine ⟨?_, ?_, ?_, hoffered, ?_⟩
  · rw [visited_ofTree, Ast.length_preorder]
  · rw [hmatched, map_node_filterMap_match?]
  · intro found hfound
    rw [hmatched] at hfound
    obtain ⟨node, -, hmatch⟩ := List.mem_filterMap.mp hfound
    exact match?_eq_some hmatch
  · rw [hoffered, Collector.foldl_offer, funext collector.findingOf_eq]
    rfl

end Walk

end EsFeatures
