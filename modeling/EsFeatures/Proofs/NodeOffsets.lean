/-
  EsFeatures.Proofs.NodeOffsets

  Where nodes begin and end.  Every node that the conversion makes begins at an offset
  of a node of the concrete tree or behind the opening quote of a template, and ends at
  an offset of a node or before the closing quote.  No order of the offsets is assumed:
  a node may end before it begins.
-/
import EsFeatures.Proofs.DocumentOrder
import EsFeatures.Proofs.Findings

namespace EsFeatures

namespace Cst

/-- `tree.HasOffset offset`: a node of the tree begins or ends there. -/
def HasOffset (tree : Cst) (offset : Int) : Prop :=
  ∃ path node, tree.at? path = some node ∧ (offset = node.startByte ∨ offset = node.endByte)

/-- An offset of a tree, or the given edge of one of its templates. -/
inductive EdgeAt (edge : Cst → Int) (tree : Cst) : Int → Prop
  | node {offset : Int} : tree.HasOffset offset → EdgeAt edge tree offset
  | quote {path : List Nat} {template : Cst} : tree.at? path = some template →
    template.kind = "template_string" → EdgeAt edge tree (edge template)

/-- Where nodes that come of a tree may begin: a template's text begins behind the
    opening quote. -/
def OpensAt : Cst → Int → Prop :=
  EdgeAt fun template => template.startByte + 1

/-- Where nodes that come of a tree may end: a template's text ends before the closing
    quote. -/
def ClosesAt : Cst → Int → Prop :=
  EdgeAt fun template => template.endByte - 1

section Offsets

variable {tree child : Cst} {offset : Int}

theorem hasOffset_start (tree : Cst) : tree.HasOffset tree.startByte :=
  ⟨[], tree, rfl, Or.inl rfl⟩

theorem hasOffset_end (tree : Cst) : tree.HasOffset tree.endByte :=
  ⟨[], tree, rfl, Or.inr rfl⟩

theorem HasOffset.below {path : List Nat} (hat : tree.at? path = some child)
    (h : child.HasOffset offset) : tree.HasOffset offset := by
  obtain ⟨path', node, hat', hoffset⟩ := h
  refine ⟨path ++ path', node, ?_, hoffset⟩
  rw [at?_append, hat]
  exact hat'

theorem HasOffset.of_mem (hchild : child ∈ tree.children) (h : child.HasOffset offset) :
    tree.HasOffset offset := by
  obtain ⟨i, hi⟩ := exists_at?_cons hchild
  exact h.below (hi [])

theorem EdgeAt.below {edge : Cst → Int} {path : List Nat} (hat : tree.at? path = some child)
    (h : EdgeAt edge child offset) : EdgeAt edge tree offset := by
  cases h with
  | node h => exact .node (h.below hat)
  | @quote path' template hat' hkind =>
    refine .quote (show tree.at? (path ++ path') = some template from ?_) hkind
    rw [at?_append, hat]
    exact hat'

theorem EdgeAt.quote_self (edge : Cst → Int) (hkind : tree.kind = "template_string") :
    EdgeAt edge tree (edge tree) :=
  .quote (show tree.at? [] = some tree from rfl) hkind

/-- No node begins before the source. -/
theorem OpensAt.nonneg (h : tree.OpensAt offset) : 0 ≤ offset := by
  cases h with
  | node h =>
    obtain ⟨path, node, -, hoffset⟩ := h
    omega
  | quote => omega

end Offsets

/-! ### Trees within a source -/

/-- A node whose offsets lie in a source of the given number of bytes, and that has room
    for two quotes if it is a template. -/
structure LiesIn (size : Nat) (node : Cst) : Prop where
  start : node.startByte ≤ size
  stop : node.endByte ≤ size
  quotes : node.kind = "template_string" → node.startByte + 2 ≤ node.endByte

instance (size : Nat) : DecidablePred (LiesIn size) := fun node =>
  decidable_of_iff
    (node.startByte ≤ size ∧ node.endByte ≤ size ∧
      (node.kind = "template_string" → node.startByte + 2 ≤ node.endByte))
    ⟨fun ⟨h₁, h₂, h₃⟩ => ⟨h₁, h₂, h₃⟩, fun ⟨h₁, h₂, h₃⟩ => ⟨h₁, h₂, h₃⟩⟩

/-- A tree all of whose offsets lie in its source. -/
def LiesInSource (source : String) (tree : Cst) : Prop :=
  ∀ path node, tree.at? path = some node → node.LiesIn (Ast.byteLength source)

instance (source : String) : DecidablePred (LiesInSource source) := fun tree =>
  decidable_of_iff (tree.every (fun node => decide (node.LiesIn (Ast.byteLength source))) = true) (by
    simp only [every_iff, decide_eq_true_eq]
    rfl)

theorem OpensAt.le_byteLength {source : String} {tree : Cst} {offset : Int} (h : tree.OpensAt offset)
    (htree : tree.LiesInSource source) : offset ≤ Ast.byteLength source := by
  cases h with
  | node h =>
    obtain ⟨path, node, hat, hoffset⟩ := h
    have hstart := (htree path node hat).start
    have hstop := (htree path node hat).stop
    omega
  | quote hat hkind =>
    have hstop := (htree _ _ hat).stop
    have hquotes := (htree _ _ hat).quotes hkind
    omega

theorem ClosesAt.nonneg {source : String} {tree : Cst} {offset : Int} (h : tree.ClosesAt offset)
    (htree : tree.LiesInSource source) : 0 ≤ offset := by
  cases h with
  | node h =>
    obtain ⟨path, node, -, hoffset⟩ := h
    omega
  | quote hat hkind =>
    have hquotes := (htree _ _ hat).quotes hkind
    omega

end Cst

namespace Ast

/-! ## Offsets of what the conversion makes -/

/-- The bytes at which the node made from an origin begins and ends. -/
def Origin.bytes : Origin → Int × Int
  | .construct tree => (tree.startByte, tree.endByte)
  | .declaration keyword last => (keyword.startByte, last.endByte)
  | .declarator left last => (left.startByte, last.endByte)
  | .segment _ start stop => (start, stop)

theorem Origin.start_head (origin : Origin) (source : String) :
    (origin.head source).start = some (charOffset source origin.bytes.1) := by
  cases origin <;> rfl

theorem Origin.stop_head (origin : Origin) (source : String) :
    (origin.head source).stop = some (charOffset source origin.bytes.2) := by
  cases origin <;> rfl

/-- The pieces of text of a template begin and end at its substitutions, the first and
    the last one aside. -/
theorem bytes_of_mem_templateParts {stop start : Int} {index k : Nat} {a b : Int}
    {xs : List (Cst × Nat)} (h : .made (.segment k a b) ∈ templateParts stop index start xs) :
    (a = start ∨ ∃ x ∈ xs, a = x.1.endByte) ∧ (b = stop ∨ ∃ x ∈ xs, b = x.1.startByte) := by
  fun_induction templateParts stop index start xs with
  | case1 index start =>
    cases List.mem_singleton.mp h
    exact ⟨Or.inl rfl, Or.inl rfl⟩
  | case2 index start child i rest hsub ih =>
    -- The text ends where the substitution begins, and goes on where it ends.
    rcases List.mem_cons.mp h with heq | h
    · cases heq
      exact ⟨Or.inl rfl, Or.inr ⟨(child, i), List.mem_cons_self, rfl⟩⟩
    · rcases List.mem_append.mp h with h | h
      · exact absurd h made_not_mem_constructParts
      · obtain ⟨hopens, hcloses⟩ := ih h
        constructor
        · rcases hopens with rfl | ⟨x, hx, rfl⟩
          · exact Or.inr ⟨(child, i), List.mem_cons_self, rfl⟩
          · exact Or.inr ⟨x, List.mem_cons_of_mem _ hx, rfl⟩
        · rcases hcloses with rfl | ⟨x, hx, rfl⟩
          · exact Or.inl rfl
          · exact Or.inr ⟨x, List.mem_cons_of_mem _ hx, rfl⟩
  | case3 index start child i rest hsub ih =>
    obtain ⟨hopens, hcloses⟩ := ih h
    constructor
    · rcases hopens with rfl | ⟨x, hx, rfl⟩
      · exact Or.inl rfl
      · exact Or.inr ⟨x, List.mem_cons_of_mem _ hx, rfl⟩
    · rcases hcloses with rfl | ⟨x, hx, rfl⟩
      · exact Or.inl rfl
      · exact Or.inr ⟨x, List.mem_cons_of_mem _ hx, rfl⟩

theorem bytes_of_template {tree : Cst} {k : Nat} {a b : Int} (hkind : tree.kind = "template_string")
    (h : .made (.segment k a b) ∈ partsOf tree) : tree.OpensAt a ∧ tree.ClosesAt b := by
  rw [partsOf, if_neg (by rw [hkind]; decide), if_pos hkind] at h
  have hmem : ∀ x ∈ tree.children.zipIdx, x.1 ∈ tree.children :=
    fun x hx => List.mem_of_getElem? (List.mem_zipIdx_iff_getElem?.mp hx)
  obtain ⟨hopens, hcloses⟩ := bytes_of_mem_templateParts h
  constructor
  · rcases hopens with rfl | ⟨x, hx, rfl⟩
    · exact .quote_self _ hkind
    · exact .node ((Cst.hasOffset_end x.1).of_mem (hmem x hx))
  · rcases hcloses with rfl | ⟨x, hx, rfl⟩
    · exact .quote_self _ hkind
    · exact .node ((Cst.hasOffset_start x.1).of_mem (hmem x hx))

theorem bytes_of_part {tree : Cst} {origin : Origin} (h : .made origin ∈ partsOf tree) :
    tree.OpensAt origin.bytes.1 ∧ tree.ClosesAt origin.bytes.2 := by
  have hmem : ∀ {name : String} {child : Cst}, tree.child? name = some child → child ∈ tree.children :=
    fun hchild => List.mem_of_find?_eq_some hchild
  -- A declaration ends with the initial value, or with the variable.
  have hlast : ∀ {left : Cst}, tree.child? "left" = some left →
      (tree.child? "value").getD left ∈ tree.children := by
    intro left hleft
    cases hvalue : tree.child? "value" with
    | none => exact hmem hleft
    | some value => exact hmem hvalue
  cases makes_of_mem_partsOf h with
  | declaration _ hkeyword hleft =>
    exact ⟨.node ((Cst.hasOffset_start _).of_mem (hmem hkeyword)),
      .node ((Cst.hasOffset_end _).of_mem (hlast hleft))⟩
  | declarator _ _ hleft =>
    exact ⟨.node ((Cst.hasOffset_start _).of_mem (hmem hleft)),
      .node ((Cst.hasOffset_end _).of_mem (hlast hleft))⟩
  | segment hkind => exact bytes_of_template hkind h

/-- What the conversion of a tree makes begins and ends where the tree allows it. -/
theorem bytes_of_mem_sites {tree : Cst} {site : Site} (h : site ∈ sites tree) :
    tree.OpensAt site.origin.bytes.1 ∧ tree.ClosesAt site.origin.bytes.2 := by
  obtain ⟨node, hconverted, horigin | hpart⟩ := exists_part_of_mem_sites h
  · rw [horigin]
    exact ⟨.below hconverted.at? (.node (Cst.hasOffset_start node)),
      .below hconverted.at? (.node (Cst.hasOffset_end node))⟩
  · obtain ⟨hopens, hcloses⟩ := bytes_of_part hpart
    exact ⟨hopens.below hconverted.at?, hcloses.below hconverted.at?⟩

/-! ## Heads that show something -/

/-- The heads in a program that show something, with what they show, in pre-order. -/
def shownHeads (program : Ast) : List (Head × Feature × Scalar) :=
  (program.preorder.map Ast.head).filterMap fun head => head.shown?.map (Prod.mk head)

/-- All that shows something in a program comes of a site of its tree. -/
theorem exists_site_of_mem_shownHeads {source : String} {tree : Cst} {program : Ast}
    (hbuild : build source tree = .ok program) {x : Head × Feature × Scalar}
    (h : x ∈ shownHeads program) : ∃ site ∈ sites tree, x.1 = site.origin.head source := by
  obtain ⟨head, hhead, hshown⟩ := List.mem_filterMap.mp h
  obtain ⟨shown, hshown, rfl⟩ := Option.map_eq_some_iff.mp hshown
  rcases build_eq_ok hbuild with rfl | hconv
  · -- The empty program shows nothing.
    obtain rfl := List.mem_singleton.mp hhead
    cases hshown
  · have hheads := heads_of_conv_eq_ok hconv
    rw [Walk.preorders_singleton] at hheads
    rw [hheads] at hhead
    obtain ⟨site, hsite, rfl⟩ := List.mem_map.mp hhead
    exact ⟨site, hsite, rfl⟩

end Ast

/-- The options decide how many of the heads that show something are noted, and how
    much of each. -/
theorem Detection.findings_ofProgram (options : Options) (source : String) (program : Ast) :
    (ofProgram options source program).findings =
      ((Ast.shownHeads program).take options.resultLimit.toNat).map
        fun x => Collector.finding { source, options } x.2.1 x.1 x.2.2 := by
  have hfinding : Ast.Head.finding? options source = fun head =>
      (head.shown?.map (Prod.mk head)).map
        fun x => Collector.finding { source, options } x.2.1 x.1 x.2.2 := by
    funext head
    rw [Ast.Head.finding?, Option.map_map]
    rfl
  rw [ofProgram_eq, List.map_take, Ast.shownHeads, List.map_filterMap, hfinding]

end EsFeatures
