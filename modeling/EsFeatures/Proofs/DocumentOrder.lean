/-
  EsFeatures.Proofs.DocumentOrder

  Trees whose nodes lie in the source as a parser places them: the children of a node
  one behind the other within the node, and the initial value of a loop next to the
  loop's variable.  The conversion comes to the constructs of such a tree in the order
  of the source: a later one lies below an earlier one or behind it.
-/
import EsFeatures.Proofs.Provenance

namespace EsFeatures

/-! ## Character offsets in order -/

namespace Ast

theorem pairwise_charTable (text : List Char) : (Text.charTable text).Pairwise (· ≤ ·) := by
  refine List.pairwise_append.mpr
    ⟨List.pairwise_flatMap.mpr ⟨?_, ?_⟩, List.pairwise_singleton _ _, ?_⟩
  · intro x _
    exact List.pairwise_replicate.mpr (Or.inr (Nat.le_refl _))
  · refine (pairwise_zipIdx text).imp ?_
    intro x y hlt a ha b hb
    rw [List.eq_of_mem_replicate ha, List.eq_of_mem_replicate hb]
    exact Nat.le_of_lt hlt
  · intro a ha b hb
    obtain ⟨x, hx, ha⟩ := List.mem_flatMap.mp ha
    rw [List.eq_of_mem_replicate ha, List.mem_singleton.mp hb]
    obtain ⟨hlt, -⟩ := List.getElem?_eq_some_iff.mp (List.mem_zipIdx_iff_getElem?.mp hx)
    exact Nat.le_of_lt hlt

theorem le_length_of_mem_charTable {text : List Char} {place : Nat}
    (h : place ∈ Text.charTable text) : place ≤ text.length := by
  rcases List.mem_append.mp h with hmem | hmem
  · exact (List.pairwise_append.mp (pairwise_charTable text)).2.2 place hmem _ (List.mem_singleton.mpr rfl)
  · exact Nat.le_of_eq (List.mem_singleton.mp hmem)

/-- A later byte does not lie in an earlier character. -/
theorem charOffset_mono (source : String) {a b : Nat} (h : a ≤ b) :
    charOffset source a ≤ charOffset source b := by
  simp only [charOffset, Text.ByteMap.toChar, Text.ByteMap.ofSource]
  by_cases hbytes : (Text.Utf8.encode source.toList).length = source.toList.length
  · rw [if_pos hbytes]
    simp only
    omega
  · rw [if_neg hbytes]
    simp only [Int.natCast_nonneg, if_true, Int.toNat_natCast, List.getElem?_toArray]
    cases hb : (Text.charTable source.toList)[b]? with
    | none =>
      -- The length of the source stands for every byte behind the table.
      cases ha : (Text.charTable source.toList)[a]? with
      | none => exact Int.le_refl _
      | some place =>
        have := le_length_of_mem_charTable (List.mem_of_getElem? ha)
        simp only
        omega
    | some place' =>
      obtain ⟨hltb, hgetb⟩ := List.getElem?_eq_some_iff.mp hb
      have hlta : a < (Text.charTable source.toList).length := by omega
      rw [List.getElem?_eq_getElem hlta]
      simp only
      rcases Nat.lt_or_eq_of_le h with hlt | rfl
      · have := List.pairwise_iff_getElem.mp (pairwise_charTable source.toList) a b hlta hltb hlt
        omega
      · omega

/-- The same for offsets as integers, from the first byte on. -/
theorem charOffset_le (source : String) {a b : Int} (ha : 0 ≤ a) (h : a ≤ b) :
    charOffset source a ≤ charOffset source b := by
  have hmono := charOffset_mono source (Int.toNat_le_toNat h)
  rwa [Int.toNat_of_nonneg ha, Int.toNat_of_nonneg (Int.le_trans ha h)] at hmono

theorem charOffset_nonneg (source : String) {a : Int} (ha : 0 ≤ a) : 0 ≤ charOffset source a := by
  simp only [charOffset, Text.ByteMap.toChar, Text.ByteMap.ofSource]
  by_cases hbytes : (Text.Utf8.encode source.toList).length = source.toList.length
  · rw [if_pos hbytes]
    exact ha
  · rw [if_neg hbytes]
    simp only [ha, if_true]
    split
    · rename_i place hplace
      split at hplace
      · cases hplace
        exact Int.natCast_nonneg _
      · cases hplace
        exact Int.natCast_nonneg _
    · exact Int.le_refl 0

/-- The number of bytes that encode a source. -/
def byteLength (source : String) : Nat :=
  (Text.Utf8.encode source.toList).length

/-- A byte of the source, or the place behind its last one, lies in no character behind
    the source. -/
theorem charOffset_le_length (source : String) {a : Int} (ha : 0 ≤ a)
    (h : a ≤ byteLength source) : charOffset source a ≤ source.length := by
  rw [← String.length_toList]
  simp only [charOffset, Text.ByteMap.toChar, Text.ByteMap.ofSource]
  by_cases hbytes : (Text.Utf8.encode source.toList).length = source.toList.length
  · rw [if_pos hbytes]
    rw [byteLength, hbytes] at h
    exact h
  · rw [if_neg hbytes]
    simp only [ha, if_true, List.getElem?_toArray]
    cases hplace : (Text.charTable source.toList)[a.toNat]? with
    | none => exact Int.le_refl _
    | some place => exact Int.ofNat_le.mpr (le_length_of_mem_charTable (List.mem_of_getElem? hplace))

end Ast

/-! ## Trees in document order -/

namespace Cst

/-- A node that lies in the source as a parser places it. -/
structure WellPlaced (node : Cst) : Prop where
  forward : node.startByte ≤ node.endByte
  /-- The children lie within the node. -/
  within : ∀ child ∈ node.children, node.startByte ≤ child.startByte ∧ child.endByte ≤ node.endByte
  /-- They follow one another. -/
  apart : node.children.Pairwise fun child later => child.endByte ≤ later.startByte
  /-- Only tokens and comments stand between a loop's variable and its initial value. -/
  value : node.kind = "for_in_statement" →
    ∀ i ∈ node.childIndex? "left", ∀ v ∈ node.childIndex? "value",
      i < v ∧ ∀ x ∈ node.children.zipIdx, i < x.2 → x.2 < v → Ast.isKept x.1 = false

instance : DecidablePred WellPlaced := fun node =>
  decidable_of_iff
    (node.startByte ≤ node.endByte ∧
      (∀ child ∈ node.children, node.startByte ≤ child.startByte ∧ child.endByte ≤ node.endByte) ∧
      (node.children.Pairwise fun child later => child.endByte ≤ later.startByte) ∧
      (node.kind = "for_in_statement" →
        ∀ i ∈ node.childIndex? "left", ∀ v ∈ node.childIndex? "value",
          i < v ∧ ∀ x ∈ node.children.zipIdx, i < x.2 → x.2 < v → Ast.isKept x.1 = false))
    ⟨fun ⟨h₁, h₂, h₃, h₄⟩ => ⟨h₁, h₂, h₃, h₄⟩, fun ⟨h₁, h₂, h₃, h₄⟩ => ⟨h₁, h₂, h₃, h₄⟩⟩

/-- A tree all of whose nodes lie in the source as a parser places them. -/
def InOrder (tree : Cst) : Prop :=
  ∀ path node, tree.at? path = some node → node.WellPlaced

instance : DecidablePred InOrder := fun tree =>
  decidable_of_iff (tree.every (fun node => decide node.WellPlaced) = true) (by
    simp only [every_iff, decide_eq_true_eq]
    rfl)

theorem InOrder.below {tree node : Cst} {path : List Nat} (h : tree.InOrder)
    (hat : tree.at? path = some node) : node.InOrder := by
  intro path' node' hat'
  refine h (path ++ path') node' ?_
  rw [at?_append, hat]
  exact hat'

theorem InOrder.child {tree child : Cst} (h : tree.InOrder) (hchild : child ∈ tree.children) :
    child.InOrder := by
  obtain ⟨i, hi⟩ := List.getElem?_of_mem hchild
  exact h.below (show tree.at? [i] = some child by simp [at?, hi])

theorem InOrder.within {tree node : Cst} {path : List Nat} (h : tree.InOrder)
    (hat : tree.at? path = some node) :
    tree.startByte ≤ node.startByte ∧ node.endByte ≤ tree.endByte := by
  induction path generalizing tree with
  | nil =>
    cases hat
    exact ⟨Nat.le_refl _, Nat.le_refl _⟩
  | cons i path ih =>
    obtain ⟨child, hchild, hbelow⟩ := Option.bind_eq_some_iff.mp hat
    have hmem := List.mem_of_getElem? hchild
    have houter := (h [] tree rfl).within child hmem
    have hinner := ih (h.child hmem) hbelow
    omega

/-- What stands further to the left ends before what stands further to the right. -/
theorem InOrder.fork {tree node node' : Cst} {way rest rest' : List Nat} {i j : Nat}
    (h : tree.InOrder) (hlt : i < j) (hat : tree.at? (way ++ i :: rest) = some node)
    (hat' : tree.at? (way ++ j :: rest') = some node') : node.endByte ≤ node'.startByte := by
  rw [at?_append] at hat hat'
  obtain ⟨outer, houter, hat⟩ := Option.bind_eq_some_iff.mp hat
  rw [houter, Option.bind_some] at hat'
  obtain ⟨child, hchild, hnode⟩ := Option.bind_eq_some_iff.mp hat
  obtain ⟨child', hchild', hnode'⟩ := Option.bind_eq_some_iff.mp hat'
  have hinner := ((h.below houter).child (List.mem_of_getElem? hchild)).within hnode
  have hinner' := ((h.below houter).child (List.mem_of_getElem? hchild')).within hnode'
  obtain ⟨hi, hgeti⟩ := List.getElem?_eq_some_iff.mp hchild
  obtain ⟨hj, hgetj⟩ := List.getElem?_eq_some_iff.mp hchild'
  have hapart := List.pairwise_iff_getElem.mp (h way outer houter).apart i j hi hj hlt
  rw [hgeti, hgetj] at hapart
  omega

end Cst

/-! ## Conversion in document order -/

namespace Ast

/-- `site.Before later`: of two constructs the second lies below the first or behind
    it. -/
def Site.Before (site later : Site) : Prop :=
  ∀ node node', site.origin = .construct node → later.origin = .construct node' →
    site.path <+: later.path ∨ node.endByte ≤ node'.startByte

/-- Only a loop hands on both a child and a tree below one. -/
theorem kind_of_handed {tree child child' : Cst} {i j k : Nat} (h : Handed tree [i, k] child)
    (h' : Handed tree [j] child') : tree.kind = "for_in_statement" := by
  cases h with
  | value hfor => exact hfor
  | substitution htemplate =>
    cases h' with
    | child _ _ hne => exact absurd htemplate hne

/-- Of two constructs that are handed on the later one lies behind the earlier one. -/
theorem Ahead.endByte_le {tree child child' : Cst} {way way' : List Nat} (horder : tree.InOrder)
    (h : Ahead tree way way') (hway : Handed tree way child) (hway' : Handed tree way' child')
    (hkept' : isKept child' = true) : child.endByte ≤ child'.startByte := by
  have hplaced := horder [] tree rfl
  cases h with
  | fork _ _ _ hlt => exact horder.fork hlt hway.at? hway'.at?
  | @hoisted i j v k hleft hvalue hij hjv =>
    have hbetween := (hplaced.value (kind_of_handed hway hway') i hleft v hvalue).2
    cases hway' with
    | child hget =>
      have hskipped := hbetween (child', j) (List.mem_zipIdx_iff_getElem?.mpr hget) hij hjv
      rw [hkept'] at hskipped
      cases hskipped
  | @lowered i j v k hleft hvalue hvj hji =>
    have hlt := (hplaced.value (kind_of_handed hway' hway) i hleft v hvalue).1
    omega

theorem isKept_of_mem_sites {tree : Cst} {site : Site} (h : site ∈ sites tree) :
    isKept tree = true := by
  cases hkept : isKept tree with
  | true => rfl
  | false =>
    rw [sites_of_not_isKept hkept] at h
    cases h

/-- The sites of a part come before those of a later one. -/
theorem before_of_ahead {tree : Cst} {p q : Part} (horder : tree.InOrder) (hp : p ∈ partsOf tree)
    (hq : q ∈ partsOf tree) (h : p.Ahead tree q) {site later : Site} (hsite : site ∈ p.sites)
    (hlater : later ∈ q.sites) : site.Before later := by
  intro node node' hnode hnode'
  cases p with
  | made origin =>
    obtain rfl := List.mem_singleton.mp hsite
    exact absurd (congrArg Origin.role hnode) (makes_of_mem_partsOf hp).role_ne
  | below way child =>
    cases q with
    | made origin =>
      obtain rfl := List.mem_singleton.mp hlater
      exact absurd (congrArg Origin.role hnode') (makes_of_mem_partsOf hq).role_ne
    | below way' child' =>
      obtain ⟨inner, hinner, rfl⟩ := List.mem_map.mp hsite
      obtain ⟨inner', hinner', rfl⟩ := List.mem_map.mp hlater
      have hhanded := below_mem_partsOf.mp hp
      have hhanded' := below_mem_partsOf.mp hq
      have hle := Ahead.endByte_le horder h hhanded hhanded' (isKept_of_mem_sites hinner')
      have hin := (horder.below hhanded.at?).within (converted_of_mem_sites hinner hnode).at?
      have hin' := (horder.below hhanded'.at?).within (converted_of_mem_sites hinner' hnode').at?
      right
      omega

/-- The conversion comes to the constructs of a tree in the order of the source. -/
theorem pairwise_sites {tree : Cst} (h : tree.InOrder) : (sites tree).Pairwise Site.Before := by
  induction tree using handed_induction with
  | _ tree ih =>
    cases hkept : isKept tree with
    | false =>
      rw [sites_of_not_isKept hkept]
      exact List.Pairwise.nil
    | true =>
      rw [sites_of_isKept hkept, List.pairwise_cons, List.pairwise_flatMap]
      refine ⟨?_, ?_, ?_⟩
      · intro later _ node node' _ _
        exact Or.inl List.nil_prefix
      · intro part hpart
        cases part with
        | made origin => exact List.pairwise_singleton _ _
        | below way child =>
          have hhanded := below_mem_partsOf.mp hpart
          refine List.pairwise_map.mpr ((ih way child hhanded (h.below hhanded.at?)).imp ?_)
          intro site later hbefore node node' hnode hnode'
          refine (hbefore node node' hnode hnode').imp_left ?_
          exact (List.prefix_append_right_inj way).mpr
      · refine (pairwise_partsOf tree).imp_of_mem ?_
        intro p q hp hq hahead site hsite later hlater
        exact before_of_ahead h hp hq hahead hsite hlater

end Ast

end EsFeatures
