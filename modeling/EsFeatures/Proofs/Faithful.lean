/-
  EsFeatures.Proofs.Faithful

  Changes of a concrete tree that the conversion does not see in a single node.  What a
  node becomes depends on its kind, on the children under its fields and on a few tokens;
  a change that keeps those keeps the node's head and the cause of its refusal.
-/
import EsFeatures.Proofs.Conversion

namespace EsFeatures

/-- The tokens that become attributes. -/
def Cst.attributeTokens : List String := ["async", "*", "await"]

/-- A change of trees that keeps what the conversion asks a node for: its kind, whether it
    is a construct, the children under its fields, and the tokens that become attributes. -/
structure Cst.Faithful (g : Cst → Cst) : Prop where
  kind : ∀ tree, (g tree).kind = tree.kind
  named : ∀ tree, (g tree).label.named = tree.label.named
  child? : ∀ tree name, (g tree).child? name = (tree.child? name).map g
  token : ∀ tree, ∀ token ∈ attributeTokens, (g tree).hasToken token = tree.hasToken token

namespace Cst.Faithful

open Ast

variable {g : Cst → Cst} (h : Faithful g) (tree : Cst)

include h

theorem isKept_eq : isKept (g tree) = isKept tree := by
  rw [isKept, h.named, h.kind, isKept]

theorem isSubstitution_eq : isSubstitution (g tree) = isSubstitution tree := by
  rw [isSubstitution, h.named, h.kind, isSubstitution]

theorem keywordOf_eq : keywordOf (g tree) = keywordOf tree := by
  rw [keywordOf, h.child?, keywordOf]
  cases tree.child? "kind" with
  | none => rfl
  | some keyword => exact h.kind keyword

theorem isForOf_eq : isForOf (g tree) = isForOf tree := by
  rw [isForOf, h.child?, isForOf, Option.any_map]
  simp only [h.kind]

theorem asyncAttr_eq : asyncAttr (g tree) = asyncAttr tree := by
  rw [asyncAttr, h.token tree "async" (by decide), asyncAttr]

/-- The kind and the attributes of a node stay the same. -/
theorem shapeOf_eq : shapeOf (g tree) = shapeOf tree := by
  have hdelegate := h.token tree "*" (by decide)
  have hawait := h.token tree "await" (by decide)
  simp only [shapeOf, h.kind, h.keywordOf_eq, h.asyncAttr_eq, h.isForOf_eq, hdelegate, hawait]

theorem declaredWith?_eq : declaredWith? (g tree) = declaredWith? tree := by
  simp only [declaredWith?, h.kind, h.keywordOf_eq]

theorem isPattern_eq : isPattern (g tree) = isPattern tree := by
  rw [isPattern, h.kind, isPattern]

/-- A declarator lacks a value as before. -/
theorem bareCause?_eq (keyword : String) :
    bareCause? keyword (g tree) = bareCause? keyword tree := by
  simp only [bareCause?, h.named, h.kind, h.child?, Option.isNone_map, Option.any_map,
    h.isPattern_eq]

end Cst.Faithful

end EsFeatures
