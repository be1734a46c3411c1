/-
  EsFeatures.Proofs.Transparency

  Comments and punctuation leave no trace.  `strip` takes out of a tree, at every level,
  the children that stand under no field and are comments, or tokens that become no
  attribute.  The conversion asks a node for its fields, its constructs and a few tokens:
  each of its recursions over children passes over those that `strip` takes out, and reads
  the same of those that it keeps.
-/
import EsFeatures.Proofs.Faithful
import EsFeatures.Proofs.WorkStack

namespace EsFeatures

namespace Cst

/-! ## Trees without comments and punctuation -/

/-- Whether a child says nothing about the program: it stands under no field and is a
    comment, or a token that becomes no attribute. -/
def isTransparent (child : Cst) : Bool :=
  child.label.field.isNone &&
    (Ast.isComment child.kind || (!child.label.named && !attributeTokens.contains child.kind))

mutual

/-- The tree without comments and punctuation. -/
def strip : Cst → Cst
  | .node label children => .node label (stripAll children)

/-- The same for a list of children. -/
def stripAll : List Cst → List Cst
  | [] => []
  | child :: rest => if isTransparent child then stripAll rest else strip child :: stripAll rest

end

section Transparent

variable {child : Cst} (h : isTransparent child = true)

include h

/-- What is taken out stands under no field. -/
theorem hasField_of_isTransparent (name : String) : child.hasField name = false := by
  have hfield : child.label.field = none :=
    Option.isNone_iff_eq_none.mp (Bool.and_eq_true_iff.mp h).1
  rw [hasField, hfield]
  rfl

/-- What is taken out has no place in the abstract tree. -/
theorem isKept_of_isTransparent : Ast.isKept child = false := by
  obtain hcomment | htoken := Bool.or_eq_true_iff.mp (Bool.and_eq_true_iff.mp h).2
  · simp [Ast.isKept, hcomment]
  · have hnamed : child.label.named = false := by simpa using (Bool.and_eq_true_iff.mp htoken).1
    rw [Ast.isKept, hnamed, Bool.false_and]

/-- What is taken out is a construct of none of the kinds that a parent looks for. -/
theorem not_named_of_isTransparent {kind : String} (hkind : Ast.isComment kind = false) :
    (child.label.named && child.kind == kind) = false := by
  have hkept := isKept_of_isTransparent h
  rw [Ast.isKept, Bool.and_eq_false_iff] at hkept
  rw [Bool.and_eq_false_iff]
  refine hkept.imp_right fun hcomment => ?_
  rw [beq_eq_false_iff_ne]
  rintro rfl
  rw [hkind] at hcomment
  cases hcomment

/-- What is taken out is none of the tokens that become attributes. -/
theorem not_token_of_isTransparent {token : String} (htoken : token ∈ attributeTokens) :
    (!child.label.named && child.kind == token) = false := by
  rw [Bool.and_eq_false_iff, beq_eq_false_iff_ne]
  refine Or.inr ?_
  rintro rfl
  -- A child whose kind is such a token is neither a comment nor punctuation.
  have hcomment : ∀ kind ∈ attributeTokens, Ast.isComment kind = false := by decide
  have hkinds := (Bool.and_eq_true_iff.mp h).2
  simp [hcomment _ htoken, htoken] at hkinds

end Transparent

section Strip

variable (tree : Cst)

theorem label_strip : tree.strip.label = tree.label := by
  cases tree
  rfl

theorem children_strip : tree.strip.children = stripAll tree.children := by
  cases tree
  rfl

@[simp] theorem startByte_strip : tree.strip.startByte = tree.startByte := by
  rw [startByte, label_strip, startByte]

@[simp] theorem endByte_strip : tree.strip.endByte = tree.endByte := by
  rw [endByte, label_strip, endByte]

theorem hasField_strip (name : String) : tree.strip.hasField name = tree.hasField name := by
  rw [hasField, label_strip, hasField]

/-- The first child under a field stays the first. -/
theorem find?_stripAll (name : String) (children : List Cst) :
    (stripAll children).find? (hasField name) = (children.find? (hasField name)).map strip := by
  induction children with
  | nil => rfl
  | cons child rest ih =>
    rw [stripAll]
    split
    · rename_i h
      rw [ih, List.find?_cons_of_neg (by rw [hasField_of_isTransparent h]; decide)]
    · by_cases hfield : child.hasField name = true
      · rw [List.find?_cons_of_pos hfield, List.find?_cons_of_pos (by rwa [hasField_strip])]
        rfl
      · rw [List.find?_cons_of_neg hfield, List.find?_cons_of_neg (by rwa [hasField_strip]), ih]

theorem any_token_stripAll {token : String} (htoken : token ∈ attributeTokens)
    (children : List Cst) :
    ((stripAll children).any fun child => !child.label.named && child.kind == token) =
      children.any fun child => !child.label.named && child.kind == token := by
  induction children with
  | nil => rfl
  | cons child rest ih =>
    rw [stripAll]
    split
    · rename_i h
      rw [ih, List.any_cons, not_token_of_isTransparent h htoken, Bool.false_or]
    · rw [List.any_cons, List.any_cons, ih, kind, label_strip, kind]

/-- What the conversion asks a node for is not taken out. -/
theorem faithful_strip : Faithful strip where
  kind tree := by rw [kind, label_strip, kind]
  named tree := by rw [label_strip]
  child? tree name := by rw [child?, children_strip, find?_stripAll, child?]
  token tree token htoken := by rw [hasToken, children_strip, any_token_stripAll htoken, hasToken]

end Strip

end Cst

/-! ## Heads and refusals -/

namespace Ast

section Heads

variable (source : String) (tree : Cst)

theorem headOf_strip : headOf source tree.strip = headOf source tree := by
  rw [headOf, Cst.faithful_strip.shapeOf_eq, Cst.startByte_strip, Cst.endByte_strip, headOf]

theorem loopHeads?_strip : loopHeads? source tree.strip = loopHeads? source tree := by
  rw [loopHeads?, loopHeads?, Cst.faithful_strip.child?, Cst.faithful_strip.child?,
    Cst.faithful_strip.child?]
  cases tree.child? "kind" with
  | none => rfl
  | some keyword =>
    cases tree.child? "left" with
    | none => rfl
    | some left =>
      have hlast : ((tree.child? "value").map Cst.strip).getD left.strip =
          ((tree.child? "value").getD left).strip := by
        cases tree.child? "value" with
        | none => rfl
        | some value => rfl
      simp only [Option.map_some, hlast, Cst.startByte_strip, Cst.endByte_strip,
        Cst.faithful_strip.kind]

/-- The same declarator is the first to lack a value. -/
theorem bareError?_stripAll (keyword : String) (children : List Cst) :
    bareError? source keyword (Cst.stripAll children) = bareError? source keyword children := by
  induction children with
  | nil => rfl
  | cons child rest ih =>
    rw [Cst.stripAll]
    split
    · rename_i h
      have hbare : bareCause? keyword child = none := by
        rw [bareCause?, Cst.not_named_of_isTransparent h (by decide)]
        rfl
      rw [ih, bareError?, bareError?, List.findSome?_cons, hbare]
      rfl
    · rw [bareError?, bareError?, List.findSome?_cons, List.findSome?_cons,
        Cst.faithful_strip.bareCause?_eq, Cst.startByte_strip]
      rw [bareError?, bareError?] at ih
      rw [ih]

theorem refusal?_strip : refusal? source tree.strip = refusal? source tree := by
  simp only [refusal?, Cst.faithful_strip.declaredWith?_eq, Cst.children_strip, bareError?_stripAll]

end Heads

/-! ## The conversion of a stripped tree -/

section Conversion

variable {source : String}

theorem conv_of_isTransparent {child : Cst} (h : child.isTransparent = true) :
    conv source child = .ok [] :=
  conv_of_not_isKept (Cst.isKept_of_isTransparent h)

mutual

/-- A tree becomes the same nodes without comments and punctuation. -/
theorem conv_strip : (tree : Cst) → conv source tree.strip = conv source tree
  | .node label children => by
    have hkept := Cst.faithful_strip.isKept_eq (.node label children)
    have hrefusal := refusal?_strip source (.node label children)
    have hhead := headOf_strip source (.node label children)
    have hheads := loopHeads?_strip source (.node label children)
    rw [Cst.strip] at hkept hrefusal hhead hheads
    rw [Cst.strip, conv, conv, hkept, hrefusal, hhead, hheads, convValue_stripAll children,
      convLoop_stripAll _ _ _ _ children, convTemplate_stripAll _ _ children,
      convAll_stripAll children]

theorem convAll_stripAll : (trees : List Cst) →
    convAll source (Cst.stripAll trees) = convAll source trees
  | [] => rfl
  | tree :: rest => by
    rw [Cst.stripAll]
    split
    · rename_i h
      rw [convAll_stripAll rest, convAll, conv_of_isTransparent h, ok_nil_followedBy]
    · rw [convAll, convAll, conv_strip tree, convAll_stripAll rest]

theorem convValue_stripAll : (trees : List Cst) →
    convValue source (Cst.stripAll trees) = convValue source trees
  | [] => rfl
  | .node label children :: rest => by
    rw [Cst.stripAll]
    split
    · rename_i h
      rw [convValue_stripAll rest, convValue, Cst.hasField_of_isTransparent h]
      rfl
    · have hfield := Cst.hasField_strip (.node label children) "value"
      rw [Cst.strip] at hfield
      rw [Cst.strip, convValue, convValue, hfield, convAll_stripAll children,
        convValue_stripAll rest]

theorem convLoop_stripAll (heads : Option (Head × Head)) (value : Except SyntaxError (List Ast))
    (leftOpen valueOpen : Bool) : (trees : List Cst) →
    convLoop source heads value leftOpen valueOpen (Cst.stripAll trees) =
      convLoop source heads value leftOpen valueOpen trees
  | [] => rfl
  | tree :: rest => by
    rw [Cst.stripAll]
    split
    · rename_i h
      rw [convLoop_stripAll heads value leftOpen valueOpen rest, convLoop,
        Cst.hasField_of_isTransparent h, Cst.hasField_of_isTransparent h,
        conv_of_isTransparent h, ok_nil_followedBy, Bool.and_false, Bool.and_false]
      rfl
    · rw [convLoop, convLoop, Cst.hasField_strip, Cst.hasField_strip, Cst.faithful_strip.named,
        conv_strip tree, convLoop_stripAll heads value _ _ rest,
        convLoop_stripAll heads value _ _ rest, convLoop_stripAll heads value _ _ rest]

theorem convTemplate_stripAll (stop : Int) : (start : Int) → (trees : List Cst) →
    convTemplate source stop start (Cst.stripAll trees) = convTemplate source stop start trees
  | _, [] => rfl
  | start, .node label children :: rest => by
    rw [Cst.stripAll]
    split
    · rename_i h
      have hplain : isSubstitution (.node label children) = false :=
        Cst.not_named_of_isTransparent h (by decide)
      rw [convTemplate_stripAll stop start rest, convTemplate, hplain]
      rfl
    · have hsubstitution := Cst.faithful_strip.isSubstitution_eq (.node label children)
      rw [Cst.strip] at hsubstitution
      rw [Cst.strip, convTemplate, convTemplate, hsubstitution, convAll_stripAll children,
        convTemplate_stripAll stop _ rest, convTemplate_stripAll stop _ rest]

end

/-- Comments and punctuation are transparent: without them a tree is converted to the same
    abstract tree, with the same spans and attributes, or refused with the same error. -/
theorem build_strip (source : String) (tree : Cst) :
    build source tree.strip = build source tree := by
  rw [build_eq, build_eq, convert, convert, conv_strip]

end Conversion

end Ast

end EsFeatures
