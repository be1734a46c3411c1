/-
  EsFeatures.Proofs.CharacterSpans

  Conversions in characters.  A tree that counts the characters of a source is turned into
  one that counts bytes, as a parser gives it, by `inBytes`.  The conversion of that tree
  does not depend on how many bytes each character takes: it is the conversion of the tree
  itself in a source of one-byte characters, where every offset stands for itself, with the
  pieces of text and the places of errors read in the source.
-/
import EsFeatures.Proofs.Boundaries
import EsFeatures.Proofs.Faithful
import EsFeatures.Proofs.Findings
import EsFeatures.Proofs.FirstError

namespace EsFeatures

open Text.Utf8 (width)

/-! ## Trees on another scale -/

namespace Cst

mutual

/-- The tree with its offsets on another scale. -/
def rescale (f : Nat → Nat) : Cst → Cst
  | .node label children =>
    .node { label with startByte := f label.startByte, endByte := f label.endByte }
      (rescaleAll f children)

/-- The same for a list of trees. -/
def rescaleAll (f : Nat → Nat) : List Cst → List Cst
  | [] => []
  | tree :: rest => rescale f tree :: rescaleAll f rest

end

/-- A tree that counts characters of a source, with bytes counted instead. -/
def inBytes (source : String) (tree : Cst) : Cst :=
  tree.rescale (width source.toList)

section Rescale

variable (f : Nat → Nat) (tree : Cst)

theorem rescaleAll_eq_map (trees : List Cst) : rescaleAll f trees = trees.map (rescale f) := by
  induction trees with
  | nil => rfl
  | cons t ts ih => rw [rescaleAll, ih, List.map_cons]

theorem label_rescale :
    (tree.rescale f).label =
      { tree.label with startByte := f tree.startByte, endByte := f tree.endByte } := by
  cases tree
  rfl

theorem children_rescale : (tree.rescale f).children = tree.children.map (rescale f) := by
  cases tree with
  | node label children => exact rescaleAll_eq_map f children

@[simp] theorem startByte_rescale : (tree.rescale f).startByte = f tree.startByte := by
  rw [startByte, label_rescale]

@[simp] theorem endByte_rescale : (tree.rescale f).endByte = f tree.endByte := by
  rw [endByte, label_rescale]

theorem hasField_rescale (name : String) : (tree.rescale f).hasField name = tree.hasField name := by
  rw [hasField, label_rescale, hasField]

/-- The conversion asks a node for its offsets only to place it. -/
theorem faithful_rescale : Faithful (rescale f) where
  kind tree := by rw [kind, label_rescale, kind]
  named tree := by rw [label_rescale]
  child? tree name := by
    have hfield : hasField name ∘ rescale f = hasField name :=
      funext fun child => hasField_rescale f child name
    rw [child?, children_rescale, List.find?_map, hfield, child?]
  token tree token _ := by
    rw [hasToken, children_rescale, List.any_map, hasToken]
    simp only [Function.comp_def, kind, label_rescale]

end Rescale

/-! ### Trees that count characters -/

/-- A node whose offsets count characters of a text, with quotes of one byte each if it is
    a template. -/
structure CountsIn (text : List Char) (node : Cst) : Prop where
  start : node.startByte ≤ text.length
  stop : node.endByte ≤ text.length
  quotes : node.kind = "template_string" → node.startByte + 2 ≤ node.endByte ∧
    (∀ c ∈ text[node.startByte]?, c.utf8Size = 1) ∧ ∀ c ∈ text[node.endByte - 1]?, c.utf8Size = 1

theorem countsIn_iff {text : List Char} {node : Cst} :
    (node.startByte ≤ text.length ∧ node.endByte ≤ text.length ∧
      (node.kind = "template_string" → node.startByte + 2 ≤ node.endByte ∧
        text[node.startByte]?.all (·.utf8Size == 1) = true ∧
        text[node.endByte - 1]?.all (·.utf8Size == 1) = true)) ↔ node.CountsIn text := by
  simp only [Option.all_eq_true, beq_iff_eq]
  constructor
  · rintro ⟨hstart, hstop, hquotes⟩
    exact ⟨hstart, hstop, hquotes⟩
  · rintro ⟨hstart, hstop, hquotes⟩
    exact ⟨hstart, hstop, hquotes⟩

instance (text : List Char) : DecidablePred (CountsIn text) :=
  fun _ => decidable_of_iff _ countsIn_iff

/-- A tree all of whose offsets count characters of a source. -/
def CountsCharacters (source : String) (tree : Cst) : Prop :=
  ∀ path node, tree.at? path = some node → node.CountsIn source.toList

instance (source : String) : DecidablePred (CountsCharacters source) := fun tree =>
  decidable_of_iff (tree.every (fun node => decide (node.CountsIn source.toList)) = true) (by
    simp only [every_iff, decide_eq_true_eq]
    rfl)

section CountsCharacters

variable {source : String} {tree : Cst} (h : tree.CountsCharacters source)

include h

theorem CountsCharacters.root : tree.CountsIn source.toList :=
  h [] tree rfl

theorem CountsCharacters.child {child : Cst} (hchild : child ∈ tree.children) :
    child.CountsCharacters source := by
  obtain ⟨i, hi⟩ := exists_at?_cons hchild
  intro path node hat
  exact h (i :: path) node ((hi path).trans hat)

theorem CountsCharacters.start_le : tree.startByte ≤ source.length := by
  rw [← String.length_toList]
  exact h.root.start

theorem CountsCharacters.stop_le : tree.endByte ≤ source.length := by
  rw [← String.length_toList]
  exact h.root.stop

/-- The text of a template begins one byte behind its start and ends one byte before its
    end. -/
theorem CountsCharacters.quotes (hkind : tree.kind = "template_string") :
    (width source.toList tree.startByte : Int) + 1 = width source.toList (tree.startByte + 1) ∧
      (width source.toList tree.endByte : Int) - 1 = width source.toList (tree.endByte - 1) := by
  obtain ⟨hlong, hopening, hclosing⟩ := h.root.quotes hkind
  have hstop := h.root.stop
  have hone : ∀ i, i < source.toList.length → (∀ c ∈ source.toList[i]?, c.utf8Size = 1) →
      width source.toList (i + 1) = width source.toList i + 1 := by
    intro i hi hc
    have hget := List.getElem?_eq_getElem hi
    rw [Text.Utf8.width_succ hget, hc _ hget]
  have hfirst := hone tree.startByte (by omega) hopening
  have hlast := hone (tree.endByte - 1) (by omega) hclosing
  rw [Nat.sub_add_cancel (by omega)] at hlast
  omega

end CountsCharacters

end Cst

namespace Ast

open Text (substring)

/-! ## Heads of a source -/

mutual

/-- The tree with its heads changed. -/
def mapHeads (f : Head → Head) : Ast → Ast
  | .node head children => .node (f head) (mapAllHeads f children)

/-- The same for a list of trees. -/
def mapAllHeads (f : Head → Head) : List Ast → List Ast
  | [] => []
  | tree :: rest => mapHeads f tree :: mapAllHeads f rest

end

mutual

theorem heads_mapHeads (f : Head → Head) : (tree : Ast) →
    (preorder (mapHeads f tree)).map Ast.head = (preorder tree).map fun node => f node.head
  | .node head children => by
    rw [mapHeads, preorder, preorder, List.map_cons, List.map_cons, heads_mapAllHeads]
    rfl

theorem heads_mapAllHeads (f : Head → Head) : (trees : List Ast) →
    (preorders (mapAllHeads f trees)).map Ast.head = (preorders trees).map fun node => f node.head
  | [] => rfl
  | tree :: rest => by
    rw [mapAllHeads, preorders, preorders, List.map_append, List.map_append, heads_mapHeads,
      heads_mapAllHeads]

end

theorem mapAllHeads_append (f : Head → Head) (xs ys : List Ast) :
    mapAllHeads f (xs ++ ys) = mapAllHeads f xs ++ mapAllHeads f ys := by
  induction xs with
  | nil => rfl
  | cons x xs ih => rw [List.cons_append, mapAllHeads, mapAllHeads, ih, List.cons_append]

/-- The head with its piece of text, if it has one, as it stands in a source. -/
def Head.readIn (source : String) (head : Head) : Head :=
  { head with attrs := head.attrs.map fun attr =>
      if attr.1 = "raw" then
        ("raw", .text (substring source (head.start.getD 0) (head.stop.getD 0)))
      else attr }

end Ast

/-- The error at its place in a source. -/
def SyntaxError.readIn (source : String) (e : SyntaxError) : SyntaxError :=
  .locate source e.offset e.cause

namespace Ast

/-- What a conversion gives, with pieces of text and places as they stand in a source. -/
def reading (source : String) (result : Except SyntaxError (List Ast)) :
    Except SyntaxError (List Ast) :=
  (result.map (mapAllHeads (Head.readIn source))).mapError (SyntaxError.readIn source)

section Reading

variable (source : String)

theorem reading_followedBy (first later : Except SyntaxError (List Ast)) :
    reading source (followedBy first later) =
      followedBy (reading source first) (reading source later) := by
  cases first with
  | error e => rfl
  | ok xs =>
    cases later with
    | error e => rfl
    | ok ys => exact congrArg Except.ok (mapAllHeads_append _ xs ys)

theorem reading_node (head : Head) (below : Except SyntaxError (List Ast)) :
    reading source (below.map fun nodes => [.node head nodes]) =
      (reading source below).map fun nodes => [.node (head.readIn source) nodes] := by
  cases below with
  | error e => rfl
  | ok nodes => rfl

theorem reading_declared (heads : Option (Head × Head)) (named : Bool)
    (variable_ value : Except SyntaxError (List Ast)) :
    reading source (declared heads named variable_ value) =
      declared (heads.map (Prod.map (Head.readIn source) (Head.readIn source))) named
        (reading source variable_) (reading source value) := by
  cases heads with
  | none => rfl
  | some heads =>
    cases named with
    | false => rfl
    | true =>
      show reading source ((followedBy variable_ value).map _) = (followedBy _ _).map _
      rw [← reading_followedBy]
      cases followedBy variable_ value with
      | error e => rfl
      | ok nodes => rfl

end Reading

/-! ## Heads and refusals in bytes -/

theorem raw_notMem_shapeOf (tree : Cst) : ∀ attr ∈ (shapeOf tree).2, attr.1 ≠ "raw" := by
  unfold shapeOf
  split
  case h_11 => split <;> simp
  all_goals simp [asyncAttr]

/-- A source in which every character takes one byte. -/
def OneByte (source : String) : Prop :=
  (Text.Utf8.encode source.toList).length = source.toList.length

section Heads

variable {source plain : String} (hplain : OneByte plain)

include hplain

/-- In a source of one-byte characters every offset stands for itself. -/
theorem OneByte.charOffset_eq (offset : Int) : charOffset plain offset = offset := by
  have hsame := charOffset_ofList hplain offset
  rwa [String.ofList_toList] at hsame

theorem readIn_spanHead (kind : String) (start stop : Int) {attrs : List (String × Scalar)}
    (hattrs : ∀ attr ∈ attrs, attr.1 ≠ "raw") :
    (spanHead plain kind start stop attrs).readIn source =
      { kind, start := some start, stop := some stop, attrs } := by
  have hkept : attrs.map (fun attr => if attr.1 = "raw" then
      ("raw", Scalar.text (Text.substring source start stop)) else attr) = attrs := by
    rw [List.map_congr_left fun attr hattr => if_neg (hattrs attr hattr), List.map_id']
  simp only [spanHead, Head.readIn, hplain.charOffset_eq, Option.getD_some, hkept]

theorem readIn_segmentHead (start stop : Int) :
    (segmentHead plain start stop).readIn source =
      { kind := "TemplateElement", start := some start, stop := some stop,
        attrs := [("raw", .text (Text.substring source start stop))] } := by
  simp only [segmentHead, spanHead, Head.readIn, hplain.charOffset_eq, Option.getD_some,
    List.map_cons, List.map_nil, if_true]

theorem spanHead_width {i j : Nat} (hi : i ≤ source.length) (hj : j ≤ source.length)
    (kind : String) {attrs : List (String × Scalar)} (hattrs : ∀ attr ∈ attrs, attr.1 ≠ "raw") :
    spanHead source kind (width source.toList i) (width source.toList j) attrs =
      (spanHead plain kind i j attrs).readIn source := by
  rw [readIn_spanHead hplain kind i j hattrs, spanHead, charOffset_width source hi,
    charOffset_width source hj]

theorem segmentHead_width {i j : Nat} (hi : i ≤ source.length) (hj : j ≤ source.length) :
    segmentHead source (width source.toList i) (width source.toList j) =
      (segmentHead plain i j).readIn source := by
  rw [readIn_segmentHead hplain, segmentHead, spanHead, charOffset_width source hi,
    charOffset_width source hj, text_width source hi hj]

variable {tree : Cst} (h : tree.CountsCharacters source)

include h

theorem headOf_inBytes :
    headOf source (tree.inBytes source) = (headOf plain tree).readIn source := by
  have hfaithful := Cst.faithful_rescale (width source.toList)
  rw [headOf, Cst.inBytes, hfaithful.shapeOf_eq, Cst.startByte_rescale, Cst.endByte_rescale]
  exact spanHead_width hplain h.start_le h.stop_le _ (raw_notMem_shapeOf tree)

theorem loopHeads?_inBytes :
    loopHeads? source (tree.inBytes source) =
      (loopHeads? plain tree).map (Prod.map (Head.readIn source) (Head.readIn source)) := by
  have hfaithful := Cst.faithful_rescale (width source.toList)
  have hchild : ∀ {name child}, tree.child? name = some child → child.CountsCharacters source :=
    fun hchild => h.child (List.mem_of_find?_eq_some hchild)
  simp only [loopHeads?, Cst.inBytes, hfaithful.child?]
  cases hkeyword : tree.child? "kind" with
  | none => rfl
  | some keyword =>
    cases hleft : tree.child? "left" with
    | none => rfl
    | some left =>
      -- The declaration ends with the initial value, or with the variable.
      have hlast : ((tree.child? "value").getD left).CountsCharacters source := by
        cases hvalue : tree.child? "value" with
        | none => exact hchild hleft
        | some value => exact hchild hvalue
      have hrescaled : ((tree.child? "value").map (Cst.rescale (width source.toList))).getD
          (left.rescale (width source.toList)) =
            ((tree.child? "value").getD left).rescale (width source.toList) := by
        cases tree.child? "value" with
        | none => rfl
        | some value => rfl
      simp only [Option.map_some, hrescaled, Cst.startByte_rescale, Cst.endByte_rescale,
        hfaithful.kind, Prod.map_apply, Option.some.injEq, Prod.mk.injEq]
      constructor
      · exact spanHead_width hplain (hchild hkeyword).start_le hlast.stop_le _ (by simp)
      · exact spanHead_width hplain (hchild hleft).start_le hlast.stop_le _ (by simp)

theorem refusal?_inBytes :
    refusal? source (tree.inBytes source) =
      (refusal? plain tree).map (SyntaxError.readIn source) := by
  have hfaithful := Cst.faithful_rescale (width source.toList)
  have hchildren : ∀ child ∈ tree.children, child.CountsCharacters source := fun child => h.child
  rw [refusal?, refusal?, Cst.inBytes, hfaithful.declaredWith?_eq, Cst.children_rescale]
  cases declaredWith? tree with
  | none => rfl
  | some keyword =>
    simp only [Option.bind_some, bareError?]
    -- The same declarator is the first to lack a value.
    generalize tree.children = children at hchildren ⊢
    induction children with
    | nil => rfl
    | cons child rest ih =>
      have hrest := ih fun child hchild => hchildren child (List.mem_cons_of_mem _ hchild)
      rw [List.map_cons, List.findSome?_cons, List.findSome?_cons, hfaithful.bareCause?_eq]
      cases bareCause? keyword child with
      | none => exact hrest
      | some cause =>
        have hstart := (hchildren child List.mem_cons_self).start_le
        simp only [Option.map_some, Cst.startByte_rescale, charOffset_width source hstart,
          hplain.charOffset_eq]
        rfl

end Heads

/-! ## The conversion in bytes -/

section Conversion

variable {source plain : String}

mutual

/-- A tree in bytes is converted as the tree is in a source of one-byte characters. -/
theorem conv_rescale (hplain : OneByte plain) : (tree : Cst) → tree.CountsCharacters source →
    conv source (tree.rescale (width source.toList)) = reading source (conv plain tree)
  | .node label children, h => by
    have hfaithful := Cst.faithful_rescale (width source.toList)
    have hchildren : ∀ child ∈ children, child.CountsCharacters source := fun child => h.child
    have hkept := hfaithful.isKept_eq (.node label children)
    have hrefusal := refusal?_inBytes hplain h
    have hhead := headOf_inBytes hplain h
    have hheads := loopHeads?_inBytes hplain h
    rw [Cst.inBytes, Cst.rescale] at hrefusal hhead hheads
    rw [Cst.rescale] at hkept
    rw [Cst.rescale, conv, conv, hkept, hrefusal, hhead, hheads]
    split
    · cases refusal? plain (.node label children) with
      | some e => rfl
      | none =>
        simp only [Option.map_none]
        rw [reading_node]
        congr 1
        split
        · rw [convValue_rescale hplain children hchildren,
            convLoop_rescale hplain _ _ _ _ children hchildren]
        · split
          · -- The quotes take one byte in the source, as they do in the plain one.
            rename_i hkind
            have hlong := (h.root.quotes hkind).1
            have hopens : label.startByte + 2 ≤ label.endByte := hlong
            have hcloses : label.endByte ≤ source.length := h.stop_le
            obtain ⟨hstart, hstop⟩ := h.quotes hkind
            have hplainStop : (label.endByte : Int) - 1 = (label.endByte - 1 : Nat) := by omega
            have hbelow := convTemplate_rescale hplain (label.endByte - 1) (by omega)
              (label.startByte + 1) (by omega) children hchildren
            rw [hplainStop]
            exact (congrArg₂ (convTemplate source · · _) hstop hstart).trans hbelow
          · exact convAll_rescale hplain children hchildren
    · rfl

theorem convAll_rescale (hplain : OneByte plain) : (trees : List Cst) →
    (∀ tree ∈ trees, tree.CountsCharacters source) →
    convAll source (Cst.rescaleAll (width source.toList) trees) =
      reading source (convAll plain trees)
  | [], _ => rfl
  | tree :: rest, h => by
    rw [Cst.rescaleAll, convAll, convAll, conv_rescale hplain tree (h tree List.mem_cons_self),
      convAll_rescale hplain rest fun t ht => h t (List.mem_cons_of_mem _ ht), reading_followedBy]

theorem convValue_rescale (hplain : OneByte plain) : (trees : List Cst) →
    (∀ tree ∈ trees, tree.CountsCharacters source) →
    convValue source (Cst.rescaleAll (width source.toList) trees) =
      reading source (convValue plain trees)
  | [], _ => rfl
  | .node label children :: rest, h => by
    have hfield := Cst.hasField_rescale (width source.toList) (.node label children) "value"
    have hbelow : ∀ child ∈ children, child.CountsCharacters source :=
      fun child => (h _ List.mem_cons_self).child
    rw [Cst.rescale] at hfield
    rw [Cst.rescaleAll, Cst.rescale, convValue, convValue, hfield]
    split
    · exact convAll_rescale hplain children hbelow
    · exact convValue_rescale hplain rest fun t ht => h t (List.mem_cons_of_mem _ ht)

theorem convLoop_rescale (hplain : OneByte plain) (heads : Option (Head × Head))
    (value : Except SyntaxError (List Ast)) (leftOpen valueOpen : Bool) : (trees : List Cst) →
    (∀ tree ∈ trees, tree.CountsCharacters source) →
    convLoop source (heads.map (Prod.map (Head.readIn source) (Head.readIn source)))
        (reading source value) leftOpen valueOpen (Cst.rescaleAll (width source.toList) trees) =
      reading source (convLoop plain heads value leftOpen valueOpen trees)
  | [], _ => rfl
  | tree :: rest, h => by
    have hfaithful := Cst.faithful_rescale (width source.toList)
    have htree := conv_rescale hplain tree (h tree List.mem_cons_self)
    have hrest : ∀ t ∈ rest, t.CountsCharacters source :=
      fun t ht => h t (List.mem_cons_of_mem _ ht)
    rw [Cst.rescaleAll, convLoop, convLoop, Cst.hasField_rescale, Cst.hasField_rescale,
      hfaithful.named, htree]
    split
    · rw [reading_followedBy, reading_declared, convLoop_rescale hplain heads value _ _ rest hrest]
    · split
      · exact convLoop_rescale hplain heads value _ _ rest hrest
      · rw [reading_followedBy, convLoop_rescale hplain heads value _ _ rest hrest]

theorem convTemplate_rescale (hplain : OneByte plain) (stop : Nat) (hstop : stop ≤ source.length) :
    (start : Nat) → start ≤ source.length → (trees : List Cst) →
    (∀ tree ∈ trees, tree.CountsCharacters source) →
    convTemplate source (width source.toList stop) (width source.toList start)
        (Cst.rescaleAll (width source.toList) trees) =
      reading source (convTemplate plain stop start trees)
  | start, hstart, [], _ => by
    rw [Cst.rescaleAll, convTemplate, convTemplate, segmentHead_width hplain hstart hstop]
    rfl
  | start, hstart, .node label children :: rest, h => by
    have hfaithful := Cst.faithful_rescale (width source.toList)
    have hsub := hfaithful.isSubstitution_eq (.node label children)
    have hfirst := h _ List.mem_cons_self
    have hopens : label.startByte ≤ source.length := hfirst.start_le
    have hcloses : label.endByte ≤ source.length := hfirst.stop_le
    have hbelow : ∀ child ∈ children, child.CountsCharacters source := fun child => hfirst.child
    have hrest : ∀ t ∈ rest, t.CountsCharacters source :=
      fun t ht => h t (List.mem_cons_of_mem _ ht)
    rw [Cst.rescale] at hsub
    rw [Cst.rescaleAll, Cst.rescale, convTemplate, convTemplate, hsub]
    split
    · -- The text goes on where the substitution ends.
      rw [reading_followedBy, reading_followedBy, ← convAll_rescale hplain children hbelow,
        ← convTemplate_rescale hplain stop hstop _ hcloses rest hrest,
        segmentHead_width hplain hstart hopens]
      rfl
    · exact convTemplate_rescale hplain stop hstop start hstart rest hrest

end

end Conversion

/-! ## Origins in characters -/

/-- The head of the node that is made from an origin in a tree that counts characters of a
    source. -/
def Origin.characterHead (source : String) : Origin → Head
  | .construct tree =>
    { kind := (shapeOf tree).1, start := some tree.startByte, stop := some tree.endByte,
      attrs := (shapeOf tree).2 }
  | .declaration keyword last =>
    { kind := "VariableDeclaration", start := some keyword.startByte, stop := some last.endByte,
      attrs := [("kind", .text keyword.kind)] }
  | .declarator left last =>
    { kind := "VariableDeclarator", start := some left.startByte, stop := some last.endByte }
  | .segment _ start stop =>
    { kind := "TemplateElement", start := some start, stop := some stop,
      attrs := [("raw", .text (Text.substring source start stop))] }

theorem readIn_head {plain : String} (hplain : OneByte plain) (source : String) (origin : Origin) :
    (origin.head plain).readIn source = origin.characterHead source := by
  cases origin with
  | construct tree => exact readIn_spanHead hplain _ _ _ (raw_notMem_shapeOf tree)
  | declaration keyword last => exact readIn_spanHead hplain _ _ _ (by simp)
  | declarator left last => exact readIn_spanHead hplain _ _ _ (by simp)
  | segment index start stop => exact readIn_segmentHead hplain start stop

/-! ## Two sources -/

/-- The head without its piece of text. -/
def Head.withoutText (head : Head) : Head :=
  { head with attrs := head.attrs.filter fun attr => attr.1 != "raw" }

/-- Two conversions that agree in all that does not quote their sources: kinds, spans and
    the other attributes of all nodes, or the cause and the offset of the error. -/
def SameButText : Except Failure Ast → Except Failure Ast → Prop
  | .ok program, .ok program' =>
    program.mapHeads Head.withoutText = program'.mapHeads Head.withoutText
  | .error (.invalid e), .error (.invalid e') => e.cause = e'.cause ∧ e.offset = e'.offset
  | _, _ => False

theorem withoutText_readIn (source : String) (head : Head) :
    (head.readIn source).withoutText = head.withoutText := by
  simp only [Head.withoutText, Head.readIn]
  congr 1
  induction head.attrs with
  | nil => rfl
  | cons attr rest ih => by_cases hraw : attr.1 = "raw" <;> simp [hraw, ih]

mutual

theorem mapHeads_mapHeads (f g : Head → Head) : (tree : Ast) →
    (tree.mapHeads f).mapHeads g = tree.mapHeads fun head => g (f head)
  | .node head children => by
    rw [mapHeads, mapHeads, mapHeads, mapAllHeads_mapAllHeads]

theorem mapAllHeads_mapAllHeads (f g : Head → Head) : (trees : List Ast) →
    mapAllHeads g (mapAllHeads f trees) = mapAllHeads (fun head => g (f head)) trees
  | [] => rfl
  | tree :: rest => by
    rw [mapAllHeads, mapAllHeads, mapAllHeads, mapHeads_mapHeads, mapAllHeads_mapAllHeads]

end

/-- A text of as many blanks as there are characters in a source. -/
def blank (source : String) : String :=
  String.ofList (List.replicate source.length ' ')

theorem oneByte_blank (source : String) : OneByte (blank source) := by
  rw [OneByte, blank, String.toList_ofList]
  induction source.length with
  | zero => rfl
  | succ n ih =>
    rw [List.replicate_succ, Text.Utf8.length_encode_cons, ih, List.length_cons]
    show 1 + _ = _
    omega

/-- What a tree in bytes is converted to, by its conversion in characters. -/
theorem build_inBytes {source : String} {tree : Cst} (h : tree.CountsCharacters source) :
    build source (tree.inBytes source) =
      match conv (blank source) tree with
      | .ok nodes => .ok ((mapAllHeads (Head.readIn source) nodes).headD (emptyProgram source))
      | .error e => .error (.invalid (e.readIn source)) := by
  rw [build_eq, convert, Cst.inBytes, conv_rescale (oneByte_blank source) tree h]
  cases conv (blank source) tree with
  | ok nodes => rfl
  | error e => rfl

theorem sameButText_build {source other : String} {tree : Cst} (h : tree.CountsCharacters source)
    (hother : tree.CountsCharacters other) (hlength : other.length = source.length) :
    SameButText (build source (tree.inBytes source)) (build other (tree.inBytes other)) := by
  have hblank : blank other = blank source := by rw [blank, hlength, blank]
  have hempty : emptyProgram other = emptyProgram source := by
    rw [emptyProgram, hlength, emptyProgram]
  rw [build_inBytes h, build_inBytes hother, hblank]
  cases conv (blank source) tree with
  | error e => exact ⟨rfl, rfl⟩
  | ok nodes =>
    cases nodes with
    | nil => exact congrArg (mapHeads Head.withoutText) hempty.symm
    | cons node rest =>
      show (node.mapHeads _).mapHeads _ = (node.mapHeads _).mapHeads _
      simp only [mapHeads_mapHeads, withoutText_readIn]

/-- A conversion does not depend on how many bytes the characters of its source take.  Of
    a tree that counts characters, with bytes counted instead, it makes the nodes that the
    tree makes, at the tree's own offsets and with the text of the source at them; or it
    fails at the offset of the first declarator that lacks a value.  Two sources of one
    length give the same but for the texts. -/
theorem conversion_counts_characters {source : String} {tree : Cst}
    (h : tree.CountsCharacters source) :
    ((∃ program, build source (tree.inBytes source) = .ok program ∧
        (isKept tree = false ∧ program = emptyProgram source ∨
          program.preorder.map Ast.head =
            (sites tree).map fun site => site.origin.characterHead source)) ∨
      ∃ first rest e, bareInOrder tree = first :: rest ∧
        build source (tree.inBytes source) = .error (.invalid e) ∧ e.offset = first.startByte) ∧
    ∀ other : String, other.length = source.length → tree.CountsCharacters other →
      SameButText (build source (tree.inBytes source)) (build other (tree.inBytes other)) := by
  refine ⟨?_, fun other hlength hother => sameButText_build h hother hlength⟩
  have hplain := oneByte_blank source
  rw [build_inBytes h]
  cases hconv : conv (blank source) tree with
  | error e =>
    obtain ⟨first, rest, hbare, hoffset⟩ := offset_of_conv_eq_error hconv
    rw [hplain.charOffset_eq] at hoffset
    exact Or.inr ⟨first, rest, _, hbare, rfl, hoffset⟩
  | ok nodes =>
    refine Or.inl ⟨_, rfl, ?_⟩
    rcases conv_eq_ok hconv with ⟨rfl, hsites⟩ | ⟨node, rfl⟩
    · -- Nothing comes of a root that is a token or a comment.
      refine Or.inl ⟨?_, rfl⟩
      by_contra hkept
      rw [sites_of_isKept (eq_true_of_ne_false hkept)] at hsites
      cases hsites
    · have hheads := heads_of_conv_eq_ok hconv
      rw [Walk.preorders_singleton] at hheads
      refine Or.inr ?_
      calc ((node.mapHeads (Head.readIn source)).preorder).map Ast.head
          = (node.preorder.map Ast.head).map (Head.readIn source) := by
            rw [heads_mapHeads, List.map_map]
            rfl
        _ = (sites tree).map fun site => site.origin.characterHead source := by
            rw [hheads, List.map_map]
            exact List.map_congr_left fun site _ => readIn_head hplain source site.origin

/-- A loop over a template, with characters of two bytes. -/
def loopOverTextSource : String :=
  "for (let é of `ü$\x7bé\x7d`) ;"

/-- The tree of `loopOverTextSource`, in characters. -/
def loopOverText : Cst :=
  .node ⟨"program", 0, 24, true, false, false, none⟩
    [.node ⟨"for_in_statement", 0, 24, true, false, false, none⟩
      [.node ⟨"for", 0, 3, false, false, false, none⟩ [],
       .node ⟨"(", 4, 5, false, false, false, none⟩ [],
       .node ⟨"let", 5, 8, false, false, false, some "kind"⟩ [],
       .node ⟨"identifier", 9, 10, true, false, false, some "left"⟩ [],
       .node ⟨"of", 11, 13, false, false, false, some "operator"⟩ [],
       .node ⟨"template_string", 14, 21, true, false, false, some "right"⟩
        [.node ⟨"string_fragment", 15, 16, true, false, false, none⟩ [],
         .node ⟨"template_substitution", 16, 20, true, false, false, none⟩
          [.node ⟨"identifier", 18, 19, true, false, false, none⟩ []]],
       .node ⟨")", 21, 22, false, false, false, none⟩ [],
       .node ⟨"empty_statement", 23, 24, true, false, false, some "body"⟩ []]]

/-- The heads of the nodes that `loopOverText` becomes. -/
def loopOverTextHeads : List Head :=
  [{ kind := "Program", start := some 0, stop := some 24 },
   { kind := "ForOfStatement", start := some 0, stop := some 24,
     attrs := [("await", .flag false)] },
   { kind := "VariableDeclaration", start := some 5, stop := some 10,
     attrs := [("kind", .text "let")] },
   { kind := "VariableDeclarator", start := some 9, stop := some 10 },
   { kind := "Identifier", start := some 9, stop := some 10 },
   { kind := "TemplateLiteral", start := some 14, stop := some 21 },
   { kind := "TemplateElement", start := some 15, stop := some 16, attrs := [("raw", .text "ü")] },
   { kind := "Identifier", start := some 18, stop := some 19 },
   { kind := "TemplateElement", start := some 20, stop := some 20, attrs := [("raw", .text "")] },
   { kind := "EmptyStatement", start := some 23, stop := some 24 }]

theorem build_loopOverText :
    (build loopOverTextSource (loopOverText.inBytes loopOverTextSource)).map
      (fun program => program.preorder.map Ast.head) = .ok loopOverTextHeads := by
  rw [build_eq]
  decide +kernel

/-- The same loop is converted in the same way with characters of one byte. -/
theorem conversion_counts_characters_loopOverText :
    loopOverText.CountsCharacters loopOverTextSource ∧
      (∃ program, build loopOverTextSource (loopOverText.inBytes loopOverTextSource) = .ok program ∧
        program.preorder.map Ast.head = loopOverTextHeads) ∧
      SameButText (build loopOverTextSource (loopOverText.inBytes loopOverTextSource))
        (build "for (let x of `y$\x7bx\x7d`) ;"
          (loopOverText.inBytes "for (let x of `y$\x7bx\x7d`) ;")) := by
  have hcounts : loopOverText.CountsCharacters loopOverTextSource := by decide +kernel
  have hother : loopOverText.CountsCharacters "for (let x of `y$\x7bx\x7d`) ;" := by decide +kernel
  have hheads := build_loopOverText
  obtain ⟨⟨program, hbuild, -⟩ | ⟨first, rest, e, -, hbuild, -⟩, hsame⟩ :=
    conversion_counts_characters hcounts
  · rw [hbuild] at hheads
    exact ⟨hcounts, ⟨program, hbuild, Except.ok.inj hheads⟩, hsame _ (by decide +kernel) hother⟩
  · rw [hbuild] at hheads
    cases hheads

end Ast

end EsFeatures
