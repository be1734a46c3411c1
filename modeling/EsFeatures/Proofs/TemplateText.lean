/-
  EsFeatures.Proofs.TemplateText

  The pieces of text of a template.  They are what the substitutions leave of the template
  between its quotes: one piece more than there are substitutions, each with the text that
  it spans, and put together with the quotes and the substitutions they are the text of the
  template again.  The node of a template has them as children, with the nodes of each
  substitution between two of them.
-/
import EsFeatures.Proofs.Boundaries
import EsFeatures.Proofs.Findings

namespace EsFeatures

namespace Text

/-! ## Parts of a text -/

theorem take_drop_append {α : Type} (items : List α) {i j k : Nat} (hij : i ≤ j) (hjk : j ≤ k) :
    (items.take j).drop i ++ (items.take k).drop j = (items.take k).drop i := by
  have hsplit : k - i = (j - i) + (k - j) := by omega
  have hdrop : i + (j - i) = j := by omega
  rw [List.drop_take, List.drop_take, List.drop_take, hsplit, List.take_add, List.drop_drop, hdrop]

/-- Two neighbouring parts of a text are together the part that they cover. -/
theorem substring_append (text : String) {i j k : Nat} (hij : i ≤ j) (hjk : j ≤ k) :
    substring text i j ++ substring text j k = substring text i k := by
  rw [substring, substring, substring, ← String.ofList_append]
  simp only [slice, bound_natCast]
  rw [take_drop_append _ (by omega) (by omega)]

/-- The part of a text that is one character. -/
theorem substring_succ {text : String} {i : Nat} {c : Char} (h : text.toList[i]? = some c) :
    substring text i (i + 1 : Nat) = String.singleton c := by
  have hi : i < text.toList.length := (List.getElem?_eq_some_iff.mp h).1
  have hfront : (text.toList.take i).drop i = [] := by simp
  rw [substring, slice, bound_natCast, bound_natCast, Nat.min_eq_left (by omega),
    Nat.min_eq_left (by omega), List.take_add_one, h,
    List.drop_append_of_le_length (by simp only [List.length_take]; omega), hfront]
  exact String.singleton_eq_ofList.symm

namespace Utf8

theorem width_lt_width {text : List Char} {i j : Nat} (hij : i < j) (hj : j ≤ text.length) :
    width text i < width text j := by
  have hi : i < text.length := by omega
  have hsucc := width_succ (List.getElem?_eq_getElem hi)
  have hpos := (text[i]).utf8Size_pos
  have hmono : width text (i + 1) ≤ width text j := width_mono text hij
  omega

/-- Boundaries stand in the order of their characters. -/
theorem le_of_width_le {text : List Char} {i j : Nat} (hi : i ≤ text.length)
    (h : width text i ≤ width text j) : i ≤ j := by
  apply Nat.le_of_not_lt
  intro hji
  have hlt := width_lt_width hji hi
  omega

/-- Two boundaries with one byte between them have one character between them. -/
theorem exists_char_of_width {text : List Char} {i j : Nat} (hj : j ≤ text.length)
    (h : width text j = width text i + 1) :
    j = i + 1 ∧ ∃ c, text[i]? = some c ∧ c.utf8Size = 1 := by
  have hij : i < j := by
    apply Nat.lt_of_not_le
    intro hji
    have hmono := width_mono text hji
    omega
  have hi : i < text.length := by omega
  have hsucc := width_succ (List.getElem?_eq_getElem hi)
  have hpos := (text[i]).utf8Size_pos
  -- The character at `i` ends at the latest at `j`, and a second one would need a byte more.
  have hmono : width text (i + 1) ≤ width text j := width_mono text hij
  have hnext : j = i + 1 := by
    have hle : j ≤ i + 1 := le_of_width_le hj (by omega)
    omega
  subst hnext
  exact ⟨rfl, text[i], List.getElem?_eq_getElem hi, by omega⟩

end Utf8

/-- `Boundary source place`: at the byte `place` a character of the source begins, or the
    source ends. -/
def Boundary (source : String) (place : Nat) : Prop :=
  ∃ i ≤ source.length, Utf8.width source.toList i = place

instance (source : String) : DecidablePred (Boundary source) := fun place =>
  inferInstanceAs (Decidable (∃ i ≤ source.length, Utf8.width source.toList i = place))

end Text

open Text (Boundary)

/-! ## Templates -/

/-- The substitutions of a template. -/
def Cst.substitutions (template : Cst) : List Cst :=
  template.children.filter Ast.isSubstitution

/-- `template.FramesText source`: a template has a quote of one byte at either end, and its
    substitutions stand between the quotes, one behind the other.  No character is cut. -/
@[mk_iff]
structure Cst.FramesText (source : String) (template : Cst) : Prop where
  kind : template.kind = "template_string"
  wide : template.startByte + 2 ≤ template.endByte
  starts : Boundary source template.startByte
  opened : Boundary source (template.startByte + 1)
  closes : Boundary source (template.endByte - 1)
  stops : Boundary source template.endByte
  inside : ∀ sub ∈ template.substitutions, template.startByte + 1 ≤ sub.startByte ∧
    sub.startByte ≤ sub.endByte ∧ sub.endByte ≤ template.endByte - 1
  whole : ∀ sub ∈ template.substitutions,
    Boundary source sub.startByte ∧ Boundary source sub.endByte
  inOrder : template.substitutions.Pairwise fun sub later => sub.endByte ≤ later.startByte

instance (source : String) (template : Cst) : Decidable (template.FramesText source) :=
  decidable_of_iff _ (Cst.framesText_iff source template).symm

namespace Ast

/-- The characters of a source between two bytes. -/
def textBetween (source : String) (start stop : Nat) : String :=
  Text.substring source (charOffset source start) (charOffset source stop)

/-- The head of an element with the characters of a range. -/
def elementHead (source : String) (range : Int × Int) : Head :=
  { kind := "TemplateElement", start := some range.1, stop := some range.2,
    attrs := [("raw", .text (Text.substring source range.1 range.2))] }

/-- What some trees that stand between the bytes `start` and `stop` leave free. -/
def gaps (start stop : Nat) (trees : List Cst) : List (Nat × Nat) :=
  (start :: trees.map Cst.endByte).zip (trees.map Cst.startByte ++ [stop])

/-- The ranges of characters that are the pieces of text of a template. -/
def segments (source : String) (template : Cst) : List (Int × Int) :=
  (gaps (template.startByte + 1) (template.endByte - 1) template.substitutions).map
    fun gap => (charOffset source gap.1, charOffset source gap.2)

/-- Items with a group between each two of them. -/
def alternate {α : Type} : List α → List (List α) → List α
  | item :: items, group :: groups => item :: (group ++ alternate items groups)
  | items, _ => items

theorem gaps_cons (start stop : Nat) (tree : Cst) (trees : List Cst) :
    gaps start stop (tree :: trees) = (start, tree.startByte) :: gaps tree.endByte stop trees := rfl

theorem length_gaps (start stop : Nat) (trees : List Cst) :
    (gaps start stop trees).length = trees.length + 1 := by
  rw [gaps, List.length_zip]
  simp

/-! ## The text of a template -/

section Text

variable {source : String}

theorem textBetween_append {i j k : Nat} (hi : Boundary source i) (hj : Boundary source j)
    (hk : Boundary source k) (hij : i ≤ j) (hjk : j ≤ k) :
    textBetween source i j ++ textBetween source j k = textBetween source i k := by
  obtain ⟨i, hi, rfl⟩ := hi
  obtain ⟨j, hj, rfl⟩ := hj
  obtain ⟨k, hk, rfl⟩ := hk
  have hlength : source.toList.length = source.length := String.length_toList
  simp only [textBetween, charOffset_width source hi, charOffset_width source hj,
    charOffset_width source hk]
  apply Text.substring_append
  · exact Text.Utf8.le_of_width_le (by omega) hij
  · exact Text.Utf8.le_of_width_le (by omega) hjk

/-- Between two boundaries with one byte between them stands one character. -/
theorem exists_textBetween_succ {place : Nat} (h : Boundary source place)
    (h' : Boundary source (place + 1)) :
    ∃ c : Char, c.utf8Size = 1 ∧ textBetween source place (place + 1) = String.singleton c := by
  obtain ⟨i, hi, rfl⟩ := h
  obtain ⟨j, hj, hwidth⟩ := h'
  have hlength : source.toList.length = source.length := String.length_toList
  obtain ⟨rfl, c, hc, hsize⟩ := Text.Utf8.exists_char_of_width (by omega) hwidth
  refine ⟨c, hsize, ?_⟩
  rw [textBetween, ← hwidth, charOffset_width source hi, charOffset_width source hj]
  exact Text.substring_succ hc

/-- What trees between two bytes leave free makes up, with the text of the trees, all the
    text between the two bytes. -/
theorem join_alternate_gaps {start stop : Nat} {trees : List Cst} (hstart : Boundary source start)
    (hstop : Boundary source stop) (hle : start ≤ stop)
    (hinside : ∀ tree ∈ trees, start ≤ tree.startByte ∧ tree.startByte ≤ tree.endByte ∧
      tree.endByte ≤ stop)
    (hwhole : ∀ tree ∈ trees, Boundary source tree.startByte ∧ Boundary source tree.endByte)
    (horder : trees.Pairwise fun tree later => tree.endByte ≤ later.startByte) :
    String.join (alternate ((gaps start stop trees).map fun gap => textBetween source gap.1 gap.2)
        (trees.map fun tree => [textBetween source tree.startByte tree.endByte])) =
      textBetween source start stop := by
  induction trees generalizing start with
  | nil => simp [gaps, alternate]
  | cons tree trees ih =>
    obtain ⟨hopens, hspan, hcloses⟩ := hinside tree List.mem_cons_self
    obtain ⟨hfirst, hlast⟩ := hwhole tree List.mem_cons_self
    obtain ⟨hahead, horder⟩ := List.pairwise_cons.mp horder
    -- The rest stands between the end of this tree and `stop`.
    have hrest := ih hlast hcloses
      (fun later hlater => ⟨hahead later hlater, (hinside later (List.mem_cons_of_mem _ hlater)).2⟩)
      (fun later hlater => hwhole later (List.mem_cons_of_mem _ hlater)) horder
    rw [gaps_cons, List.map_cons, List.map_cons, alternate, String.join_cons, List.singleton_append,
      String.join_cons, hrest, textBetween_append hfirst hlast hstop hspan hcloses,
      textBetween_append hstart hfirst hstop hopens (by omega)]

end Text

/-! ## The work below a template -/

/-- The work below a template alternates between pieces of text and the constructs of the
    substitutions. -/
theorem templateItemsOf_eq (source : String) (start stop : Nat) (trees : List Cst) :
    templateItemsOf source stop start trees =
      alternate ((gaps start stop (trees.filter isSubstitution)).map
          fun gap => .element (segmentHead source gap.1 gap.2))
        ((trees.filter isSubstitution).map constructsOf) := by
  induction trees generalizing start with
  | nil => rfl
  | cons tree trees ih =>
    rw [templateItemsOf]
    split
    · rename_i hsub
      rw [List.filter_cons_of_pos hsub, gaps_cons, List.map_cons, List.map_cons, alternate, ih]
    · rename_i hsub
      rw [List.filter_cons_of_neg hsub, ih]

/-- At boundaries the text of a segment is the text that it spans. -/
theorem segmentHead_eq {source : String} {start stop : Nat} (hstart : Boundary source start)
    (hstop : Boundary source stop) :
    segmentHead source start stop =
      elementHead source (charOffset source start, charOffset source stop) := by
  obtain ⟨i, hi, rfl⟩ := hstart
  obtain ⟨j, hj, rfl⟩ := hstop
  rw [segmentHead, spanHead, elementHead, charOffset_width source hi, charOffset_width source hj,
    text_width source hi hj]

theorem boundary_of_mem_gaps {source : String} {start stop : Nat} {trees : List Cst}
    (hstart : Boundary source start) (hstop : Boundary source stop)
    (hwhole : ∀ tree ∈ trees, Boundary source tree.startByte ∧ Boundary source tree.endByte) :
    ∀ gap ∈ gaps start stop trees, Boundary source gap.1 ∧ Boundary source gap.2 := by
  induction trees generalizing start with
  | nil =>
    intro gap hgap
    obtain rfl := List.mem_singleton.mp hgap
    exact ⟨hstart, hstop⟩
  | cons tree trees ih =>
    obtain ⟨hfirst, hlast⟩ := hwhole tree List.mem_cons_self
    intro gap hgap
    rw [gaps_cons] at hgap
    rcases List.mem_cons.mp hgap with rfl | hgap
    · exact ⟨hstart, hfirst⟩
    · exact ih hlast (fun later hlater => hwhole later (List.mem_cons_of_mem _ hlater)) gap hgap

section Template

variable {source : String} {template : Cst} (h : template.FramesText source)

include h

/-- The work below a template, in characters. -/
theorem itemsOf_template :
    itemsOf source template =
      alternate ((segments source template).map fun range => .element (elementHead source range))
        (template.substitutions.map constructsOf) := by
  have hwide := h.wide
  have hstart : (template.startByte : Int) + 1 = (template.startByte + 1 : Nat) := by omega
  have hstop : (template.endByte : Int) - 1 = (template.endByte - 1 : Nat) := by omega
  -- Both ends of a gap are boundaries, so its bytes read as its characters.
  have hheads : (segments source template).map (fun range => .element (elementHead source range)) =
      (gaps (template.startByte + 1) (template.endByte - 1) template.substitutions).map
        fun gap => Pending.element (segmentHead source gap.1 gap.2) := by
    rw [segments, List.map_map]
    apply List.map_congr_left
    intro gap hgap
    obtain ⟨hfirst, hlast⟩ := boundary_of_mem_gaps h.opened h.closes h.whole gap hgap
    rw [segmentHead_eq hfirst hlast]
    rfl
  rw [itemsOf, if_neg (by rw [h.kind]; decide), if_pos h.kind, hstart, hstop, templateItemsOf_eq,
    hheads]
  rfl

theorem headOf_template :
    headOf source template =
      spanHead source "TemplateLiteral" template.startByte template.endByte [] := by
  simp only [headOf, shapeOf, h.kind]

theorem refusal?_template : refusal? source template = none := by
  simp only [refusal?, declaredWith?, h.kind]
  rfl

/-- The quotes, the pieces of text and the substitutions of a template are its text. -/
theorem text_template :
    ∃ opening closing : Char, opening.utf8Size = 1 ∧ closing.utf8Size = 1 ∧
      String.singleton opening ++
          String.join (alternate
            ((segments source template).map fun range => Text.substring source range.1 range.2)
            (template.substitutions.map fun sub => [textBetween source sub.startByte sub.endByte])) ++
          String.singleton closing =
        textBetween source template.startByte template.endByte := by
  have hwide := h.wide
  have hlast : template.endByte - 1 + 1 = template.endByte := by omega
  have hstops : Boundary source (template.endByte - 1 + 1) := hlast ▸ h.stops
  -- Each quote is the one character between two boundaries.
  obtain ⟨opening, hopening, hfirst⟩ := exists_textBetween_succ h.starts h.opened
  obtain ⟨closing, hclosing, hend⟩ := exists_textBetween_succ h.closes hstops
  rw [hlast] at hend
  refine ⟨opening, closing, hopening, hclosing, ?_⟩
  have hinner := join_alternate_gaps h.opened h.closes (by omega) h.inside h.whole h.inOrder
  rw [segments, List.map_map]
  show _ ++ String.join (alternate ((gaps _ _ _).map fun gap => textBetween source gap.1 gap.2) _) ++
    _ = _
  rw [hinner, ← hfirst, ← hend,
    textBetween_append h.starts h.opened h.closes (by omega) (by omega),
    textBetween_append h.starts h.closes h.stops (by omega) (by omega)]

end Template

/-! ## The nodes below a template -/

/-- A list of trees becomes what its constructs become one by one. -/
theorem convAll_eq_ok_iff {source : String} {trees : List Cst} {nodes : List Ast} :
    convAll source trees = .ok nodes ↔
      List.Forall₂ (fun tree node => build source tree = .ok node) (trees.filter isKept) nodes := by
  induction trees generalizing nodes with
  | nil => simp [convAll, eq_comm]
  | cons tree trees ih =>
    rw [convAll]
    cases hkept : isKept tree with
    | false =>
      rw [conv_of_not_isKept hkept, ok_nil_followedBy, ih,
        List.filter_cons_of_neg (by simp [hkept])]
    | true =>
      rw [List.filter_cons_of_pos hkept, List.forall₂_cons_left_iff, followedBy_eq_ok]
      constructor
      · rintro ⟨first, rest, hfirst, hrest, rfl⟩
        obtain ⟨-, below, -, rfl⟩ := (conv_eq_ok_iff hkept).mp hfirst
        exact ⟨_, rest, (build_eq_ok_iff hkept).mpr hfirst, ih.mp hrest, rfl⟩
      · rintro ⟨node, rest, hfirst, hrest, rfl⟩
        exact ⟨[node], rest, (build_eq_ok_iff hkept).mp hfirst, ih.mpr hrest, rfl⟩

/-- Pieces of text become leaves, and the constructs between them what they become one by
    one. -/
theorem convItems_alternate {source : String} {heads : List Head} {subs : List Cst}
    {nodes : List Ast} (hlength : heads.length = subs.length + 1) :
    convItems source (alternate (heads.map .element) (subs.map constructsOf)) = .ok nodes ↔
      ∃ groups, List.Forall₂ (fun (sub : Cst) group => convAll source sub.children = .ok group)
          subs groups ∧
        nodes = alternate (heads.map fun head => .node head []) groups := by
  induction subs generalizing heads nodes with
  | nil =>
    obtain ⟨head, rfl⟩ := List.length_eq_one_iff.mp hlength
    show Except.ok [Ast.node head []] = .ok nodes ↔ _
    constructor
    · intro h
      cases h
      exact ⟨[], .nil, rfl⟩
    · rintro ⟨groups, hgroups, rfl⟩
      cases hgroups
      rfl
  | cons sub subs ih =>
    cases heads with
    | nil => cases hlength
    | cons head heads =>
      have hrest : heads.length = subs.length + 1 := Nat.succ.inj hlength
      rw [List.map_cons, List.map_cons, alternate, convItems, convItem, convItems_append,
        convItems_constructsOf]
      constructor
      · intro h
        obtain ⟨_, later, hself, hlater, rfl⟩ := followedBy_eq_ok.mp h
        cases hself
        obtain ⟨group, rest, hgroup, hitems, rfl⟩ := followedBy_eq_ok.mp hlater
        obtain ⟨groups, hgroups, rfl⟩ := (ih hrest).mp hitems
        exact ⟨group :: groups, .cons hgroup hgroups, rfl⟩
      · rintro ⟨_, hall, rfl⟩
        obtain ⟨group, groups, hgroup, hgroups, rfl⟩ := List.forall₂_cons_left_iff.mp hall
        have hitems := (ih hrest).mpr ⟨groups, hgroups, rfl⟩
        have hlater := followedBy_eq_ok.mpr ⟨_, _, hgroup, hitems, rfl⟩
        exact followedBy_eq_ok.mpr ⟨_, _, rfl, hlater, rfl⟩

theorem length_segments (source : String) (template : Cst) :
    (segments source template).length = template.substitutions.length + 1 := by
  rw [segments, List.length_map, length_gaps]

/-- A template becomes a literal in which its pieces of text alternate with what the
    constructs of its substitutions become. -/
theorem build_template_eq_ok_iff {source : String} {template : Cst} {program : Ast}
    (h : template.FramesText source) (hnamed : template.label.named = true) :
    build source template = .ok program ↔
      ∃ groups, List.Forall₂ (fun (sub : Cst) group =>
          List.Forall₂ (fun tree node => build source tree = .ok node)
            (sub.children.filter isKept) group) template.substitutions groups ∧
        program = .node (spanHead source "TemplateLiteral" template.startByte template.endByte [])
          (alternate ((segments source template).map fun range => .node (elementHead source range) [])
            groups) := by
  have hkept : isKept template = true := by
    rw [isKept, hnamed, h.kind]
    decide
  have hlength : ((segments source template).map (elementHead source)).length =
      template.substitutions.length + 1 := by
    rw [List.length_map, length_segments]
  have helements : (segments source template).map (fun range => .element (elementHead source range)) =
      ((segments source template).map (elementHead source)).map Pending.element := by
    rw [List.map_map]
    rfl
  have hleaves : (segments source template).map (fun range => .node (elementHead source range) []) =
      ((segments source template).map (elementHead source)).map fun head => Ast.node head [] := by
    rw [List.map_map]
    rfl
  rw [build_eq_ok_iff hkept, conv_eq_ok_iff hkept, headOf_template h, itemsOf_template h, helements,
    hleaves]
  simp only [convItems_alternate hlength, convAll_eq_ok_iff, refusal?_template h, true_and]
  constructor
  · rintro ⟨_, ⟨groups, hgroups, rfl⟩, hprogram⟩
    exact ⟨groups, hgroups, List.singleton_inj.mp hprogram⟩
  · rintro ⟨groups, hgroups, rfl⟩
    exact ⟨_, ⟨groups, hgroups, rfl⟩, rfl⟩

/-! ## Templates in a tree -/

theorem mem_preorders_of_convAll {source : String} {trees : List Cst} {nodes : List Ast} {tree : Cst}
    (h : convAll source trees = .ok nodes) (htree : tree ∈ trees) :
    ∃ inner, conv source tree = .ok inner ∧ ∀ node ∈ preorders inner, node ∈ preorders nodes := by
  induction trees generalizing nodes with
  | nil => cases htree
  | cons first trees ih =>
    obtain ⟨xs, ys, hxs, hys, rfl⟩ := followedBy_eq_ok.mp h
    rw [preorders_append]
    rcases List.mem_cons.mp htree with rfl | htree
    · exact ⟨xs, hxs, fun node hnode => List.mem_append_left _ hnode⟩
    · obtain ⟨inner, hinner, hnodes⟩ := ih hys htree
      exact ⟨inner, hinner, fun node hnode => List.mem_append_right _ (hnodes node hnode)⟩

theorem mem_preorders_of_convItem {source : String} {item : Pending} {nodes : List Ast} {tree : Cst}
    (h : convItem source item = .ok nodes) (htree : .inr tree ∈ item.pieces) :
    ∃ inner, conv source tree = .ok inner ∧ ∀ node ∈ preorders inner, node ∈ preorders nodes := by
  cases item with
  | convert whole =>
    obtain rfl := Sum.inr.inj (List.mem_singleton.mp htree)
    exact ⟨nodes, h, fun node hnode => hnode⟩
  | element head => cases List.mem_singleton.mp htree
  | declaration head declarator inside =>
    have hinside : tree ∈ inside := by simpa [Pending.pieces] using htree
    rw [convItem] at h
    cases hall : convAll source inside with
    | error e =>
      rw [hall] at h
      cases h
    | ok below =>
      rw [hall] at h
      cases h
      obtain ⟨inner, hinner, hnodes⟩ := mem_preorders_of_convAll hall hinside
      refine ⟨inner, hinner, fun node hnode => ?_⟩
      -- The declaration and its declarator come before the nodes inside.
      rw [preorders_cons, List.append_nil, preorders_cons, List.append_nil]
      exact List.mem_cons_of_mem _ (List.mem_cons_of_mem _ (hnodes node hnode))

theorem mem_preorders_of_convItems {source : String} {items : List Pending} {nodes : List Ast}
    {tree : Cst} (h : convItems source items = .ok nodes)
    (htree : .inr tree ∈ items.flatMap Pending.pieces) :
    ∃ inner, conv source tree = .ok inner ∧ ∀ node ∈ preorders inner, node ∈ preorders nodes := by
  induction items generalizing nodes with
  | nil => cases htree
  | cons item items ih =>
    obtain ⟨xs, ys, hxs, hys, rfl⟩ := followedBy_eq_ok.mp h
    rw [preorders_append]
    rw [List.flatMap_cons] at htree
    rcases List.mem_append.mp htree with htree | htree
    · obtain ⟨inner, hinner, hnodes⟩ := mem_preorders_of_convItem hxs htree
      exact ⟨inner, hinner, fun node hnode => List.mem_append_left _ (hnodes node hnode)⟩
    · obtain ⟨inner, hinner, hnodes⟩ := ih hys htree
      exact ⟨inner, hinner, fun node hnode => List.mem_append_right _ (hnodes node hnode)⟩

/-- The node of a construct is found among those of the tree that it belongs to. -/
theorem Converted.mem_preorders {source : String} {tree node : Cst} {path : List Nat}
    (h : Converted tree path node) {nodes : List Ast} (hconv : conv source tree = .ok nodes) :
    ∃ made, conv source node = .ok [made] ∧ made ∈ preorders nodes := by
  induction h generalizing nodes with
  | root hkept =>
    obtain ⟨-, below, -, rfl⟩ := (conv_eq_ok_iff hkept).mp hconv
    refine ⟨_, hconv, ?_⟩
    rw [preorders_cons]
    exact List.mem_cons_self
  | @onward tree child node way path hkept hhanded _ ih =>
    obtain ⟨-, below, hbelow, rfl⟩ := (conv_eq_ok_iff hkept).mp hconv
    -- What the conversion goes on to is part of the work below the construct.
    have hpiece : .inr child ∈ (itemsOf source tree).flatMap Pending.pieces := by
      rw [pieces_itemsOf]
      exact List.mem_map.mpr ⟨_, below_mem_partsOf.mpr hhanded, rfl⟩
    obtain ⟨inner, hinner, hnodes⟩ := mem_preorders_of_convItems hbelow hpiece
    obtain ⟨made, hmade, hmem⟩ := ih hinner
    refine ⟨made, hmade, ?_⟩
    rw [preorders_cons, List.append_nil]
    exact List.mem_cons_of_mem _ (hnodes made hmem)

/-- A construct that the conversion of a tree comes to becomes a node of the program, the
    same one as by itself. -/
theorem Converted.exists_build_eq_ok {source : String} {tree node : Cst} {path : List Nat}
    {program : Ast} (h : Converted tree path node) (hbuild : build source tree = .ok program) :
    ∃ made ∈ program.preorder, build source node = .ok made := by
  have hkept : Ast.isKept tree = true := by
    cases h with
    | root hkept => exact hkept
    | onward hkept _ _ => exact hkept
  obtain ⟨made, hmade, hmem⟩ := h.mem_preorders ((build_eq_ok_iff hkept).mp hbuild)
  rw [Walk.preorders_singleton] at hmem
  exact ⟨made, hmem, (build_eq_ok_iff h.isKept).mpr hmade⟩

/-- The pieces of text of a template partition it.  There is one more of them than there are
    substitutions, and each has the text that it spans.  With the quotes around them and the
    substitutions between them they are the text of the template.  One step of the
    conversion makes an element of each, with the constructs of the substitutions between
    the elements, and so does the conversion as a whole, wherever the template stands. -/
theorem segments_partition_template {source : String} {template : Cst}
    (h : template.FramesText source) :
    (segments source template).length = template.substitutions.length + 1 ∧
      (∃ opening closing : Char, opening.utf8Size = 1 ∧ closing.utf8Size = 1 ∧
        String.singleton opening ++
            String.join (alternate
              ((segments source template).map fun range => Text.substring source range.1 range.2)
              (template.substitutions.map fun sub => [textBetween source sub.startByte sub.endByte])) ++
            String.singleton closing =
          textBetween source template.startByte template.endByte) ∧
      expandKept (.ofSource source) template =
        .ok (spanHead source "TemplateLiteral" template.startByte template.endByte [],
          alternate ((segments source template).map fun range => .element (elementHead source range))
            (template.substitutions.map constructsOf)) ∧
      (template.label.named = true → ∀ literal, build source template = .ok literal ↔
        ∃ groups, List.Forall₂ (fun (sub : Cst) group =>
            List.Forall₂ (fun tree node => build source tree = .ok node)
              (sub.children.filter isKept) group) template.substitutions groups ∧
          literal = .node (spanHead source "TemplateLiteral" template.startByte template.endByte [])
            (alternate ((segments source template).map fun range => .node (elementHead source range) [])
              groups)) ∧
      ∀ tree path program, Converted tree path template → build source tree = .ok program →
        ∃ literal ∈ program.preorder, build source template = .ok literal := by
  refine ⟨length_segments source template, text_template h, ?_, ?_, ?_⟩
  · rw [expandKept_ofSource, refusal?_template h, headOf_template h, itemsOf_template h]
  · intro hnamed literal
    exact build_template_eq_ok_iff h hnamed
  · intro tree path program hconverted hbuild
    exact hconverted.exists_build_eq_ok hbuild

/-- A template with a character of two bytes, two adjacent substitutions and a template in
    the second one. -/
def nestedTemplateSource : String :=
  "`é$\x7ba\x7d$\x7b`b`\x7d`"

/-- The tree of the template in `nestedTemplateSource`. -/
def nestedTemplate : Cst :=
  .node ⟨"template_string", 0, 14, true, false, false, none⟩
    [.node ⟨"`", 0, 1, false, false, false, none⟩ [],
     .node ⟨"string_fragment", 1, 3, true, false, false, none⟩ [],
     .node ⟨"template_substitution", 3, 7, true, false, false, none⟩
      [.node ⟨"$\x7b", 3, 5, false, false, false, none⟩ [],
       .node ⟨"identifier", 5, 6, true, false, false, none⟩ [],
       .node ⟨"\x7d", 6, 7, false, false, false, none⟩ []],
     .node ⟨"template_substitution", 7, 13, true, false, false, none⟩
      [.node ⟨"$\x7b", 7, 9, false, false, false, none⟩ [],
       .node ⟨"template_string", 9, 12, true, false, false, none⟩
        [.node ⟨"`", 9, 10, false, false, false, none⟩ [],
         .node ⟨"string_fragment", 10, 11, true, false, false, none⟩ [],
         .node ⟨"`", 11, 12, false, false, false, none⟩ []],
       .node ⟨"\x7d", 12, 13, false, false, false, none⟩ []],
     .node ⟨"`", 13, 14, false, false, false, none⟩ []]

/-- The template as a program. -/
def nestedTemplateProgram : Cst :=
  .node ⟨"program", 0, 14, true, false, false, none⟩
    [.node ⟨"expression_statement", 0, 14, true, false, false, none⟩ [nestedTemplate]]

/-- The two substitutions leave three pieces of text, of which two are empty. -/
theorem segments_partition_template_nested :
    nestedTemplate.FramesText nestedTemplateSource ∧
      segments nestedTemplateSource nestedTemplate = [(1, 2), (6, 6), (12, 12)] ∧
      (∃ opening closing : Char, opening.utf8Size = 1 ∧ closing.utf8Size = 1 ∧
        String.singleton opening ++
            String.join (alternate ["é", "", ""] [["$\x7ba\x7d"], ["$\x7b`b`\x7d"]]) ++
            String.singleton closing = nestedTemplateSource) ∧
      ∃ program groups, build nestedTemplateSource nestedTemplateProgram = .ok program ∧
        groups.length = 2 ∧
        .node { kind := "TemplateLiteral", start := some 0, stop := some 13 }
          (alternate ([(1, 2), (6, 6), (12, 12)].map fun range =>
            .node (elementHead nestedTemplateSource range) []) groups) ∈ program.preorder := by
  have hframes : nestedTemplate.FramesText nestedTemplateSource := by decide +kernel
  have hsegments : segments nestedTemplateSource nestedTemplate = [(1, 2), (6, 6), (12, 12)] := by
    decide +kernel
  obtain ⟨-, ⟨opening, closing, hopening, hclosing, htext⟩, -, hliteral, hplaced⟩ :=
    segments_partition_template hframes
  refine ⟨hframes, hsegments, ⟨opening, closing, hopening, hclosing, ?_⟩, ?_⟩
  · have hwhole : textBetween nestedTemplateSource nestedTemplate.startByte nestedTemplate.endByte =
        nestedTemplateSource := by decide +kernel
    have hsubs : nestedTemplate.substitutions.map (fun sub =>
        [textBetween nestedTemplateSource sub.startByte sub.endByte]) =
          [["$\x7ba\x7d"], ["$\x7b`b`\x7d"]] := by decide +kernel
    have hpieces : (segments nestedTemplateSource nestedTemplate).map (fun range =>
        Text.substring nestedTemplateSource range.1 range.2) = ["é", "", ""] := by decide +kernel
    rwa [hwhole, hsubs, hpieces] at htext
  · have hstatement : Converted nestedTemplateProgram [0, 0] nestedTemplate :=
      .onward rfl (.child rfl rfl (by decide) (by decide))
        (.onward rfl (.child rfl rfl (by decide) (by decide)) (.root rfl))
    have hok : (build nestedTemplateSource nestedTemplateProgram).toOption.isSome = true := by
      rw [build_eq]
      decide +kernel
    cases hbuild : build nestedTemplateSource nestedTemplateProgram with
    | error e =>
      rw [hbuild] at hok
      cases hok
    | ok program =>
      obtain ⟨literal, hmem, hmade⟩ := hplaced _ _ _ hstatement hbuild
      obtain ⟨groups, hgroups, rfl⟩ := (hliteral rfl literal).mp hmade
      have hhead : spanHead nestedTemplateSource "TemplateLiteral" nestedTemplate.startByte
          nestedTemplate.endByte [] =
            { kind := "TemplateLiteral", start := some 0, stop := some 13 } := by decide +kernel
      rw [hhead, hsegments] at hmem
      exact ⟨program, groups, rfl, hgroups.length_eq.symm, hmem⟩

end Ast

end EsFeatures
