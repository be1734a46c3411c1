/-
  EsFeatures.Proofs.Completeness

  Which of the constructs of a concrete tree are found.  A construct is reached when no
  token and no comment stands on the path to it.  The conversion comes to every reached
  construct except for those that a construct above it drops: the initial value in a
  loop's head, whose children it takes for the declaration in its place, what stands
  below such a value when there is no declaration, and whatever is in a template
  outside of its substitutions.
-/
import EsFeatures.Proofs.Evidence

namespace EsFeatures

open Ast (Site Origin Converted Handed sites charOffset isKept isSubstitution)

/-! ## Reached constructs -/

/-- The construct at a path on which neither tokens nor comments stand. -/
def Cst.reach? (tree : Cst) : List Nat → Option Cst
  | [] => if isKept tree then some tree else none
  | i :: path =>
    if isKept tree then tree.children[i]?.bind fun child => child.reach? path else none

theorem Cst.reach?_cons {tree node : Cst} {i : Nat} {path : List Nat}
    (h : tree.reach? (i :: path) = some node) :
    isKept tree = true ∧ ∃ child, tree.children[i]? = some child ∧ child.reach? path = some node := by
  rw [reach?] at h
  split at h
  · rename_i hkept
    exact ⟨hkept, Option.bind_eq_some_iff.mp h⟩
  · cases h

theorem Cst.isKept_of_reach? {tree node : Cst} {path : List Nat}
    (h : tree.reach? path = some node) : isKept tree = true := by
  cases path with
  | nil =>
    rw [reach?] at h
    split at h
    · assumption
    · cases h
  | cons i path => exact (reach?_cons h).1

theorem Cst.at?_of_reach? {tree node : Cst} {path : List Nat} (h : tree.reach? path = some node) :
    tree.at? path = some node := by
  induction path generalizing tree with
  | nil =>
    have hkept := isKept_of_reach? h
    rw [reach?, hkept, if_pos rfl] at h
    exact h
  | cons i path ih =>
    obtain ⟨-, child, hget, hreach⟩ := reach?_cons h
    rw [at?, hget]
    exact ih hreach

theorem Cst.named_of_reach? {tree node : Cst} {path : List Nat}
    (h : tree.reach? path = some node) : tree.label.named = true := by
  have hkept := isKept_of_reach? h
  rw [isKept, Bool.and_eq_true] at hkept
  exact hkept.1

namespace Ast

/-! ## One way to each construct -/

/-- The ways on which a construct hands on its parts do not run through each other. -/
theorem Handed.eq_of_append_eq {tree child child' : Cst} {way way' path path' : List Nat}
    (h : Handed tree way child) (h' : Handed tree way' child')
    (heq : way ++ path = way' ++ path') : child = child' ∧ path = path' := by
  have hsame : way = way' → child = child' ∧ path = path' := by
    rintro rfl
    have hat := h.at?
    rw [h'.at?, Option.some.injEq] at hat
    exact ⟨hat.symm, List.append_cancel_left heq⟩
  cases h with
  | child hget hnamed htemplate hvalue =>
    cases h' with
    | child =>
      obtain ⟨rfl, -⟩ := List.cons.inj heq
      exact hsame rfl
    | value hfor _ _ _ hv =>
      obtain ⟨rfl, -⟩ := List.cons.inj heq
      exact absurd ⟨hfor, hv⟩ hvalue
    | substitution htemplate' => exact absurd htemplate' htemplate
  | value hfor _ _ _ hv =>
    cases h' with
    | child _ _ _ hvalue =>
      obtain ⟨rfl, -⟩ := List.cons.inj heq
      exact absurd ⟨hfor, hv⟩ hvalue
    | value =>
      obtain ⟨rfl, heq'⟩ := List.cons.inj heq
      obtain ⟨rfl, -⟩ := List.cons.inj heq'
      exact hsame rfl
    | substitution htemplate =>
      rw [hfor] at htemplate
      exact absurd htemplate (by decide)
  | substitution htemplate =>
    cases h' with
    | child _ _ htemplate' => exact absurd htemplate htemplate'
    | value hfor =>
      rw [hfor] at htemplate
      exact absurd htemplate (by decide)
    | substitution =>
      obtain ⟨rfl, heq'⟩ := List.cons.inj heq
      obtain ⟨rfl, -⟩ := List.cons.inj heq'
      exact hsame rfl

/-- The conversion comes to what lies below a construct only through that construct. -/
theorem Converted.of_append {tree outer node : Cst} {path path' : List Nat}
    (h : Converted tree path outer) (h' : Converted tree (path ++ path') node) :
    Converted outer path' node := by
  induction h with
  | root => exact h'
  | onward _ hhanded _ ih =>
    -- The other path begins with the same way, for no other way runs through it.
    rw [List.append_assoc] at h'
    generalize hpath : _ ++ (_ ++ path') = whole at h'
    cases h' with
    | root => exact absurd (List.append_eq_nil_iff.mp hpath).1 hhanded.way_ne_nil
    | onward _ hhanded' hconverted =>
      obtain ⟨rfl, rfl⟩ := hhanded.eq_of_append_eq hhanded' hpath
      exact ih hconverted

theorem Converted.append {tree outer node : Cst} {path path' : List Nat}
    (h : Converted tree path outer) (h' : Converted outer path' node) :
    Converted tree (path ++ path') node := by
  induction h with
  | root => exact h'
  | onward hkept hhanded _ ih =>
    rw [List.append_assoc]
    exact .onward hkept hhanded (ih h')

/-! ## Dropped constructs -/

/-- Whether a loop's head becomes a declaration: it has a keyword and a variable. -/
def declares (loop : Cst) : Bool :=
  (loop.child? "kind").isSome && (loop.child? "left").any fun left => left.label.named

theorem declares_iff {loop : Cst} :
    declares loop = true ↔ ∃ keyword left, loop.child? "kind" = some keyword ∧
      loop.child? "left" = some left ∧ left.label.named = true := by
  rw [declares, Bool.and_eq_true]
  constructor
  · rintro ⟨hkind, hleft⟩
    obtain ⟨keyword, hkeyword⟩ := Option.isSome_iff_exists.mp hkind
    cases hchild : loop.child? "left" with
    | none =>
      rw [hchild] at hleft
      cases hleft
    | some left =>
      rw [hchild] at hleft
      exact ⟨keyword, left, hkeyword, rfl, hleft⟩
  · rintro ⟨keyword, left, hkeyword, hleft, hnamed⟩
    rw [hkeyword, hleft]
    exact ⟨rfl, hnamed⟩

/-- `Dropped tree path`: the conversion of `tree` comes to a construct on the path that
    does not hand on what stands there. -/
inductive Dropped (tree : Cst) : List Nat → Prop
  /-- The initial value in a loop's head. -/
  | initial {path : List Nat} {i : Nat} {loop : Cst} : Converted tree path loop →
    loop.kind = "for_in_statement" → loop.childIndex? "value" = some i →
    Dropped tree (path ++ [i])
  /-- What stands below an initial value without a declaration. -/
  | belowInitial {path rest : List Nat} {i : Nat} {loop : Cst} : Converted tree path loop →
    loop.kind = "for_in_statement" → loop.childIndex? "value" = some i → declares loop = false →
    Dropped tree (path ++ i :: rest)
  /-- A substitution, whose children take its place. -/
  | substitution {path : List Nat} {i : Nat} {template child : Cst} :
    Converted tree path template → template.kind = "template_string" →
    template.children[i]? = some child → isSubstitution child = true →
    Dropped tree (path ++ [i])
  /-- What stands in a template outside of its substitutions. -/
  | text {path rest : List Nat} {i : Nat} {template child : Cst} :
    Converted tree path template → template.kind = "template_string" →
    template.children[i]? = some child → isSubstitution child = false →
    Dropped tree (path ++ i :: rest)

theorem Dropped.of_converted {tree outer : Cst} {path path' : List Nat}
    (h : Converted tree path outer) (h' : Dropped outer path') : Dropped tree (path ++ path') := by
  cases h' with
  | initial hloop hfor hi =>
    rw [← List.append_assoc]
    exact .initial (h.append hloop) hfor hi
  | belowInitial hloop hfor hi hdeclares =>
    rw [← List.append_assoc]
    exact .belowInitial (h.append hloop) hfor hi hdeclares
  | substitution htemplate hkind hget hsub =>
    rw [← List.append_assoc]
    exact .substitution (h.append htemplate) hkind hget hsub
  | text htemplate hkind hget hsub =>
    rw [← List.append_assoc]
    exact .text (h.append htemplate) hkind hget hsub

/-- What the first step of a conversion below a construct can be. -/
theorem Converted.cons_cases {tree node : Cst} {i : Nat} {rest : List Nat}
    (h : Converted tree (i :: rest) node) :
    (tree.kind ≠ "template_string" ∧
        ¬(tree.kind = "for_in_statement" ∧ tree.childIndex? "value" = some i)) ∨
      (rest ≠ [] ∧ tree.kind = "for_in_statement" ∧ declares tree = true) ∨
      (rest ≠ [] ∧ tree.kind = "template_string" ∧
        ∃ child, tree.children[i]? = some child ∧ isSubstitution child = true) := by
  generalize hpath : i :: rest = path at h
  cases h with
  | root => cases hpath
  | onward _ hhanded _ =>
    cases hhanded with
    | child _ _ htemplate hvalue =>
      obtain ⟨rfl, -⟩ := List.cons.inj hpath
      exact Or.inl ⟨htemplate, hvalue⟩
    | value hfor hkind hleft hnamed =>
      obtain ⟨-, rfl⟩ := List.cons.inj hpath
      exact Or.inr (Or.inl ⟨by simp, hfor, declares_iff.mpr ⟨_, _, hkind, hleft, hnamed⟩⟩)
    | substitution htemplate hget hsub =>
      obtain ⟨rfl, rfl⟩ := List.cons.inj hpath
      exact Or.inr (Or.inr ⟨by simp, htemplate, _, hget, hsub⟩)

/-- The conversion does not come to what is dropped. -/
theorem Converted.not_dropped {tree node : Cst} {path : List Nat}
    (h : Converted tree path node) : ¬Dropped tree path := by
  intro hdropped
  cases hdropped with
  | initial hloop hfor hi =>
    rcases (hloop.of_append h).cons_cases with ⟨-, hvalue⟩ | ⟨hrest, -⟩ | ⟨hrest, -⟩
    · exact hvalue ⟨hfor, hi⟩
    · exact hrest rfl
    · exact hrest rfl
  | belowInitial hloop hfor hi hdeclares =>
    rcases (hloop.of_append h).cons_cases with ⟨-, hvalue⟩ | ⟨-, -, hdeclares'⟩ | ⟨-, htemplate, -⟩
    · exact hvalue ⟨hfor, hi⟩
    · rw [hdeclares] at hdeclares'
      cases hdeclares'
    · rw [hfor] at htemplate
      exact absurd htemplate (by decide)
  | substitution houter htemplate hget hsub =>
    rcases (houter.of_append h).cons_cases with ⟨htemplate', -⟩ | ⟨hrest, -⟩ | ⟨hrest, -⟩
    · exact htemplate' htemplate
    · exact hrest rfl
    · exact hrest rfl
  | text houter htemplate hget hsub =>
    rcases (houter.of_append h).cons_cases with
      ⟨htemplate', -⟩ | ⟨-, hfor, -⟩ | ⟨-, -, child, hget', hsub'⟩
    · exact htemplate' htemplate
    · rw [htemplate] at hfor
      exact absurd hfor (by decide)
    · rw [hget, Option.some.injEq] at hget'
      rw [← hget', hsub] at hsub'
      cases hsub'

/-- On the way to a reached construct the conversion goes on by one part, unless the
    construct is dropped. -/
theorem handed_of_reach? {tree node : Cst} {i : Nat} {path : List Nat}
    (h : tree.reach? (i :: path) = some node) (hdropped : ¬Dropped tree (i :: path)) :
    ∃ way rest child, i :: path = way ++ rest ∧ Handed tree way child ∧
      child.reach? rest = some node := by
  have hroot : Converted tree [] tree := .root (Cst.isKept_of_reach? h)
  obtain ⟨-, child, hget, hreach⟩ := Cst.reach?_cons h
  by_cases htemplate : tree.kind = "template_string"
  · cases hsub : isSubstitution child with
    | false => exact absurd (.text hroot htemplate hget hsub) hdropped
    | true =>
      cases path with
      | nil => exact absurd (.substitution hroot htemplate hget hsub) hdropped
      | cons j rest =>
        obtain ⟨-, inner, hinner, hreach'⟩ := Cst.reach?_cons hreach
        have hnamed := Cst.named_of_reach? hreach'
        exact ⟨[i, j], rest, inner, rfl, .substitution htemplate hget hsub hinner hnamed, hreach'⟩
  · by_cases hvalue : tree.kind = "for_in_statement" ∧ tree.childIndex? "value" = some i
    · obtain ⟨hfor, hi⟩ := hvalue
      cases hdeclares : declares tree with
      | false => exact absurd (.belowInitial hroot hfor hi hdeclares) hdropped
      | true =>
        cases path with
        | nil => exact absurd (.initial hroot hfor hi) hdropped
        | cons j rest =>
          obtain ⟨-, inner, hinner, hreach'⟩ := Cst.reach?_cons hreach
          have hnamed := Cst.named_of_reach? hreach'
          obtain ⟨keyword, left, hkeyword, hleft, hleftnamed⟩ := declares_iff.mp hdeclares
          exact ⟨[i, j], rest, inner, rfl,
            .value hfor hkeyword hleft hleftnamed hi hget hinner hnamed, hreach'⟩
    · have hnamed := Cst.named_of_reach? hreach
      exact ⟨[i], path, child, rfl, .child hget hnamed htemplate hvalue, hreach⟩

/-- The conversion comes to every reached construct that is not dropped. -/
theorem converted_of_reach? {tree node : Cst} {path : List Nat}
    (h : tree.reach? path = some node) (hdropped : ¬Dropped tree path) :
    Converted tree path node := by
  -- On the length of the path: a part of a construct is one or two steps down.
  induction hlength : path.length using Nat.strongRecOn generalizing tree path with
  | _ length ih =>
    have hkept := Cst.isKept_of_reach? h
    cases path with
    | nil =>
      rw [Cst.reach?, hkept, if_pos rfl, Option.some.injEq] at h
      exact h ▸ .root hkept
    | cons i path =>
      obtain ⟨way, rest, child, hpath, hhanded, hreach⟩ := handed_of_reach? h hdropped
      have hway : 0 < way.length := List.length_pos_iff.mpr hhanded.way_ne_nil
      have hchild : Converted tree way child := by
        have honward : Converted tree (way ++ []) child :=
          .onward hkept hhanded (.root (Cst.isKept_of_reach? hreach))
        rwa [List.append_nil] at honward
      rw [hpath] at hdropped hlength ⊢
      rw [List.length_append] at hlength
      refine .onward hkept hhanded (ih rest.length (by omega) hreach ?_ rfl)
      intro hdropped'
      exact hdropped (.of_converted hchild hdropped')

end Ast

/-! ## Found constructs -/

/-- No declaration in a tree lacks a value that it needs. -/
def Cst.Initialized (tree : Cst) : Prop :=
  ∀ path node, tree.at? path = some node → ∀ declarator, ¬Ast.LacksValue node declarator

instance : DecidablePred Cst.Initialized := fun tree =>
  decidable_of_iff (tree.every fun node => (Ast.bareDeclarators node).isEmpty) (by
    simp only [Cst.every_iff, List.isEmpty_iff, List.eq_nil_iff_forall_not_mem,
      Ast.mem_bareDeclarators]
    rfl)

/-- The number of places at which the conversion of a tree comes to something that shows
    a feature. -/
def occurrences (tree : Cst) : Nat :=
  (shownSites tree).length

theorem Cst.Initialized.refusal?_eq {tree : Cst} (h : tree.Initialized) (source : String) :
    ∀ site ∈ sites tree, site.origin.refusal? source = none := by
  intro site hsite
  obtain ⟨node, hconverted, horigin | hmakes⟩ := Ast.mem_sites hsite
  · rw [horigin]
    refine Ast.refusal?_eq_none (List.eq_nil_iff_forall_not_mem.mpr fun declarator hmem => ?_)
    exact h site.path node hconverted.at? declarator (Ast.mem_bareDeclarators.mp hmem)
  · exact hmakes.refusal?_eq source

section Found

variable {options : Options} {source : String} {tree : Cst} {d : Detection}

/-- A finding at a reached construct is the construct's own, and the conversion comes
    to the construct. -/
theorem converted_of_placeOf (htree : tree.ClashFree)
    (h : Detection.ofSource options source tree = .ok d) {path : List Nat} {node : Cst}
    {x : Feature × Scalar} (hat : tree.at? path = some node) (hx : node.shown? = some x)
    {i : Fin d.findings.length} (hplace : placeOf htree h i = .node path) :
    Converted tree path node := by
  rw [placeOf] at hplace
  obtain ⟨hmem, y, hy⟩ := mem_shownSites
    (List.get_mem (shownSites tree) (i.castLE (length_findings_le htree h)))
  generalize (shownSites tree).get (i.castLE (length_findings_le htree h)) = site at *
  have hshows := shows_of_mem_sites hmem hy
  cases hshows with
  | construct hnode hshown =>
    cases hplace
    have hat' := hnode.at?
    rw [hat, Option.some.injEq] at hat'
    exact hat' ▸ hnode
  | keyword hloop hfor hi hget hdeclared =>
    rw [place_keyword hloop.at? hi] at hplace
    cases hplace
    rw [at?_keyword hloop.at? hget, Option.some.injEq] at hat
    rw [← hat, shown?_of_declared? hdeclared] at hx
    cases hx
  | segment => cases hplace

/-- With room for all of them, a construct that the conversion comes to and that shows a
    feature has a finding. -/
theorem exists_placeOf (htree : tree.ClashFree)
    (h : Detection.ofSource options source tree = .ok d)
    (hlimit : (occurrences tree : Int) ≤ options.resultLimit) {path : List Nat} {node : Cst}
    {x : Feature × Scalar} (hnode : Converted tree path node) (hx : node.shown? = some x) :
    ∃ i, placeOf htree h i = .node path ∧ (d.findings.get i).feature = x.1 ∧
      (d.findings.get i).qualifier = x.2 ∧
      (d.findings.get i).offset = charOffset source node.startByte := by
  have hmem : (⟨path, .construct node⟩ : Site) ∈ shownSites tree :=
    List.mem_filter.mpr ⟨hnode.mem_sites, by simp [Ast.Origin.shown?, hx]⟩
  obtain ⟨k, hk⟩ := List.mem_iff_get.mp hmem
  have hlength : (shownSites tree).length = d.findings.length := by
    rw [length_findings htree h, Nat.min_eq_right]
    rw [occurrences] at hlimit
    omega
  refine ⟨k.cast hlength, ?_, ?_⟩
  · show Site.place tree ((shownSites tree).get k) = _
    rw [hk]
    rfl
  · have hfinding : ((shownSites tree).get k).finding? options source =
        some (d.findings.get (k.cast hlength)) := finding?_get htree h (k.cast hlength)
    rw [hk] at hfinding
    have horigin : (⟨path, .construct node⟩ : Site).origin.shown? = some x := hx
    exact finding?_eq_some horigin hfinding

end Found

/-- In a tree without faults in which no declaration lacks a value, and with room for
    all occurrences, the findings have places of their own that justify them, and a
    reached construct that shows a feature has its finding exactly when no construct
    above it drops it. -/
theorem found_iff_not_dropped {options : Options} {source : String} {tree : Cst}
    (hfault : tree.label.hasError = false) (hvalues : tree.Initialized) (htree : tree.ClashFree)
    (hlimit : (occurrences tree : Int) ≤ options.resultLimit) :
    ∃ d, Detection.ofSource options source tree = .ok d ∧
      ∃ place : Fin d.findings.length → Cst.Place, Function.Injective place ∧
        (∀ i, Justified source tree (d.findings.get i) (place i)) ∧
        ∀ path node feature qualifier, tree.reach? path = some node →
          node.shown? = some (feature, qualifier) →
          ((∃ i, place i = .node path ∧ (d.findings.get i).feature = feature ∧
              (d.findings.get i).qualifier = qualifier ∧
              (d.findings.get i).offset = charOffset source node.startByte) ↔
            ¬Ast.Dropped tree path) := by
  obtain ⟨d, hd⟩ := Detection.exists_ofSource options hfault (hvalues.refusal?_eq source)
  refine ⟨d, hd, placeOf htree hd, placeOf_injective htree hd, justified_placeOf htree hd, ?_⟩
  intro path node feature qualifier hreach hshown
  constructor
  · rintro ⟨i, hplace, -⟩
    exact (converted_of_placeOf htree hd (Cst.at?_of_reach? hreach) hshown hplace).not_dropped
  · intro hdropped
    exact exists_placeOf htree hd hlimit (Ast.converted_of_reach? hreach hdropped) hshown

/-- A loop whose variable starts as an arrow function around another one. -/
def arrowInLoopHeadSource : String :=
  "for (var f = x => \x7b y => x; \x7d in o) ;"

/-- The tree of `arrowInLoopHeadSource`. -/
def arrowInLoopHead : Cst :=
  .node ⟨"program", 0, 37, true, false, false, none⟩
    [.node ⟨"for_in_statement", 0, 37, true, false, false, none⟩
      [.node ⟨"for", 0, 3, false, false, false, none⟩ [],
       .node ⟨"(", 4, 5, false, false, false, none⟩ [],
       .node ⟨"var", 5, 8, false, false, false, some "kind"⟩ [],
       .node ⟨"identifier", 9, 10, true, false, false, some "left"⟩ [],
       .node ⟨"=", 11, 12, false, false, false, none⟩ [],
       .node ⟨"arrow_function", 13, 29, true, false, false, some "value"⟩
        [.node ⟨"identifier", 13, 14, true, false, false, some "parameter"⟩ [],
         .node ⟨"=>", 15, 17, false, false, false, none⟩ [],
         .node ⟨"statement_block", 18, 29, true, false, false, some "body"⟩
          [.node ⟨"\x7b", 18, 19, false, false, false, none⟩ [],
           .node ⟨"expression_statement", 20, 27, true, false, false, none⟩
            [.node ⟨"arrow_function", 20, 26, true, false, false, none⟩
              [.node ⟨"identifier", 20, 21, true, false, false, some "parameter"⟩ [],
               .node ⟨"=>", 22, 24, false, false, false, none⟩ [],
               .node ⟨"identifier", 25, 26, true, false, false, some "body"⟩ []],
             .node ⟨";", 26, 27, false, false, false, none⟩ []],
           .node ⟨"\x7d", 28, 29, false, false, false, none⟩ []]],
       .node ⟨"in", 30, 32, false, false, false, some "operator"⟩ [],
       .node ⟨"identifier", 33, 34, true, false, false, some "right"⟩ [],
       .node ⟨")", 34, 35, false, false, false, none⟩ [],
       .node ⟨"empty_statement", 36, 37, true, false, false, some "body"⟩
        [.node ⟨";", 36, 37, false, false, false, none⟩ []]]]

/-- The inner arrow function is found, the outer one is not. -/
theorem ofSource_arrowInLoopHead :
    Detection.ofSource { resultLimit := 9 } arrowInLoopHeadSource arrowInLoopHead =
      .ok { findings := [⟨.arrowFunction, "arrow function", .null, "y => x", 20⟩]
            visited := 13
            kind := "Program" } := by
  rw [Detection.ofSource_eq]
  simp only [Detection.ofProgram_eq]
  decide +kernel

theorem clashFree_arrowInLoopHead : arrowInLoopHead.ClashFree := by
  decide +kernel

theorem initialized_arrowInLoopHead : arrowInLoopHead.Initialized := by
  decide +kernel

theorem occurrences_arrowInLoopHead : occurrences arrowInLoopHead = 1 := by
  have hlength := length_findings clashFree_arrowInLoopHead ofSource_arrowInLoopHead
  have hlimit : (9 : Int).toNat = 9 := rfl
  simp only [List.length_singleton, hlimit] at hlength
  rw [occurrences]
  omega

theorem found_iff_not_dropped_arrowInLoopHead :
    arrowInLoopHead.Initialized ∧ arrowInLoopHead.ClashFree ∧
      ∃ d, Detection.ofSource { resultLimit := 9 } arrowInLoopHeadSource arrowInLoopHead = .ok d ∧
        ∃ place : Fin d.findings.length → Cst.Place, Function.Injective place ∧
          (∀ i, Justified arrowInLoopHeadSource arrowInLoopHead (d.findings.get i) (place i)) ∧
          ∀ path node feature qualifier, arrowInLoopHead.reach? path = some node →
            node.shown? = some (feature, qualifier) →
            ((∃ i, place i = .node path ∧ (d.findings.get i).feature = feature ∧
                (d.findings.get i).qualifier = qualifier ∧
                (d.findings.get i).offset = charOffset arrowInLoopHeadSource node.startByte) ↔
              ¬Ast.Dropped arrowInLoopHead path) :=
  ⟨initialized_arrowInLoopHead, clashFree_arrowInLoopHead,
    found_iff_not_dropped rfl initialized_arrowInLoopHead clashFree_arrowInLoopHead
      (by rw [occurrences_arrowInLoopHead]; decide)⟩

/-- The arrow function that a loop's variable starts as is reached, shows a feature and
    has no finding. -/
theorem arrow_in_loop_head_not_found :
    arrowInLoopHead.label.hasError = false ∧ arrowInLoopHead.Initialized ∧
      arrowInLoopHead.ClashFree ∧
      (arrowInLoopHead.reach? [0, 5]).map (fun node => (node.startByte, node.shown?)) =
        some (13, some (.arrowFunction, .null)) ∧
      ∃ d, Detection.ofSource { resultLimit := 9 } arrowInLoopHeadSource arrowInLoopHead = .ok d ∧
        ∀ finding ∈ d.findings, finding.offset ≠ 13 :=
  ⟨rfl, initialized_arrowInLoopHead, clashFree_arrowInLoopHead, by decide +kernel, _,
    ofSource_arrowInLoopHead, by decide⟩

end EsFeatures
