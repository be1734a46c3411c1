/-
  EsFeatures.Proofs.FirstError

  Which error is reported for a tree that cannot be converted.  In a tree that is marked
  as faulty it is the first faulty node within the depth of the search; otherwise it is
  the first declarator without a value that it needs, in the order in which the
  conversion comes to declarations.
-/
import EsFeatures.Detection
import EsFeatures.Proofs.DocumentOrder
import EsFeatures.Proofs.FaultSearch
import EsFeatures.Proofs.WorkStack

namespace EsFeatures.Ast

/-! ## Faults -/

/-- The node at which a tree marked as faulty is refused: the first of its faulty nodes
    within the depth of the search, or else its root. -/
def reportedFault (tree : Cst) (nodes : List (Nat × Cst)) : Cst :=
  ((nodes.find? fun x => (x.1 : Int) ≤ Cst.defaultFaultDepth).map Prod.snd).getD tree

theorem faultFailure_eq (source : String) {tree : Cst} (h : tree.FlagsConsistent) :
    ∃ e, faultFailure source tree = .invalid e ∧
      e.offset = charOffset source (reportedFault tree (Cst.faultNodes 0 tree)).startByte := by
  have hfaults := Cst.faults_eq (Context.ofSource source).map Cst.defaultFaultDepth h 0
  rw [Cst.faultsWithin] at hfaults
  simp only [faultFailure, reportedFault]
  rw [show ((0 : Nat) : Int) = 0 from rfl] at hfaults
  rw [hfaults, ← List.head?_filter]
  cases (Cst.faultNodes 0 tree).filter fun x => (x.1 : Int) ≤ Cst.defaultFaultDepth with
  | nil =>
    simp only [List.map_nil, context_toChar_natCast]
    exact ⟨_, rfl, rfl⟩
  | cons first rest =>
    simp only [List.map_cons, context_toChar_natCast]
    exact ⟨_, rfl, rfl⟩

/-- A first fault within the depth of the search is the one that is reported. -/
theorem reportedFault_of_le {tree : Cst} {first : Nat × Cst} {rest : List (Nat × Cst)}
    (h : (first.1 : Int) ≤ Cst.defaultFaultDepth) : reportedFault tree (first :: rest) = first.2 := by
  simp [reportedFault, h]

/-- A first fault below the depth of the search is passed over. -/
theorem reportedFault_of_lt {tree : Cst} {first : Nat × Cst} {rest : List (Nat × Cst)}
    (h : Cst.defaultFaultDepth < (first.1 : Int)) :
    reportedFault tree (first :: rest) = reportedFault tree rest := by
  simp [reportedFault, h]

/-! ## Declarators without a value -/

/-- The declarators without a value they need in what a node is made from. -/
def Origin.bareDeclarators : Origin → List Cst
  | .construct tree => Ast.bareDeclarators tree
  | _ => []

/-- The declarators without a value they need in the declarations that the conversion
    comes to, in the order of the conversion. -/
def bareInOrder (tree : Cst) : List Cst :=
  (sites tree).flatMap fun site => site.origin.bareDeclarators

/-- The first refusal among some origins is at the first declarator without a value. -/
theorem offset_findSome?_refusal? (source : String) (origins : List Origin) :
    (origins.findSome? (Origin.refusal? source)).map SyntaxError.offset =
      (origins.flatMap Origin.bareDeclarators).head?.map
        fun declarator => charOffset source declarator.startByte := by
  induction origins with
  | nil => rfl
  | cons origin rest ih =>
    have hone : (origin.refusal? source).map SyntaxError.offset =
        origin.bareDeclarators.head?.map fun declarator => charOffset source declarator.startByte := by
      cases origin with
      | construct tree => exact refusal?_eq source tree
      | declaration => rfl
      | declarator => rfl
      | segment => rfl
    rw [List.findSome?_cons, List.flatMap_cons, List.head?_append]
    -- An origin is refused exactly when a declarator of it lacks a value.
    cases hrefusal : origin.refusal? source with
    | none =>
      rw [hrefusal, Option.map_none, eq_comm, Option.map_eq_none_iff] at hone
      rw [hone, Option.none_or]
      exact ih
    | some e =>
      rw [hrefusal] at hone
      cases hhead : origin.bareDeclarators.head? with
      | none =>
        rw [hhead] at hone
        cases hone
      | some declarator =>
        rw [hhead] at hone
        exact hone

/-- A conversion that fails does so at the first declarator without a value. -/
theorem offset_of_conv_eq_error {source : String} {tree : Cst} {e : SyntaxError}
    (h : conv source tree = .error e) :
    ∃ first rest, bareInOrder tree = first :: rest ∧
      e.offset = charOffset source first.startByte := by
  have hheads := headsOf_conv source tree
  rw [h, verdict] at hheads
  have hoffset := offset_findSome?_refusal? source ((sites tree).map Site.origin)
  rw [List.flatMap_map] at hoffset
  cases hfind : ((sites tree).map Site.origin).findSome? (Origin.refusal? source) with
  | none =>
    rw [hfind] at hheads
    cases hheads
  | some e' =>
    rw [hfind] at hheads hoffset
    cases hheads
    change some e.offset = ((bareInOrder tree).head?.map _) at hoffset
    cases hbare : bareInOrder tree with
    | nil =>
      rw [hbare] at hoffset
      cases hoffset
    | cons first rest =>
      rw [hbare] at hoffset
      exact ⟨first, rest, rfl, Option.some.inj hoffset⟩

/-! ## The order of declarations -/

/-- The first declarator without a value belongs to the first declaration with one. -/
theorem exists_of_bareInOrder {tree first : Cst} {rest : List Cst}
    (h : bareInOrder tree = first :: rest) :
    ∃ passed path node later, sites tree = passed ++ ⟨path, .construct node⟩ :: later ∧
      (∀ site ∈ passed, site.origin.bareDeclarators = []) ∧
      (bareDeclarators node).head? = some first := by
  rw [bareInOrder] at h
  generalize sites tree = all at h ⊢
  induction all with
  | nil => cases h
  | cons site all ih =>
    rw [List.flatMap_cons] at h
    cases hbare : site.origin.bareDeclarators with
    | nil =>
      rw [hbare, List.nil_append] at h
      obtain ⟨passed, path, node, later, rfl, hpassed, hhead⟩ := ih h
      refine ⟨site :: passed, path, node, later, rfl, ?_, hhead⟩
      intro other hother
      rcases List.mem_cons.mp hother with rfl | hother
      · exact hbare
      · exact hpassed other hother
    | cons declarator declarators =>
      rw [hbare, List.cons_append, List.cons.injEq] at h
      obtain ⟨path, origin⟩ := site
      cases origin with
      | construct node =>
        have hnode : bareDeclarators node = declarator :: declarators := hbare
        refine ⟨[], path, node, all, rfl, by simp, ?_⟩
        rw [hnode, h.1]
        rfl
      | declaration => cases hbare
      | declarator => cases hbare
      | segment => cases hbare

/-- A declaration in document order is refused at its leftmost declarator without a
    value. -/
theorem startByte_le_of_head? {node first declarator : Cst} (horder : node.InOrder)
    (hfirst : (bareDeclarators node).head? = some first) (h : LacksValue node declarator) :
    first.startByte ≤ declarator.startByte := by
  have hapart : (bareDeclarators node).Pairwise fun x y => x.endByte ≤ y.startByte := by
    rw [bareDeclarators]
    split
    · exact (horder [] node rfl).apart.filter _
    · exact List.Pairwise.nil
  have hmem := mem_bareDeclarators.mpr h
  cases hbare : bareDeclarators node with
  | nil =>
    rw [hbare] at hmem
    cases hmem
  | cons x xs =>
    rw [hbare] at hfirst hmem hapart
    cases hfirst
    rcases List.mem_cons.mp hmem with rfl | hmem
    · exact Nat.le_refl _
    · have hchild := (mem_bareDeclarators.mp (hbare ▸ List.mem_cons_self)).child
      have hforward := (horder.child hchild [] first rfl).forward
      have hle := (List.pairwise_cons.mp hapart).1 declarator hmem
      omega

/-- In a tree in document order only declarations below the refused one have an earlier
    declarator without a value. -/
theorem below_of_startByte_lt {tree node node' first declarator : Cst} {path path' : List Nat}
    {passed later : List Site} (horder : tree.InOrder)
    (hsites : sites tree = passed ++ ⟨path, .construct node⟩ :: later)
    (hpassed : ∀ site ∈ passed, site.origin.bareDeclarators = [])
    (hfirst : (bareDeclarators node).head? = some first) (hnode' : Converted tree path' node')
    (hlacks : LacksValue node' declarator) (hlt : declarator.startByte < first.startByte) :
    ∃ way, way ≠ [] ∧ path' = path ++ way := by
  have hmem := hnode'.mem_sites
  rw [hsites] at hmem
  have hnode : Converted tree path node :=
    converted_of_mem_sites (hsites ▸ List.mem_append_right _ List.mem_cons_self) rfl
  have hother : path' ≠ path := by
    rintro rfl
    have hat := hnode'.at?
    rw [hnode.at?, Option.some.injEq] at hat
    subst hat
    have hle := startByte_le_of_head? (horder.below hnode.at?) hfirst hlacks
    omega
  rcases List.mem_append.mp hmem with hmem | hmem
  · have hnone : bareDeclarators node' = [] := hpassed _ hmem
    have hdeclarator := mem_bareDeclarators.mpr hlacks
    rw [hnone] at hdeclarator
    cases hdeclarator
  · rcases List.mem_cons.mp hmem with heq | hmem
    · cases heq
      exact absurd rfl hother
    · have hbefore := pairwise_sites horder
      rw [hsites] at hbefore
      have hlater := (List.pairwise_cons.mp (List.pairwise_append.mp hbefore).2.1).1 _ hmem
      rcases hlater node node' rfl rfl with ⟨way, hway⟩ | hle
      · refine ⟨way, ?_, hway.symm⟩
        rintro rfl
        exact hother (hway.symm.trans (List.append_nil path))
      · -- Behind the refused declaration every declarator starts later.
        have hchild := (mem_bareDeclarators.mp (List.mem_of_head? hfirst)).child
        have hin := (horder path node hnode.at?).within first hchild
        have hin' := (horder path' node' hnode'.at?).within declarator hlacks.child
        have hforward := ((horder.below hnode.at?).child hchild [] first rfl).forward
        omega

/-! ## The reported error -/

/-- The error that is reported for a tree with consistent marks.  In a marked tree it
    lies at the first faulty node when that is within the depth of the search, and
    otherwise at the first later one that is, or at the root.  In a tree without marks
    it lies at the first declarator without a value in the order of the conversion; in
    document order an earlier one can only belong to a declaration within the one that
    is refused. -/
theorem reported_error_offset {source : String} {tree : Cst} {failure : Failure}
    (hflags : tree.FlagsConsistent) (h : ofCst source tree = .error failure) :
    ∃ e, failure = .invalid e ∧
      (tree.label.hasError = true → ∃ first rest, Cst.faultNodes 0 tree = first :: rest ∧
        ((first.1 : Int) ≤ Cst.defaultFaultDepth →
          e.offset = charOffset source first.2.startByte) ∧
        (Cst.defaultFaultDepth < (first.1 : Int) →
          e.offset = charOffset source (reportedFault tree rest).startByte)) ∧
      (tree.label.hasError = false → ∃ path node first, Converted tree path node ∧
        LacksValue node first ∧ (bareInOrder tree).head? = some first ∧
        e.offset = charOffset source first.startByte ∧
        (tree.InOrder → ∀ path' node' declarator, Converted tree path' node' →
          LacksValue node' declarator → charOffset source declarator.startByte < e.offset →
          ∃ way, way ≠ [] ∧ path' = path ++ way)) := by
  rw [ofCst] at h
  -- A marked tree is refused before it is converted.
  cases hmark : tree.label.hasError with
  | true =>
    rw [hmark, if_pos rfl] at h
    cases h
    obtain ⟨e, hfailure, hoffset⟩ := faultFailure_eq source hflags
    refine ⟨e, hfailure, fun _ => ?_, by simp⟩
    obtain ⟨first, rest, hnodes⟩ := hflags.exists_faultNodes hmark
    rw [hnodes] at hoffset
    refine ⟨first, rest, hnodes, ?_, ?_⟩
    · intro hle
      rw [hoffset, reportedFault_of_le hle]
    · intro hlt
      rw [hoffset, reportedFault_of_lt hlt]
  | false =>
    rw [hmark, build_eq, convert] at h
    cases hconv : conv source tree with
    | ok nodes =>
      rw [hconv] at h
      cases h
    | error e =>
      rw [hconv] at h
      cases h
      refine ⟨e, rfl, by simp, fun _ => ?_⟩
      obtain ⟨first, rest, hbare, hoffset⟩ := offset_of_conv_eq_error hconv
      obtain ⟨passed, path, node, later, hsites, hpassed, hfirst⟩ := exists_of_bareInOrder hbare
      have hnode : Converted tree path node :=
        converted_of_mem_sites (hsites ▸ List.mem_append_right _ List.mem_cons_self) rfl
      refine ⟨path, node, first, hnode, mem_bareDeclarators.mp (List.mem_of_head? hfirst), ?_,
        hoffset, ?_⟩
      · rw [hbare]
        rfl
      · intro horder path' node' declarator hnode' hlacks hlt
        refine below_of_startByte_lt horder hsites hpassed hfirst hnode' hlacks ?_
        rw [hoffset] at hlt
        by_contra hle
        exact absurd (charOffset_mono source (Nat.le_of_not_lt hle)) (by omega)

/-- A declaration whose second constant lacks a value, and within the value of its first
    one a declaration whose only constant does. -/
def nestedDeclarationsSource : String :=
  "const a = function () \x7b const b; \x7d, c;"

/-- The tree of `nestedDeclarationsSource`. -/
def nestedDeclarations : Cst :=
  .node ⟨"program", 0, 38, true, false, false, none⟩
    [.node ⟨"lexical_declaration", 0, 38, true, false, false, none⟩
      [.node ⟨"const", 0, 5, false, false, false, some "kind"⟩ [],
       .node ⟨"variable_declarator", 6, 34, true, false, false, none⟩
        [.node ⟨"identifier", 6, 7, true, false, false, some "name"⟩ [],
         .node ⟨"=", 8, 9, false, false, false, none⟩ [],
         .node ⟨"function_expression", 10, 34, true, false, false, some "value"⟩
          [.node ⟨"function", 10, 18, false, false, false, none⟩ [],
           .node ⟨"formal_parameters", 19, 21, true, false, false, some "parameters"⟩
            [.node ⟨"(", 19, 20, false, false, false, none⟩ [],
             .node ⟨")", 20, 21, false, false, false, none⟩ []],
           .node ⟨"statement_block", 22, 34, true, false, false, some "body"⟩
            [.node ⟨"\x7b", 22, 23, false, false, false, none⟩ [],
             .node ⟨"lexical_declaration", 24, 32, true, false, false, none⟩
              [.node ⟨"const", 24, 29, false, false, false, some "kind"⟩ [],
               .node ⟨"variable_declarator", 30, 31, true, false, false, none⟩
                [.node ⟨"identifier", 30, 31, true, false, false, some "name"⟩ []],
               .node ⟨";", 31, 32, false, false, false, none⟩ []],
             .node ⟨"\x7d", 33, 34, false, false, false, none⟩ []]]],
       .node ⟨",", 34, 35, false, false, false, none⟩ [],
       .node ⟨"variable_declarator", 36, 37, true, false, false, none⟩
        [.node ⟨"identifier", 36, 37, true, false, false, some "name"⟩ []],
       .node ⟨";", 37, 38, false, false, false, none⟩ []]]

theorem ofCst_nestedDeclarations :
    ofCst nestedDeclarationsSource nestedDeclarations =
      .error (.invalid (.locate nestedDeclarationsSource 36 .bareConst)) := by
  rw [ofCst, build_eq]
  rfl

theorem reported_error_offset_nestedDeclarations :
    nestedDeclarations.FlagsConsistent ∧ nestedDeclarations.InOrder ∧
      ∃ e, Failure.invalid (.locate nestedDeclarationsSource 36 .bareConst) = .invalid e ∧
        (nestedDeclarations.label.hasError = true →
          ∃ first rest, Cst.faultNodes 0 nestedDeclarations = first :: rest ∧
            ((first.1 : Int) ≤ Cst.defaultFaultDepth →
              e.offset = charOffset nestedDeclarationsSource first.2.startByte) ∧
            (Cst.defaultFaultDepth < (first.1 : Int) →
              e.offset = charOffset nestedDeclarationsSource
                (reportedFault nestedDeclarations rest).startByte)) ∧
        (nestedDeclarations.label.hasError = false →
          ∃ path node first, Converted nestedDeclarations path node ∧ LacksValue node first ∧
            (bareInOrder nestedDeclarations).head? = some first ∧
            e.offset = charOffset nestedDeclarationsSource first.startByte ∧
            (nestedDeclarations.InOrder → ∀ path' node' declarator,
              Converted nestedDeclarations path' node' → LacksValue node' declarator →
              charOffset nestedDeclarationsSource declarator.startByte < e.offset →
              ∃ way, way ≠ [] ∧ path' = path ++ way)) :=
  ⟨by decide +kernel, by decide +kernel,
    reported_error_offset (by decide +kernel) ofCst_nestedDeclarations⟩

/-- A tree inside the given number of parentheses, the outermost of which stand at
    bytes `start` and `stop - 1`. -/
def parenthesized (inner : Cst) : Nat → Nat → Nat → Cst
  | 0, _, _ => inner
  | n + 1, start, stop =>
    .node ⟨"parenthesized_expression", start, stop, true, false, true, none⟩
      [.node ⟨"(", start, start + 1, false, false, false, none⟩ [],
       parenthesized inner n (start + 1) (stop - 1),
       .node ⟨")", stop - 1, stop, false, false, false, none⟩ []]

/-- A stray character within 199 parentheses, and another one behind them. -/
def deepFaultText : List Char :=
  List.replicate 199 '(' ++ '@' :: List.replicate 199 ')' ++ [';', '#']

/-- The tree of `deepFaultText`. -/
def deepFault : Cst :=
  .node ⟨"program", 0, 401, true, false, true, none⟩
    [.node ⟨"expression_statement", 0, 400, true, false, true, none⟩
      [parenthesized (.node ⟨"ERROR", 199, 200, true, false, true, none⟩ []) 199 0 399,
       .node ⟨";", 399, 400, false, false, false, none⟩ []],
     .node ⟨"ERROR", 400, 401, true, false, true, none⟩ []]

/-- The fault behind the parentheses is reported. -/
theorem ofCst_deepFault :
    ∃ e, ofCst (.ofList deepFaultText) deepFault = .error (.invalid e) ∧ e.offset = 400 := by
  obtain ⟨e, hfailure, hoffset⟩ := faultFailure_eq (.ofList deepFaultText)
    (show deepFault.FlagsConsistent by decide +kernel)
  have hreported : (reportedFault deepFault (Cst.faultNodes 0 deepFault)).startByte = 400 := by
    decide +kernel
  refine ⟨e, ?_, ?_⟩
  · rw [ofCst, hfailure]
    rfl
  · rw [hoffset, charOffset_ofList (by decide +kernel), hreported]
    rfl

/-- The first error is not always the one that is reported.  Of two constants without a
    value the outer one is, though the inner one stands before it; of two faults the
    second one is when the first one lies too deep. -/
theorem first_error_not_reported :
    (nestedDeclarations.FlagsConsistent ∧ nestedDeclarations.label.hasError = false ∧
      (∃ path node declarator, Converted nestedDeclarations path node ∧
        LacksValue node declarator ∧
        charOffset nestedDeclarationsSource declarator.startByte = 30) ∧
      ∃ e, ofCst nestedDeclarationsSource nestedDeclarations = .error (.invalid e) ∧
        e.offset = 36) ∧
    deepFault.FlagsConsistent ∧ deepFault.label.hasError = true ∧
      ((Cst.faultNodes 0 deepFault).head?.map fun first =>
        charOffset (.ofList deepFaultText) first.2.startByte) = some 199 ∧
      ∃ e, ofCst (.ofList deepFaultText) deepFault = .error (.invalid e) ∧ e.offset = 400 := by
  refine ⟨⟨by decide +kernel, rfl, ?_, _, ofCst_nestedDeclarations, rfl⟩,
    by decide +kernel, rfl, ?_, ofCst_deepFault⟩
  · have hinner : Converted nestedDeclarations [0, 1, 2, 2, 1] _ :=
      .onward rfl (.child (i := 0) rfl rfl (by decide) (by decide)) <|
      .onward rfl (.child (i := 1) rfl rfl (by decide) (by decide)) <|
      .onward rfl (.child (i := 2) rfl rfl (by decide) (by decide)) <|
      .onward rfl (.child (i := 2) rfl rfl (by decide) (by decide)) <|
      .onward rfl (.child (i := 1) rfl rfl (by decide) (by decide)) (.root rfl)
    exact ⟨_, _, _, hinner, ⟨List.mem_cons_of_mem _ List.mem_cons_self, rfl, rfl, rfl,
      Or.inl ⟨rfl, rfl⟩⟩, by decide +kernel⟩
  · simp only [charOffset_ofList (show (Text.Utf8.encode deepFaultText).length =
      deepFaultText.length by decide +kernel)]
    decide +kernel

end EsFeatures.Ast
