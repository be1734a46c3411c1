/-
  EsFeatures.Proofs.MissingValues

  When a conversion fails.  A declarator without a value that it needs is the only reason,
  and the conversion fails at the first one that it comes to: it takes up the constructs of
  a tree one after the other, in the pre-order of the abstract tree, and looks at the
  declarators of a declaration when it takes the declaration up.
-/
import EsFeatures.Proofs.Provenance
import EsFeatures.Proofs.WorkStack

namespace EsFeatures.Ast

open Text (ByteMap)

/-! ## The order of the conversion -/

/-- The construct that a site is the node of. -/
def Site.construct? (site : Site) : Option Cst :=
  match site.origin with
  | .construct tree => some tree
  | _ => none

/-- The constructs of a tree that have nodes, in the pre-order of the abstract tree. -/
def constructsIn (tree : Cst) : List Cst :=
  (sites tree).filterMap Site.construct?

/-- The constructs in a piece of work. -/
def pieceConstructs : Head ⊕ Cst → List Cst
  | .inl _ => []
  | .inr tree => constructsIn tree

theorem constructsIn_of_not_isKept {tree : Cst} (h : isKept tree = false) :
    constructsIn tree = [] := by
  rw [constructsIn, sites_of_not_isKept h]
  rfl

/-- The constructs in a part of a tree are those in the work that comes of it. -/
theorem constructs_of_part (source : String) {tree : Cst} {part : Part} (h : part ∈ partsOf tree) :
    part.sites.filterMap Site.construct? = pieceConstructs (part.piece source) := by
  cases part with
  | made origin =>
    -- What a construct makes beside its own node is no construct.
    cases makes_of_mem_partsOf h with
    | declaration => rfl
    | declarator => rfl
    | segment => rfl
  | below way child =>
    show ((sites child).map (Site.under way)).filterMap Site.construct? = constructsIn child
    rw [List.filterMap_map]
    rfl

/-- A construct comes first, then those in the work below it. -/
theorem constructsIn_of_isKept (source : String) {tree : Cst} (h : isKept tree = true) :
    constructsIn tree =
      tree :: ((itemsOf source tree).flatMap Pending.pieces).flatMap pieceConstructs := by
  have hparts : ((partsOf tree).flatMap Part.sites).filterMap Site.construct? =
      ((partsOf tree).map (Part.piece source)).flatMap pieceConstructs := by
    rw [List.filterMap_flatMap, List.flatMap_map]
    apply List.flatMap_congr
    intro part hpart
    exact constructs_of_part source hpart
  have hself : Site.construct? ⟨[], .construct tree⟩ = some tree := rfl
  rw [constructsIn, sites_of_isKept h, List.filterMap_cons_some hself, hparts, pieces_itemsOf]

/-- The constructs in what waits on the stack. -/
def Work.constructs : Work → List Cst
  | ⟨.tree tree, _⟩ => constructsIn tree
  | ⟨.node _, _⟩ => []

theorem constructs_place (parent : Nat) (cells : Array Cell) (item : Pending) :
    (place parent cells item).2.flatMap Work.constructs = item.pieces.flatMap pieceConstructs := by
  cases item with
  | convert tree => rfl
  | element head => rfl
  | declaration head declarator inside =>
    show (inside.map _).flatMap Work.constructs = (inside.map Sum.inr).flatMap pieceConstructs
    rw [List.flatMap_map, List.flatMap_map]
    rfl

theorem constructs_placeAll (parent : Nat) (cells : Array Cell) (items : List Pending) :
    (placeAll parent cells items).2.flatMap Work.constructs =
      (items.flatMap Pending.pieces).flatMap pieceConstructs := by
  induction items generalizing cells with
  | nil => rfl
  | cons item rest ih =>
    rw [placeAll_cons, List.flatMap_append, constructs_place, ih, List.flatMap_cons,
      List.flatMap_append]

/-- The constructs up to the first one that is refused. -/
def untilRefused (source : String) : List Cst → List Cst
  | [] => []
  | tree :: rest =>
    if (refusal? source tree).isSome then [tree] else tree :: untilRefused source rest

namespace Machine

/-- The construct that the next round takes up. -/
def construct? (m : Machine) : Option Cst :=
  match m.stack with
  | ⟨.tree tree, _⟩ :: _ => if isKept tree then some tree else none
  | _ => none

/-- The constructs that the rounds of a conversion take up, in order.  One that is refused
    is the last. -/
def taken (ctx : Context) (m : Machine) : List Cst :=
  match _ : m.step ctx with
  | none => []
  | some (.error _) => m.construct?.toList
  | some (.ok m') => m.construct?.toList ++ taken ctx m'
termination_by Work.weights m.stack
decreasing_by exact weights_step_lt ‹_›

/-- The rounds take up the constructs on the stack in order, up to the first one that is
    refused. -/
theorem taken_eq (source : String) (m : Machine) :
    m.taken (.ofSource source) = untilRefused source (m.stack.flatMap Work.constructs) := by
  fun_induction taken (.ofSource source) m with
  | case1 m hstep =>
    rw [step_eq_none hstep]
    rfl
  | case2 m failure hstep =>
    rcases step_cases hstep with ⟨m₀, address, target, rfl, heq⟩ | ⟨m₀, tree, target, rfl, hkept, heq⟩ |
      ⟨m₀, tree, target, e, rfl, hkept, hrefusal, heq⟩ | ⟨m₀, tree, target, rfl, hkept, hrefusal, heq⟩
    · cases heq
    · cases heq
    · -- Of what waits behind a refused construct nothing is taken up.
      rw [stack_push, List.flatMap_cons, Work.constructs, constructsIn_of_isKept source hkept,
        List.cons_append, untilRefused, hrefusal]
      simp [construct?, hkept]
    · cases heq
  | case3 m m' hstep ih =>
    rw [ih]
    rcases step_cases hstep with ⟨m₀, address, target, rfl, heq⟩ | ⟨m₀, tree, target, rfl, hkept, heq⟩ |
      ⟨m₀, tree, target, e, rfl, hkept, hrefusal, heq⟩ | ⟨m₀, tree, target, rfl, hkept, hrefusal, heq⟩
    · -- A node that is already made holds no construct.
      cases heq
      rw [stack_append, stack_push, List.flatMap_cons]
      rfl
    · cases heq
      rw [stack_push, List.flatMap_cons, Work.constructs, constructsIn_of_not_isKept hkept]
      simp [construct?, hkept]
    · cases heq
    · -- A construct makes way for the work below it, which holds the same constructs but one.
      cases heq
      have hfirst : (m₀.push ⟨.tree tree, target⟩).construct? = some tree := by
        simp [construct?, hkept]
      rw [stack_append, stack_push, List.flatMap_cons, Work.constructs,
        constructsIn_of_isKept source hkept, List.cons_append, untilRefused, hrefusal, hfirst]
      show [tree] ++ untilRefused source
        (((placeAll _ _ (itemsOf source tree)).2 ++ m₀.stack).flatMap Work.constructs) = _
      rw [List.flatMap_append, constructs_placeAll]
      rfl

/-- A conversion takes up the constructs of its tree in the pre-order of the abstract
    tree. -/
theorem taken_start (source : String) (tree : Cst) :
    (start tree).taken (.ofSource source) = untilRefused source (constructsIn tree) := by
  rw [taken_eq]
  show untilRefused source (constructsIn tree ++ []) = _
  rw [List.append_nil]

end Machine

theorem untilRefused_append {source : String} {xs ys : List Cst} {tree : Cst}
    (hxs : ∀ x ∈ xs, refusal? source x = none) (htree : (refusal? source tree).isSome = true) :
    untilRefused source (xs ++ tree :: ys) = xs ++ [tree] := by
  induction xs with
  | nil =>
    rw [List.nil_append, untilRefused, if_pos htree]
    rfl
  | cons x xs ih =>
    have hx := hxs x List.mem_cons_self
    have hrest := ih fun y hy => hxs y (List.mem_cons_of_mem _ hy)
    rw [List.cons_append, untilRefused, hx, hrest]
    rfl

/-! ## Refused declarations -/

/-- `FirstLacking node declarator`: of the declarators of a declaration whose value is
    missing, the first one. -/
structure FirstLacking (node declarator : Cst) : Prop where
  lacks : LacksValue node declarator
  first : ∃ before after, node.children = before ++ declarator :: after ∧
    ∀ other ∈ before, ¬LacksValue node other

/-- What is said of a declaration in which a value is missing: of constants that they need
    one, and of all others that a pattern does. -/
def missingValueCause (node : Cst) : SyntaxCause :=
  if node.kind = "lexical_declaration" ∧ keywordOf node = "const" then .bareConst
  else .barePattern

theorem cause_of_bareCause? {keyword : String} {declarator : Cst} {cause : SyntaxCause}
    (h : bareCause? keyword declarator = some cause) :
    cause = if keyword = "const" then .bareConst else .barePattern := by
  rw [bareCause?] at h
  split at h
  · split at h
    · rename_i hconst
      rw [if_pos (beq_iff_eq.mp hconst)]
      exact (Option.some.inj h).symm
    · rename_i hconst
      rw [if_neg fun heq => hconst (beq_iff_eq.mpr heq)]
      split at h
      · exact (Option.some.inj h).symm
      · cases h
  · cases h

section Declared

variable {node : Cst} {keyword : String} (h : declaredWith? node = some keyword)

include h

theorem missingValueCause_eq :
    missingValueCause node = if keyword = "const" then .bareConst else .barePattern := by
  rw [missingValueCause]
  rcases declaredWith?_eq_some.mp h with ⟨hlexical, rfl⟩ | ⟨hvariable, rfl⟩
  · simp only [hlexical, true_and]
  · -- A declaration with `var` declares no constants, whatever keyword it holds.
    have hkind : node.kind ≠ "lexical_declaration" := by
      rw [hvariable]
      decide
    rw [if_neg fun hconst => hkind hconst.1, if_neg (by decide)]

theorem lacksValue_iff (declarator : Cst) :
    LacksValue node declarator ↔
      declarator ∈ node.children ∧ (bareCause? keyword declarator).isSome = true := by
  rw [← mem_bareDeclarators, bareDeclarators, h]
  exact List.mem_filter

/-- The error of a declarator whose value is missing. -/
theorem map_bareCause?_eq_some {source : String} {declarator : Cst} {e : SyntaxError}
    (hchild : declarator ∈ node.children) :
    (bareCause? keyword declarator).map
        (.locate source (charOffset source declarator.startByte)) = some e ↔
      LacksValue node declarator ∧
        e = .locate source (charOffset source declarator.startByte) (missingValueCause node) := by
  rw [lacksValue_iff h, missingValueCause_eq h]
  cases hcause : bareCause? keyword declarator with
  | none => simp
  | some cause =>
    rw [Option.map_some, Option.some.injEq, cause_of_bareCause? hcause]
    simp [hchild, eq_comm]

theorem map_bareCause?_eq_none {source : String} {declarator : Cst}
    (hchild : declarator ∈ node.children) :
    (bareCause? keyword declarator).map
        (SyntaxError.locate source (charOffset source declarator.startByte)) = none ↔
      ¬LacksValue node declarator := by
  rw [lacksValue_iff h, Option.map_eq_none_iff]
  cases bareCause? keyword declarator with
  | none => simp
  | some cause => simp [hchild]

end Declared

theorem LacksValue.exists_declaredWith? {node declarator : Cst} (h : LacksValue node declarator) :
    ∃ keyword, declaredWith? node = some keyword := by
  rcases h.needed with ⟨hlexical, -⟩ | ⟨hlexical | hvariable, -⟩
  · exact ⟨_, declaredWith?_eq_some.mpr (Or.inl ⟨hlexical, rfl⟩)⟩
  · exact ⟨_, declaredWith?_eq_some.mpr (Or.inl ⟨hlexical, rfl⟩)⟩
  · exact ⟨_, declaredWith?_eq_some.mpr (Or.inr ⟨hvariable, rfl⟩)⟩

/-- A construct is refused exactly when a value is missing in it, and with an error at the
    first declarator of which this is so. -/
theorem refusal?_eq_some_iff {source : String} {node : Cst} {e : SyntaxError} :
    refusal? source node = some e ↔
      ∃ declarator, FirstLacking node declarator ∧
        e = .locate source (charOffset source declarator.startByte) (missingValueCause node) := by
  constructor
  · intro h
    obtain ⟨keyword, hkeyword, herror⟩ := Option.bind_eq_some_iff.mp h
    obtain ⟨before, declarator, after, hchildren, hcause, hbefore⟩ :=
      List.findSome?_eq_some_iff.mp herror
    have hmem : ∀ other ∈ before, other ∈ node.children := by
      intro other hother
      rw [hchildren]
      exact List.mem_append_left _ hother
    have hchild : declarator ∈ node.children := by
      rw [hchildren]
      exact List.mem_append_right _ List.mem_cons_self
    -- Those before the first declarator with an error need no value, or have one.
    obtain ⟨hlacks, he⟩ := (map_bareCause?_eq_some hkeyword hchild).mp hcause
    refine ⟨declarator, ⟨hlacks, before, after, hchildren, ?_⟩, he⟩
    intro other hother
    exact (map_bareCause?_eq_none hkeyword (hmem other hother)).mp (hbefore other hother)
  · rintro ⟨declarator, ⟨hlacks, before, after, hchildren, hbefore⟩, he⟩
    obtain ⟨keyword, hkeyword⟩ := hlacks.exists_declaredWith?
    refine Option.bind_eq_some_iff.mpr ⟨keyword, hkeyword, ?_⟩
    refine List.findSome?_eq_some_iff.mpr ⟨before, declarator, after, hchildren, ?_, ?_⟩
    · exact (map_bareCause?_eq_some hkeyword hlacks.child).mpr ⟨hlacks, he⟩
    · intro other hother
      have hchild : other ∈ node.children := by
        rw [hchildren]
        exact List.mem_append_left _ hother
      exact (map_bareCause?_eq_none hkeyword hchild).mpr (hbefore other hother)

theorem refusal?_eq_none_iff {source : String} {node : Cst} :
    refusal? source node = none ↔ ∀ declarator, ¬LacksValue node declarator := by
  constructor
  · intro h declarator hlacks
    have hoffset := refusal?_eq source node
    rw [h, Option.map_none, eq_comm, Option.map_eq_none_iff, List.head?_eq_none_iff] at hoffset
    have hmem := mem_bareDeclarators.mpr hlacks
    rw [hoffset] at hmem
    cases hmem
  · intro h
    apply refusal?_eq_none
    rw [List.eq_nil_iff_forall_not_mem]
    intro declarator hmem
    exact h declarator (mem_bareDeclarators.mp hmem)

/-! ## Failing conversions -/

/-- `FirstRefused tree passed node`: of the declarations that the conversion of a tree comes
    to, `node` is the first one in which a value is missing, and `passed` are the sites
    before it in the pre-order of the abstract tree. -/
structure FirstRefused (tree : Cst) (passed : List Site) (node : Cst) : Prop where
  site : ∃ path later, sites tree = passed ++ ⟨path, .construct node⟩ :: later
  complete : ∀ site ∈ passed, ∀ other, site.origin = .construct other →
    ∀ declarator, ¬LacksValue other declarator

theorem Origin.refusal?_eq_none_iff {source : String} {origin : Origin} :
    origin.refusal? source = none ↔
      ∀ other, origin = .construct other → ∀ declarator, ¬LacksValue other declarator := by
  cases origin with
  | construct tree =>
    rw [Origin.refusal?, Ast.refusal?_eq_none_iff]
    constructor
    · intro h other heq
      cases heq
      exact h
    · intro h
      exact h tree rfl
  | declaration => exact iff_of_true rfl (by intro other heq; cases heq)
  | declarator => exact iff_of_true rfl (by intro other heq; cases heq)
  | segment => exact iff_of_true rfl (by intro other heq; cases heq)

theorem conv_eq_error_iff {source : String} {tree : Cst} {e : SyntaxError} :
    conv source tree = .error e ↔
      (sites tree).findSome? (fun site => site.origin.refusal? source) = some e := by
  have hheads := headsOf_conv source tree
  rw [verdict, List.findSome?_map] at hheads
  have hcomp : Origin.refusal? source ∘ Site.origin = fun site => site.origin.refusal? source := rfl
  rw [hcomp] at hheads
  cases hfind : (sites tree).findSome? (fun site => site.origin.refusal? source) with
  | none =>
    rw [hfind] at hheads
    cases hconv : conv source tree with
    | ok nodes => simp
    | error e' =>
      rw [hconv] at hheads
      cases hheads
  | some e' =>
    rw [hfind] at hheads
    cases hconv : conv source tree with
    | ok nodes =>
      rw [hconv] at hheads
      cases hheads
    | error e'' =>
      rw [hconv] at hheads
      cases hheads
      simp

/-- A conversion fails with the error of the first declaration that is refused. -/
theorem conv_eq_error_iff_firstRefused {source : String} {tree : Cst} {e : SyntaxError} :
    conv source tree = .error e ↔
      ∃ passed node, FirstRefused tree passed node ∧ refusal? source node = some e := by
  rw [conv_eq_error_iff, List.findSome?_eq_some_iff]
  constructor
  · rintro ⟨passed, ⟨path, origin⟩, later, hsites, hrefusal, hpassed⟩
    cases origin with
    | construct node =>
      refine ⟨passed, node, ⟨⟨path, later, hsites⟩, ?_⟩, hrefusal⟩
      intro site hsite
      exact Origin.refusal?_eq_none_iff.mp (hpassed site hsite)
    | declaration => cases hrefusal
    | declarator => cases hrefusal
    | segment => cases hrefusal
  · rintro ⟨passed, node, ⟨⟨path, later, hsites⟩, hpassed⟩, hrefusal⟩
    refine ⟨passed, ⟨path, .construct node⟩, later, hsites, hrefusal, ?_⟩
    intro site hsite
    exact Origin.refusal?_eq_none_iff.mpr (hpassed site hsite)

theorem build_eq_error_iff {source : String} {tree : Cst} {failure : Failure} :
    build source tree = .error failure ↔
      ∃ e, conv source tree = .error e ∧ failure = .invalid e := by
  rw [build_eq, convert]
  cases conv source tree with
  | ok nodes =>
    constructor
    · intro h
      cases h
    · rintro ⟨e, h, -⟩
      cases h
  | error e =>
    constructor
    · intro h
      cases h
      exact ⟨e, rfl, rfl⟩
    · rintro ⟨e', h, rfl⟩
      cases h
      rfl

/-- The constructs that a conversion takes up end with the first declaration that is
    refused. -/
theorem FirstRefused.taken_eq {source : String} {tree node : Cst} {passed : List Site}
    {e : SyntaxError} (h : FirstRefused tree passed node) (hrefusal : refusal? source node = some e) :
    (Machine.start tree).taken (.ofSource source) = passed.filterMap Site.construct? ++ [node] := by
  obtain ⟨path, later, hsites⟩ := h.site
  have hnode : Site.construct? ⟨path, .construct node⟩ = some node := rfl
  have hconstructs : constructsIn tree =
      passed.filterMap Site.construct? ++ node :: later.filterMap Site.construct? := by
    rw [constructsIn, hsites, List.filterMap_append, List.filterMap_cons_some hnode]
  rw [Machine.taken_start, hconstructs]
  apply untilRefused_append
  · intro other hother
    obtain ⟨site, hsite, horigin⟩ := List.mem_filterMap.mp hother
    refine refusal?_eq_none_iff.mpr (h.complete site hsite other ?_)
    rw [Site.construct?] at horigin
    split at horigin
    · rename_i tree' heq
      rw [heq, Option.some.inj horigin]
    · cases horigin
  · rw [hrefusal]
    rfl

/-- A conversion fails at the first declarator without its value. -/
theorem build_eq_error_iff_firstRefused {source : String} {tree : Cst} {failure : Failure} :
    build source tree = .error failure ↔
      ∃ passed node declarator, FirstRefused tree passed node ∧ FirstLacking node declarator ∧
        failure = .invalid
          (.locate source (charOffset source declarator.startByte) (missingValueCause node)) := by
  simp only [build_eq_error_iff, conv_eq_error_iff_firstRefused, refusal?_eq_some_iff]
  constructor
  · rintro ⟨e, ⟨passed, node, hrefused, declarator, hfirst, rfl⟩, rfl⟩
    exact ⟨passed, node, declarator, hrefused, hfirst, rfl⟩
  · rintro ⟨passed, node, declarator, hrefused, hfirst, rfl⟩
    exact ⟨_, ⟨passed, node, hrefused, declarator, hfirst, rfl⟩, rfl⟩

/-- A conversion that comes to a declarator without its value fails. -/
theorem Converted.exists_build_eq_error {source : String} {tree node declarator : Cst}
    {path : List Nat} (h : Converted tree path node) (hlacks : LacksValue node declarator) :
    ∃ failure, build source tree = .error failure := by
  cases hfind : (sites tree).findSome? (fun site => site.origin.refusal? source) with
  | some e => exact ⟨_, build_eq_error_iff.mpr ⟨e, conv_eq_error_iff.mpr hfind, rfl⟩⟩
  | none =>
    -- The construct has a site, so it would have been refused.
    have hrefusal := List.findSome?_eq_none_iff.mp hfind _ h.mem_sites
    exact absurd hlacks (refusal?_eq_none_iff.mp hrefusal declarator)

theorem FirstRefused.converted {tree node : Cst} {passed : List Site}
    (h : FirstRefused tree passed node) : ∃ path, Converted tree path node := by
  obtain ⟨path, later, hsites⟩ := h.site
  have hmem : ⟨path, .construct node⟩ ∈ sites tree := by
    rw [hsites]
    exact List.mem_append_right _ List.mem_cons_self
  exact ⟨path, converted_of_mem_sites hmem rfl⟩

/-- A conversion fails exactly when, in a declaration that it comes to, the value of a
    declarator is missing.  It then fails at the first such declarator of the first such
    declaration, which is the last construct that it takes up, and never for want of a
    character offset.  The error says of a constant that its value is missing, and
    otherwise that the value of a pattern is. -/
theorem build_fails_iff_missing_value (source : String) (tree : Cst) :
    ((∃ failure, build source tree = .error failure) ↔
        ∃ path node declarator, Converted tree path node ∧ LacksValue node declarator) ∧
      ∀ failure, build source tree = .error failure ↔
        ∃ passed node declarator offset position, FirstRefused tree passed node ∧
          FirstLacking node declarator ∧
          (Machine.start tree).taken (.ofSource source) =
            passed.filterMap Site.construct? ++ [node] ∧
          (ByteMap.ofSource source).toChar declarator.startByte = .ok offset ∧
          position = Text.Position.ofOffset source offset ∧
          failure = .invalid ⟨missingValueCause node, offset, position⟩ ∧
          failure.message = s!"Syntax error at {position.line}:{position.column}: " ++
            if node.kind = "lexical_declaration" ∧ keywordOf node = "const" then
              "missing initializer in const declaration"
            else "missing initializer in destructuring declaration" := by
  refine ⟨⟨?_, ?_⟩, fun failure => ⟨?_, ?_⟩⟩
  · rintro ⟨failure, hfailure⟩
    obtain ⟨passed, node, declarator, hrefused, hfirst, -⟩ :=
      build_eq_error_iff_firstRefused.mp hfailure
    obtain ⟨path, hconverted⟩ := hrefused.converted
    exact ⟨path, node, declarator, hconverted, hfirst.lacks⟩
  · rintro ⟨path, node, declarator, hconverted, hlacks⟩
    exact hconverted.exists_build_eq_error hlacks
  · intro hfailure
    obtain ⟨passed, node, declarator, hrefused, hfirst, rfl⟩ :=
      build_eq_error_iff_firstRefused.mp hfailure
    have hrefusal : refusal? source node = some _ :=
      refusal?_eq_some_iff.mpr ⟨declarator, hfirst, rfl⟩
    refine ⟨passed, node, declarator, _, _, hrefused, hfirst, hrefused.taken_eq hrefusal,
      toChar_ofSource source (by omega), rfl, rfl, ?_⟩
    -- The wording follows the cause.
    show _ ++ (missingValueCause node).message = _
    rw [missingValueCause]
    split
    · rfl
    · rfl
  · rintro ⟨passed, node, declarator, offset, position, hrefused, hfirst, -, hoffset, rfl, rfl, -⟩
    rw [toChar_ofSource source (by omega), Except.ok.injEq] at hoffset
    subst hoffset
    exact build_eq_error_iff_firstRefused.mpr ⟨passed, node, declarator, hrefused, hfirst, rfl⟩

end EsFeatures.Ast
