/-
  EsFeatures.Proofs.Conversion

  The conversion of a concrete tree by recursion on the tree.  `conv` gives the nodes
  that a tree becomes: one for a construct, none for a token or a comment.  Below a
  construct stand, in order, the nodes of its children, with two exceptions:

  * in a loop over `in` or `of` with a keyword, a declaration around one declarator
    takes the place of the loop's variable, and what stands below the initial value
    moves into it;
  * in a template, pieces of text alternate with what stands below the substitutions.

  `expand_ofSource` and `conv_eq` say that one step of the conversion hands on exactly
  the work that this recursion descends into.
-/
import EsFeatures.Ast.Build

namespace EsFeatures.Ast

open Text (ByteMap)

/-! ## Character offsets -/

/-- The character offset of a byte offset of a source. -/
def charOffset (source : String) (offset : Int) : Int :=
  match (ByteMap.ofSource source).toChar offset with
  | .ok place => place
  | .error _ => 0

/-- Where each character takes one byte every offset stands for itself. -/
theorem charOffset_ofList {text : List Char} (h : (Text.Utf8.encode text).length = text.length)
    (offset : Int) : charOffset (String.ofList text) offset = offset := by
  simp only [charOffset, ByteMap.toChar, ByteMap.ofSource, String.toList_ofList, h, if_true]

theorem charTable_length_pos (text : List Char) : 0 < (Text.charTable text).length := by
  simp [Text.charTable]

/-- Every offset from the one before the first byte on has a character offset: the
    table is never empty, so the entry before its first one is its last. -/
theorem toChar_ofSource (source : String) {offset : Int} (h : -1 ≤ offset) :
    (ByteMap.ofSource source).toChar offset = .ok (charOffset source offset) := by
  suffices hplace : ∃ place, (ByteMap.ofSource source).toChar offset = .ok place by
    obtain ⟨place, hplace⟩ := hplace
    rw [charOffset, hplace]
  unfold ByteMap.toChar
  split
  · exact ⟨_, rfl⟩
  · rename_i table htable
    -- Only the offset before the first byte depends on the table's size.
    have hsize : 0 < table.size := by
      simp only [ByteMap.ofSource] at htable
      split at htable
      · cases htable
      · cases htable
        simpa using charTable_length_pos source.toList
    by_cases hoffset : 0 ≤ offset
    · rw [if_pos hoffset]
      split
      · exact ⟨_, rfl⟩
      · exact ⟨_, rfl⟩
    · obtain rfl : offset = -1 := by omega
      rw [if_neg hoffset, if_neg (by decide), if_neg (by omega)]
      split
      · exact ⟨_, rfl⟩
      · rename_i hnone
        rw [Array.getElem?_eq_none_iff] at hnone
        omega

/-! ## Heads -/

/-- The head of a node that spans the given bytes of a source. -/
def spanHead (source kind : String) (start stop : Int) (attrs : List (String × Scalar)) : Head :=
  { kind, start := some (charOffset source start), stop := some (charOffset source stop), attrs }

theorem context_toChar (source : String) {offset : Int} (h : -1 ≤ offset) :
    (Context.ofSource source).toChar offset = .ok (charOffset source offset) := by
  simp only [Context.toChar, Context.ofSource, toChar_ofSource source h]

theorem context_toChar_natCast (source : String) (offset : Nat) :
    (Context.ofSource source).toChar offset = .ok (charOffset source offset) :=
  context_toChar source (by omega)

theorem head_ofSource (source kind : String) {start stop : Int} (attrs : List (String × Scalar))
    (hstart : -1 ≤ start) (hstop : -1 ≤ stop) :
    (Context.ofSource source).head kind start stop attrs =
      .ok (spanHead source kind start stop attrs) := by
  rw [Context.head, context_toChar source hstart, context_toChar source hstop]
  rfl

/-- The kind and the attributes of the node that a construct becomes. -/
def shapeOf (tree : Cst) : String × List (String × Scalar) :=
  match tree.kind with
  | "lexical_declaration" => ("VariableDeclaration", [("kind", .text (keywordOf tree))])
  | "variable_declaration" => ("VariableDeclaration", [("kind", .text "var")])
  | "function_declaration" =>
    ("FunctionDeclaration", [("generator", .flag false), asyncAttr tree])
  | "generator_function_declaration" =>
    ("FunctionDeclaration", [("generator", .flag true), asyncAttr tree])
  | "arrow_function" => ("ArrowFunctionExpression", [asyncAttr tree, ("generator", .flag false)])
  | "function_expression" => ("FunctionExpression", [asyncAttr tree, ("generator", .flag false)])
  | "function" => ("FunctionExpression", [asyncAttr tree, ("generator", .flag false)])
  | "generator_function" => ("FunctionExpression", [asyncAttr tree, ("generator", .flag true)])
  | "method_definition" => ("MethodDefinition", [asyncAttr tree])
  | "yield_expression" => ("YieldExpression", [("delegate", .flag (tree.hasToken "*"))])
  | "for_in_statement" =>
    if isForOf tree then ("ForOfStatement", [("await", .flag (tree.hasToken "await"))])
    else ("ForInStatement", [])
  | "template_string" => ("TemplateLiteral", [])
  | kind => (kindName kind, [])

/-- The head of the node that a construct becomes. -/
def headOf (source : String) (tree : Cst) : Head :=
  spanHead source (shapeOf tree).1 tree.startByte tree.endByte (shapeOf tree).2

/-- The heads of the declaration and the declarator that stand for the variable of a
    loop with a keyword. -/
def loopHeads? (source : String) (tree : Cst) : Option (Head × Head) :=
  match tree.child? "kind", tree.child? "left" with
  | some keyword, some left =>
    let last := (tree.child? "value").getD left
    some (spanHead source "VariableDeclaration" keyword.startByte last.endByte
        [("kind", .text keyword.kind)],
      spanHead source "VariableDeclarator" left.startByte last.endByte [])
  | _, _ => none

/-- The head of the piece of text of a template between two byte offsets. -/
def segmentHead (source : String) (start stop : Int) : Head :=
  spanHead source "TemplateElement" start stop
    [("raw", .text ((ByteMap.ofSource source).text start stop))]

/-! ## Refused declarations -/

/-- The keyword of a construct that is a declaration. -/
def declaredWith? (tree : Cst) : Option String :=
  match tree.kind with
  | "lexical_declaration" => some (keywordOf tree)
  | "variable_declaration" => some "var"
  | _ => none

/-- What is wrong with the first of a list of declarators that lacks a value. -/
def bareError? (source keyword : String) (declarators : List Cst) : Option SyntaxError :=
  declarators.findSome? fun declarator =>
    (bareCause? keyword declarator).map fun cause =>
      .locate source (charOffset source declarator.startByte) cause

/-- The error with which a construct is refused. -/
def refusal? (source : String) (tree : Cst) : Option SyntaxError :=
  (declaredWith? tree).bind fun keyword => bareError? source keyword tree.children

/-- The declarators of a declaration that lack a value they need. -/
def bareDeclarators (tree : Cst) : List Cst :=
  match declaredWith? tree with
  | some keyword => tree.children.filter fun child => (bareCause? keyword child).isSome
  | none => []

/-- `LacksValue tree declarator`: in the declaration `tree` the value of `declarator` is
    missing.  Constants need one, and so does what takes a value apart. -/
structure LacksValue (tree declarator : Cst) : Prop where
  child : declarator ∈ tree.children
  named : declarator.label.named = true
  kind : declarator.kind = "variable_declarator"
  bare : declarator.child? "value" = none
  needed : tree.kind = "lexical_declaration" ∧ keywordOf tree = "const" ∨
    (tree.kind = "lexical_declaration" ∨ tree.kind = "variable_declaration") ∧
      ∃ name, declarator.child? "name" = some name ∧ isPattern name = true

theorem isSome_bareCause? {keyword : String} {declarator : Cst} :
    (bareCause? keyword declarator).isSome = true ↔
      declarator.label.named = true ∧ declarator.kind = "variable_declarator" ∧
        declarator.child? "value" = none ∧
        (keyword = "const" ∨ ∃ name, declarator.child? "name" = some name ∧ isPattern name = true) := by
  have hpattern : (declarator.child? "name").any isPattern = true ↔
      ∃ name, declarator.child? "name" = some name ∧ isPattern name = true := by
    cases declarator.child? "name" with
    | none => simp
    | some name => simp
  have hbare : (declarator.label.named && declarator.kind == "variable_declarator"
      && (declarator.child? "value").isNone) = true ↔
      declarator.label.named = true ∧ declarator.kind = "variable_declarator" ∧
        declarator.child? "value" = none := by
    rw [Bool.and_eq_true, Bool.and_eq_true, beq_iff_eq, Option.isNone_iff_eq_none, and_assoc]
  rw [← hpattern, bareCause?]
  split
  · rename_i h
    obtain ⟨hnamed, hkind, hvalue⟩ := hbare.mp h
    simp only [hnamed, hkind, hvalue, true_and, beq_iff_eq]
    split
    · simp [*]
    · split
      · simp [*]
      · simp [*]
  · rename_i h
    constructor
    · intro hsome
      cases hsome
    · rintro ⟨hnamed, hkind, hvalue, -⟩
      exact absurd (hbare.mpr ⟨hnamed, hkind, hvalue⟩) h

theorem declaredWith?_eq_some {tree : Cst} {keyword : String} :
    declaredWith? tree = some keyword ↔
      tree.kind = "lexical_declaration" ∧ keyword = keywordOf tree ∨
        tree.kind = "variable_declaration" ∧ keyword = "var" := by
  rw [declaredWith?]
  split
  · rename_i hlexical
    simp [hlexical, eq_comm]
  · rename_i hvariable
    simp [hvariable, eq_comm]
  · rename_i hlexical hvariable
    constructor
    · intro hsome
      cases hsome
    · rintro (⟨h, -⟩ | ⟨h, -⟩)
      · exact absurd h hlexical
      · exact absurd h hvariable

theorem mem_bareDeclarators {tree declarator : Cst} :
    declarator ∈ bareDeclarators tree ↔ LacksValue tree declarator := by
  have hmem : declarator ∈ bareDeclarators tree ↔ ∃ keyword, declaredWith? tree = some keyword ∧
      declarator ∈ tree.children ∧ (bareCause? keyword declarator).isSome = true := by
    rw [bareDeclarators]
    cases declaredWith? tree with
    | none => simp
    | some keyword => simp
  -- The keyword `var` of a declaration is not `const`, so only patterns need a value there.
  simp only [hmem, declaredWith?_eq_some, isSome_bareCause?]
  constructor
  · rintro ⟨keyword, ⟨hlexical, rfl⟩ | ⟨hvariable, rfl⟩, hchild, hnamed, hkind, hbare, hneeded⟩
    · refine ⟨hchild, hnamed, hkind, hbare, ?_⟩
      exact hneeded.imp (fun hconst => ⟨hlexical, hconst⟩) fun hname => ⟨Or.inl hlexical, hname⟩
    · exact ⟨hchild, hnamed, hkind, hbare,
        Or.inr ⟨Or.inr hvariable, hneeded.resolve_left (by decide)⟩⟩
  · rintro ⟨hchild, hnamed, hkind, hbare, ⟨hlexical, hconst⟩ | ⟨hlexical | hvariable, hname⟩⟩
    · exact ⟨_, Or.inl ⟨hlexical, rfl⟩, hchild, hnamed, hkind, hbare, Or.inl hconst⟩
    · exact ⟨_, Or.inl ⟨hlexical, rfl⟩, hchild, hnamed, hkind, hbare, Or.inr hname⟩
    · exact ⟨_, Or.inr ⟨hvariable, rfl⟩, hchild, hnamed, hkind, hbare, Or.inr hname⟩

/-- A construct is refused at the first of its declarators that lacks a value. -/
theorem refusal?_eq (source : String) (tree : Cst) :
    (refusal? source tree).map SyntaxError.offset =
      (bareDeclarators tree).head?.map fun declarator => charOffset source declarator.startByte := by
  rw [refusal?, bareDeclarators]
  cases declaredWith? tree with
  | none => rfl
  | some keyword =>
    simp only [Option.bind_some, bareError?]
    induction tree.children with
    | nil => rfl
    | cons child rest ih =>
      rw [List.findSome?_cons, List.filter_cons]
      cases bareCause? keyword child with
      | none => exact ih
      | some cause => rfl

theorem refusal?_eq_none {source : String} {tree : Cst} (h : bareDeclarators tree = []) :
    refusal? source tree = none := by
  have heq := refusal?_eq source tree
  rw [h] at heq
  exact Option.map_eq_none_iff.mp heq

/-! ## Recursion on the tree -/

/-- Two lists, one behind the other.  The first error wins. -/
def followedBy {α : Type} (first later : Except SyntaxError (List α)) :
    Except SyntaxError (List α) := do
  let nodes ← first
  let rest ← later
  return nodes ++ rest

/-- What stands in the place of a loop's variable: with a keyword, a declaration of the
    given heads around the nodes of the variable and those of the initial value. -/
def declared (heads : Option (Head × Head)) (named : Bool)
    (variable_ value : Except SyntaxError (List Ast)) : Except SyntaxError (List Ast) :=
  match heads, named with
  | some (declaration, declarator), true =>
    (followedBy variable_ value).map fun nodes => [.node declaration [.node declarator nodes]]
  | _, _ => variable_

mutual

/-- The nodes that a concrete tree becomes, or the first error among its declarations. -/
def conv (source : String) : Cst → Except SyntaxError (List Ast)
  | .node label children =>
    let tree := Cst.node label children
    if isKept tree then
      match refusal? source tree with
      | some e => .error e
      | none =>
        let below :=
          if label.kind = "for_in_statement" then
            convLoop source (loopHeads? source tree) (convValue source children) true true children
          else if label.kind = "template_string" then
            convTemplate source (label.endByte - 1) (label.startByte + 1) children
          else convAll source children
        below.map fun nodes => [.node (headOf source tree) nodes]
    else .ok []

/-- The nodes of a list of trees, in order. -/
def convAll (source : String) : List Cst → Except SyntaxError (List Ast)
  | [] => .ok []
  | tree :: rest => followedBy (conv source tree) (convAll source rest)

/-- The nodes below the initial value of a loop. -/
def convValue (source : String) : List Cst → Except SyntaxError (List Ast)
  | [] => .ok []
  | .node label children :: rest =>
    if Cst.hasField "value" (.node label children) then convAll source children
    else convValue source rest

/-- The nodes below a loop.  The loop's variable is the first child under `left`, its
    initial value the first one under `value`; the initial value itself is left out. -/
def convLoop (source : String) (heads : Option (Head × Head))
    (value : Except SyntaxError (List Ast)) (leftOpen valueOpen : Bool) :
    List Cst → Except SyntaxError (List Ast)
  | [] => .ok []
  | tree :: rest =>
    if leftOpen && tree.hasField "left" then
      followedBy (declared heads tree.label.named (conv source tree) value)
        (convLoop source heads value false valueOpen rest)
    else if valueOpen && tree.hasField "value" then
      convLoop source heads value leftOpen false rest
    else followedBy (conv source tree) (convLoop source heads value leftOpen valueOpen rest)

/-- The nodes below a template whose next piece of text begins at byte `start`, and
    whose last one ends at byte `stop`. -/
def convTemplate (source : String) (stop start : Int) :
    List Cst → Except SyntaxError (List Ast)
  | [] => .ok [.node (segmentHead source start stop) []]
  | .node label children :: rest =>
    if isSubstitution (.node label children) then
      followedBy (.ok [.node (segmentHead source start label.startByte) []])
        (followedBy (convAll source children) (convTemplate source stop label.endByte rest))
    else convTemplate source stop start rest

end

/-- The abstract tree of a concrete one, by recursion on the tree. -/
def convert (source : String) (tree : Cst) : Except SyntaxError Ast :=
  (conv source tree).map fun nodes => nodes.headD (emptyProgram source)

section FollowedBy

variable {α : Type}

@[simp] theorem ok_nil_followedBy (later : Except SyntaxError (List α)) :
    followedBy (.ok []) later = later := by
  cases later <;> rfl

theorem followedBy_assoc (x y z : Except SyntaxError (List α)) :
    followedBy (followedBy x y) z = followedBy x (followedBy y z) := by
  cases x with
  | error e => rfl
  | ok xs =>
    cases y with
    | error e => rfl
    | ok ys =>
      cases z with
      | error e => rfl
      | ok zs =>
        show Except.ok (xs ++ ys ++ zs) = Except.ok (xs ++ (ys ++ zs))
        rw [List.append_assoc]

theorem followedBy_eq_ok {first later : Except SyntaxError (List α)} {whole : List α} :
    followedBy first later = .ok whole ↔
      ∃ xs ys, first = .ok xs ∧ later = .ok ys ∧ whole = xs ++ ys := by
  cases first with
  | error e =>
    constructor
    · intro h
      cases h
    · rintro ⟨xs, ys, hx, -, -⟩
      cases hx
  | ok xs =>
    cases later with
    | error e =>
      constructor
      · intro h
        cases h
      · rintro ⟨_, ys, -, hy, -⟩
        cases hy
    | ok ys =>
      constructor
      · intro h
        cases h
        exact ⟨xs, ys, rfl, rfl, rfl⟩
      · rintro ⟨_, _, hx, hy, rfl⟩
        cases hx
        cases hy
        rfl

end FollowedBy

theorem conv_of_not_isKept {source : String} {tree : Cst} (h : isKept tree = false) :
    conv source tree = .ok [] := by
  cases tree with
  | node label children =>
    rw [conv]
    simp [h]

theorem conv_of_not_named {source : String} {tree : Cst} (h : tree.label.named = false) :
    conv source tree = .ok [] :=
  conv_of_not_isKept (by simp [isKept, h])

/-- Tokens leave no trace among the nodes of a list of trees. -/
theorem convAll_filter_named (source : String) (trees : List Cst) :
    convAll source (trees.filter fun tree => tree.label.named) = convAll source trees := by
  induction trees with
  | nil => rfl
  | cons t ts ih =>
    rw [List.filter_cons]
    split
    · rw [convAll, convAll, ih]
    · rename_i h
      rw [ih, convAll, conv_of_not_named (by simpa using h), ok_nil_followedBy]

/-- The nodes below a loop's initial value are those of its constructs. -/
theorem convValue_eq (source : String) (trees : List Cst) :
    convValue source trees =
      convAll source (((trees.find? (Cst.hasField "value")).map Cst.namedChildren).getD []) := by
  induction trees with
  | nil => rfl
  | cons t ts ih =>
    cases t with
    | node label children =>
      rw [convValue]
      split
      · rename_i h
        rw [List.find?_cons_of_pos h]
        exact (convAll_filter_named source children).symm
      · rename_i h
        rw [List.find?_cons_of_neg h, ih]

/-! ## Pieces of work -/

/-- The nodes that a piece of work becomes. -/
def convItem (source : String) : Pending → Except SyntaxError (List Ast)
  | .convert tree => conv source tree
  | .element head => .ok [.node head []]
  | .declaration head declarator inside =>
    (convAll source inside).map fun nodes => [.node head [.node declarator nodes]]

/-- The nodes that a list of work becomes, in order. -/
def convItems (source : String) : List Pending → Except SyntaxError (List Ast)
  | [] => .ok []
  | item :: rest => followedBy (convItem source item) (convItems source rest)

/-- The work below a template. -/
def templateItemsOf (source : String) (stop start : Int) : List Cst → List Pending
  | [] => [.element (segmentHead source start stop)]
  | child :: rest =>
    if isSubstitution child then
      .element (segmentHead source start child.startByte) ::
        (constructsOf child ++ templateItemsOf source stop child.endByte rest)
    else templateItemsOf source stop start rest

/-- The declaration that takes the place of a loop's variable. -/
def loopDeclaration? (source : String) (tree : Cst) : Option Pending :=
  match loopHeads? source tree, tree.child? "left" with
  | some (declaration, declarator), some left =>
    some (.declaration declaration declarator
      (left :: ((tree.child? "value").map Cst.namedChildren).getD []))
  | _, _ => none

/-- The work below a construct. -/
def itemsOf (source : String) (tree : Cst) : List Pending :=
  if tree.kind = "for_in_statement" then
    loopItems (loopDeclaration? source tree) true true tree.children
  else if tree.kind = "template_string" then
    templateItemsOf source (tree.endByte - 1) (tree.startByte + 1) tree.children
  else constructsOf tree

theorem convItems_append (source : String) (xs ys : List Pending) :
    convItems source (xs ++ ys) = followedBy (convItems source xs) (convItems source ys) := by
  induction xs with
  | nil => rw [List.nil_append, convItems, ok_nil_followedBy]
  | cons x xs ih => rw [List.cons_append, convItems, convItems, ih, followedBy_assoc]

theorem convItems_map_convert (source : String) (trees : List Cst) :
    convItems source (trees.map .convert) = convAll source trees := by
  induction trees with
  | nil => rfl
  | cons t ts ih => rw [List.map_cons, convItems, convItem, convAll, ih]

theorem convItems_constructsOf (source : String) (tree : Cst) :
    convItems source (constructsOf tree) = convAll source tree.children := by
  rw [constructsOf, convItems_map_convert]
  exact convAll_filter_named source tree.children

/-- The recursion below a template follows its work. -/
theorem convTemplate_eq (source : String) (stop start : Int) (trees : List Cst) :
    convTemplate source stop start trees =
      convItems source (templateItemsOf source stop start trees) := by
  induction trees generalizing start with
  | nil => rfl
  | cons t ts ih =>
    cases t with
    | node label children =>
      have hchildren := convItems_constructsOf source (.node label children)
      rw [Cst.children_node] at hchildren
      rw [convTemplate, templateItemsOf]
      split
      · rw [convItems, convItem, convItems_append, hchildren, ih]
        rfl
      · exact ih start

/-- Without a declaration the recursion below a loop follows its work. -/
theorem convLoop_none_eq (source : String) (value : Except SyntaxError (List Ast))
    (leftOpen valueOpen : Bool) (trees : List Cst) :
    convLoop source none value leftOpen valueOpen trees =
      convItems source (loopItems none leftOpen valueOpen trees) := by
  fun_induction loopItems none leftOpen valueOpen trees with
  | case1 => rfl
  | case2 leftOpen valueOpen t ts h _ ih =>
    rw [convLoop, if_pos h, ih, Option.getD_none, convItems, convItem]
    rfl
  | case3 leftOpen valueOpen t ts h hnamed ih =>
    rw [convLoop, if_pos h, ih]
    show followedBy (conv source t) _ = _
    rw [conv_of_not_named (by simpa using hnamed), ok_nil_followedBy]
  | case4 leftOpen valueOpen t ts hleft hvalue ih => rw [convLoop, if_neg hleft, if_pos hvalue, ih]
  | case5 leftOpen valueOpen t ts hleft hvalue _ ih =>
    rw [convLoop, if_neg hleft, if_neg hvalue, ih, convItems, convItem]
  | case6 leftOpen valueOpen t ts hleft hvalue hnamed ih =>
    rw [convLoop, if_neg hleft, if_neg hvalue, ih, conv_of_not_named (by simpa using hnamed),
      ok_nil_followedBy]

/-- The first tree under a field is found behind a tree that does not count. -/
theorem find?_hasField_of_cons {name : String} {t left : Cst} {ts : List Cst} {open_ : Bool}
    (h : ¬(open_ && t.hasField name) = true)
    (hfind : open_ = true → (t :: ts).find? (Cst.hasField name) = some left) :
    open_ = true → ts.find? (Cst.hasField name) = some left := by
  intro ho
  have hcons := hfind ho
  rwa [List.find?_cons_of_neg (by simpa [ho] using h)] at hcons

/-- With a declaration the recursion below a loop follows its work, as long as the
    declaration holds the loop's variable and what stands below the initial value. -/
theorem convLoop_some_eq (source : String) (declaration declarator : Head) (left : Cst)
    (inside : List Cst) (leftOpen valueOpen : Bool) (trees : List Cst)
    (hfind : leftOpen = true → trees.find? (Cst.hasField "left") = some left) :
    convLoop source (some (declaration, declarator)) (convAll source inside) leftOpen valueOpen
        trees =
      convItems source (loopItems (some (.declaration declaration declarator (left :: inside)))
        leftOpen valueOpen trees) := by
  -- The search for the variable is open until it is found; then it is `left`.
  generalize hitem : some (Pending.declaration declaration declarator (left :: inside)) = item
  fun_induction loopItems item leftOpen valueOpen trees with
  | case1 => rfl
  | case2 leftOpen valueOpen t ts h hnamed ih =>
    obtain ⟨rfl, ht⟩ := Bool.and_eq_true_iff.mp h
    have heq := hfind rfl
    rw [List.find?_cons_of_pos ht, Option.some.injEq] at heq
    rw [convLoop, if_pos h, ih (by simp), ← hitem, hnamed, Option.getD_some, convItems, convItem,
      convAll, heq]
    rfl
  | case3 leftOpen valueOpen t ts h hnamed ih =>
    have hfalse : t.label.named = false := by simpa using hnamed
    rw [convLoop, if_pos h, ih (by simp), hfalse]
    show followedBy (conv source t) _ = _
    rw [conv_of_not_named hfalse, ok_nil_followedBy]
  | case4 leftOpen valueOpen t ts hleft hvalue ih =>
    rw [convLoop, if_neg hleft, if_pos hvalue, ih (find?_hasField_of_cons hleft hfind)]
  | case5 leftOpen valueOpen t ts hleft hvalue _ ih =>
    rw [convLoop, if_neg hleft, if_neg hvalue, ih (find?_hasField_of_cons hleft hfind), convItems,
      convItem]
  | case6 leftOpen valueOpen t ts hleft hvalue hnamed ih =>
    rw [convLoop, if_neg hleft, if_neg hvalue, ih (find?_hasField_of_cons hleft hfind),
      conv_of_not_named (by simpa using hnamed), ok_nil_followedBy]

/-- The recursion below a loop follows its work. -/
theorem convLoop_eq (source : String) (tree : Cst) :
    convLoop source (loopHeads? source tree) (convValue source tree.children) true true
        tree.children =
      convItems source (loopItems (loopDeclaration? source tree) true true tree.children) := by
  rw [convValue_eq]
  cases hheads : loopHeads? source tree with
  | none =>
    rw [loopDeclaration?, hheads]
    exact convLoop_none_eq source _ true true tree.children
  | some heads =>
    cases hleft : tree.child? "left" with
    | none => simp [loopHeads?, hleft] at hheads
    | some left =>
      rw [loopDeclaration?, hheads, hleft]
      exact convLoop_some_eq source heads.1 heads.2 left _ true true tree.children
        fun _ => hleft

/-- The recursion below a construct follows its work. -/
theorem convItems_itemsOf (source : String) (label : Cst.Label) (children : List Cst) :
    convItems source (itemsOf source (.node label children)) =
      if label.kind = "for_in_statement" then
        convLoop source (loopHeads? source (.node label children)) (convValue source children)
          true true children
      else if label.kind = "template_string" then
        convTemplate source (label.endByte - 1) (label.startByte + 1) children
      else convAll source children := by
  have hkind : (Cst.node label children).kind = label.kind := rfl
  rw [itemsOf, hkind]
  split
  · exact (convLoop_eq source (.node label children)).symm
  · split
    · exact (convTemplate_eq source _ _ children).symm
    · exact convItems_constructsOf source (.node label children)

/-- The conversion of a tree is its head over the conversion of the work below it. -/
theorem conv_eq (source : String) (tree : Cst) :
    conv source tree =
      if isKept tree then
        match refusal? source tree with
        | some e => .error e
        | none =>
          (convItems source (itemsOf source tree)).map fun nodes => [.node (headOf source tree) nodes]
      else .ok [] := by
  cases tree with
  | node label children => rw [conv, convItems_itemsOf]

/-- A construct becomes its head over what the work below it becomes. -/
theorem conv_eq_ok_iff {source : String} {tree : Cst} {nodes : List Ast} (h : isKept tree = true) :
    conv source tree = .ok nodes ↔
      refusal? source tree = none ∧ ∃ below, convItems source (itemsOf source tree) = .ok below ∧
        nodes = [.node (headOf source tree) below] := by
  rw [conv_eq, if_pos h]
  constructor
  · intro hconv
    cases hrefusal : refusal? source tree with
    | some e =>
      rw [hrefusal] at hconv
      cases hconv
    | none =>
      rw [hrefusal] at hconv
      cases hitems : convItems source (itemsOf source tree) with
      | error e =>
        rw [hitems] at hconv
        cases hconv
      | ok below =>
        rw [hitems] at hconv
        cases hconv
        exact ⟨rfl, below, rfl, rfl⟩
  · rintro ⟨hrefusal, below, hitems, rfl⟩
    rw [hrefusal, hitems]
    rfl

/-! ## One step of the conversion -/

theorem headOf_ofSource (source : String) (tree : Cst) (kind : String)
    (attrs : List (String × Scalar)) :
    (Context.ofSource source).headOf tree kind attrs =
      .ok (spanHead source kind tree.startByte tree.endByte attrs) :=
  head_ofSource source kind attrs (by omega) (by omega)

theorem checkValues_ofSource (source keyword : String) (declarators : List Cst) :
    checkValues (.ofSource source) keyword declarators =
      match bareError? source keyword declarators with
      | some e => .error (.invalid e)
      | none => .ok () := by
  induction declarators with
  | nil => rfl
  | cons d ds ih =>
    rw [checkValues, bareError?, List.findSome?_cons]
    cases h : bareCause? keyword d with
    | none =>
      simp only [Option.map_none]
      exact ih
    | some cause =>
      -- A byte offset of a tree is never negative, so it has a character offset.
      have hchar := toChar_ofSource source (by omega : -1 ≤ (d.startByte : Int))
      simp only [Option.map_some, Context.toChar, Context.ofSource, hchar]

theorem expandDeclaration_ofSource (source : String) (tree : Cst) (keyword : String) :
    expandDeclaration (.ofSource source) tree keyword =
      match bareError? source keyword tree.children with
      | some e => .error (.invalid e)
      | none =>
        .ok (spanHead source "VariableDeclaration" tree.startByte tree.endByte
          [("kind", .text keyword)], constructsOf tree) := by
  rw [expandDeclaration, checkValues_ofSource, headOf_ofSource]
  cases bareError? source keyword tree.children with
  | none => rfl
  | some e => rfl

theorem expandPlain_ofSource (source : String) (tree : Cst) (kind : String)
    (attrs : List (String × Scalar)) :
    expandPlain (.ofSource source) tree kind attrs =
      .ok (spanHead source kind tree.startByte tree.endByte attrs, constructsOf tree) := by
  rw [expandPlain, headOf_ofSource]
  rfl

theorem templateItems_ofSource (source : String) {stop start : Int} (trees : List Cst)
    (hstop : -1 ≤ stop) (hstart : -1 ≤ start) :
    templateItems (.ofSource source) stop start trees =
      .ok (templateItemsOf source stop start trees) := by
  have helement : ∀ a b : Int, -1 ≤ a → -1 ≤ b →
      templateElement (.ofSource source) a b = .ok (.element (segmentHead source a b)) := by
    intro a b ha hb
    rw [templateElement, head_ofSource source _ _ ha hb]
    rfl
  induction trees generalizing start with
  | nil =>
    rw [templateItems, helement start stop hstart hstop]
    rfl
  | cons t ts ih =>
    rw [templateItems, templateItemsOf]
    split
    · rw [helement start t.startByte hstart (by omega), ih (by omega)]
      rfl
    · exact ih hstart

theorem expandTemplate_ofSource (source : String) (tree : Cst) :
    expandTemplate (.ofSource source) tree =
      .ok (spanHead source "TemplateLiteral" tree.startByte tree.endByte [],
        templateItemsOf source (tree.endByte - 1) (tree.startByte + 1) tree.children) := by
  rw [expandTemplate, headOf_ofSource,
    templateItems_ofSource source tree.children (by omega) (by omega)]
  rfl

theorem headDeclaration?_ofSource (source : String) (tree : Cst) :
    headDeclaration? (.ofSource source) tree = .ok (loopDeclaration? source tree) := by
  unfold headDeclaration? loopDeclaration? loopHeads?
  cases tree.child? "kind" with
  | none => rfl
  | some keyword =>
    cases tree.child? "left" with
    | none => rfl
    | some left =>
      simp only [headDeclaration]
      rw [head_ofSource source _ _ (by omega) (by omega),
        head_ofSource source _ _ (by omega) (by omega)]
      cases tree.child? "value" with
      | none => rfl
      | some value => rfl

theorem loopHead_ofSource (source : String) (tree : Cst) :
    loopHead (.ofSource source) tree =
      .ok (if isForOf tree then
        spanHead source "ForOfStatement" tree.startByte tree.endByte
          [("await", .flag (tree.hasToken "await"))]
        else spanHead source "ForInStatement" tree.startByte tree.endByte []) := by
  rw [loopHead, headOf_ofSource, headOf_ofSource]
  split
  · rfl
  · rfl

theorem expandLoop_ofSource (source : String) (tree : Cst) :
    expandLoop (.ofSource source) tree =
      .ok (if isForOf tree then
        spanHead source "ForOfStatement" tree.startByte tree.endByte
          [("await", .flag (tree.hasToken "await"))]
        else spanHead source "ForInStatement" tree.startByte tree.endByte [],
        loopItems (loopDeclaration? source tree) true true tree.children) := by
  rw [expandLoop, loopHead_ofSource, headDeclaration?_ofSource]
  rfl

/-- One step refuses a construct, or makes its head and hands on the work below it. -/
theorem expandKept_ofSource (source : String) (tree : Cst) :
    expandKept (.ofSource source) tree =
      match refusal? source tree with
      | some e => .error (.invalid e)
      | none => .ok (headOf source tree, itemsOf source tree) := by
  -- All kinds but loops, templates and declarations differ in their shape alone.
  have hplain : ∀ kind attrs, tree.kind ≠ "for_in_statement" → tree.kind ≠ "template_string" →
      declaredWith? tree = none → shapeOf tree = (kind, attrs) →
      expandPlain (.ofSource source) tree kind attrs =
        match refusal? source tree with
        | some e => .error (.invalid e)
        | none => .ok (headOf source tree, itemsOf source tree) := by
    intro kind attrs hfor htemplate hdeclared hshape
    rw [expandPlain_ofSource, refusal?, hdeclared, headOf, hshape, itemsOf, if_neg hfor,
      if_neg htemplate]
    rfl
  unfold expandKept
  split
  · rename_i h
    simp only [expandDeclaration_ofSource, refusal?, declaredWith?, headOf, shapeOf, itemsOf, h]
    rfl
  · rename_i h
    simp only [expandDeclaration_ofSource, refusal?, declaredWith?, headOf, shapeOf, itemsOf, h]
    rfl
  iterate 8
    · rename_i h
      exact hplain _ _ (by simp [h]) (by simp [h]) (by simp [declaredWith?, h]) (by simp [shapeOf, h])
  · rename_i h
    simp only [expandLoop_ofSource, refusal?, declaredWith?, headOf, shapeOf, itemsOf, h]
    split
    · rfl
    · rfl
  · rename_i h
    simp only [expandTemplate_ofSource, refusal?, declaredWith?, headOf, shapeOf, itemsOf, h]
    rfl
  · rename_i hlexical hvariable _ _ _ _ _ _ _ _ hfor htemplate
    refine hplain _ _ hfor htemplate ?_ ?_
    · unfold declaredWith?
      split
      · exact absurd ‹_› hlexical
      · exact absurd ‹_› hvariable
      · rfl
    · unfold shapeOf
      split
      all_goals first | rfl | contradiction

/-- One step drops a token or a comment, refuses a construct, or makes its head and
    hands on the work below it. -/
theorem expand_ofSource (source : String) (tree : Cst) :
    expand (.ofSource source) tree =
      if isKept tree then
        match refusal? source tree with
        | some e => .error (.invalid e)
        | none => .ok (some (headOf source tree, itemsOf source tree))
      else .ok none := by
  rw [expand, expandKept_ofSource]
  split
  · cases refusal? source tree with
    | none => rfl
    | some e => rfl
  · rfl

end EsFeatures.Ast
