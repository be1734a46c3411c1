/-
  EsFeatures.Script.Module

  What a module takes from others and gives to them.
-/
import EsFeatures.Script.Statement

namespace EsFeatures.Script

/-- The text that names a module. -/
def moduleSource : Reader Cst := do
  if (← current).sort = .text then takeAs "string" else giveUp

/-- The word `from` and the text that names a module. -/
def fromClause : Reader (List Cst) := do
  let word ← expectWord "from"
  return [word, ← moduleSource]

/-- Attributes of what is taken from a module, if there are some on the same line. -/
def moduleAttributes (parts : Parts) : Reader (List Cst) := do
  if (← atWord "with") && !(← current).newline && (← peek).isMark "\x7b" then
    let word ← take
    return [branch "import_attribute" [word, ← object parts]]
  else return []

/-- A name that a module gives something: the name of a variable, `default` or a
    text. -/
def moduleName : Reader Cst := do
  let t ← current
  if t.sort = .text then takeLastAs "string"
  else if t.isVariable || t.isWord "default" then takeLastAs "identifier"
  else giveUp

/-- A name that is given away, with another name for it, if it is given one. -/
def exportSpecifier : Reader Cst := do
  let name ← moduleName
  if ← atWord "as" then
    let word ← takeLast
    return branch "export_specifier" [name, word, ← moduleName]
  else return branch "export_specifier" [name]

/-- A name that is taken, with the variable for it, unless it names the variable
    itself. -/
def importSpecifier : Reader Cst := do
  let first ← current
  let name ← moduleName
  if ← atWord "as" then
    let word ← takeLast
    return branch "import_specifier" [name, word, ← expectLastVariable "identifier"]
  else if first.isVariable then return branch "import_specifier" [name]
  else giveUp

/-- Names in braces, given how the closing brace is taken. -/
def specifiers (kind : String) (item : Reader Cst) (close : Reader Cst) : Reader Cst := do
  let opening ← expectMark "\x7b"
  let items ← commaList "\x7d" item
  return branch kind (opening :: items ++ [← close])

/-- A star and the name that everything is given. -/
def namespaceImport : Reader Cst := do
  let star ← take
  let word ← expectWord "as"
  return branch "namespace_import" [star, word, ← expectLastVariable "identifier"]

/-- What is taken from a module besides its default. -/
def importedNames : Reader Cst := do
  if ← atMark "*" then namespaceImport else specifiers "named_imports" importSpecifier takeLast

/-- What is taken from a module. -/
def importClause : Reader Cst := do
  if (← current).isVariable then
    let name ← takeLastAs "identifier"
    if ← atMark "," then
      let comma ← take
      return branch "import_clause" [name, comma, ← importedNames]
    else return branch "import_clause" [name]
  else return branch "import_clause" [← importedNames]

/-- A statement that takes something from a module. -/
def importStatement (parts : Parts) : Reader Cst := do
  let word ← take
  let what ← do
    if (← current).sort = .text then pure [← moduleSource]
    else
      let clause ← importClause
      pure (clause :: (← fromClause))
  let attributes ← moduleAttributes parts
  return branch "import_statement" (word :: what ++ attributes ++ (← statementEnd))

/-- What is given under the name of the default: a declaration, or a value, such as
    a function or class without a name. -/
def defaultExport (parts : Parts) : Reader (List Cst) := do
  let word ← take
  if ← atNamedFunction then return [word, ← function parts true]
  let marks ← decorators parts
  if (← atWord "class") && (← peek).isVariable then
    return [word, ← classFrom parts true marks]
  let value ← do
    if marks.isEmpty then parts (.assignment true) else classFrom parts false marks
  return [word, value] ++ (← statementEnd)

/-- What is given from another module, or under names in braces. -/
def namedExport (parts : Parts) : Reader (List Cst) := do
  let names ← do
    if ← atMark "*" then
      let star ← take
      if ← atWord "as" then
        let word ← takeLast
        pure (branch "namespace_export" [star, word, ← moduleName] :: (← fromClause))
      else pure (star :: (← fromClause))
    else
      let clause ← specifiers "export_clause" exportSpecifier takeEnding
      if ← atWord "from" then pure (clause :: (← fromClause)) else pure [clause]
  let attributes ← moduleAttributes parts
  return names ++ attributes ++ (← statementEnd)

/-- A statement that gives something to other modules, behind its decorators. -/
def exportFrom (parts : Parts) (marks : List Cst) : Reader Cst := do
  let word ← take
  let what ← do
    if ← atWord "default" then defaultExport parts
    else if marks.isEmpty && ((← atMark "*") || (← atMark "\x7b")) then namedExport parts
    else if ← atNamedFunction then pure [← function parts true]
    else if (← atWord "class") || (← atMark "@") then
      pure [← namedClassFrom parts (← decorators parts)]
    else
      match ← declarationWords with
      | some words => pure [← declaration parts words]
      | none => giveUp
  return branch "export_statement" (marks ++ [word] ++ what)

end EsFeatures.Script
