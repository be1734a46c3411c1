/-
  EsFeatures.Script.Binding

  Names of properties, and the patterns that bind variables.
-/
import EsFeatures.Script.Reader

namespace EsFeatures.Script

/-- The name of a property: a word, a text, a number, a private name or an
    expression in brackets. -/
def propertyName (parts : Parts) : Reader Cst := do
  let t ← current
  match t.sort with
  | .name => takeLastAs "property_identifier"
  | .text => takeLastAs "string"
  | .number => takeLastAs "number"
  | .privateName => takeLastAs "private_property_identifier"
  | _ =>
    let opening ← expectMark "["
    let key ← parts (.assignment true)
    let closing ← expectLastMark "]"
    return branch "computed_property_name" [opening, key, closing]

/-- Three dots and what takes the rest. -/
def restBinding (parts : Parts) : Reader Cst := do
  let dots ← take
  let target ← parts .binding
  return branch "rest_pattern" [dots, target]

/-- A pattern, possibly with a default. -/
def bindingElement (parts : Parts) : Reader Cst := do
  let target ← parts .binding
  if ← atMark "=" then
    let mark ← take
    let value ← parts (.assignment true)
    return branch "assignment_pattern" [target, mark, value]
  else return target

/-- A pattern, or the one that takes the rest. -/
def bindingItem (parts : Parts) : Reader Cst := do
  if ← atMark "..." then restBinding parts else bindingElement parts

/-- A pattern in brackets, in which places may be left empty. -/
def arrayBinding (parts : Parts) : Reader Cst := do
  let opening ← take
  let items ← collect do
    if ← atMark "]" then return none
    if ← atMark "," then return some [← take]
    let item ← bindingItem parts
    if ← atMark "]" then return some [item]
    return some [item, ← expectMark ","]
  return branch "array_pattern" (opening :: items ++ [← take])

/-- A property in a pattern. -/
def propertyBinding (parts : Parts) : Reader Cst := do
  if ← atMark "..." then restBinding parts
  else if (← current).isVariable && !(← peek).isMark ":" then
    let name ← takeLastAs "shorthand_property_identifier_pattern"
    if ← atMark "=" then
      let mark ← take
      let value ← parts (.assignment true)
      return branch "object_assignment_pattern" [name, mark, value]
    else return name
  else
    let key ← propertyName parts
    let colon ← expectMark ":"
    let value ← bindingElement parts
    return branch "pair_pattern" [key, colon, value]

/-- A pattern in braces. -/
def objectBinding (parts : Parts) : Reader Cst := do
  let opening ← take
  let items ← commaList "\x7d" (propertyBinding parts)
  return branch "object_pattern" (opening :: items ++ [← take])

/-- A pattern that binds variables. -/
def binding (parts : Parts) : Reader Cst := do
  if ← atMark "[" then arrayBinding parts
  else if ← atMark "\x7b" then objectBinding parts
  else expectVariable "identifier"

end EsFeatures.Script
