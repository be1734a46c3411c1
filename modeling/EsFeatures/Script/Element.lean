/-
  EsFeatures.Script.Element

  Elements of markup among expressions.  Between its tags an element holds text,
  expressions in braces and further elements; the characters there are no tokens
  of the language, so the reader goes from place to place by itself.
-/
import EsFeatures.Script.Reader

namespace EsFeatures.Script

/-- Takes the current token as an anonymous node and goes on within a tag. -/
def takeInTag : Reader Cst := do
  let t ← current
  setToken (readTag t.after)
  return tokenNode t

/-- Takes the current token as a named node and goes on within a tag. -/
def takeInTagAs (kind : String) : Reader Cst := do
  let t ← current
  setToken (readTag t.after)
  return leaf kind t

/-- Takes the given mark within a tag. -/
def expectInTag (spelling : String) : Reader Cst := do
  if ← atMark spelling then takeInTag else giveUp

/-- One word of a name within a tag. -/
def tagWord (kind : String) : Reader Cst := do
  if (← current).sort = .name then takeInTagAs kind else giveUp

/-- A colon and the word behind it. -/
def tagNameRest : Reader (List Cst) := do
  let colon ← takeInTag
  return [colon, ← tagWord "identifier"]

/-- The name of an attribute: a word, or two with a colon between them. -/
def attributeName : Reader (List Cst) := do
  let first ← tagWord "property_identifier"
  if ← atMark ":" then return first :: (← tagNameRest) else return [first]

/-- The name of an element: a word, two with a colon between them, or several with
    points between them. -/
def tagName : Reader (List Cst) := do
  let first ← tagWord "identifier"
  if ← atMark ":" then return first :: (← tagNameRest)
  else
    let more ← collect do
      if ← atMark "." then
        let point ← takeInTag
        return some [point, ← tagWord "property_identifier"]
      else return none
    return first :: more

/-- An expression in braces, its closing brace still current.  It may be missing,
    and it may be spread. -/
def bracedValue (parts : Parts) : Reader (List Cst) := do
  let opening ← take
  let value ← do
    if ← atMark "\x7d" then pure []
    else if ← atMark "..." then
      let dots ← take
      let value ← parts (.assignment true)
      pure [branch "spread_element" [dots, value]]
    else pure [← parts (.expression true)]
  if ← atMark "\x7d" then return opening :: value else giveUp

/-- An expression in braces among attributes. -/
def attributeValue (parts : Parts) : Reader Cst := do
  let inside ← bracedValue parts
  return branch "jsx_expression" (inside ++ [← takeInTag])

/-- An attribute of an element. -/
def elementAttribute (parts : Parts) : Reader Cst := do
  if ← atMark "\x7b" then attributeValue parts
  else
    let name ← attributeName
    if ← atMark "=" then
      let mark ← takeInTag
      let value ← do
        if (← current).sort = .text then takeInTagAs "string"
        else if ← atMark "\x7b" then attributeValue parts
        else if ← atMark "<" then
          let inner ← parts .element
          let t ← current
          setToken (readTag t.after)
          pure inner
        else giveUp
      return branch "jsx_attribute" (name ++ [mark, value])
    else return branch "jsx_attribute" name

/-- The closing tag of an element, its last mark still current. -/
def closingTag : Reader Cst := do
  let opening ← takeInTag
  let slash ← expectInTag "/"
  let name ← do
    if ← atMark ">" then pure [] else tagName
  if ← atMark ">" then
    return branch "jsx_closing_element" ([opening, slash] ++ name ++ [tokenNode (← current)])
  else giveUp

/-- What stands between two tags, from a place on; the closing tag comes last. -/
def elementContent (parts : Parts) : Nat → Array Cst → Cursor → Reader (Array Cst)
  | 0, _, _ => giveUp
  | rounds + 1, done, place => do
    let next := skipElementText place.rest place.byte
    setToken (readTagHere next .none)
    if ← atMark "\x7b" then
      let inside ← bracedValue parts
      let closing ← current
      elementContent parts rounds
        (done.push (branch "jsx_expression" (inside ++ [tokenNode closing]))) closing.after
    else if ← atMark "<" then
      if (readTag (← current).after).isMark "/" then
        return done.push (← closingTag)
      else
        let inner ← parts .element
        elementContent parts rounds (done.push inner) (← current).after
    else giveUp

/-- An element, its last mark still current. -/
def element (parts : Parts) : Reader Cst := do
  let opening ← takeInTag
  let name ← do
    if ← atMark ">" then pure [] else tagName
  let attributes ← collect do
    if (← atMark ">") || (← atMark "/") then return none
    return some [← elementAttribute parts]
  let front := opening :: name ++ attributes
  if ← atMark "/" then
    let slash ← takeInTag
    if ← atMark ">" then
      return branch "jsx_self_closing_element" (front ++ [slash, tokenNode (← current)])
    else giveUp
  else if ← atMark ">" then
    let last ← current
    let head := branch "jsx_opening_element" (front ++ [tokenNode last])
    let content ← elementContent parts (← get).bound #[] last.after
    return branch "jsx_element" (head :: content.toList)
  else giveUp

end EsFeatures.Script
