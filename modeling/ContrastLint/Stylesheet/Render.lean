import ContrastLint.Json
import ContrastLint.Stylesheet.Document
import ContrastLint.Text.Position

/-!
# Writing a stylesheet

As text, every node is written in one layout, with a blank line between
nodes.  The text of selectors, values and blocks is written as it is.

As JSON data, every part of a document has a form, from which it can be read
again.  The kind of a node stands in its field `type`, beside the fields of
the node itself.  All fields are required when a document is read, except the
block of an at-rule.
-/

namespace ContrastLint

section Text

variable {Place : Type}

def Rule.render (r : Rule Place) : String :=
  r.selector ++ " \x7b\n" ++
    .join (r.declarations.map fun d => "    " ++ d.toAssignment.render ++ ";\n") ++ "\x7d\n"

def AtRule.render (a : AtRule Place) : String :=
  "@" ++ a.name ++ (if a.params.isEmpty then "" else " " ++ a.params) ++
    match a.block with
    | some block => " \x7b" ++ block ++ "\x7d\n"
    | none => ";\n"

def Node.render : Node Place → String
  | .rule r => r.render
  | .declaration d => d.toAssignment.render ++ ";\n"
  | .atRule a => a.render

def Document.render (doc : Document Place) : String :=
  "\n".intercalate (doc.nodes.map Node.render)

end Text

/-! ## Documents as JSON -/

namespace Position

def toJson (p : Position) : Json :=
  .object [("offset", .natural p.offset), ("line", .natural p.line), ("column", .natural p.column)]

def ofJson? (j : Json) : Option Position := do
  let [offset, line, column] ← j.record? ["offset", "line", "column"] | none
  return ⟨← (← offset).word?, ← (← line).word?, ← (← column).word?⟩

end Position

namespace Declaration

def jsonFields (d : Declaration Position) : List (String × Json) :=
  [("property", .string d.property), ("value", .string d.value),
    ("important", .bool d.important), ("position", d.place.toJson)]

def toJson (d : Declaration Position) : Json :=
  .object d.jsonFields

def ofJson? (j : Json) : Option (Declaration Position) := do
  let [property, value, important, position] ←
    j.record? ["property", "value", "important", "position"] | none
  return { property := ← (← property).string?
           value := ← (← value).string?
           important := ← (← important).bool?
           place := ← Position.ofJson? (← position) }

end Declaration

namespace Rule

def jsonFields (r : Rule Position) : List (String × Json) :=
  [("selector", .string r.selector), ("declarations", .array (r.declarations.map (·.toJson))),
    ("position", r.place.toJson)]

def ofJson? (j : Json) : Option (Rule Position) := do
  let [selector, declarations, position] ←
    j.record? ["selector", "declarations", "position"] | none
  return { selector := ← (← selector).string?
           declarations := ← (← declarations).listOf? Declaration.ofJson?
           place := ← Position.ofJson? (← position) }

end Rule

namespace AtRule

def jsonFields (a : AtRule Position) : List (String × Json) :=
  [("name", .string a.name), ("params", .string a.params), ("block", .ofString? a.block),
    ("position", a.place.toJson)]

def ofJson? (j : Json) : Option (AtRule Position) := do
  let [name, params, block, position] ←
    j.record? ["name", "params", "block", "position"] | none
  return { name := ← (← name).string?
           params := ← (← params).string?
           block := ← Json.optional? Json.string? block
           place := ← Position.ofJson? (← position) }

end AtRule

namespace Node

def toJson : Node Position → Json
  | .rule r => .object (("type", .string "rule") :: r.jsonFields)
  | .declaration d => .object (("type", .string "declaration") :: d.jsonFields)
  | .atRule a => .object (("type", .string "atrule") :: a.jsonFields)

def ofJson? (j : Json) : Option (Node Position) := do
  match ← j.variant? "type" with
  | ("rule", body) => return .rule (← Rule.ofJson? body)
  | ("declaration", body) => return .declaration (← Declaration.ofJson? body)
  | ("atrule", body) => return .atRule (← AtRule.ofJson? body)
  | _ => none

end Node

namespace Document

def toJson (doc : Document Position) : Json :=
  .object [("nodes", .array (doc.nodes.map (·.toJson)))]

def ofJson? (j : Json) : Option (Document Position) := do
  let [nodes] ← j.record? ["nodes"] | none
  return ⟨← (← nodes).listOf? Node.ofJson?⟩

end Document

end ContrastLint
