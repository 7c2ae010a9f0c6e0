import GraphPath.Settings.Document
import GraphPath.Settings.Yaml.Node

/-!
# YAML documents

Settings in YAML. A plain scalar stays a word, since its kind depends on what is expected of it, and
tags count only for blocks of text that spell out a number or a truth value.
-/

namespace GraphPath.Yaml

namespace Node

/-- The node that a reference stands for, the last one with its number; any other node without its
anchor. -/
def target (anchors : List (Nat × Node)) : Node → Node
  | .reference number =>
    match (anchors.filter (·.1 = number)).getLast? with
    | some (_, node) => node
    | none => .reference number
  | .anchored _ node => node
  | node => node

/-- The text of a scalar. -/
def text? : Node → Option String
  | .scalar _ _ text => some (String.ofList text)
  | _ => none

/-- Whether a block of text has the tag of what it spells out. -/
def spellsOut (tag text : List Char) : Bool :=
  let word := Document.word (String.ofList text)
  tag = "tag:yaml.org,2002:bool".toList && word.boolean?.isSome ||
    tag = "tag:yaml.org,2002:int".toList && word.natural?.isSome

/-- A node as a document. What is nested deeper than settings are has no meaning, and neither has a
mapping with a key that is no scalar. -/
def document (anchors : List (Nat × Node)) : Nat → Node → Document
  | depth, node =>
    match node.target anchors with
    | .scalar style tag text =>
      if style = .plain || style = .literal && spellsOut tag text then .word (String.ofList text)
      else .text (String.ofList text)
    | .mapping entries =>
      match depth with
      | 0 => .other
      | depth + 1 =>
        let found := entries.mapM fun (key, value) => do
          return (← (key.target anchors).text?, document anchors depth value)
        match found with
        | some entries => .map entries
        | none => .other
    | _ => .other

/-- How deep settings are nested. -/
def settingsDepth : Nat := 2

end Node

/-- Reads a whole text. -/
def document? (text : List Char) : Option Document := do
  let root ← root? text
  return root.document root.anchors Node.settingsDepth

end GraphPath.Yaml
