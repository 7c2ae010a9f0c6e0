import GraphPath.Path.Selector

/-!
# Printing path expressions

The text of a selector or a test. Compound operands stand in parentheses, so that the text can be
read in one way only.
-/

namespace GraphPath

/-- The bounds of a repetition as they follow its closing parenthesis. -/
def renderBounds : Nat → Option Nat → String
  | 0, none => "*"
  | 1, none => "+"
  | min, none => "\x7b" ++ toString min ++ ",\x7d"
  | min, some max => "\x7b" ++ toString min ++ "," ++ toString max ++ "\x7d"

mutual

def Selector.render : Selector → String
  | .property p => p.render
  | .reverse p => "^" ++ p.render
  | .path l r => l.render ++ "/" ++ r.render
  | .union l r => "(" ++ l.render ++ " | " ++ r.render ++ ")"
  | .intersection l r => "(" ++ l.render ++ " & " ++ r.render ++ ")"
  | .recursive s min max => "(" ++ s.render ++ ")" ++ renderBounds min max
  | .grouping s => "(" ++ s.render ++ ")"
  | .testing s t => s.render ++ "[" ++ t.render ++ "]"
  | .function name args => "fn:" ++ name ++ "(" ++ Selector.renderArgs args ++ ")"
  | .self => "."
  | .wildcard => "*"
  | .constant n => n.render

/-- The arguments of a call, with commas between them. -/
def Selector.renderArgs : List Selector → String
  | [] => ""
  | [s] => s.render
  | s :: rest => s.render ++ ", " ++ Selector.renderArgs rest

def Test.render : Test → String
  | .isA s => "is-a " ++ s.render
  | .and l r => "(" ++ l.render ++ " and " ++ r.render ++ ")"
  | .or l r => "(" ++ l.render ++ " or " ++ r.render ++ ")"
  | .not t => "not " ++ t.render
  | .comparison op l r => l.render ++ " " ++ op.symbol ++ " " ++ r.render
  | .pathEquality l r => l.render ++ " is " ++ r.render
  | .pathExists s => s.render
  | .language tag => "@" ++ tag
  | .datatype d => "^^" ++ d.render

end

end GraphPath
