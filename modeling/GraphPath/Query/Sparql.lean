import GraphPath.Query.Basic

/-!
# SPARQL text

The text of a query in SPARQL, with full IRIs and one element of a group on each line.
-/

namespace GraphPath

def indentation (depth : Nat) : String := String.ofList (List.replicate (2 * depth) ' ')

/-- A group between braces, the closing one at the given depth. -/
def braced (depth : Nat) (body : String) : String :=
  "\x7b\n" ++ body ++ indentation depth ++ "\x7d"

/-- The negation of a condition with the given text. -/
def negated (e : Expr) (text : String) : String :=
  match e with
  | .exist _ => "NOT " ++ text
  | .not _ => "!(" ++ text ++ ")"
  | _ => "!" ++ text

mutual

def Expr.toSparql (depth : Nat) : Expr → String
  | .always => "true"
  | .term t => t.render
  | .not e => negated e (e.toSparql depth)
  | .and l r => "(" ++ l.toSparql depth ++ " && " ++ r.toSparql depth ++ ")"
  | .or l r => "(" ++ l.toSparql depth ++ " || " ++ r.toSparql depth ++ ")"
  | .compare op l r => "(" ++ l.toSparql depth ++ " " ++ op.symbol ++ " " ++ r.toSparql depth ++ ")"
  | .exist scope => "EXISTS " ++ braced depth (Element.groupToSparql (depth + 1) scope)
  | .coalesce args => "COALESCE(" ++ Expr.listToSparql depth args ++ ")"
  | .call function args => function.name ++ "(" ++ Expr.listToSparql depth args ++ ")"

/-- Arguments with commas between them. -/
def Expr.listToSparql (depth : Nat) : List Expr → String
  | [] => ""
  | [e] => e.toSparql depth
  | e :: rest => e.toSparql depth ++ ", " ++ Expr.listToSparql depth rest

/-- The text of an element without its indentation. -/
def Element.toSparql (depth : Nat) : Element → String
  | .triple t => t.render ++ " ."
  | .group inner => braced depth (Element.groupToSparql (depth + 1) inner)
  | .union branches => Element.branchesToSparql depth branches
  | .optional inner => "OPTIONAL " ++ braced depth (Element.groupToSparql (depth + 1) inner)
  | .filter e => "FILTER(" ++ e.toSparql depth ++ ")"
  | .bind e target => "BIND(" ++ e.toSparql depth ++ " AS " ++ target.render ++ ")"

/-- The lines of a group. -/
def Element.groupToSparql (depth : Nat) : List Element → String
  | [] => ""
  | e :: rest =>
    indentation depth ++ e.toSparql depth ++ "\n" ++ Element.groupToSparql depth rest

def Element.branchesToSparql (depth : Nat) : List (List Element) → String
  | [] => ""
  | [g] => braced depth (Element.groupToSparql (depth + 1) g)
  | g :: rest =>
    braced depth (Element.groupToSparql (depth + 1) g) ++ " UNION " ++
      Element.branchesToSparql depth rest

end

def OrderKey.toSparql (k : OrderKey) : String :=
  k.direction.name ++ "(" ++ k.target.render ++ ")"

namespace Query

/-- The clause that orders the answers, on a line of its own. -/
def orderClause (q : Query) : String :=
  if q.orderBy.isEmpty then ""
  else "\nORDER BY " ++ " ".intercalate (q.orderBy.map OrderKey.toSparql)

def toSparql (q : Query) : String :=
  "SELECT " ++ (if q.distinct then "DISTINCT " else "") ++ q.projection.render ++ "\n" ++
    (match q.graph with
      | none => ""
      | some graph => "FROM " ++ graph.render ++ "\n") ++
    "WHERE " ++ braced 0 (Element.groupToSparql 1 q.pattern) ++ q.orderClause ++
    (match q.limit with
      | none => ""
      | some n => "\nLIMIT " ++ toString n) ++
    (match q.offset with
      | none => ""
      | some n => "\nOFFSET " ++ toString n)

end Query

end GraphPath
