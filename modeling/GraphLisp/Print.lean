import GraphLisp.Structure
import GraphLisp.Text.Quoted
/-!
# Printed structures

`Structure.print` writes a structure the way a reader of parenthesised text takes it in: lists
as `(a b c)`, other chains as `(a . b)`, strings in double quotes, nodes as `$env:id`. A source
of names may be given, and then a node with a name prints as its name; that form is for display.
`Structure.shown` is the form inside error messages. `Structure.isPrintable` says whether the numbers
in a text are short enough to be written at all.
-/

namespace GraphLisp

/-- Where the printer looks for the name of a node. -/
abbrev Names := Node → Option String

/-- The source that knows no names. -/
def Names.none : Names := fun _ => Option.none

namespace Structure

/-- A character inside a printed string. -/
def stringChar : Char → List Char
  | '\\' => ['\\', '\\']
  | '"' => ['\\', '"']
  | '\n' => ['\\', 'n']
  | c => [c]

/-- A string between double quotes. -/
def stringText (s : String) : String :=
  String.ofList ('"' :: s.toList.flatMap stringChar ++ ['"'])

/-- The literal of a node. -/
def nodeText (n : Node) : String := s!"${n.env}:{n.id}"

/-- A structure that is neither a pair nor a procedure. -/
def leafText (names : Names) : Structure → String
  | .int n => toString n
  | .bool b => if b then "true" else "false"
  | .str s => stringText s
  | .sym name => name
  | .node n =>
    match names n with
    | some name => if name.isEmpty then nodeText n else name
    | none => nodeText n
  | _ => "()"

/-- A procedure, given the text of its body. -/
def lambdaText (params : List String) (body : String) : String :=
  "(lambda (" ++ " ".intercalate params ++ ") " ++ body ++ ")"

mutual

/-- The text of a structure. -/
def print (names : Names) : Structure → String
  | .pair a d => "(" ++ " ".intercalate (print names a :: printRest names d) ++ ")"
  | .proc params body _ => lambdaText params (print names body)
  | s => leafText names s

/-- What follows the first element between the parentheses, given the rest of the chain. -/
def printRest (names : Names) : Structure → List String
  | .pair a d => print names a :: printRest names d
  | .nil => []
  | .proc params body _ => [".", lambdaText params (print names body)]
  | s => [".", leafText names s]

end

/-- The structure as messages show it. -/
def shown : Structure → String
  | .int n => toString n
  | .bool b => if b then "True" else "False"
  | .str s => Text.quoted s
  | .sym name => "Symbol(" ++ Text.quoted name ++ ")"
  | .nil => "Nil"
  | .node n => n.shown
  | .nothing => "None"
  | s@(.pair _ _) => "Pair(" ++ s.print .none ++ ")"
  | s => s.print .none

/-- Whether every number in the text of a structure can be written. A node with a name needs none. -/
def isPrintable (names : Names) : Structure → Bool
  | .int n => Decimal.isWritable n
  | .node n => (names n).any (!·.isEmpty) || n.isWritable
  | .pair a d => a.isPrintable names && d.isPrintable names
  | .proc _ body _ => body.isPrintable names
  | _ => true

/-- Whether every number in a structure can be written where no names are known. -/
def isWritable (s : Structure) : Bool := s.isPrintable .none

@[simp] theorem isWritable_node (n : Node) : (node n).isWritable = n.isWritable := by
  simp [isWritable, isPrintable, Names.none]

end Structure

/-- A scope prints as the bindings that are visible in it. -/
def Scope.print (names : Names) (scope : Scope Structure) : String :=
  let inner := scope.flatten.map fun b => "(" ++ b.1 ++ " " ++ b.2.print names ++ ")"
  "#<frame (" ++ " ".intercalate inner ++ ")>"

/-- A scope as messages show it: the names of its innermost level, and the number of levels. -/
def Scope.shown (scope : Scope Structure) : String :=
  let names := (scope.headD []).map (·.1)
  "<Frame bindings=[" ++ ", ".intercalate names ++ s!"] depth={scope.length}>"

/-- A triple prints as its node and the relation it denotes. -/
def Triple.print (names : Names) (t : Triple) : String :=
  let text (n : Node) : String := Structure.print names (.node n)
  text t.node ++ "=(" ++ text t.subject ++ " " ++ text t.predicate ++ " " ++ text t.object ++ ")"

end GraphLisp
