import GraphLisp.Fault
/-!
# Payloads

A structure as plain data: a map of one entry, whose key names the kind of structure. A
procedure keeps the bindings visible in its scope, as one level. Only whole structures have a
payload. `decode` reads a payload back; what is no payload is refused as a damaged snapshot, and
what contains itself as endless.
-/

namespace GraphLisp

open Structure

/-- A map of one entry. -/
def tagged (tag : String) (body : Plain) : Plain := .map [(.text tag, body)]

namespace Structure

mutual

/-- The payload of a structure, if it is whole. -/
def encode : Structure → Plain
  | .int n => tagged "int" (.int n)
  | .bool b => tagged "bool" (.bool b)
  | .str s => tagged "str" (.text s)
  | .sym name => tagged "sym" (.text name)
  | .nil => tagged "nil" .null
  | .nothing => .null
  | .node n => tagged "node" (.list [.int n.env, .int n.id])
  | .pair a d => tagged "pair" (.list [encode a, encode d])
  | .proc params body scope =>
    let bindings := Scope.flatten (encodeScope scope)
    tagged "proc" (.object [
      ("params", .list (params.map .text)),
      ("body", encode body),
      ("frame", .list (bindings.map fun b => .list [.text b.1, b.2]))])

/-- The payloads of the values of a scope. -/
def encodeScope : List (List (String × Structure)) → Scope Plain
  | [] => []
  | level :: outer => encodeLevel level :: encodeScope outer

/-- The payloads of the values of a level. -/
def encodeLevel : List (String × Structure) → Level Plain
  | [] => []
  | (name, s) :: rest => (name, encode s) :: encodeLevel rest

end

/-- The payload of a structure, which has to be whole. -/
def payload (s : Structure) : Except Fault Plain :=
  if s.isWhole then .ok s.encode else .error (.unreadable .wrongSort "")

end Structure

namespace Plain

/-- How the parts of a payload are decoded. -/
abbrev Decoder := Plain → Except Fault Structure

/-- The body of a pair that does not have two parts. -/
def brokenPair? (p : Plain) : Option Plain :=
  match p.opened with
  | .map [(.text "pair", body)] =>
    match body.opened with
    | .list [_, _] => none
    | _ => some body
  | _ => none

/-- The parameters of a procedure: anything that can be listed will do. -/
def parameters? (p : Plain) : Option (List String) := do
  let items ← p.listed?
  if areWritable items then return items.map asText else none

/-- The tag of the empty list takes any body; every other tag is unknown here. -/
def decodeNil (tag : String) : Except Fault Structure :=
  if tag = "nil" then .ok .nil else .error (.corrupt (.tag (.text tag)))

variable (inner : Decoder)

/-- A list of two: a node, or a pair. -/
def decodeTwo (tag : String) (a d : Plain) : Except Fault Structure :=
  if tag = "node" then
    match a, d with
    | .int env, .int id => .ok (.node ⟨env, id⟩)
    | _, _ => .error (.corrupt (.tag (.text tag)))
  else if tag = "pair" then do
    let car ← inner a
    match brokenPair? d with
    | some body => .error (.corrupt (.pairPayload body))
    | none => return .pair car (← inner d)
  else decodeNil tag

/-- A binding put over those that are there. It is anything that lists a name and a payload. -/
def decodeBinding (whole : Plain) (level : Level Structure) (binding : Plain) :
    Except Fault (Level Structure) :=
  match binding.listed? with
  | some [name, p] =>
    if name.isWritable then do return level.bind name.asText (← inner p)
    else .error (.corrupt (.procedurePayload whole))
  | _ => .error (.corrupt (.procedurePayload whole))

/-- The bindings of a procedure; there are none if their entry is absent or void. -/
def decodeFrame (whole : Plain) (entries : List (Plain × Plain)) :
    Except Fault (Level Structure) :=
  match (find? entries "frame").filter fun p => !p.isVoid with
  | none => .ok []
  | some p =>
    match p.listed? with
    | some items => items.foldlM (decodeBinding inner whole) []
    | none => .error (.corrupt (.procedurePayload whole))

/-- A procedure. -/
def decodeProcedure (whole : Plain) (entries : List (Plain × Plain)) : Except Fault Structure :=
  match (find? entries "params").bind parameters? with
  | none => .error (.corrupt (.procedurePayload whole))
  | some params => do
    let level ← decodeFrame inner whole entries
    match find? entries "body" with
    | none => .error (.corrupt (.procedurePayload whole))
    | some p => return .proc params (← inner p) (if level.isEmpty then [] else [level])

/-- The structure that a tag and its body stand for. -/
def decodeBody (tag : String) (body : Plain) : Except Fault Structure :=
  match body.opened with
  | .bool b => if tag = "bool" then .ok (.bool b) else decodeNil tag
  | .int n => if tag = "int" then .ok (.int n) else decodeNil tag
  | .text s =>
    if tag = "str" then .ok (.str s) else if tag = "sym" then .ok (.sym s) else decodeNil tag
  | .list [a, d] => decodeTwo inner tag a d
  | .map entries => if tag = "proc" then decodeProcedure inner body entries else decodeNil tag
  | _ => decodeNil tag

/-- The structure that a payload stands for, if it is nested no deeper than a limit. -/
def decodeWithin : Nat → Decoder
  | 0 => fun _ => .error .endless
  | limit + 1 => fun p =>
    match p.opened with
    | .map [(.text tag, body)] => decodeBody (decodeWithin limit) tag body
    | .map [(tag, _)] => .error (.corrupt (.tag tag))
    | _ => .error (.corrupt (.payload p))

/-- How much deeper than it is a payload that contains itself is followed. -/
def endlessDepth : Nat := 1000

/-- The structure that a payload stands for. -/
def decode (p : Plain) : Except Fault Structure := p.decodeWithin (p.depth + endlessDepth)

end Plain

end GraphLisp
