import GraphLisp.Context
import GraphLisp.Journal
import GraphLisp.Structure.Elements
import GraphLisp.Text.Digit
/-!
# Steps of evaluation

What a step of evaluation works with: the universe that it changes, the place where it is, the
journal of its changes, and what it has to say. Symbols are looked up here, in the scope first,
then in the overlay, as literals of nodes, among the names of the environment at hand, and last
among the roles of the context.
-/

namespace GraphLisp

/-- Where an agent is: in an environment, at a node. -/
structure Place where
  env : Int
  /-- A node, as a rule. -/
  location : Structure

/-- The place that a jump leads to. A node that denotes an environment leads to the self node of
that environment. -/
def Universe.jump (u : Universe) : Structure → Except Fault Place
  | .node n =>
    if u.denotes n then do
      let e ← u.environment n.id
      return ⟨e.id, e.selfNode⟩
    else do
      let e ← u.environment n.env
      if e.contains n then return ⟨e.id, n⟩ else Except.error (Fault.jumpMissing n)
  | s => .error (.jumpTarget s)

/-- Where a message goes. -/
inductive Channel where
  | stdout
  | stderr
deriving DecidableEq

/-- The name of a channel. -/
def Channel.word : Channel → String
  | .stdout => "stdout"
  | .stderr => "stderr"

/-- A message to the outside. -/
structure Effect where
  channel : Channel
  message : String
deriving DecidableEq

/-- What a step may consult and does not change. -/
structure Setting where
  context : Context
  overlay : Level Structure
  /-- The whole structure that is being evaluated. -/
  top : Structure

/-- What a step has done so far. -/
structure Progress where
  store : Universe
  place : Place
  /-- Whether there has been a jump. -/
  moved : Bool
  journal : Journal Int
  effects : List Effect

/-- A part of a step. -/
abbrev Eval := EStateM Fault Progress

namespace Eval

/-- A question that may have no answer. -/
def answer {α : Type} : Except Fault α → Eval α
  | .ok a => return a
  | .error fault => throw fault

/-- A change of the universe. -/
def change {α : Type} (c : Universe.Change α) : Eval α := fun p =>
  match c p.store with
  | .ok a u => .ok a { p with store := u }
  | .error fault u => .error fault { p with store := u }

/-- An operation on an environment. -/
def within {α : Type} (env : Int) (op : Surroundings → Op α) : Eval α :=
  change (Universe.within env op)

/-- Records a change that has been made, if its label can be written. -/
def record (env : Int) (undo : Undo) : Eval Unit :=
  if undo.isLabelled then modify fun p => { p with journal := (env, undo) :: p.journal }
  else throw (.numeral none)

/-- The environment with an id. -/
def environment (env : Int) : Eval Environment := do answer ((← get).store.environment env)

/-- The environment at hand. -/
def here : Eval Environment := do environment (← get).place.env

/-- Says something. -/
def say (message : String) : Eval Unit :=
  modify fun p => { p with effects := p.effects ++ [⟨.stdout, message⟩] }

/-- The elements of a list. -/
def elements (s : Structure) : Eval (List Structure) := answer s.toList

/-! ## Symbols -/

/-- Whether a text is made of digits only, and not empty. -/
def areDigits (cs : List Char) : Bool := !cs.isEmpty && cs.all fun c => (Text.digit? c).isSome

/-- The digits in the literal of a node: those of the environment, which may be left out, and
those of the handle. A line feed may follow. -/
def literal? (name : String) : Option (Option (List Char) × List Char) :=
  match name.toList with
  | '$' :: cs =>
    let cs := if cs.getLast? == some '\n' then cs.dropLast else cs
    let first := cs.takeWhile fun c => (Text.digit? c).isSome
    match cs.drop first.length with
    | [] => if first.isEmpty then none else some (none, first)
    | ':' :: rest => if areDigits first && areDigits rest then some (some first, rest) else none
    | _ => none
  | _ => none

/-- The number that the digits of a literal spell, unless there are too many. -/
def literalNumber (digits : List Char) : Except Fault Int :=
  if Decimal.maxDigits < digits.length then .error (.numeral (some digits.length))
  else .ok (Int.ofNat ((Text.readNat? digits).getD 0))

variable (setting : Setting)

/-- What a symbol is bound to, or the node that it names. -/
def resolve (name : String) (scope : Scope Structure) : Eval Structure := do
  if let some s := (scope.find? name).or (Level.find? setting.overlay name) then return s
  let p ← get
  match literal? name with
  | some (envDigits, idDigits) =>
    let env ← match envDigits with
      | some digits => answer (literalNumber digits)
      | none => pure p.place.env
    let n : Node := ⟨env, ← answer (literalNumber idDigits)⟩
    if p.store.resolves n then return n else throw (.noSuchNode name n)
  | none =>
    let e ← here
    let named := (e.lookupName name).map Structure.node
    match named.or ((Role.ofWord? name).bind setting.context.find?) with
    | some s => return s
    | none => throw (.unbound name)

/-- Whether a symbol can only be the name of a node. -/
def namesNode (name : String) (scope : Scope Structure) : Bool :=
  (scope.find? name).isNone && (Level.find? setting.overlay name).isNone

/-- What a node means. -/
def meaning (n : Node) : Eval Structure := do
  let e ← environment n.env
  answer (e.getStructure n)

/-- The value of a symbol: what it is bound to, or what the node means that it names. -/
def lookup (name : String) (scope : Scope Structure) : Eval Structure := do
  match ← resolve setting name scope with
  | .node n => if namesNode setting name scope then meaning n else return .node n
  | s => return s

/-! ## Places -/

/-- Tells triples in turn, up to one with a number that cannot be written. -/
def tellAll (names : Names) : List Triple → Eval Unit
  | [] => return
  | t :: rest =>
    if t.toStructure.isPrintable names then do
      say ("    " ++ t.toStructure.print names)
      tellAll names rest
    else throw (.numeral none)

/-- Tells every triple that touches the place at hand. -/
def describe : Eval Unit := do
  let p ← get
  let .node n := p.place.location | throw (.unreadable .noSuchPart "")
  tellAll p.store.names (← answer ((← environment n.env).askAny n))

/-- Moves, tells what is there, and returns the new location. -/
def moveTo (target : Structure) : Eval Structure := do
  let place ← answer ((← get).store.jump target)
  modify fun p => { p with place, moved := true }
  describe
  return place.location

end Eval

end GraphLisp
