import GraphLisp.Structure.Nesting
import GraphLisp.Universe.Basic
/-!
# Contexts

A context binds the roles of the language to nodes, each role to one node and each node to one
role. A form whose head is the node of a role runs that role. `Context.bootstrap` binds every
role to a node named after it.

A role can also be bound to any other structure, which its name then stands for, or to nothing.
The players of roles are told from each other by `Structure.alike`.
-/

namespace GraphLisp

open Std

/-- Roles that get their arguments unevaluated. -/
inductive SpecialForm where
  | quote
  | lambda
  | letIn
  | define
  | node
  | set
  | tell
  | ask
  | jump
  | progn
  | cond
  | eval
  | apply
  | delete
  | envJump
  | follow
  | compile
  | decompile
  | reify
  | importNode
deriving DecidableEq

/-- Roles that get the values of their arguments. -/
inductive Builtin where
  | car
  | cdr
  | cons
  | println
  | eq
  | add
  | sub
  | mul
  | div
  | listLen
  | curr
  | currEnv
  | envFind
deriving DecidableEq

/-- What a node can mean to the language. -/
inductive Role where
  | form (f : SpecialForm)
  | builtin (b : Builtin)
  /-- The wildcard of patterns, which cannot be called. -/
  | placeholder
deriving DecidableEq

/-- The name of a special form. -/
def SpecialForm.word : SpecialForm → String
  | .quote => "quote"
  | .lambda => "lambda"
  | .letIn => "let"
  | .define => "def"
  | .node => "node"
  | .set => "set!"
  | .tell => "tell"
  | .ask => "ask"
  | .jump => "jump"
  | .progn => "progn"
  | .cond => "if"
  | .eval => "eval"
  | .apply => "apply"
  | .delete => "delete"
  | .envJump => "env-jump"
  | .follow => "follow"
  | .compile => "compile"
  | .decompile => "decompile"
  | .reify => "reify"
  | .importNode => "import"

/-- The name of a builtin. -/
def Builtin.word : Builtin → String
  | .car => "car"
  | .cdr => "cdr"
  | .cons => "cons"
  | .println => "println"
  | .eq => "eq"
  | .add => "+"
  | .sub => "-"
  | .mul => "*"
  | .div => "/"
  | .listLen => "list-len"
  | .curr => "curr"
  | .currEnv => "curr-env"
  | .envFind => "env-find"

namespace Role

/-- The name of a role. -/
def word : Role → String
  | .form f => f.word
  | .builtin b => b.word
  | .placeholder => "_"

/-- All special forms. -/
def forms : List SpecialForm := [.quote, .lambda, .letIn, .define, .node, .set, .tell, .ask, .jump,
  .progn, .cond, .eval, .apply, .delete, .envJump, .follow, .compile, .decompile, .reify,
  .importNode]

/-- All builtins. -/
def builtins : List Builtin := [.car, .cdr, .cons, .println, .eq, .add, .sub, .mul, .div, .listLen,
  .curr, .currEnv, .envFind]

/-- All roles, in the order in which they are bound. -/
def all : List Role := forms.map .form ++ builtins.map .builtin ++ [.placeholder]

/-- The role with a name. -/
def ofWord? (word : String) : Option Role := all.find? fun r => r.word == word

end Role

/-- Whether two structures count as one that plays a role. Other than for `Structure.same`, truth
values are numbers and symbols are strings. -/
def Structure.alike : Structure → Structure → Bool
  | .int n, .bool b | .bool b, .int n => n == if b then 1 else 0
  | .str s, .sym t | .sym s, .str t => s == t
  | a, b => a.same b

/-- Roles and what they are bound to. -/
structure Context where
  /-- The environment that the nodes were taken from. -/
  env : Option Int
  /-- The player of each role, as a rule a node, in binding order. -/
  bindings : List (Role × Structure)
  /-- The role of each player. -/
  roles : List (Structure × Role)
  /-- Whether roles can no longer be bound, only bound anew. -/
  isSealed : Bool

namespace Context

/-- A context without any role. -/
def empty (env : Option Int) : Context := ⟨env, [], [], false⟩

/-- The player of a role that is bound. -/
def player? (c : Context) (r : Role) : Option Structure := c.bindings.lookup r

/-- What the name of a role stands for. -/
def find? (c : Context) (r : Role) : Option Structure := (c.player? r).bind Structure.given?

/-- The player of a role that must be bound. -/
def lookup (c : Context) (word : String) : Except Fault Structure :=
  match (Role.ofWord? word).bind c.player? with
  | some p => .ok p
  | none => .error (.roleUnbound word)

/-- The role of a player. -/
def played? (c : Context) (p : Structure) : Option Role :=
  (c.roles.find? fun e => e.1.alike p).map (·.2)

/-- The role of a node. -/
def roleOf (c : Context) : Structure → Option Role
  | .node n => c.played? n
  | _ => none

/-- The role of a player, which may be too high or too deeply nested to be told from others. -/
def playedBy (c : Context) (p : Structure) : Except Fault (Option Role) :=
  let played := c.played? p
  let isDeep := p.isTooHigh || (played.isSome && Structure.maxNesting < p.nesting)
  if isDeep then .error .endless else .ok played

/-- The role of a player that must have one. -/
def reverseLookup (c : Context) (p : Structure) : Except Fault Role := do
  match ← c.playedBy p with
  | some r => return r
  | none => Except.error (Fault.playsNoRole p)

/-- The context as messages show it. -/
def shown (c : Context) : String :=
  let env := (c.env.map toString).getD "None"
  let state := if c.isSealed then "sealed" else "open"
  s!"<Context env={env} roles={c.bindings.length} {state}>"

/-- An operation on a context. -/
abbrev Change := EStateM Fault Context

/-- The role with a name, which must be one of the language. -/
def roleNamed (word : String) : Change Role :=
  match Role.ofWord? word with
  | some r => return r
  | none => throw (.notARole word)

/-- The role of a player, as far as that can be told. -/
def roleNow (p : Structure) : Change (Option Role) := do
  match (← get).playedBy p with
  | .ok played => return played
  | .error fault => throw fault

/-- Binds a role for the first time. -/
def bind (word : String) (p : Structure) : Change Unit := do
  let r ← roleNamed word
  let c ← get
  if c.isSealed then throw (.sealed word)
  if (c.player? r).isSome then throw (.roleBound word)
  if let some played := ← roleNow p then throw (.playsRole p played.word)
  set { c with bindings := c.bindings ++ [(r, p)], roles := (p, r) :: c.roles }

/-- The players of the roles with another one for a role, which keeps its place. -/
def replace (r : Role) (p : Structure) : List (Role × Structure) → List (Role × Structure)
  | [] => [(r, p)]
  | e :: rest => if e.1 = r then (r, p) :: rest else e :: replace r p rest

/-- The roles of the players but one. -/
def without (p : Structure) (roles : List (Structure × Role)) : List (Structure × Role) :=
  roles.filter fun e => !e.1.alike p

/-- Binds a role whether or not it is bound, and returns the player it had. That player has no
role afterwards, unless the role was bound to nothing. -/
def rebind (word : String) (p : Structure) : Change Structure := do
  let r ← roleNamed word
  let c ← get
  if let some played := ← roleNow p then
    if played ≠ r then throw (.playsRole p played.word)
  let previous := c.find? r
  let roles := (previous.map fun s => without s c.roles).getD c.roles
  set { c with bindings := replace r p c.bindings, roles := (p, r) :: without p roles }
  return previous.getD .nothing

/-- Ends the binding of roles. -/
def close (c : Context) : Context := { c with isSealed := true }

/-- The node for a role in an environment: the one with its name, or a new one. -/
def roleNode (id : Int) (r : Role) : Universe.Change Node := do
  let e ← Universe.query (·.environment id)
  match e.lookupName r.word with
  | some n => return n
  | none => Universe.within id fun around => Locale.createNode around (some r.word) none

/-- Binds roles in turn to nodes of an environment. -/
def bindAll (id : Int) : List Role → Context → Universe.Change Context
  | [], c => return c
  | r :: rest, c => do
    let n ← roleNode id r
    match bind r.word n c with
    | .ok _ c => bindAll id rest c
    | .error fault _ => throw fault

/-- The context of the environment with a name, which is made if need be. -/
def bootstrap (name : Option String) : Universe.Change Context := do
  let id ← Universe.demandEnvironment name
  let c ← bindAll id Role.all (empty (some id))
  return c.close

end Context

end GraphLisp
