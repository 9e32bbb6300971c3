import GraphLisp.Plain.Shown
import GraphLisp.Print
/-!
# Faults

Everything that can go wrong, one constructor per cause. `Fault.report` says for each cause what
kind of failure it is, how it is worded and which structure it blames.
-/

namespace GraphLisp

/-- The kinds of failure. -/
inductive Kind where
  | general
  | fatal
  | unknownNode
  | nameCollision
  | foreignNode
  | referencedNode
  | unknownEnvironment
  | corruptSnapshot
  | handleSpaceExhausted
  | cyclicStructure
  | notAPair
  | unboundRole
  | evaluation
  | unboundSymbol
  | arityMismatch
  | typeMismatch
  /-- A call with something that it does not take. -/
  | misuse
  /-- A table without an entry that it is bound to have. -/
  | missing
  /-- A position beyond the end of a text. -/
  | outOfRange
  /-- A part that a value does not have. -/
  | noSuchPart
  /-- A value of the wrong sort. -/
  | wrongSort
  /-- A number beyond the range of what it should become. -/
  | overflow
  /-- A value nested too deeply, or endlessly. -/
  | endless
  /-- A text that no bytes spell. -/
  | unspellable
  /-- Bytes that spell no text. -/
  | misspelt
  /-- A file or a folder that is not there. -/
  | absentFile
  /-- A file or a folder that is there already. -/
  | presentFile
  /-- A folder in place of a file. -/
  | folderAsFile
  /-- A file in place of a folder. -/
  | fileAsFolder
  /-- What no file system does for any other reason. -/
  | refusedFile
deriving DecidableEq

namespace Kind

/-- The word for a kind of failure. -/
def word : Kind → String
  | .general | .fatal => "AmlangError"
  | .unknownNode => "UnknownNode"
  | .nameCollision => "NameCollision"
  | .foreignNode => "ForeignNode"
  | .referencedNode => "ReferencedNode"
  | .unknownEnvironment => "UnknownEnvironment"
  | .corruptSnapshot => "CorruptSnapshot"
  | .handleSpaceExhausted => "HandleSpaceExhausted"
  | .cyclicStructure => "CyclicStructure"
  | .notAPair => "NotAPair"
  | .unboundRole => "UnboundRole"
  | .evaluation => "EvalError"
  | .unboundSymbol => "UnboundSymbol"
  | .arityMismatch => "ArityMismatch"
  | .typeMismatch => "TypeMismatch"
  | .misuse => "Misuse"
  | .missing => "Missing"
  | .outOfRange => "OutOfRange"
  | .noSuchPart => "NoSuchPart"
  | .wrongSort => "WrongSort"
  | .overflow => "Overflow"
  | .endless => "Endless"
  | .unspellable => "Unspellable"
  | .misspelt => "Misspelt"
  | .absentFile => "AbsentFile"
  | .presentFile => "PresentFile"
  | .folderAsFile => "FolderAsFile"
  | .fileAsFolder => "FileAsFolder"
  | .refusedFile => "RefusedFile"

/-- The failures of the store, the snapshots and the programs. -/
def domain : List Kind :=
  [.general, .fatal, .unknownNode, .nameCollision, .foreignNode, .referencedNode,
    .unknownEnvironment, .corruptSnapshot, .handleSpaceExhausted, .cyclicStructure, .notAPair,
    .unboundRole, .evaluation, .unboundSymbol, .arityMismatch, .typeMismatch]

/-- The kind that a word names. -/
def ofWord? (word : String) : Option Kind := domain.find? (·.word == word)

/-- Fatal failures leave nothing that an agent could go on with. -/
def isFatal : Kind → Bool
  | .fatal | .corruptSnapshot | .handleSpaceExhausted => true
  | _ => false

/-- Whether a failure is one of the store, the snapshots and the programs, as opposed to a wrong
call and to what befalls any program. -/
def isDomain (k : Kind) : Bool := k ∈ domain

end Kind

/-- How many arguments a form takes. -/
inductive Arity where
  | exactly (n : Nat)
  | atLeast (n : Nat)
  | between (low high : Nat)
deriving DecidableEq

namespace Arity

/-- Whether a number of arguments will do. -/
def allows : Arity → Nat → Bool
  | .exactly n, given => given == n
  | .atLeast n, given => n ≤ given
  | .between low high, given => low ≤ given && given ≤ high

/-- The arity in words. -/
def words : Arity → String
  | .exactly n => toString n
  | .atLeast n => s!"at least {n}"
  | .between low high => s!"{low} to {high}"

end Arity

/-- What is wrong with a snapshot or a payload. -/
inductive Damage where
  | notJson
  | notYaml
  | notText
  | unsupportedFormat (format : Option String)
  | payload (found : Plain)
  | pairPayload (found : Plain)
  | procedurePayload (found : Plain)
  | tag (found : Plain)
  | notASnapshot
  | version (found : Plain)
  | noSection (key : String)
  | badSection
  | counters
  | nodeId (found : Plain)
  | duplicateId (handle : Int)
  | badName (handle : Int)
  | nameTaken (name : String)
  | nodeRow (found : Plain)
  | importRow (found : Plain)
  | importTarget (handle : Int)
  | importRefused (target : Node) (handle : Int)
  | tripleRow (found : Plain)
  | tripleReference (handle part : Plain)
  | duplicateTriple (subject predicate object : Int)
  | noSelfNode
  | dangling (handle missing : Int)
  | noRoot (folder : String)
  | rootId
  | fileId (file : String) (found : Int)
  | undenoted (env : Int)
  | danglingBetween (holder target : Node)
  | other (words : String)

/-- The wording of a damage. -/
def Damage.message : Damage → String
  | .notJson => "cannot parse json snapshot"
  | .notYaml => "cannot parse yaml snapshot"
  | .notText => "snapshot is not valid utf-8 text"
  | .unsupportedFormat format =>
    let named := (format.map Text.quoted).getD "None"
    s!"unsupported or undetectable snapshot format: {named}"
  | .payload found => "malformed structure payload: " ++ found.shown
  | .pairPayload found => "malformed pair payload: " ++ found.shown
  | .procedurePayload found => "malformed procedure payload: " ++ found.shown
  | .tag found => "unknown structure payload tag: " ++ found.shown
  | .notASnapshot => "not an amlang environment snapshot"
  | .version found => "unsupported snapshot version: " ++ found.shown
  | .noSection key => "snapshot is missing a section: " ++ Text.quoted key
  | .badSection => "snapshot is missing a section"
  | .counters => "snapshot id and counter must be integers"
  | .nodeId found => "invalid node id: " ++ found.shown
  | .duplicateId handle => s!"duplicate node id: {handle}"
  | .badName handle => s!"malformed name for node {handle}"
  | .nameTaken name => s!"name already bound: {name}"
  | .nodeRow found => "malformed node row: " ++ found.shown
  | .importRow found => "malformed import row: " ++ found.shown
  | .importTarget handle => s!"malformed import target for node {handle}"
  | .importRefused target handle =>
    s!"invalid import of [{target.env}, {target.id}] at node {handle}"
  | .tripleRow found => "malformed triple row: " ++ found.shown
  | .tripleReference handle part =>
    "triple " ++ handle.shown ++ " references unknown node " ++ part.shown
  | .duplicateTriple s p o => s!"duplicate triple ({s} {p} {o})"
  | .noSelfNode => "snapshot has no self node"
  | .dangling handle missing => s!"node {handle} references unknown node {missing}"
  | .noRoot folder => s!"{folder} has environment snapshots but no root"
  | .rootId => "root snapshot does not carry id 0"
  | .fileId file found => s!"{file} carries id {found}"
  | .undenoted env => s!"root has no node denoting environment {env}"
  | .danglingBetween holder target =>
    holder.shown ++ " references missing node " ++ target.shown
  | .other words => words

/-- Whether every number in the wording of a damage can be written. -/
def Damage.isWritable : Damage → Bool
  | .payload found | .pairPayload found | .procedurePayload found | .tag found => found.isWritable
  | .version found | .nodeId found | .nodeRow found | .importRow found => found.isWritable
  | .tripleRow found => found.isWritable
  | .duplicateId handle | .badName handle | .importTarget handle => Decimal.isWritable handle
  | .importRefused target handle => target.isWritable && Decimal.isWritable handle
  | .tripleReference handle part => handle.isWritable && part.isWritable
  | .duplicateTriple s p o => [s, p, o].all Decimal.isWritable
  | .dangling handle missing => [handle, missing].all Decimal.isWritable
  | .fileId _ found => Decimal.isWritable found
  | .undenoted env => Decimal.isWritable env
  | .danglingBetween holder target => holder.isWritable && target.isWritable
  | _ => true

/-- The causes of failure. -/
inductive Fault where
  -- Nodes of an environment
  | notANode (found : Structure)
  | foreign (node : Node) (home : Int)
  | absent (node : Node) (home : Int)
  | unresolvable (mentioned : Node)
  | absentMention (mentioned : Node)
  | nameTaken (name : String)
  | contentOfTriple (node : Node)
  | contentOfImport (node : Node)
  | tripleAsNode (node : Node)
  | notATriple (node : Node)
  | selfNode (node : Node)
  | usedByTriples (node : Node) (count : Nat)
  | usedByNodes (node : Node) (count : Nat)
  | usedElsewhere (node : Node) (holders : List Node)
  | pinned (node : Node)
  | importOfNoNode (found : Structure)
  | importOfLocal (node : Node)
  | badPattern (found : Structure)
  | live (node : Node)
  | handlesExhausted
  | missingKey
  -- The universe
  | notAnEnvironmentNode (found : Structure)
  | undenoting (node : Node)
  | noEnvironment (env : Int)
  | noRootNode (env : Int)
  | rootIdentity
  | registered
  | occupied
  | used
  | idTaken (env : Int)
  | snapshotFormat (format : Option String)
  -- Snapshots
  | corrupt (damage : Damage)
  | textFormat (format : Option String)
  /-- A text has a part that no value can be read from. -/
  | unreadable (kind : Kind) (words : String)
  /-- A whole number has too many digits. How many is known if it was to be read. -/
  | numeral (digits : Option Nat)
  | endless
  | unspellable
  | misspelt
  -- Files
  | absentFile
  | presentFile
  | folderAsFile
  | fileAsFolder
  | refusedFile
  -- Structures and regions
  | expectedList (found : Structure)
  | improperList (found : Structure)
  | cycle (node : Node)
  | improperRegion (found : Structure)
  | regionOfNothing
  | regionHead (found : Structure)
  | regionEntry (found : Structure)
  | noNodeNamed (name : String)
  | notAPredicate (found : Structure)
  -- The context
  | notARole (role : String)
  | sealed (role : String)
  | roleBound (role : String)
  | playsRole (found : Structure) (role : String)
  | roleUnbound (role : String)
  | playsNoRole (found : Structure)
  -- Evaluation
  | noSuchNode (literal : String) (node : Node)
  | unbound (name : String)
  | undesignated (found : Structure)
  | notCallable (found : Structure)
  | roleNotCallable (role : String) (form : Structure)
  | formNotApplicable (role : String) (found : Structure)
  | arity (form : String) (expected : Arity) (given : Nat) (call : Structure)
  | parameter (found : Structure)
  | repeatedParameter (name : String)
  | letEntry (found : Structure)
  | repeatedLet (name : String)
  | defName (found : Structure)
  | notIntegers (operator : String) (found : Structure)
  | divisionByZero (form : Structure)
  | expectsPair (operator : String) (found : Structure)
  | expectsProperList (found : Structure)
  | expectsName (found : Structure)
  | currentLocation (node : Node)
  | boundToRole (node : Node) (role : String)
  | noEnvironmentHere (node : Node)
  | noWormhole (env : Int) (predicate : Option Node)
  | selection (found : Structure)
  | jumpTarget (found : Structure)
  | jumpMissing (node : Node)
  | depth (top : Structure)

/-- A failure as it is told to the user. -/
structure Report where
  kind : Kind
  message : String
  offender : Option Structure

namespace Fault

/-- What a failure is, how it is worded, and which structure it blames. -/
def report : Fault → Report
  | .notANode s => ⟨.typeMismatch, "expected a Node", some s⟩
  | .foreign n home =>
    ⟨.foreignNode, s!"node belongs to environment {n.env}, not {home}", some n⟩
  | .absent n home => ⟨.unknownNode, s!"no such node in environment {home}", some n⟩
  | .unresolvable n =>
    ⟨.unknownNode, "structure references unresolvable node " ++ n.shown, some n⟩
  | .absentMention n => ⟨.unknownNode, "structure references unknown node " ++ n.shown, some n⟩
  | .nameTaken name => ⟨.nameCollision, s!"name already bound: {name}", some (.sym name)⟩
  | .contentOfTriple n =>
    ⟨.typeMismatch, "a triple's structure is its (subject predicate object)", some n⟩
  | .contentOfImport n =>
    ⟨.typeMismatch, "an import stands for the node it was imported from", some n⟩
  | .tripleAsNode n => ⟨.typeMismatch, "use delete_triple for triple nodes", some n⟩
  | .notATriple n => ⟨.typeMismatch, "not a triple node", some n⟩
  | .selfNode n =>
    ⟨.referencedNode, "the self node of an environment cannot be deleted", some n⟩
  | .usedByTriples n count => ⟨.referencedNode, s!"node is used by {count} triple(s)", some n⟩
  | .usedByNodes n count =>
    ⟨.referencedNode, s!"node is referenced by the structure of {count} node(s)", some n⟩
  | .usedElsewhere n holders =>
    let listed := ", ".intercalate (holders.map Node.shown)
    ⟨.referencedNode, s!"node is referenced from other environments by [{listed}]", some n⟩
  | .pinned n => ⟨.referencedNode, "node denotes a registered environment", some n⟩
  | .importOfNoNode s => ⟨.typeMismatch, "only nodes can be imported", some s⟩
  | .importOfLocal n => ⟨.typeMismatch, "a local node needs no import", some n⟩
  | .badPattern s => ⟨.typeMismatch, "ask patterns must be Nodes or wildcards", some s⟩
  | .live n => ⟨.nameCollision, s!"handle {n.id} is live", some n⟩
  | .handlesExhausted => ⟨.handleSpaceExhausted, "node handle space exhausted", none⟩
  | .missingKey => ⟨.missing, "", none⟩
  | .notAnEnvironmentNode s => ⟨.typeMismatch, "expected an environment Node", some s⟩
  | .undenoting n =>
    ⟨.unknownEnvironment, n.shown ++ " does not denote a registered environment", some n⟩
  | .noEnvironment env =>
    ⟨.unknownEnvironment, s!"no environment with id {env}", some (.node ⟨rootId, env⟩)⟩
  | .noRootNode env =>
    ⟨.unknownEnvironment, s!"root has no node {env} to denote the environment", none⟩
  | .rootIdentity => ⟨.misuse, "the root environment must have id 0", none⟩
  | .registered => ⟨.misuse, "environment is already registered", none⟩
  | .occupied =>
    ⟨.misuse, "only an empty environment can be registered; use create_environment", none⟩
  | .used => ⟨.misuse, "only an empty Environment can be re-identified", none⟩
  | .idTaken env => ⟨.misuse, s!"environment id {env} is already registered", none⟩
  | .snapshotFormat format =>
    ⟨.misuse, "Unsupported snapshot format: " ++ (format.map Text.quoted).getD "None", none⟩
  | .corrupt damage => ⟨.corruptSnapshot, damage.message, none⟩
  | .textFormat format =>
    ⟨.misuse, "Unsupported serialization format: " ++ (format.map Text.quoted).getD "None", none⟩
  | .unreadable kind words => ⟨kind, words, none⟩
  | .numeral digits => ⟨.misuse, Decimal.limitWords digits, none⟩
  | .endless => ⟨.endless, "", none⟩
  | .unspellable => ⟨.unspellable, "", none⟩
  | .misspelt => ⟨.misspelt, "", none⟩
  | .absentFile => ⟨.absentFile, "", none⟩
  | .presentFile => ⟨.presentFile, "", none⟩
  | .folderAsFile => ⟨.folderAsFile, "", none⟩
  | .fileAsFolder => ⟨.fileAsFolder, "", none⟩
  | .refusedFile => ⟨.refusedFile, "", none⟩
  | .expectedList s => ⟨.typeMismatch, "expected a list", some s⟩
  | .improperList s => ⟨.notAPair, "improper list", some s⟩
  | .cycle n => ⟨.cyclicStructure, n.shown ++ " is reachable from itself", some n⟩
  | .improperRegion s => ⟨.notAPair, "compiled structure must be a proper list", some s⟩
  | .regionOfNothing => ⟨.typeMismatch, "cannot decompile None", none⟩
  | .regionHead s =>
    ⟨.typeMismatch, "the head of a compiled structure must be a node or a literal", some s⟩
  | .regionEntry s => ⟨.typeMismatch, "expected a (predicate child) entry", some s⟩
  | .noNodeNamed name => ⟨.unboundSymbol, s!"no node named {name}", some (.sym name)⟩
  | .notAPredicate s => ⟨.typeMismatch, "a predicate must be a node or a node name", some s⟩
  | .notARole role => ⟨.unboundRole, s!"not a context role: {role}", some (.str role)⟩
  | .sealed role =>
    ⟨.nameCollision, s!"context is sealed; use rebind for {role}", some (.str role)⟩
  | .roleBound role => ⟨.nameCollision, s!"role already bound: {role}", some (.str role)⟩
  | .playsRole s role => ⟨.nameCollision, s.shown ++ " already plays role " ++ role, some s⟩
  | .roleUnbound role => ⟨.unboundRole, s!"unbound role: {role}", some (.str role)⟩
  | .playsNoRole s => ⟨.unboundRole, s.shown ++ " plays no role", some s⟩
  | .noSuchNode literal n => ⟨.unknownNode, s!"no such node: {literal}", some n⟩
  | .unbound name => ⟨.unboundSymbol, s!"unbound symbol: {name}", some (.sym name)⟩
  | .undesignated s => ⟨.typeMismatch, "expected a node", some s⟩
  | .notCallable s => ⟨.typeMismatch, "not callable", some s⟩
  | .roleNotCallable role form => ⟨.typeMismatch, s!"{role} cannot be called", some form⟩
  | .formNotApplicable role s =>
    ⟨.typeMismatch, s!"special form {role} cannot be applied", some s⟩
  | .arity form expected given call =>
    let words := expected.words
    ⟨.arityMismatch, s!"({form}) expects {words} argument(s), given {given}", some call⟩
  | .parameter s => ⟨.typeMismatch, "lambda parameters must be symbols", some s⟩
  | .repeatedParameter name =>
    ⟨.evaluation, s!"duplicate lambda parameter: {name}", some (.sym name)⟩
  | .letEntry s => ⟨.typeMismatch, "let bindings must be (name value) lists", some s⟩
  | .repeatedLet name => ⟨.evaluation, s!"duplicate let binding: {name}", some (.sym name)⟩
  | .defName s => ⟨.typeMismatch, "def expects a symbol name", some s⟩
  | .notIntegers operator s => ⟨.typeMismatch, s!"({operator}) expects integers", some s⟩
  | .divisionByZero form => ⟨.evaluation, "division by zero", some form⟩
  | .expectsPair operator s => ⟨.notAPair, s!"{operator} expects a pair", some s⟩
  | .expectsProperList s => ⟨.notAPair, "list-len expects a proper list", some s⟩
  | .expectsName s => ⟨.typeMismatch, "env-find expects a name", some s⟩
  | .currentLocation n => ⟨.referencedNode, "cannot delete the current location", some n⟩
  | .boundToRole n role => ⟨.referencedNode, s!"node is bound to the {role} role", some n⟩
  | .noEnvironmentHere n =>
    ⟨.unknownEnvironment, n.shown ++ " does not denote an environment", some n⟩
  | .noWormhole env predicate =>
    ⟨.unknownEnvironment, s!"no wormhole leads out of environment {env}", predicate.map .node⟩
  | .selection s => ⟨.typeMismatch, "compile predicates must be nodes", some s⟩
  | .jumpTarget s => ⟨.typeMismatch, "a jump target must be a node", some s⟩
  | .jumpMissing n => ⟨.unknownNode, "cannot jump to missing node " ++ n.shown, some n⟩
  | .depth top => ⟨.evaluation, "recursion depth exceeded", some top⟩

/-- The kind of a failure. -/
def kind (f : Fault) : Kind := f.report.kind

/-- The wording of a failure. -/
def message (f : Fault) : String := f.report.message

/-- The structure that a failure blames, if there is one. -/
def offender (f : Fault) : Option Structure := f.report.offender.bind Structure.given?

/-- Whether every number in the wording of a failure can be written. A number of entries always can, and the
structure that is blamed does not matter unless it is in the wording. -/
def isWritable : Fault → Bool
  | .foreign node home => [node.env, home].all Decimal.isWritable
  | .absent _ home => Decimal.isWritable home
  | .unresolvable mentioned | .absentMention mentioned => mentioned.isWritable
  | .usedElsewhere _ holders => holders.all Node.isWritable
  | .live node => Decimal.isWritable node.id
  | .noEnvironment env | .noRootNode env | .idTaken env | .noWormhole env _ => Decimal.isWritable env
  | .undenoting node | .cycle node | .noEnvironmentHere node | .jumpMissing node => node.isWritable
  | .playsRole found _ | .playsNoRole found => found.isWritable
  | .corrupt damage => damage.isWritable
  | _ => true

/-- A failure as it comes to be told: one that cannot be put in words is another failure. -/
def told (f : Fault) : Fault := if f.isWritable then f else .numeral none

end Fault

end GraphLisp
