import GraphLisp.Agent
import GraphLisp.Config
import GraphLisp.Universe.Folder
/-!
# Sessions

A session loads the universe of a folder, or starts a new one, binds the roles of the language,
and has a home environment. A checkpoint saves its universe.
-/

namespace GraphLisp

/-- A universe with its context and its home. -/
structure Session where
  config : Config
  store : Universe
  context : Context
  /-- The id of the home environment. -/
  home : Int

namespace Universe

/-- Loads the universe of a folder, or removes its snapshots and starts anew. -/
def start (label : String) (reset : Bool) : InFolder Universe := fun f =>
  if reset then .ok empty f.discard.2
  else
    match load label f with
    | .ok u => .ok u f
    | .error fault => .error fault f

end Universe

namespace Session

/-- Binds the roles of the language, and finds or makes the home. -/
def setUp (config : Config) : Universe.Change (Context × Int) := do
  let context ← Context.bootstrap config.langName
  let home ← Universe.demandEnvironment config.homeName
  return (context, home)

/-- The session of a universe. -/
def ofUniverse (config : Config) (u : Universe) : Except Fault Session :=
  match setUp config u with
  | .ok (context, home) u => .ok ⟨config, u, context, home⟩
  | .error fault _ => .error fault

/-- Starts a session. Only a session with a folder of its own looks at the folder. -/
def start (config : Config) (label : String) : Universe.InFolder Session := do
  let u ← if config.snapshotDir.isSome then Universe.start label config.reset else pure .empty
  match ofUniverse config u with
  | .ok s => return s
  | .error fault => throw fault

/-- An agent at home. -/
def agent (s : Session) : Agent := .spawn s.home (.node ⟨s.home, selfHandle⟩)

/-- The session as messages show it. -/
def shown (s : Session) : String := "<Session " ++ s.store.shown ++ s!" home={s.home}>"

/-- Saves the universe of a session, given as it is by now. A session without a folder saves
nothing. -/
def checkpoint (config : Config) (u : Universe) : Universe.InFolder (List String) :=
  if config.snapshotDir.isSome then u.save (some config.snapshotFormat) else return []

end Session

end GraphLisp
