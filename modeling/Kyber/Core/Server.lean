import Mathlib.Data.List.Basic

/-!
# Level requests of the game server (`Server.cpp`)

The module loads levels by posting a `LevelSetup` to the engine. The post is hooked:
while no level is loaded a request is not passed on but kept in a slot for one, and
`OnLevelLoaded` posts what the slot holds. `Start` forces its level through.

The engine is outside. What it has been handed and what it is still loading is
recorded here beside the server's fields, with the arguments of the last request; an
`OnLevelLoaded` event is the end of one of these loads, or comes without one: the
event is also raised for levels that the engine loads by itself. The fields for the
current level and what is told to the server browser do not bear on the requests
and are left out. Strings are C strings, and a null pointer is none.
-/

namespace Kyber.Core

/-- The fields of the engine's `LevelSetup` that the module writes; `gameMode` is
the inclusion option of that name. -/
structure LevelSetup where
  name : String
  gameMode : Option String := none
  initialStartPoint : Option String := none
  initialDSubLevel : Option String := none
  deriving DecidableEq, Repr

def initLevelSetup (level : String) (mode : Option String) (startPoint initialSubLevel : String) :
    LevelSetup :=
  match mode with
  | none => { name := level }
  | some mode =>
      if mode ≠ "Campaign" then { name := level, gameMode := some mode }
      else
        { name := level, gameMode := some mode,
          initialStartPoint := if initialSubLevel ≠ "" then some startPoint else none,
          initialDSubLevel := some initialSubLevel }

/-- The arguments of `LoadNextLevel`. -/
structure LevelCall where
  level : String
  mode : Option String := none
  startPoint : String := ""
  initialSubLevel : String := ""
  deriving DecidableEq, Repr

structure LoadLevelRequest where
  level : String := ""
  mode : String := ""
  deriving DecidableEq, Repr

structure Server where
  levelLoaded : Bool := false
  latestLoadLevelRequest : LoadLevelRequest := {}
  deriving DecidableEq, Repr

/-- A load that the engine has begun. -/
structure Load where
  setup : LevelSetup
  forced : Bool
  deriving DecidableEq, Repr

/-- A setup that is handed to the engine, with the loads in progress at that time. -/
structure HandOver where
  setup : LevelSetup
  forced : Bool
  during : List Load
  deriving DecidableEq, Repr

structure Game where
  server : Server := {}
  loading : List Load := []
  handed : List HandOver := []
  /-- what was last asked for, by a request or by `Start` -/
  requested : Option LevelCall := none
  deriving DecidableEq, Repr

inductive Action
  /-- `LoadNextLevel` -/
  | request (call : LevelCall)
  /-- `Start`, with the level and mode of its creation info -/
  | start (level mode : String) (changeState : Bool)
  /-- `OnLevelLoaded`, and which of the loads in progress has ended -/
  | loaded (load : Option Nat)
  deriving DecidableEq, Repr

namespace Game

-- What `GetInclusionOption` answers for an option that is not set.
variable (unset : String)

def setLevelLoaded (g : Game) (levelLoaded : Bool) : Game :=
  { g with server := { g.server with levelLoaded } }

def setRequest (g : Game) (request : LoadLevelRequest) : Game :=
  { g with server := { g.server with latestLoadLevelRequest := request } }

/-- The engine gets a setup. -/
def handOver (g : Game) (setup : LevelSetup) (forced : Bool) : Game :=
  { g with
    loading := g.loading ++ [{ setup, forced }]
    handed := g.handed ++ [{ setup, forced, during := g.loading }] }

/-- `ServerLoadLevelMessagePostHk` -/
def post (g : Game) (setup : LevelSetup) (forced : Bool) : Game :=
  if !g.server.levelLoaded then
    g.setRequest { level := setup.name, mode := setup.gameMode.getD unset }
  else (g.setLevelLoaded false).handOver setup forced

def loadNextLevel (g : Game) (call : LevelCall) (forced : Bool) : Game :=
  g.post unset (initLevelSetup call.level call.mode call.startPoint call.initialSubLevel) forced

def onLevelLoaded (g : Game) : Game :=
  let g := g.setLevelLoaded true
  let request := g.server.latestLoadLevelRequest
  if request.level ≠ "" then
    (g.loadNextLevel unset { level := request.level, mode := some request.mode } false).setRequest {}
  else g

/-- `Start`, as far as it concerns levels. -/
def start (g : Game) (level mode : String) (changeState : Bool) : Game :=
  if changeState then
    let call : LevelCall := { level, mode := some mode }
    ({ g with requested := some call }.setLevelLoaded true).loadNextLevel unset call true
  else g

def step (g : Game) : Action → Option Game
  | .request call => some ({ g with requested := some call }.loadNextLevel unset call false)
  | .start level mode changeState => some (g.start unset level mode changeState)
  | .loaded none => some (g.onLevelLoaded unset)
  | .loaded (some i) =>
      if i < g.loading.length then
        some ({ g with loading := g.loading.eraseIdx i }.onLevelLoaded unset)
      else none

/-- A new server, beside an engine that may be loading a level of its own. -/
def init (boot : Option LevelSetup) : Game :=
  { loading := boot.toList.map fun setup => { setup, forced := false } }

end Game

end Kyber.Core
