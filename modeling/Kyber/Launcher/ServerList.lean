import Kyber.Lib.Groups
import Mathlib.Data.List.Infix

/-!
# The list of servers (`server_list_cubit.dart`, `server_filter.dart`)

The launcher gets the servers from the API, leaves those out that do not pass the filter,
puts the instances of one server in a group, sorts what there is and shows a page of it.
A new list is asked for when the filter or the page is changed, and now and then; it is made
when the answer comes, from the filter and the page of that moment.

`sort` of Dart says nothing about the order of elements that compare equal, and nothing at
all about a comparison that is not consistent. `toLowerCase` is a parameter. Servers that
are only there for developers are in the list that is answered.
-/

namespace Kyber.Launcher.Browser

open Kyber.Lib

structure Server where
  id : String
  name : String
  /-- `levelSetup.mode` -/
  mode : String
  creator : String
  requiresPassword : Bool
  official : Bool
  playerCount : Int32
  region : String
  mods : List String
  /-- `meta`, in which a key occurs once -/
  metaEntries : List (String × String)
  deriving DecidableEq, Repr

namespace Server

def persistedId (s : Server) : Option String := s.metaEntries.lookup "persisted_id"

/-- The server is an instance of one that may have others. -/
def isInstance (s : Server) : Bool :=
  (s.metaEntries.lookup "instance_id").isSome && s.persistedId.isSome

end Server

/-- A group. It is made for two servers or more. -/
structure ServerGroup where
  servers : List Server
  groupName : String
  size : 2 ≤ servers.length
  deriving DecidableEq, Repr

namespace ServerGroup

theorem servers_ne_nil (g : ServerGroup) : g.servers ≠ [] := by
  intro h
  have hsize := g.size
  rw [h] at hsize
  exact absurd hsize (by decide)

def totalPlayerCount (g : ServerGroup) : Int64 :=
  g.servers.foldl (fun previousValue element => previousValue + element.playerCount.toInt64) 0

def serverInfo (g : ServerGroup) : Server := g.servers.head g.servers_ne_nil

/-- From the servers with one `persisted_id`. -/
def ofServers? (servers : List Server) : Option ServerGroup :=
  if h : 2 ≤ servers.length then
    some {
      servers
      groupName := (servers.getLast (by
        intro hnil
        rw [hnil] at h
        exact absurd h (by decide))).name
      size := h }
  else none

end ServerGroup

/-- What is in the list. -/
inductive Entry
  | group (g : ServerGroup)
  | server (s : Server)
  deriving DecidableEq, Repr

namespace Entry

def servers : Entry → List Server
  | .group g => g.servers
  | .server s => [s]

def playerCount : Entry → Int64
  | .group g => g.totalPlayerCount
  | .server s => s.playerCount.toInt64

def info : Entry → Server
  | .group g => g.serverInfo
  | .server s => s

end Entry

/-! ## The filter -/

inductive ServerType
  | all
  | official
  | custom
  | private_
  | event
  deriving DecidableEq, Repr

inductive ServerRegion
  | all
  | na
  | sa
  | eu
  | as
  | oc
  | af
  deriving DecidableEq, Repr

/-- `name` of the enumeration. -/
def ServerRegion.name : ServerRegion → String
  | .all => "all"
  | .na => "na"
  | .sa => "sa"
  | .eu => "eu"
  | .as => "as"
  | .oc => "oc"
  | .af => "af"

inductive GameType
  | all
  | modded
  | vanilla
  deriving DecidableEq, Repr

structure ServerFilter where
  query : Option String := none
  region : ServerRegion := .all
  type : ServerType := .all
  gameType : GameType := .all
  modes : List String := []
  deriving DecidableEq, Repr

inductive FilterMode
  | one (mode : String)
  | two (mode mode' : String)
  deriving DecidableEq, Repr

def filterModes : List (String × FilterMode) :=
  [("Supremacy", .one "Mode1"), ("HvV", .one "HeroesVersusVillains"),
    ("Galactic Assault", .one "PlanetaryBattles"), ("CO-OP", .two "ModeDefend" "Mode9"),
    ("Ewok Hunt", .one "Mode3"), ("Jetpack Cargo", .one "ModeC"), ("Blast", .one "Blast"),
    ("Starfighter Assault", .one "SpaceBattle"), ("Hero Starfighters", .one "Mode7"),
    ("Strike", .one "PlanetaryMissions"), ("Extraction", .one "Mode5"),
    ("Hero Showdown", .one "Mode6")]

/-- `filterModes.firstWhere`, which throws if there is nothing. -/
def filterMode? (name : String) : Option FilterMode :=
  (filterModes.find? (·.1 = name)).map Prod.snd

/-- The modes of the level setups that pass. -/
def mappedModes (modes : List String) : Option (List FilterMode) := do
  let mapped ← (modes.filter (· ≠ "CO-OP")).mapM filterMode?
  if "CO-OP" ∈ modes then
    match ← filterMode? "CO-OP" with
    | .two mode mode' => return mapped ++ [.one mode, .one mode']
    | .one _ => none
  else return mapped

section

variable (toLowerCase : String → String)

def passesType (type : ServerType) (s : Server) : Bool :=
  match type with
  | .official => s.official
  | .custom => !(s.official || s.requiresPassword)
  | .private_ => !(!s.requiresPassword || s.official)
  | .event => false
  | .all => true

def passesRegion (region : ServerRegion) (s : Server) : Bool :=
  region = .all || toLowerCase s.region = region.name

def passesGameType (gameType : GameType) (s : Server) : Bool :=
  match gameType with
  | .all => true
  | .modded => !s.mods.isEmpty
  | .vanilla => s.mods.isEmpty

/-- Which servers pass, unless one of the modes is unknown. -/
def passes? (filter : ServerFilter) : Option (Server → Bool) :=
  if filter.modes.isEmpty then
    some fun s => passesType filter.type s && passesRegion toLowerCase filter.region s &&
      passesGameType filter.gameType s
  else
    (mappedModes filter.modes).map fun modes s =>
      passesType filter.type s && modes.contains (.one s.mode) &&
        passesRegion toLowerCase filter.region s && passesGameType filter.gameType s

/-! ## The list -/

/-- The groups, in the order of their first servers. -/
def groupedServers (servers : List Server) : List (Option String × ServerGroup) :=
  (groupListsBy Server.persistedId (servers.filter Server.isInstance)).filterMap fun entry =>
    (ServerGroup.ofServers? entry.2).map fun g => (entry.1, g)

/-- The groups, and the servers whose `persisted_id` is not that of a group. -/
def newServers (servers : List Server) : List Entry :=
  let serverGroups := groupedServers servers
  serverGroups.map (fun entry => .group entry.2) ++
    (servers.filter fun s => some (s.persistedId.getD "") ∉ serverGroups.map Prod.fst).map .server

/-- `compareTo` of numbers. -/
def compareTo (a b : Int64) : Int := if a < b then -1 else if b < a then 1 else 0

/-- The comparison of the sort. -/
def compareEntries (friends : List String) (entryA entryB : Entry) : Int :=
  let playerCountA := entryA.playerCount
  let playerCountB := entryB.playerCount
  let a := entryA.info
  let b := entryB.info
  let aIsFriend := friends.contains a.creator
  let bIsFriend := friends.contains b.creator
  if a.official && !b.official then -1
  else if !a.official && b.official then 1
  else if aIsFriend && !bIsFriend then -1
  else if !aIsFriend && bIsFriend then 1
  else if a.requiresPassword && !b.requiresPassword then 1
  else if !a.requiresPassword && b.requiresPassword then -1
  else if playerCountA ≠ playerCountB then compareTo playerCountB playerCountA
  else 0

/-- A comparison that a sort can rely on. -/
structure Consistent {α : Type} (compare : α → α → Int) : Prop where
  swap : ∀ a b, compare a b < 0 ↔ 0 < compare b a
  trans : ∀ a b c, compare a b ≤ 0 → compare b c ≤ 0 → compare a c ≤ 0

/-- `List.sort` of Dart. -/
structure DartSort (α : Type) where
  sort : (α → α → Int) → List α → List α
  perm : ∀ compare l, (sort compare l).Perm l
  ordered : ∀ compare, Consistent compare → ∀ l, (sort compare l).Pairwise (compare · · ≤ 0)

/-- The text occurs in the other. -/
def containsText (text pattern : String) : Bool := decide (pattern.toList <:+: text.toList)

variable (S : DartSort Entry)

/-- All entries of the list, over all pages. -/
def entries? (friends : List String) (filter : ServerFilter) (servers : List Server) :
    Option (List Entry) :=
  (passes? toLowerCase filter).map fun passes =>
    let sorted := S.sort (compareEntries friends) (newServers (servers.filter passes))
    match filter.query with
    | none => sorted
    | some query =>
        if query.isEmpty then sorted
        else
          sorted.filter fun entry =>
            containsText (toLowerCase entry.info.name) (toLowerCase query) ||
              containsText (toLowerCase entry.info.creator) (toLowerCase query)

def pageLimit : Nat := 12

/-- `(length / _pageLimit).ceil()` -/
def pageCount (entries : List Entry) : Nat := (entries.length + (pageLimit - 1)) / pageLimit

/-! ## The cubit -/

inductive ServerListState
  | initial
  | loading (page pages : Option Nat)
  | loaded (servers : List Entry) (page pages : Nat)
  deriving DecidableEq, Repr

def ServerListState.pages? : ServerListState → Option Nat
  | .initial => some 1
  | .loading _ pages => pages
  | .loaded _ _ pages => some pages

structure ServerListCubit where
  page : Nat := 1
  filter : ServerFilter := {}
  /-- the states that have been emitted, the last one first; the constructor emits one -/
  emitted : List ServerListState := [.loading none none]
  deriving DecidableEq, Repr

namespace ServerListCubit

def state (c : ServerListCubit) : ServerListState := c.emitted.headD .initial

def emit (c : ServerListCubit) (state : ServerListState) : ServerListCubit :=
  { c with emitted := state :: c.emitted }

/-- `loadServers` up to the request. -/
def loadServers (c : ServerListCubit) : ServerListCubit := c.emit (.loading c.page c.state.pages?)

/-- The rest of it. The friends are those of this moment. -/
def serversLoaded (c : ServerListCubit) (servers : List Server) (friends : List String) :
    ServerListCubit :=
  match entries? toLowerCase S friends c.filter servers with
  | none => c
  | some newServers =>
      let pages := pageCount newServers
      let c := if c.page > pages ∧ pages > 0 then { c with page := pages } else c
      let paginatedServers :=
        if pages = 0 then [] else Lib.page pageLimit newServers (c.page - 1)
      c.emit (.loaded paginatedServers c.page pages)

/-- `filter` is another object than the one that is set, if only with the same values:
`ServerFilter` compares objects, and nothing is done for the same one. -/
def setFilter (c : ServerListCubit) (filter : ServerFilter) : ServerListCubit :=
  let c := { c with page := 1 }
  let c :=
    match c.state with
    | .loaded servers _ pages => c.emit (.loaded servers c.page pages)
    | _ => c
  let c := { c with filter }
  (c.emit (.loading c.page c.state.pages?)).loadServers

def nextPage (c : ServerListCubit) : ServerListCubit :=
  match c.state with
  | .loaded _ page pages =>
      if page + 1 > pages then c
      else
        let c := { c with page := page + 1 }
        (c.emit (.loading c.page pages)).loadServers
  | _ => c

def previousPage (c : ServerListCubit) : ServerListCubit :=
  match c.state with
  | .loaded _ page pages =>
      if page - 1 < 1 then c
      else
        let c := { c with page := page - 1 }
        (c.emit (.loading c.page pages)).loadServers
  | _ => c

end ServerListCubit

inductive BrowserAction
  /-- the list is asked for, by the timer or at the start -/
  | loadServers
  | answered (servers : List Server) (friends : List String)
  | setFilter (filter : ServerFilter)
  | nextPage
  | previousPage
  deriving DecidableEq, Repr

def step (c : ServerListCubit) : BrowserAction → Option ServerListCubit
  | .loadServers => some c.loadServers
  | .answered servers friends => some (c.serversLoaded toLowerCase S servers friends)
  | .setFilter filter => some (c.setFilter filter)
  | .nextPage => some c.nextPage
  | .previousPage => some c.previousPage

end

end Kyber.Launcher.Browser
