import Mathlib.Data.List.Infix
import Kyber.Launcher.MapRotation

/-!
# Modes and maps, and saved rotations (`mode.dart`, `modes.dart`, `maps.dart`, `map_helper.dart`)

The modes that the game has, with their maps, and the names of these. A mode may have other
names for some of its maps. Images are left out.
-/

namespace Kyber.Launcher

inductive LauncherError
  | stateError
  | exception (message : String)
  deriving DecidableEq, Repr

/-- A text of ASCII characters. -/
def ofString (text : String) : DartString := text.toUTF8.data.toList.map UInt8.toUInt16

structure MapOverride where
  map : DartString
  name : DartString
  deriving DecidableEq

structure Mode where
  mode : DartString
  name : DartString
  maxPlayers : Int
  maps : List DartString
  mapOverrides : Option (List MapOverride) := none
  isCustom : Bool := false
  alternativeModes : List DartString := []
  deriving DecidableEq

structure KyberMap where
  map : DartString
  name : DartString
  isCustom : Bool := false
  mode : Option DartString := none
  deriving DecidableEq

/-- One element of the JSON that the modes are made from. -/
def builtIn (maxPlayers : Int) (mode name : String) (maps : List String)
    (mapOverrides : Option (List (String × String))) : Mode where
  mode := ofString mode
  name := ofString name
  maxPlayers := maxPlayers
  maps := maps.map ofString
  mapOverrides := mapOverrides.map fun overrides =>
    overrides.map fun o => { map := ofString o.1, name := ofString o.2 }

def modes : List Mode := [
  builtIn 8 "HeroesVersusVillains" "Heroes Versus Villains"
    ["S5_1/Levels/MP/Geonosis_01/Geonosis_01", "Levels/MP/Kamino_01/Kamino_01",
     "Levels/MP/Naboo_02/Naboo_02", "Levels/MP/Kashyyyk_01/Kashyyyk_01",
     "S8/Felucia/Levels/MP/Felucia_01/Felucia_01", "S7_2/Levels/Naboo_03/Naboo_03",
     "S6_2/Geonosis_02/Levels/Geonosis_02/Geonosis_02", "S3/Levels/Kessel_01/Kessel_01",
     "S9_3/Scarif/Levels/MP/Scarif_02/Scarif_02", "Levels/MP/Tatooine_01/Tatooine_01",
     "Levels/MP/Yavin_01/Yavin_01", "Levels/MP/Hoth_01/Hoth_01",
     "S2/Levels/CloudCity_01/CloudCity_01", "S2_2/Levels/JabbasPalace_01/JabbasPalace_01",
     "Levels/MP/Endor_01/Endor_01", "Levels/MP/DeathStar02_01/DeathStar02_01",
     "Levels/MP/Jakku_01/Jakku_01", "Levels/MP/Takodana_01/Takodana_01",
     "Levels/MP/StarKiller_01/StarKiller_01", "S9_3/Crait/Crait_02",
     "S9/Paintball/Levels/MP/Paintball_01/Paintball_01", "S9/Takodana_02/Takodana_02",
     "S9/Jakku_02/Jakku_02"]
    (some [("Levels/MP/Tatooine_01/Tatooine_01", "Tatooine - Mos Eisley"),
      ("S2_2/Levels/JabbasPalace_01/JabbasPalace_01", "Tatooine - Jabba's Palace"),
      ("S7_2/Levels/Naboo_03/Naboo_03", "Republic Venator"),
      ("S6_2/Geonosis_02/Levels/Geonosis_02/Geonosis_02", "Separatist Dreadnought"),
      ("S9/Jakku_02/Jakku_02", "Resurgent Star Destroyer"),
      ("S9/Takodana_02/Takodana_02", "MC85 Star Cruiser")]),
  builtIn 40 "PlanetaryBattles" "Galactic Assault"
    ["S5_1/Levels/MP/Geonosis_01/Geonosis_01", "Levels/MP/Kamino_01/Kamino_01",
     "Levels/MP/Naboo_01/Naboo_01", "Levels/MP/Kashyyyk_01/Kashyyyk_01",
     "Levels/MP/Tatooine_01/Tatooine_01", "Levels/MP/Yavin_01/Yavin_01",
     "Levels/MP/Hoth_01/Hoth_01", "Levels/MP/Endor_01/Endor_01",
     "Levels/MP/DeathStar02_01/DeathStar02_01", "Levels/MP/Jakku_01/Jakku_01",
     "Levels/MP/Takodana_01/Takodana_01", "Levels/MP/StarKiller_01/StarKiller_01",
     "S1/Levels/Crait_01/Crait_01"]
    none,
  builtIn 40 "Mode1" "Supremacy"
    ["S6_2/Geonosis_02/Levels/Geonosis_02/Geonosis_02", "S7_1/Levels/Kamino_03/Kamino_03",
     "S7_2/Levels/Naboo_03/Naboo_03", "S7/Levels/Kashyyyk_02/Kashyyyk_02",
     "S8/Felucia/Levels/MP/Felucia_01/Felucia_01", "S9_3/Scarif/Levels/MP/Scarif_02/Scarif_02",
     "S9_3/Tatooine_02/Tatooine_02", "Levels/MP/Yavin_01/Yavin_01", "S9_3/Hoth_02/Hoth_02",
     "Levels/MP/DeathStar02_01/DeathStar02_01", "S9/Jakku_02/Jakku_02",
     "S9/Takodana_02/Takodana_02", "S9/Paintball/Levels/MP/Paintball_01/Paintball_01"]
    none,
  builtIn 4 "Mode9" "CO-OP Attack"
    ["S5_1/Levels/MP/Geonosis_01/Geonosis_01", "Levels/MP/Kamino_01/Kamino_01",
     "S7_2/Levels/Naboo_03/Naboo_03", "S7/Levels/Kashyyyk_02/Kashyyyk_02",
     "S8/Felucia/Levels/MP/Felucia_01/Felucia_01", "S7_1/Levels/Kamino_03/Kamino_03",
     "S6_2/Geonosis_02/Levels/Geonosis_02/Geonosis_02", "S3/Levels/Kessel_01/Kessel_01",
     "S9_3/Scarif/Levels/MP/Scarif_02/Scarif_02", "Levels/MP/Tatooine_01/Tatooine_01",
     "Levels/MP/Yavin_01/Yavin_01", "Levels/MP/Hoth_01/Hoth_01",
     "S2_2/Levels/JabbasPalace_01/JabbasPalace_01", "Levels/MP/Endor_01/Endor_01",
     "Levels/MP/DeathStar02_01/DeathStar02_01", "S9/Jakku_02/Jakku_02",
     "S9/Takodana_02/Takodana_02", "S9/StarKiller_02/StarKiller_02",
     "S9/Paintball/Levels/MP/Paintball_01/Paintball_01", "S9_3/COOP_NT_MC85/COOP_NT_MC85",
     "S9_3/COOP_NT_FOSD/COOP_NT_FOSD"]
    (some [("S6_2/Geonosis_02/Levels/Geonosis_02/Geonosis_02", "Separatist Dreadnought"),
      ("S7_1/Levels/Kamino_03/Kamino_03", "Republic Venator"),
      ("Levels/MP/Tatooine_01/Tatooine_01", "Tatooine - Mos Eisley"),
      ("S2_2/Levels/JabbasPalace_01/JabbasPalace_01", "Tatooine - Jabba's Palace")]),
  builtIn 4 "ModeDefend" "CO-OP Defend"
    ["S5_1/Levels/MP/Geonosis_01/Geonosis_01", "Levels/MP/Kamino_01/Kamino_01",
     "S7_2/Levels/Naboo_03/Naboo_03", "S7/Levels/Kashyyyk_02/Kashyyyk_02",
     "S8/Felucia/Levels/MP/Felucia_01/Felucia_01", "S7_1/Levels/Kamino_03/Kamino_03",
     "S6_2/Geonosis_02/Levels/Geonosis_02/Geonosis_02", "S3/Levels/Kessel_01/Kessel_01",
     "S9_3/Scarif/Levels/MP/Scarif_02/Scarif_02", "Levels/MP/Tatooine_01/Tatooine_01",
     "Levels/MP/Yavin_01/Yavin_01", "Levels/MP/Hoth_01/Hoth_01",
     "S2_2/Levels/JabbasPalace_01/JabbasPalace_01", "Levels/MP/Endor_01/Endor_01",
     "Levels/MP/DeathStar02_01/DeathStar02_01", "S9/Jakku_02/Jakku_02",
     "S9/Takodana_02/Takodana_02", "S9/StarKiller_02/StarKiller_02",
     "S9/Paintball/Levels/MP/Paintball_01/Paintball_01", "S9_3/COOP_NT_MC85/COOP_NT_MC85",
     "S9_3/COOP_NT_FOSD/COOP_NT_FOSD"]
    (some [("S6_2/Geonosis_02/Levels/Geonosis_02/Geonosis_02", "Separatist Dreadnought"),
      ("S7_1/Levels/Kamino_03/Kamino_03", "Republic Venator"),
      ("Levels/MP/Tatooine_01/Tatooine_01", "Tatooine - Mos Eisley"),
      ("S2_2/Levels/JabbasPalace_01/JabbasPalace_01", "Tatooine - Jabba's Palace")]),
  builtIn 16 "PlanetaryMissions" "Strike"
    ["Levels/MP/Kamino_01/Kamino_01", "Levels/MP/Naboo_01/Naboo_01",
     "Levels/MP/Kashyyyk_01/Kashyyyk_01", "Levels/MP/Tatooine_01/Tatooine_01",
     "Levels/MP/Yavin_01/Yavin_01", "Levels/MP/Hoth_01/Hoth_01", "Levels/MP/Endor_01/Endor_01",
     "Levels/MP/DeathStar02_01/DeathStar02_01", "Levels/MP/Jakku_01/Jakku_01",
     "Levels/MP/Takodana_01/Takodana_01", "Levels/MP/StarKiller_01/StarKiller_01",
     "S1/Levels/Crait_01/Crait_01"]
    (some [("S1/Levels/Crait_01/Crait_01", "Crait")]),
  builtIn 16 "Mode5" "Extraction"
    ["S3/Levels/Kessel_01/Kessel_01", "S2_2/Levels/JabbasPalace_01/JabbasPalace_01"]
    none,
  builtIn 16 "Blast" "Blast"
    ["S5_1/Levels/MP/Geonosis_01/Geonosis_01", "Levels/MP/Kamino_01/Kamino_01",
     "Levels/MP/Naboo_01/Naboo_01", "Levels/MP/Naboo_02/Naboo_02",
     "Levels/MP/Kashyyyk_01/Kashyyyk_01", "S3/Levels/Kessel_01/Kessel_01",
     "Levels/MP/Tatooine_01/Tatooine_01", "Levels/MP/Yavin_01/Yavin_01",
     "Levels/MP/Hoth_01/Hoth_01", "S2/Levels/CloudCity_01/CloudCity_01",
     "S2_2/Levels/JabbasPalace_01/JabbasPalace_01", "Levels/MP/Endor_01/Endor_01",
     "S2_1/Levels/Endor_02/Endor_02", "Levels/MP/DeathStar02_01/DeathStar02_01",
     "Levels/MP/Jakku_01/Jakku_01", "Levels/MP/Takodana_01/Takodana_01",
     "Levels/MP/StarKiller_01/StarKiller_01", "S1/Levels/Crait_01/Crait_01"]
    (some [("Levels/MP/Tatooine_01/Tatooine_01", "Tatooine - Mos Eisley"),
      ("Levels/MP/Naboo_02/Naboo_02", "Naboo - Palace Hangar"),
      ("S2_2/Levels/JabbasPalace_01/JabbasPalace_01", "Tatooine - Jabba's Palace"),
      ("Levels/MP/Endor_01/Endor_01", "Endor - Research Station 9"),
      ("S2_1/Levels/Endor_02/Endor_02", "Endor - Ewok Village"),
      ("Levels/MP/Naboo_01/Naboo_01", "Naboo - Theed Palace")]),
  builtIn 20 "Mode3" "Ewok Hunt"
    ["S2_1/Levels/Endor_02/Endor_02", "S8_1/Endor_04/Endor_04"]
    none,
  builtIn 20 "ModeC" "Jetpack Cargo"
    ["Levels/MP/Tatooine_01/Tatooine_01", "Levels/MP/Yavin_01/Yavin_01",
     "S2/Levels/CloudCity_01/CloudCity_01"]
    none,
  builtIn 24 "SpaceBattle" "Starfighter Assault"
    ["Levels/Space/SB_DroidBattleShip_01/SB_DroidBattleShip_01",
     "Levels/Space/SB_Kamino_01/SB_Kamino_01", "Levels/Space/SB_Fondor_01/SB_Fondor_01",
     "Levels/Space/SB_Endor_01/SB_Endor_01", "Levels/Space/SB_Resurgent_01/SB_Resurgent_01",
     "S1/Levels/Space/SB_SpaceBear_01/SB_SpaceBear_01"]
    none,
  builtIn 8 "Mode7" "Hero Starfighters"
    ["Levels/Space/SB_DroidBattleShip_01/SB_DroidBattleShip_01",
     "Levels/Space/SB_Kamino_01/SB_Kamino_01", "Levels/Space/SB_Fondor_01/SB_Fondor_01",
     "Levels/Space/SB_Endor_01/SB_Endor_01", "Levels/Space/SB_Resurgent_01/SB_Resurgent_01",
     "S1/Levels/Space/SB_SpaceBear_01/SB_SpaceBear_01"]
    none,
  builtIn 4 "Mode6" "Hero Showdown"
    ["S5_1/Levels/MP/Geonosis_01/Geonosis_01", "Levels/MP/Kamino_01/Kamino_01",
     "Levels/MP/Naboo_02/Naboo_02", "Levels/MP/Kashyyyk_01/Kashyyyk_01",
     "S8/Felucia/Levels/MP/Felucia_01/Felucia_01", "S7_2/Levels/Naboo_03/Naboo_03",
     "S6_2/Geonosis_02/Levels/Geonosis_02/Geonosis_02", "S3/Levels/Kessel_01/Kessel_01",
     "S9_3/Scarif/Levels/MP/Scarif_02/Scarif_02", "Levels/MP/Tatooine_01/Tatooine_01",
     "Levels/MP/Yavin_01/Yavin_01", "Levels/MP/Hoth_01/Hoth_01",
     "S2/Levels/CloudCity_01/CloudCity_01", "S2_2/Levels/JabbasPalace_01/JabbasPalace_01",
     "Levels/MP/Endor_01/Endor_01", "Levels/MP/DeathStar02_01/DeathStar02_01",
     "Levels/MP/Jakku_01/Jakku_01", "Levels/MP/Takodana_01/Takodana_01",
     "Levels/MP/StarKiller_01/StarKiller_01", "S9_3/Crait/Crait_02",
     "S9/Paintball/Levels/MP/Paintball_01/Paintball_01", "S9/Takodana_02/Takodana_02",
     "S9/Jakku_02/Jakku_02"]
    (some [("Levels/MP/Tatooine_01/Tatooine_01", "Tatooine - Mos Eisley"),
      ("S2_2/Levels/JabbasPalace_01/JabbasPalace_01", "Tatooine - Jabba's Palace"),
      ("S7_2/Levels/Naboo_03/Naboo_03", "Republic Venator"),
      ("S6_2/Geonosis_02/Levels/Geonosis_02/Geonosis_02", "Separatist Dreadnought"),
      ("S9/Jakku_02/Jakku_02", "Resurgent Star Destroyer"),
      ("S9/Takodana_02/Takodana_02", "MC85 Star Cruiser")])]

/-- The names of the maps. -/
def maps : List (DartString × DartString) :=
  ([("S5_1/Levels/MP/Geonosis_01/Geonosis_01", "Geonosis"),
    ("S6_2/Geonosis_02/Levels/Geonosis_02/Geonosis_02", "Geonosis"),
    ("Levels/MP/Kamino_01/Kamino_01", "Kamino"), ("S7_1/Levels/Kamino_03/Kamino_03", "Kamino"),
    ("Levels/MP/Naboo_01/Naboo_01", "Naboo"), ("Levels/MP/Naboo_02/Naboo_02", "Naboo"),
    ("S7_2/Levels/Naboo_03/Naboo_03", "Naboo"), ("Levels/MP/Kashyyyk_01/Kashyyyk_01", "Kashyyyk"),
    ("S7/Levels/Kashyyyk_02/Kashyyyk_02", "Kashyyyk"),
    ("S8/Felucia/Levels/MP/Felucia_01/Felucia_01", "Felucia"),
    ("S3/Levels/Kessel_01/Kessel_01", "Kessel"),
    ("S9_3/Scarif/Levels/MP/Scarif_02/Scarif_02", "Scarif"),
    ("Levels/MP/Tatooine_01/Tatooine_01", "Tatooine"),
    ("S9_3/Tatooine_02/Tatooine_02", "Tatooine"), ("Levels/MP/Yavin_01/Yavin_01", "Yavin"),
    ("Levels/MP/Hoth_01/Hoth_01", "Hoth"), ("S9_3/Hoth_02/Hoth_02", "Hoth"),
    ("S2/Levels/CloudCity_01/CloudCity_01", "Bespin"),
    ("S2_2/Levels/JabbasPalace_01/JabbasPalace_01", "Tatooine"),
    ("Levels/MP/Endor_01/Endor_01", "Endor"),
    ("S2_1/Levels/Endor_02/Endor_02", "Endor - Ewok Village"),
    ("S8_1/Endor_04/Endor_04", "Endor - Research Station 9"),
    ("Levels/MP/DeathStar02_01/DeathStar02_01", "Death Star II"),
    ("Levels/MP/Jakku_01/Jakku_01", "Jakku"), ("S9/Jakku_02/Jakku_02", "Jakku"),
    ("Levels/MP/Takodana_01/Takodana_01", "Takodana"), ("S9/Takodana_02/Takodana_02", "Takodana"),
    ("Levels/MP/StarKiller_01/StarKiller_01", "Starkiller Base"),
    ("S9/StarKiller_02/StarKiller_02", "Starkiller Base"),
    ("S1/Levels/Crait_01/Crait_01", "Crait"), ("S9_3/Crait/Crait_02", "Crait"),
    ("S9/Paintball/Levels/MP/Paintball_01/Paintball_01", "Ajan Kloss"),
    ("S9_3/COOP_NT_MC85/COOP_NT_MC85", "MC85 Star Cruiser"),
    ("S9_3/COOP_NT_FOSD/COOP_NT_FOSD", "First Order Star Destroyer"),
    ("Levels/Space/SB_DroidBattleShip_01/SB_DroidBattleShip_01", "Ryloth"),
    ("Levels/Space/SB_Kamino_01/SB_Kamino_01", "Kamino"),
    ("Levels/Space/SB_Fondor_01/SB_Fondor_01", "Fondor"),
    ("Levels/Space/SB_Endor_01/SB_Endor_01", "Endor"),
    ("Levels/Space/SB_Resurgent_01/SB_Resurgent_01", "Unknown Regions"),
    ("S1/Levels/Space/SB_SpaceBear_01/SB_SpaceBear_01", "D'Qar")]).map
    fun m => (ofString m.1, ofString m.2)

/-! ## `MapHelper` -/

/-- The name of a map that has no other one in the mode. -/
def mapName (map : DartString) : Except LauncherError DartString :=
  match maps.find? fun m => m.1 == map with
  | some m => .ok m.2
  | none => .error .stateError

def kyberMap (mode : Mode) (map : DartString) : Except LauncherError KyberMap :=
  match mode.mapOverrides.bind fun overrides => overrides.find? fun x => x.map == map with
  | some override =>
      if override.name = [] then return { map, name := ← mapName map }
      else return { map := override.map, name := override.name }
  | none => return { map, name := ← mapName map }

def getMapsForMode (x : DartString) : Except LauncherError (List KyberMap) :=
  match modes.find? fun element => element.mode == x with
  | none => .ok []
  | some mode => mode.maps.mapM (kyberMap mode)

def getMap (mode map : DartString) : Except LauncherError (Option KyberMap) := do
  return (← getMapsForMode mode).find? fun x => x.map == map

end Kyber.Launcher

/-!
## Saved map rotations (`map_rotation_helper.dart`, `map_rotation_entry.dart`)

A rotation is saved with its modes in front of the maps. What is loaded is taken from the
lines that have a space in them, with the map in front.
-/

namespace Kyber.Launcher

structure MapRotationEntry where
  map : DartString
  mode : DartString
  isCustom : Bool := false
  deriving DecidableEq

def colon : UInt16 := 0x3a
def space : UInt16 := 0x20

namespace MapRotationHelper

/-- `'${entry.mode}:${entry.map}'` -/
def line (entry : MapRotationEntry) : DartString := entry.mode ++ colon :: entry.map

def exportRotation (rotation : List MapRotationEntry) : DartString :=
  rotation.flatMap fun entry => line entry ++ [newline]

/-- The loop body of `loadRotationFromFile`. -/
def loadLine (line : DartString) : Except LauncherError (List MapRotationEntry) :=
  if line = [] ∨ space ∉ line then .ok []
  else do
    let mode := (line.splitOn colon).getLastD []
    let map := (line.splitOn colon).headD []
    if (modes.find? fun x => x.mode == mode).isNone then return []
    let convMaps ← getMapsForMode mode
    if (convMaps.find? fun x => x.map == map).isNone then return []
    return [{ map, mode }]

def loadLines : List DartString → Except LauncherError (List MapRotationEntry)
  | [] => .ok []
  | line :: lines => do
      let maps ← loadLine line
      return maps ++ (← loadLines lines)

def loadRotationFromFile (data : DartString) : Except LauncherError (List MapRotationEntry) :=
  if data = [] then .error (.exception "File is empty")
  else if ∀ element ∈ modes, ¬ element.mode <:+: data then
    .error (.exception "File does not contain any valid gamemode")
  else loadLines (data.splitOn newline)

end MapRotationHelper

end Kyber.Launcher
