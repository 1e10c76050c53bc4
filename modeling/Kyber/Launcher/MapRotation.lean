import Kyber.Lib.Base64
import Kyber.Lib.Utf16

/-!
# Map rotations (`export_rotation_dialog.dart`, `start_server_command.dart`)

The launcher exports a map rotation as a text of one line for each entry, in base 64.
The command line client takes the export from its environment, or the lines from a file.
Strings are code units. The client opens its file under a name that is declared anew in
an inner block, so that the variable the lines are read from stays null.
-/

namespace Kyber.Launcher

open Kyber.Lib

abbrev DartString := List UInt16

structure LevelSetup where
  map : DartString
  mode : DartString
  deriving DecidableEq, Repr

def semicolon : UInt16 := 0x3b
def newline : UInt16 := 0x0a
def carriageReturn : UInt16 := 0x0d
def hash : UInt16 := 0x23

/-! ## The launcher -/

/-- `'${e['mode']};${e['map']}'` -/
def LevelSetup.line (entry : LevelSetup) : DartString := entry.mode ++ semicolon :: entry.map

/-- The lines of a rotation, joined. -/
def rotationText (rotation : List LevelSetup) : DartString :=
  [newline].intercalate (rotation.map LevelSetup.line)

/-- `generateData` for base 64. -/
def generateData (rotation : List LevelSetup) : DartString :=
  Base64.encode (Utf16.encodeUtf8 (rotationText rotation))

/-! ## The command line client -/

inductive Failure
  /-- an error is logged, and the exit code is that of a wrong usage -/
  | usage (message : String)
  /-- `!` on null -/
  | nullCheck
  | formatException
  | fileSystemException
  deriving DecidableEq, Repr

structure Invocation where
  /-- the option `rotation-file` -/
  rotationFile : Option DartString := none
  /-- `KYBER_MAP_ROTATION` -/
  environment : Option DartString := none
  files : DartString → Option (List UInt8) := fun _ => none

/-- `LineSplitter`, after a part of the current line. -/
def splitLines : DartString → DartString → List DartString
  | line, [] => if line.isEmpty then [] else [line]
  | line, [u] => if u = newline ∨ u = carriageReturn then [line] else [line ++ [u]]
  | line, u :: v :: rest =>
      if u = carriageReturn ∧ v = newline then line :: splitLines [] rest
      else if u = newline ∨ u = carriageReturn then line :: splitLines [] (v :: rest)
      else splitLines (line ++ [u]) (v :: rest)

def readAsLinesSync (content : List UInt8) : Except Failure (List DartString) :=
  match Utf16.decodeUtf8 content with
  | some text => .ok (splitLines [] text)
  | none => .error .fileSystemException

/-- `utf8.decode(base64.decode(value)).split('\n')` -/
def decodeRotation (value : DartString) : Except Failure (List DartString) :=
  match (Base64.decode value).bind Utf16.decodeUtf8 with
  | some text => .ok (text.splitOn newline)
  | none => .error .formatException

/-- The loop over the lines. -/
def parseLines (mapRotation : List LevelSetup) : List DartString → Except Failure (List LevelSetup)
  | [] => .ok mapRotation
  | line :: data =>
      if line.isEmpty ∨ line.head? = some hash then parseLines mapRotation data
      else
        match line.splitOn semicolon with
        | [mode, map] => parseLines (mapRotation ++ [{ map, mode }]) data
        | _ => .error (.usage "Invalid rotation file")

def loadRotation (i : Invocation) : Except Failure (List LevelSetup) :=
  if i.rotationFile.isNone && i.environment.isNone then .ok []
  else do
    let file : Option (List UInt8) := none
    match i.rotationFile with
    | some path =>
        -- The file that is found here goes out of scope with the block.
        let file := i.files path
        if file.isNone then throw (.usage "The specified rotation file does not exist")
    | none => pure ()
    let data ←
      match i.environment with
      | some value => decodeRotation value
      | none =>
          match file with
          | some content => readAsLinesSync content
          | none => throw .nullCheck
    parseLines [] data

end Kyber.Launcher
