/-
**The program.**

Files, the input, the clock and chance are taken from the system; all else is `CommandLine.run`.
There is no network and no database engine, and only simple scripts can be run as processes.
-/

import FieldResolver.CommandLine.Run
import FieldResolver.Source.Script
import FieldResolver.Text.Identifier
import Std.Time.DateTime.Timestamp

open FieldResolver

/-- The text of a file, or why there is none. -/
def fileContent (path : String) : IO (Except String String) := do
  try return .ok (← IO.FS.readFile path)
  catch error => return .error (toString error)

/-- All of the input. -/
def standardInput : IO String := do
  let stream ← IO.getStdin
  if ← stream.isTty then return ""
  else stream.readToEnd

/-- A natural number below `2 ^ 128`, by chance. -/
def randomSeed : IO Nat := do
  let bytes ← IO.getRandomBytes 16
  return bytes.foldl (fun seed byte => seed * 256 + byte.toNat) 0

/-- What a system without a network and databases offers. -/
def localServices : Services where
  launcher := Script.launcher fun _ => true
  transport := fun _ => .error "there is no network"
  database :=
    { connect := fun _ => .error "there is no engine"
      run := fun _ _ => .error "there is no engine" }

/-- Runs the program. -/
def main (arguments : List String) : IO UInt32 := do
  let now ← Std.Time.Timestamp.now
  let seed ← randomSeed
  let setting : CommandLine.Setting IO :=
    { contentOf := fileContent, input := standardInput
      surroundings :=
        { now := now.toMillisecondsSinceUnixEpoch.val
          identifier := fun n =>
            Text.identifierText (seed + n * 0x9E3779B97F4A7C15F39CC0605CEDC835) }
      services := localServices }
  match ← CommandLine.run setting arguments with
  | .ok text => IO.print text; return 0
  | .error failure =>
    IO.eprintln ("Error: " ++ failure.message)
    return failure.exitStatus.toUInt32
