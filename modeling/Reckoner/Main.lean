import Reckoner.CommandLine

/-!
# The program
-/

/-- The rounds and the depth that a computation may have.  No computation gets that far in
practice. -/
def computationLimit : Nat := 1000000000000000

/-- Read everything from a stream. -/
partial def readAll (stream : IO.FS.Stream) (read : List UInt8) : IO (List UInt8) := do
  let chunk ← stream.read 65536
  if chunk.isEmpty then return read else readAll stream (read ++ chunk.toList)

/-- Run the program and write what it leaves behind. -/
def main (arguments : List String) : IO UInt32 := do
  let value ← IO.getEnv Reckoner.Configuration.numberVariable
  let input ←
    if arguments.head? == some "repl" then readAll (← IO.getStdin) [] else pure []
  let lookup : String → Option String := fun name =>
    if name == Reckoner.Configuration.numberVariable then value else none
  let outcome := Reckoner.CommandLine.run computationLimit arguments lookup input
  IO.print outcome.output
  IO.eprint outcome.errors
  return outcome.code.toUInt32
