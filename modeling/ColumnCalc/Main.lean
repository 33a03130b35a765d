import ColumnCalc.Command.Run

/-!
# The command line

Loads the files that the arguments name, runs the program on them and stores what it wrote.
-/

namespace ColumnCalc.Shell

/-- The path behind a full name. -/
def pathOf (full : String) : Path :=
  (Directory.parts full).filter (· ≠ "")

/-- The full name of what a name leads to, none if nothing is there. -/
def fullName? (name : String) : IO (Option String) := do
  try
    let path ← IO.FS.realPath name
    pure (some path.toString)
  catch _ => pure none

/-- Loads the file or folder with a full name; a file that cannot be read is refused by name. -/
def loadEntry (d : Directory) (name full : String) : IO Directory := do
  let path := pathOf full
  let above := d.addAbove path
  if (d.entries.lookup path).isSome then pure d
  else
    try
      let bytes ← IO.FS.readBinFile full
      pure (above.add path bytes.data.toList)
    catch error =>
      match error with
      | .inappropriateType .. => pure { above with entries := (path, .folder) :: above.entries }
      | _ => pure { above.add path [] with
          refusals := ((name, .read), error.toString) :: above.refusals }

/-- Loads everything that a name passes, links included, up to the first part that leads nowhere. -/
def loadName (d : Directory) (name : String) : IO Directory := do
  let pieces := name.toList.splitOn '/'
  let mut loaded := d
  let mut folder := Directory.base d.start name
  for (piece, i) in pieces.zipIdx do
    let passed := String.ofList (['/'].intercalate (pieces.take (i + 1)))
    if passed ≠ "" then
      match ← fullName? passed with
      | none => return loaded
      | some full =>
        loaded ← loadEntry loaded passed full
        let own := Directory.behind folder (.ofList piece)
        if own ≠ pathOf full then
          loaded := { loaded with entries := (own, .link full) :: loaded.entries }
        folder := pathOf full
  pure loaded

/-- What the names pass and lead to. Hard links are loaded as files of their own. -/
def load (names : List String) : IO Directory := do
  let start ← fullName? "."
  names.foldlM loadName ⟨[], pathOf (start.getD "/"), [], []⟩

/-- The files of the outcome that the invocation may have written. -/
def store (names : List String) (before after : Directory) : IO Unit := do
  for name in names do
    if let some bytes := after.get? name then
      if before.get? name ≠ some bytes then
        IO.FS.writeBinFile name bytes.toByteArray

/-- Everything that a stream still holds. -/
partial def readAll (stream : IO.FS.Stream) (read : ByteArray) : IO ByteArray := do
  let chunk ← stream.read 65536
  if chunk.isEmpty then pure read else readAll stream (read ++ chunk)

/-- Standard input, none if it is a terminal. -/
def standardInput : IO (Option Bytes) := do
  let stream ← IO.getStdin
  if ← stream.isTty then pure none
  else
    let bytes ← readAll stream .empty
    pure (some bytes.data.toList)

end ColumnCalc.Shell

open ColumnCalc in
def main (args : List String) : IO UInt32 := do
  let invocation := Invocation.ofArguments? args
  let directory ← Shell.load ((invocation.map (·.fileNames)).getD [])
  let needsInput : Bool :=
    match invocation with
    | some (.transform a) => a.input.isNone && a.count.isNone
    | _ => false
  let input ← if needsInput then Shell.standardInput else pure none
  let outcome := Program.run directory input args
  Shell.store ((invocation.map (·.outputNames)).getD []) directory outcome.directory
  let output ← IO.getStdout
  output.write outcome.output.toByteArray
  output.flush
  IO.eprint outcome.message
  pure (.ofNat outcome.code)
