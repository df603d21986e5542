import AsmAssist.Command

/- The program: gathers arguments, files and standard input, and writes the outcome. -/

namespace AsmAssist.Program

partial def readAll (stream : IO.FS.Stream) (before : ByteArray) : IO ByteArray := do
  let chunk ← stream.read 65536
  if chunk.isEmpty then return before else readAll stream (before ++ chunk)

def partsOf (path : Bytes) : List Bytes :=
  (Sequence.splitOn Files.slash (Files.clean path)).filter fun part => !part.isEmpty

/-- Adds what a path leads to, if it leads anywhere. -/
def addPath (home : String) (found : Files) (path : Bytes) : IO Files := do
  match String.fromUTF8? ⟨path.toArray⟩ with
  | none => return found
  | some text =>
      let place := partsOf (if Files.isAbsolute path then path
        else Bytes.ofString home ++ Files.slash :: path)
      let target := (← IO.currentDir) / text
      if ← target.isDir then return { found with directories := place :: found.directories }
      try
        let content ← IO.FS.readBinFile target
        return { found with files := (place, content.data.toList) :: found.files }
      catch _ => return found

/-- The directory for configuration that the environment names; a relative one does not count. -/
def userDirectory : IO (Option String) := do
  match (← IO.getEnv "XDG_CONFIG_HOME").filter (!·.isEmpty) with
  | some directory => return if directory.startsWith "/" then some directory else none
  | none => return ((← IO.getEnv "HOME").filter (!·.isEmpty)).map (· ++ "/.config")

/-- The values that stand in the same argument as their option. -/
def attached (arguments : List Bytes) : List Bytes :=
  arguments.filterMap fun a => (Bytes.cut? Command.Options.equals a).map (·.2)

def surroundings (arguments : List Bytes) : IO Surroundings := do
  let home := (← IO.currentDir).toString
  let searched := (home :: (← userDirectory).toList ++ ["/etc"]).map Bytes.ofString
  let candidates := arguments ++ attached arguments ++ searched.flatMap fun directory =>
    Settings.fileNames.map (Files.inDirectory directory)
  let place := partsOf (.ofString home)
  let files ← candidates.foldlM (addPath home) ⟨[], [place], place⟩
  let input ←
    if Command.readsInput arguments then readAll (← IO.getStdin) .empty else pure .empty
  return ⟨files, searched, input.data.toList⟩

end AsmAssist.Program

open AsmAssist in
def main (arguments : List String) : IO UInt32 := do
  let arguments := arguments.map Bytes.ofString
  let outcome := Command.execute (← Program.surroundings arguments) arguments
  (← IO.getStderr).write ⟨outcome.errors.toArray⟩
  (← IO.getStdout).write ⟨outcome.output.toArray⟩
  return outcome.status.toUInt32
