import AvatarPool.CommandLine.Run

/-! # The host program

Reads its settings from the arguments, the environment and a file `.env`, then answers request
lines on standard input by response lines on standard output. -/

namespace AvatarPool.Program

open CommandLine

/-- The bytes of a file named `.env` in the working directory or the nearest directory above it. -/
def envFile (above : Nat) (path : String) : IO (Option (List UInt8)) := do
  try
    let bytes ← IO.FS.readBinFile path
    return some bytes.toList
  catch _ =>
    match above with
    | 0 => return none
    | above + 1 => envFile above ("../" ++ path)

/-- The variables of the given names that the environment holds. -/
def inherited (names : List String) : IO Environment := do
  let found ← names.eraseDups.mapM fun name => do
    return (← IO.getEnv name).map fun value => (name, value)
  return found.filterMap id

/-- Bytes taken from the input at once. -/
def chunk : USize := 65536

/-- Answers request lines until the host ends. -/
partial def answerLines (input output : IO.FS.Stream) (s : Session) : IO UInt32 := do
  let bytes ← input.read chunk
  let steps : List Session.Step :=
    if bytes.isEmpty then [.linesEnd] else [.linesWrite bytes.toList]
  let (s, lines, code) := step s steps
  lines.forM output.putStrLn
  output.flush
  match code with
  | some code => return UInt32.ofNat code
  | none => answerLines input output s

end AvatarPool.Program

open AvatarPool AvatarPool.CommandLine AvatarPool.Program in
/-- Runs the host. -/
def main (args : List String) : IO UInt32 := do
  let depth := ((← IO.currentDir).toString.toList.filter (· == '/')).length
  let file := (← envFile depth ".env").map EnvFile.readable
  let asked := (file.map fun text => EnvFile.mentioned text.toList).getD []
  let settings := logVariable :: Setting.all.map Setting.variableName
  match launch args (← inherited (settings ++ asked)) file with
  | .ended report complaint =>
    report.lines.forM IO.println
    unless complaint.isEmpty do IO.eprintln ("Error: " ++ complaint)
    return UInt32.ofNat report.code
  | .serving s => answerLines (← IO.getStdin) (← IO.getStdout) s
