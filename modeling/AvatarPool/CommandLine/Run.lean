import AvatarPool.CommandLine.Arguments
import AvatarPool.CommandLine.EnvFile
import AvatarPool.Session.Steps

/-! # Runs of the host

The host reads its settings, then answers request lines with the built-in engine until its input
ends.  A run ends with an exit code: 0 after a clean end or an answered question about the program,
1 for settings beyond their limits or an input that is not text, 2 for arguments that cannot be
understood. -/

namespace AvatarPool.CommandLine

/-- The name and version of the program. -/
def versionLine : String := "roboid-host 0.3.1"

/-- The settings, as the program lists them. -/
def usage : List String :=
  "Usage: roboid-host [OPTIONS]" :: "" :: "Options:" ::
    (Setting.all.map fun s =>
      "  --" ++ s.option ++ " <NUMBER> [env: " ++ s.variableName ++ "] [default: " ++
        toString s.standard ++ "]") ++
    ["  --log-requests [env: " ++ logVariable ++ "]", "  -h, --help", "  -V, --version"]

/-- How a run has ended: its exit code, and the lines of its output. -/
structure Report where
  code : Nat
  lines : List String
  deriving DecidableEq, Repr

/-- The exit code of a run that broke off. -/
def brokenOff : Nat := 101

/-- What a start of the host leads to. -/
inductive Launch where
  /-- It answers requests. -/
  | serving (s : Session)
  /-- It has ended already, saying why if something is wrong. -/
  | ended (report : Report) (complaint : String)

/-- The host at its start, with the settings `c`. -/
def serve (c : HostSettings) : Session :=
  (((Session.create c.pool .builtIn .engineReady).perform (.lines none)).1).settle

/-- What arguments that do not start the host lead to. -/
def Refusal.report : Refusal → Report
  | displayHelp => ⟨0, usage⟩
  | displayVersion => ⟨0, [versionLine]⟩
  | _ => ⟨2, []⟩

def Refusal.complaint : Refusal → String
  | displayHelp => ""
  | displayVersion => ""
  | unknownArgument => "an argument is not known"
  | invalidValue => "a value is missing or is none of those allowed"
  | valueValidation => "a value is not a number of at most sixty-four bits"
  | tooManyValues => "a flag takes no value"
  | argumentConflict => "an argument is given twice"

/-- Starts the host in an environment, to which a file may add variables. -/
def launch (args : List String) (env : Environment) (file : Option String) : Launch :=
  let env? :=
    match file with
    | some text => env.addFile text
    | none => some env
  match env? with
  | none => .ended ⟨brokenOff, []⟩ "a variable cannot hold a NUL"
  | some env =>
    match read args env with
    | .error refusal => .ended refusal.report refusal.complaint
    | .ok a =>
      match a.check with
      | .error why => .ended ⟨1, []⟩ why
      | .ok c => .serving (serve c)

/-- The exit code that the answer of the lines host leads to. -/
def exitCode : Session.Answer → Nat
  | .stopped => 0
  | _ => 1

/-- What a step of a running host leads to: the host as it is then, the lines it has put out, and
the exit code if it has ended.  An input that is not text ends the program before anything else is
put out. -/
def step (s : Session) (steps : List Session.Step) : Session × List String × Option Nat :=
  let (s, v) := (s.performAll steps).1.settle.look
  match v.done with
  | [] => (s, v.frames, none)
  | (_, a) :: _ =>
    let code := exitCode a
    (s, if code = 0 then v.frames else [], some code)

/-- **A whole run** over an input. -/
def run (args : List String) (env : Environment) (file : Option String) (input : List UInt8) :
    Report :=
  match launch args env file with
  | .ended report _ => report
  | .serving s =>
    let (_, lines, code) := step s [.linesWrite input, .linesEnd]
    ⟨code.getD 1, lines⟩

end AvatarPool.CommandLine
