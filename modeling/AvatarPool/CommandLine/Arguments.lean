import AvatarPool.CommandLine.Environment
import AvatarPool.Settings
import AvatarPool.Text.Decimal

/-! # Arguments of the host

Four settings, each given on the command line, by an environment variable, or by default, in this
order of precedence.  Arguments are taken from left to right.  The value of a setting is checked
when the next known argument, or the end, shows that it is complete; an argument that is not known
is reported without that check. -/

namespace AvatarPool.CommandLine

/-- Why the arguments do not start the host. -/
inductive Refusal where
  | unknownArgument
  | invalidValue
  | valueValidation
  | tooManyValues
  | argumentConflict
  | displayHelp
  | displayVersion
  deriving DecidableEq, Repr

/-- A setting that takes a number. -/
inductive Setting where
  | poolSize
  | readinessTimeout
  | shutdownTimeout
  deriving DecidableEq, Repr

namespace Setting

def all : List Setting := [poolSize, readinessTimeout, shutdownTimeout]

def option : Setting → String
  | poolSize => "pool-size"
  | readinessTimeout => "readiness-timeout-secs"
  | shutdownTimeout => "shutdown-timeout-secs"

def variableName : Setting → String
  | poolSize => "POOL_SIZE"
  | readinessTimeout => "READINESS_TIMEOUT_SECS"
  | shutdownTimeout => "SHUTDOWN_TIMEOUT_SECS"

def standard : Setting → Nat
  | poolSize => 8
  | readinessTimeout => 30
  | shutdownTimeout => 3

end Setting

/-- The environment variable of the request log. -/
def logVariable : String := "LOG_REQUESTS"

/-- Numbers are unsigned and have sixty-four bits. -/
def numberLimit : Nat := Nat.pow 2 64 - 1

/-- What the command line has said so far: checked numbers, whether requests are logged, and a
setting whose value is not checked yet or has not come. -/
structure Reading where
  numbers : List (Setting × Nat) := []
  log : Bool := false
  pending : Option (Setting × Option String) := none

namespace Reading

/-- Takes the value of a setting, which may be given once. -/
def accept (r : Reading) (s : Setting) (value : String) : Except Refusal Reading :=
  match r.numbers.lookup s with
  | some _ => .error .argumentConflict
  | none =>
    match Text.number? numberLimit value with
    | some n => .ok { r with numbers := (s, n) :: r.numbers }
    | none => .error .valueValidation

/-- Checks the value that is still pending. -/
def settle (r : Reading) : Except Refusal Reading :=
  match r.pending with
  | none => .ok r
  | some (_, none) => .error .invalidValue
  | some (s, some value) => { r with pending := none }.accept s value

/-- Takes the flag of the request log, which may be given once. -/
def acceptLog (r : Reading) : Except Refusal Reading :=
  if r.log then .error .argumentConflict else .ok { r with log := true }

/-- A long argument, cut at its first equals sign. -/
def cutValue (cs : List Char) : String × Option String :=
  match cs.dropWhile (· != '=') with
  | [] => (String.ofList cs, none)
  | _ :: value => (String.ofList (cs.takeWhile (· != '=')), some (String.ofList value))

/-- A flag takes no value; otherwise `act` follows once nothing is pending. -/
def flag (r : Reading) (value : Option String) (act : Reading → Except Refusal Reading) :
    Except Refusal Reading :=
  match value with
  | some _ => .error .tooManyValues
  | none => r.settle.bind act

/-- Takes an argument that starts with two hyphens. -/
def long (r : Reading) (cs : List Char) : Except Refusal Reading :=
  let (name, value) := cutValue cs
  match Setting.all.find? fun s => s.option == name with
  | some s =>
    r.settle.bind fun r =>
      match value with
      | some v => r.accept s v
      | none => .ok { r with pending := some (s, none) }
  | none =>
    if name = "log-requests" then r.flag value acceptLog
    else if name = "help" then r.flag value fun _ => .error .displayHelp
    else if name = "version" then r.flag value fun _ => .error .displayVersion
    else .error .unknownArgument

/-- Takes an argument that starts with one hyphen, by its first letter. -/
def short (r : Reading) (c : Char) : Except Refusal Reading :=
  if c = 'h' then r.settle.bind fun _ => .error .displayHelp
  else if c = 'V' then r.settle.bind fun _ => .error .displayVersion
  else .error .unknownArgument

/-- Takes any other argument: the value that a setting waits for. -/
def plain (r : Reading) (text : String) : Except Refusal Reading :=
  match r.pending with
  | some (s, none) => .ok { r with pending := some (s, some text) }
  | _ => .error .unknownArgument

/-- Takes the arguments in turn.  After two bare hyphens no argument is known. -/
def all (r : Reading) : List String → Except Refusal Reading
  | [] => r.settle
  | arg :: rest =>
    match arg.toList with
    | ['-', '-'] => if rest.isEmpty then r.settle else .error .unknownArgument
    | '-' :: '-' :: cs => (r.long cs).bind fun r => r.all rest
    | '-' :: c :: _ => (r.short c).bind fun r => r.all rest
    | _ => (r.plain arg).bind fun r => r.all rest

end Reading

/-- The settings in force. -/
structure Arguments where
  poolSize : Nat
  readinessTimeoutSecs : Nat
  shutdownTimeoutSecs : Nat
  logRequests : Bool
  deriving DecidableEq, Repr

/-- The number of a setting: from the command line, the environment, or the standard. -/
def numberOf (r : Reading) (env : Environment) (s : Setting) : Except Refusal Nat :=
  match r.numbers.lookup s with
  | some n => .ok n
  | none =>
    match env.get? s.variableName with
    | none => .ok s.standard
    | some value =>
      match Text.number? numberLimit value with
      | some n => .ok n
      | none => .error .valueValidation

/-- Whether requests are logged: by the flag, or by a variable that is `true` or `false`. -/
def logOf (r : Reading) (env : Environment) : Except Refusal Bool :=
  if r.log then .ok true
  else
    match env.get? logVariable with
    | none => .ok false
    | some value =>
      if value = "true" then .ok true
      else if value = "false" then .ok false
      else .error .invalidValue

/-- **Reads the settings** from the arguments and the environment. -/
def read (args : List String) (env : Environment) : Except Refusal Arguments := do
  let r ← ({} : Reading).all args
  let poolSize ← numberOf r env .poolSize
  let readiness ← numberOf r env .readinessTimeout
  let shutdown ← numberOf r env .shutdownTimeout
  let log ← logOf r env
  .ok ⟨poolSize, readiness, shutdown, log⟩

/-- What the host runs with. -/
structure HostSettings where
  pool : PoolSettings
  logRequests : Bool
  deriving DecidableEq, Repr

/-- The wording of a setting above its limit. -/
def exceeds (s : Setting) (n limit : Nat) : String :=
  s.variableName ++ " (" ++ toString n ++ ") exceeds the maximum of " ++ toString limit

/-- **The limits of the settings.**  A readiness bound of zero means no bound. -/
def Arguments.check (a : Arguments) : Except String HostSettings :=
  if a.poolSize = 0 then .error "POOL_SIZE must be greater than 0"
  else if a.poolSize > 256 then .error (exceeds .poolSize a.poolSize 256)
  else if a.readinessTimeoutSecs > 86400 then
    .error (exceeds .readinessTimeout a.readinessTimeoutSecs 86400)
  else if a.shutdownTimeoutSecs > 3600 then
    .error (exceeds .shutdownTimeout a.shutdownTimeoutSecs 3600)
  else
    .ok {
      pool := {
        poolSize := a.poolSize
        readinessTimeout :=
          if a.readinessTimeoutSecs = 0 then none else some (Span.ofSeconds a.readinessTimeoutSecs)
        shutdownTimeout := Span.ofSeconds a.shutdownTimeoutSecs }
      logRequests := a.logRequests }

end AvatarPool.CommandLine
