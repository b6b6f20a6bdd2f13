import AvatarPool.Failure
import AvatarPool.Json.Decode

/-! # Settings

The tuning of a worker pool, and the ways a client can be reached. -/

namespace AvatarPool

/-- Tuning of the worker pool. -/
structure PoolSettings where
  /-- Workers created once the engine is ready. -/
  poolSize : Nat := 8
  /-- Bound on the engine's start; without one the pool waits forever. -/
  readinessTimeout : Option Span := none
  /-- Time granted to running work when the pool stops. -/
  shutdownTimeout : Span := Span.ofSeconds 3
  deriving DecidableEq, Repr, Inhabited

/-- How a client generates: here, or through a bridge of one of two platforms. -/
inductive ClientVariant where
  | local
  | native
  | android
  deriving DecidableEq, Repr, Inhabited

namespace ClientVariant

def name : ClientVariant → String
  | .local => "local"
  | .native => "native"
  | .android => "android"

def ofName? (text : String) : Option ClientVariant :=
  if text = "local" then some .local
  else if text = "native" then some .native
  else if text = "android" then some .android
  else none

/-- The variants by name, as JSON writes them. -/
def variants : Json.Variants ClientVariant := ⟨ofName?, ["local", "native", "android"]⟩

/-- ASCII capitals made small; every other character stays. -/
def lowered (text : String) : String := String.ofList (text.toList.map Char.toLower)

/-- Reads a variant by any of its names, capitals or not. -/
def parse (text : String) : Except Failure ClientVariant :=
  let name := lowered text
  if name = "local" ∨ name = "web" then .ok .local
  else if name = "native" ∨ name = "ios" then .ok .native
  else if name = "android" then .ok .android
  else .error (.invalidRequest ("unknown client variant `" ++ name ++ "`"))

end ClientVariant

end AvatarPool
