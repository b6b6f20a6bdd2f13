import AvatarPool.Time

/-! # Why a request fails

Every caller waiting for the same picture or name is told the same `Failure`.  Each cause is a
constructor; `Failure.message` holds the wording. -/

namespace AvatarPool

/-- The ways a request can fail. -/
inductive Failure where
  /-- The engine refused this request. -/
  | engine (message : String)
  /-- The engine broke off while it worked on a task. -/
  | enginePanicked (fingerprint : String)
  /-- The engine's one-time start failed. -/
  | engineNotReady (reason : String)
  /-- The engine did not report ready within the bound. -/
  | readinessTimeout (waited : Span)
  /-- A channel inside the program closed or filled up unexpectedly. -/
  | channel (context : String)
  /-- The service is stopping. -/
  | shuttingDown
  /-- A bridge message could not be delivered. -/
  | transport (reason : String)
  /-- The host at the far side of a bridge rejected the request. -/
  | remote (reason : String)
  /-- A bridge frame could not be read. -/
  | protocol (reason : String)
  /-- The request makes no sense. -/
  | invalidRequest (reason : String)
  deriving DecidableEq, Repr, Inhabited

/-- **The wording** of a failure, as callers and the far side of a bridge see it. -/
def Failure.message : Failure → String
  | engine message => "Engine error: " ++ message
  | enginePanicked fingerprint => "Engine panicked while rendering " ++ fingerprint
  | engineNotReady reason => "Engine failed to become ready: " ++ reason
  | readinessTimeout waited => "Engine not ready after " ++ waited.text
  | channel context => "Channel error: " ++ context
  | shuttingDown => "Service is shutting down"
  | transport reason => "Transport error: " ++ reason
  | remote reason => "Remote error: " ++ reason
  | protocol reason => "Protocol error: " ++ reason
  | invalidRequest reason => "Invalid request: " ++ reason

end AvatarPool
