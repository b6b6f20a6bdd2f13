import AvatarPool.Artifact
import AvatarPool.Wire.Response

/-! # The bridge host

The far side of a bridge: it reads a request, has its job done, and answers under the same id.  A
frame that cannot be read gets no answer, for without an id there is nobody to answer. -/

namespace AvatarPool.BridgeHost

/-- The response that carries an outcome. -/
def respond (id : RequestId) : Outcome → Response
  | .ok artifact => .resolved id artifact.payload
  | .error why => .rejected id why.message

/-- What a request leads to. -/
inductive Reading where
  /-- Its job is to be done. -/
  | work (id : RequestId) (job : Job)
  /-- It is answered at once. -/
  | reply (r : Response)
  /-- It is not answered. -/
  | ignore
  deriving DecidableEq, Repr

/-- What a request leads to: an invalid one is rejected at once. -/
def readRequest (r : Request) : Reading :=
  match r.job with
  | .ok job => .work r.id job
  | .error why => .reply (.rejected r.id why.message)

/-- What a frame leads to. -/
def readFrame (text : String) : Reading :=
  match Request.ofFrame text with
  | .ok r => readRequest r
  | .error _ => .ignore

end AvatarPool.BridgeHost
