/-! # Counters of a pool

All counters have sixty-four bits and wrap around. -/

namespace AvatarPool

structure Stats where
  /-- Requests admitted, cache hits included. -/
  requests : UInt64 := 0
  /-- Requests answered from the cache. -/
  cacheHits : UInt64 := 0
  /-- Requests that joined work already under way. -/
  coalesced : UInt64 := 0
  /-- Tasks handed to a worker. -/
  dispatched : UInt64 := 0
  /-- Tasks that ended with a failure. -/
  failed : UInt64 := 0
  /-- Results in the cache. -/
  cacheEntries : UInt64 := 0
  deriving DecidableEq, Repr, Inhabited

end AvatarPool
