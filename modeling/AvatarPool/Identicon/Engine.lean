import AvatarPool.Engine
import AvatarPool.Identicon.Name
import AvatarPool.Identicon.Paint
import AvatarPool.Png

/-! # The built-in engine

Pictures and names from digests alone.  It needs no start-up and never refuses a job. -/

namespace AvatarPool.Identicon

/-- Serves one job.  Drawing outside the picture would break the invocation off. -/
def serve : Job → Ending
  | .image seed size =>
    match picture? seed size with
    | some p => .image (Png.encode p)
    | none => .panicked
  | .name seed => .name (name seed)

end AvatarPool.Identicon
