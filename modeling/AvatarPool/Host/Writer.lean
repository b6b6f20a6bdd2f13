import AvatarPool.Text.Utf8

/-! # The frame writer

Frames leave one a line: the frame and its line feed are two writes.  An output may accept a limited
number of bytes; a write that would exceed the limit fails, and the writer stops. -/

namespace AvatarPool

structure Writer where
  /-- Frames not written yet. -/
  queue : List String := []
  /-- Bytes the output accepts. -/
  limit : Option Nat := none
  /-- Bytes written. -/
  written : Nat := 0
  failed : Bool := false
  finished : Bool := false
  deriving DecidableEq, Repr

namespace Writer

/-- Whether frames are still taken. -/
def isOpen (w : Writer) : Bool := !w.failed && !w.finished

/-- Takes a frame to write, unless the writer has stopped. -/
def push (w : Writer) (frame : String) : Writer :=
  if w.isOpen then { w with queue := w.queue ++ [frame] } else w

/-- Writes so many bytes, if the output accepts them all. -/
def write (w : Writer) (size : Nat) : Option Writer :=
  match w.limit with
  | some limit =>
    if w.written + size ≤ limit then some { w with written := w.written + size } else none
  | none => some { w with written := w.written + size }

/-- Writes frames after `done`, those written so far in reverse: the writer afterwards, and the
frames whose own bytes got out. -/
def writeFrom (w : Writer) (done : List String) : List String → Writer × List String
  | [] => ({ w with queue := [] }, done.reverse)
  | frame :: rest =>
    match w.write (Text.utf8 frame).length with
    | none => ({ w with queue := [], failed := true }, done.reverse)
    | some w =>
      match w.write 1 with
      | none => ({ w with queue := [], failed := true }, (frame :: done).reverse)
      | some w => w.writeFrom (frame :: done) rest

/-- Writes what is queued. -/
def flush (w : Writer) : Writer × List String := w.writeFrom [] w.queue

end Writer

end AvatarPool
