import AvatarPool.Text.Blank
import AvatarPool.Text.Utf8

/-! # Lines of a byte stream

A line ends at a line feed, before which one carriage return is dropped; the last line may lack its
line feed.  A line must be valid UTF-8. -/

namespace AvatarPool.Lines

/-- The line feed. -/
def feed : UInt8 := 10

/-- A line without a carriage return at its end. -/
def dropReturn (line : List UInt8) : List UInt8 :=
  match line.reverse with
  | 13 :: before => before.reverse
  | _ => line

/-- Adds bytes up to the next line feed to `done`, the line so far in reverse: the line, and what
follows the line feed if there is one. -/
def scan (done : List UInt8) : List UInt8 → List UInt8 × Option (List UInt8)
  | [] => (done.reverse, none)
  | b :: rest => if b = feed then (done.reverse, some rest) else scan (b :: done) rest

theorem scan_length {done bytes : List UInt8} {rest : List UInt8}
    (h : (scan done bytes).2 = some rest) : rest.length < bytes.length := by
  induction bytes generalizing done with
  | nil => simp [scan] at h
  | cons b bs ih =>
    simp only [scan] at h
    split at h
    · simp only [Option.some.injEq] at h
      subst h
      simp
    · have := ih h
      simp only [List.length_cons]
      omega

/-- What a reader finds at the head of a stream. -/
inductive Next where
  /-- A line, and what follows it. -/
  | line (text : String) (rest : List UInt8)
  /-- A line that is not valid UTF-8. -/
  | invalid
  /-- The line is not complete yet. -/
  | partialLine
  /-- The stream has ended. -/
  | ended
  deriving DecidableEq, Repr

/-- The text of a line. -/
def ofBytes (line rest : List UInt8) : Next :=
  match Text.ofUtf8? line with
  | some text => .line text rest
  | none => .invalid

/-- **The next line** of the bytes at hand; `complete` tells that no more will come. -/
def next (complete : Bool) (bytes : List UInt8) : Next :=
  match scan [] bytes with
  | (line, some rest) => ofBytes (dropReturn line) rest
  | (line, none) =>
    if !complete then .partialLine
    else if line.isEmpty then .ended
    else ofBytes line []

/-- A line takes at least one byte. -/
theorem next_length {complete : Bool} {bytes rest : List UInt8} {text : String}
    (h : next complete bytes = .line text rest) : rest.length < bytes.length := by
  unfold next at h
  split at h
  · rename_i line rest' hs
    have hl := scan_length (congrArg Prod.snd hs)
    unfold ofBytes at h
    split at h <;> cases h
    exact hl
  · rename_i line hs
    split at h
    · cases h
    · split at h
      · cases h
      · rename_i hne
        unfold ofBytes at h
        split at h <;> cases h
        cases bytes with
        | nil =>
          simp only [scan, List.reverse_nil, Prod.mk.injEq] at hs
          rw [← hs.1] at hne
          simp at hne
        | cons b bs => simp

end AvatarPool.Lines
