import Tabletop.Files.Ledger

/-!
# Logs

A log keeps pages that replace those of a ledger, oldest first, until they are written into the
ledger itself. It is made of frames of one size, one page in each. A log that is begun anew starts
at the first frame, and what older frames are left behind it no longer count.

Any file can be taken for a log. Then each frame that it is long enough for is there, but damaged,
and the log has not been begun.
-/

namespace Tabletop

/-- The pages that a log file has. -/
structure Log where
  /-- Whether the file starts like a log. -/
  isBegun : Bool
  /-- Its frames, where a damaged one is nothing. -/
  frames : List (Option Ledger.Page)
deriving DecidableEq, Repr

namespace Log

/-- How many bytes stand before the first frame. -/
def headBytes : Nat := 32

/-- How many bytes a frame has. -/
def frameBytes : Nat := 4120

/-- A file of a number of bytes that is no log. -/
def ofBytes (n : Nat) : Log := ⟨false, List.replicate ((n - headBytes) / frameBytes) none⟩

/-- How many bytes a log has. -/
def bytes (l : Log) : Nat := headBytes + frameBytes * l.frames.length

/-- A page of a log. -/
def page? (l : Log) (frame : Nat) : Option Ledger.Page := l.frames[frame]?.join

/-- Which pages can be read from a log, up to the first damaged frame. -/
def parts (l : Log) : List Ledger.Part :=
  if l.isBegun then (l.frames.takeWhile Option.isSome).filterMap fun page? ↦ page?.map (·.part)
  else []

/-- Writes pages from a frame on. Frames that are missing before it are damaged, and so are those
that a log which is begun anew leaves behind. -/
def write (l : Log) (frame : Nat) (pages : List Ledger.Page) : Log :=
  let before := (l.frames ++ List.replicate (frame - l.frames.length) none).take frame
  let behind := l.frames.drop (frame + pages.length)
  if frame = 0 then ⟨true, pages.map some ++ behind.map fun _ ↦ none⟩
  else ⟨l.isBegun, before ++ pages.map some ++ behind⟩

/-- The last frame that replaces a part of the ledger. -/
def lastFrame? (parts : List Ledger.Part) (part : Ledger.Part) : Option Nat :=
  (parts.zipIdx.filter (·.1 == part)).getLast?.map Prod.snd

end Log

end Tabletop
