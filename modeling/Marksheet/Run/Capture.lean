/-!
# Captured streams

A stream is read chunk by chunk until it ends. Of what is read, the first
mebibyte is kept and the rest is dropped. A stream ends when the last process
that holds it lets go. A run waits for that only a short time after its own
process has ended; if the stream is still held then, nothing of it is kept.
-/

namespace Marksheet.Run

/-- How many bytes of a stream are kept. -/
def captureLimit : Nat := 1048576

/-- How many bytes one read gives at most. -/
def chunkLimit : Nat := 8192

/-- Keep of a chunk what there is room for. -/
def keep (kept chunk : ByteArray) : ByteArray :=
  kept ++ chunk.extract 0 (captureLimit - kept.size)

/-- A stream that is being read. -/
structure Capture where
  /-- What has been kept of it. -/
  kept : ByteArray
  /-- What further reads will give. -/
  left : List ByteArray
  deriving Inhabited

namespace Capture

/-- Before the first read nothing has been kept. -/
def ofChunks (chunks : List ByteArray) : Capture := ⟨.empty, chunks⟩

/-- One read. At the end of a stream it gives nothing, or no bytes. -/
def read? : Capture → Option Capture
  | ⟨_, []⟩ => none
  | ⟨kept, chunk :: left⟩ => if chunk.isEmpty then none else some ⟨keep kept chunk, left⟩

/-- As many reads as the stream has, up to a number. -/
def reads : Nat → Capture → Capture
  | 0, capture => capture
  | count + 1, capture =>
    match capture.read? with
    | some next => next.reads count
    | none => capture

/-- All reads up to the end of the stream; every read takes a chunk. -/
def readAll (capture : Capture) : Capture := capture.reads capture.left.length

end Capture

/-- The chunks in which bytes are read that have been written at once. -/
def chunksOf (written : ByteArray) : List ByteArray :=
  (List.range ((written.size + (chunkLimit - 1)) / chunkLimit)).map fun index =>
    written.extract (index * chunkLimit) ((index + 1) * chunkLimit)

/-- What is kept of what has been written. -/
def keepAll (written : List ByteArray) : ByteArray :=
  (Capture.ofChunks (written.flatMap chunksOf)).readAll.kept

/-- How many milliseconds a run waits for its streams after its process has ended. -/
def grace : Nat := 2000

/-- What has been written to a stream, by all who hold it. -/
structure Stream where
  /-- The chunks in the order in which they arrive. -/
  chunks : List ByteArray
  /-- When the last holder lets go, in milliseconds from the start; none if it never does. -/
  closed : Option Nat
  deriving Inhabited

/-- What is kept of a stream whose process ended at the given time. -/
def Stream.captured (stream : Stream) (ended : Nat) : ByteArray :=
  match stream.closed with
  | some time => if time ≤ ended + grace then keepAll stream.chunks else .empty
  | none => .empty

end Marksheet.Run
