import Mathlib
import Marksheet.Run.Conduct

/-!
# What is kept of a stream

Each read keeps the first bytes of all that has been read (`read?_keeps`), and so
does any number of reads (`reads_keeps`). At the end of a stream nothing is left
unread, and what is kept does not depend on the chunks in which the stream came
(`readAll_exact`). A run shows what is kept if the stream is let go in time, and
nothing if it is not (`output_exact`): a process that outlives the program and
holds its stream makes the run lose what the program has written.
-/

namespace Marksheet.Run

/-- The bytes of a chunk. -/
def bytesOf (chunk : ByteArray) : List UInt8 := chunk.data.toList

/-- The bytes of chunks. -/
def bytesOfAll (chunks : List ByteArray) : List UInt8 := chunks.flatMap bytesOf

theorem bytesOf_keep (kept chunk : ByteArray) :
    bytesOf (keep kept chunk) =
      bytesOf kept ++ (bytesOf chunk).take (captureLimit - (bytesOf kept).length) := by
  have hsize : (bytesOf kept).length = kept.size := rfl
  rw [hsize]
  simp [bytesOf, keep, ByteArray.data_append, ByteArray.data_extract, Array.toList_extract,
    List.extract_eq_take_drop]

/-- Keeping one more chunk keeps the first bytes of all if this was so before. -/
theorem bytesOf_keep_take (written : List UInt8) {kept : ByteArray} (chunk : ByteArray)
    (h : bytesOf kept = written.take captureLimit) :
    bytesOf (keep kept chunk) = (written ++ bytesOf chunk).take captureLimit := by
  rw [bytesOf_keep, h, List.take_append, List.length_take]
  -- either there is room for more, or nothing is taken on both sides
  rcases Nat.le_total written.length captureLimit with hroom | hfull
  · rw [Nat.min_eq_right hroom]
  · rw [Nat.min_eq_left hfull, Nat.sub_self, Nat.sub_eq_zero_of_le hfull]

namespace Capture

/-- What has been kept are the first bytes of those that have been read. -/
def Keeps (capture : Capture) (seen : List UInt8) : Prop :=
  bytesOf capture.kept = seen.take captureLimit

theorem keeps_ofChunks (chunks : List ByteArray) : (ofChunks chunks).Keeps [] := rfl

/-- One read of a chunk that is not empty takes it and keeps the first bytes. -/
theorem read?_keeps {kept chunk : ByteArray} {left : List ByteArray} {seen : List UInt8}
    (h : Keeps ⟨kept, chunk :: left⟩ seen) (hsize : chunk.size ≠ 0) :
    ∃ next, read? ⟨kept, chunk :: left⟩ = some next ∧ next.left = left ∧
      next.Keeps (seen ++ bytesOf chunk) := by
  have hbytes : chunk.isEmpty = false := by simpa [ByteArray.isEmpty] using hsize
  refine ⟨⟨keep kept chunk, left⟩, ?_, rfl, bytesOf_keep_take seen chunk h⟩
  rw [read?, hbytes]
  rfl

/-- After any number of reads, the chunks read are those that come first. -/
theorem reads_keeps (count : Nat) {capture : Capture} {seen : List UInt8} (h : capture.Keeps seen)
    (hsizes : ∀ chunk ∈ capture.left, chunk.size ≠ 0) :
    (capture.reads count).left = capture.left.drop count ∧
      (capture.reads count).Keeps (seen ++ bytesOfAll (capture.left.take count)) := by
  induction count generalizing capture seen with
  | zero => exact ⟨rfl, by simpa [bytesOfAll, reads] using h⟩
  | succ count ih =>
    obtain ⟨kept, left⟩ := capture
    cases left with
    | nil => exact ⟨rfl, by simpa [bytesOfAll, reads, read?] using h⟩
    | cons chunk left =>
      obtain ⟨next, hread, rfl, hnext⟩ := read?_keeps h (hsizes chunk List.mem_cons_self)
      obtain ⟨hleft, hkeeps⟩ := ih hnext fun chunk hm => hsizes chunk (List.mem_cons_of_mem _ hm)
      rw [reads, hread]
      refine ⟨hleft, ?_⟩
      rw [List.append_assoc] at hkeeps
      exact hkeeps

end Capture

/-- A stream comes in chunks as reads give them: none is empty, and none is too long. -/
def Delivered (chunks : List ByteArray) : Prop :=
  ∀ chunk ∈ chunks, chunk.size ≠ 0 ∧ chunk.size ≤ chunkLimit

theorem size_eq (chunk : ByteArray) : chunk.size = (bytesOf chunk).length := rfl

theorem bytesOf_extract (chunk : ByteArray) (start stop : Nat) :
    bytesOf (chunk.extract start stop) = ((bytesOf chunk).take stop).drop start := by
  simp [bytesOf, ByteArray.data_extract, Array.toList_extract, List.extract_eq_take_drop,
    List.drop_take]

theorem bytesOfAll_append (first second : List ByteArray) :
    bytesOfAll (first ++ second) = bytesOfAll first ++ bytesOfAll second := List.flatMap_append

/-- Windows of one length, laid end to end. -/
theorem bytesOfAll_windows (written : ByteArray) (count : Nat) :
    bytesOfAll ((List.range count).map fun index =>
      written.extract (index * chunkLimit) ((index + 1) * chunkLimit)) =
        (bytesOf written).take (count * chunkLimit) := by
  induction count with
  | zero => simp [bytesOfAll]
  | succ count ih =>
    have hlast : bytesOfAll [written.extract (count * chunkLimit) ((count + 1) * chunkLimit)] =
        ((bytesOf written).take ((count + 1) * chunkLimit)).drop (count * chunkLimit) := by
      simp only [bytesOfAll, List.flatMap_singleton, bytesOf_extract]
    have hfront : (bytesOf written).take (count * chunkLimit) =
        ((bytesOf written).take ((count + 1) * chunkLimit)).take (count * chunkLimit) := by
      rw [List.take_take, Nat.min_eq_left (Nat.mul_le_mul_right _ (Nat.le_succ count))]
    rw [List.range_succ, List.map_append, bytesOfAll_append, ih, List.map_singleton, hlast, hfront,
      List.take_append_drop]

/-- What is written at once is read as it is. -/
theorem bytesOfAll_chunksOf (written : ByteArray) :
    bytesOfAll (chunksOf written) = bytesOf written := by
  rw [chunksOf, bytesOfAll_windows]
  refine List.take_of_length_le ?_
  rw [← size_eq, chunkLimit]
  omega

theorem delivered_chunksOf (written : ByteArray) : Delivered (chunksOf written) := by
  intro chunk hm
  obtain ⟨index, hindex, rfl⟩ := List.mem_map.mp hm
  have hlow : index * chunkLimit < written.size := by
    have hcount := List.mem_range.mp hindex
    rw [chunkLimit] at hcount ⊢
    omega
  rw [ByteArray.size_extract, chunkLimit] at *
  omega

theorem delivered_flatMap (written : List ByteArray) : Delivered (written.flatMap chunksOf) := by
  intro chunk hm
  obtain ⟨bytes, -, hchunk⟩ := List.mem_flatMap.mp hm
  exact delivered_chunksOf bytes chunk hchunk

theorem bytesOfAll_flatMap (written : List ByteArray) :
    bytesOfAll (written.flatMap chunksOf) = bytesOfAll written := by
  induction written with
  | nil => rfl
  | cons bytes rest ih =>
    rw [List.flatMap_cons, bytesOfAll_append, ih, bytesOfAll_chunksOf]
    rfl

/-- All reads take all chunks, and keep the first bytes. -/
theorem readAll_delivered {chunks : List ByteArray} (h : Delivered chunks) :
    (Capture.ofChunks chunks).readAll.left = [] ∧
      bytesOf (Capture.ofChunks chunks).readAll.kept = (bytesOfAll chunks).take captureLimit := by
  obtain ⟨hleft, hkeeps⟩ := Capture.reads_keeps chunks.length (Capture.keeps_ofChunks chunks)
    fun chunk hm => (h chunk hm).1
  have hall : (Capture.ofChunks chunks).left = chunks := rfl
  rw [hall, List.drop_length] at hleft
  rw [hall, List.take_length] at hkeeps
  exact ⟨hleft, hkeeps⟩

/-- Of what is written, the first bytes are kept, however it is divided. -/
theorem bytesOf_keepAll (written : List ByteArray) :
    bytesOf (keepAll written) = (bytesOfAll written).take captureLimit := by
  rw [keepAll, (readAll_delivered (delivered_flatMap written)).2, bytesOfAll_flatMap]

theorem eq_of_bytesOf {first second : ByteArray} (h : bytesOf first = bytesOf second) :
    first = second :=
  ByteArray.ext (Array.toList_inj.mp h)

/-- However a stream is delivered, reading takes the whole of it and keeps its first bytes, as many
as there is room for. After every read, what has been kept begins what has been read, and there is
never more of it than allowed. Nothing of this depends on the chunks: any other delivery of the
same bytes, and the one in which the bytes of a run are read, keep the same. -/
theorem readAll_exact {chunks : List ByteArray} (h : Delivered chunks) :
    (Capture.ofChunks chunks).readAll.left = [] ∧
    bytesOf (Capture.ofChunks chunks).readAll.kept = (bytesOfAll chunks).take captureLimit ∧
    (Capture.ofChunks chunks).readAll.kept.size = min (bytesOfAll chunks).length captureLimit ∧
    (∀ count,
      ((Capture.ofChunks chunks).reads count).left = chunks.drop count ∧
      bytesOf ((Capture.ofChunks chunks).reads count).kept <+: bytesOfAll (chunks.take count) ∧
      ((Capture.ofChunks chunks).reads count).kept.size ≤ captureLimit) ∧
    (∀ others, Delivered others ∧ bytesOfAll others = bytesOfAll chunks →
      (Capture.ofChunks others).readAll.kept = (Capture.ofChunks chunks).readAll.kept) ∧
    ∀ written, bytesOfAll written = bytesOfAll chunks →
      keepAll written = (Capture.ofChunks chunks).readAll.kept := by
  obtain ⟨hleft, hkept⟩ := readAll_delivered h
  refine ⟨hleft, hkept, ?_, fun count => ?_, fun others hothers => ?_, fun written hwritten => ?_⟩
  · rw [size_eq, hkept, List.length_take, Nat.min_comm]
  · obtain ⟨hrest, hkeeps⟩ := Capture.reads_keeps count (Capture.keeps_ofChunks chunks)
      fun chunk hm => (h chunk hm).1
    have hbytes : bytesOf ((Capture.ofChunks chunks).reads count).kept =
        (bytesOfAll (chunks.take count)).take captureLimit := hkeeps
    refine ⟨hrest, ?_, ?_⟩
    · rw [hbytes]
      exact List.take_prefix _ _
    · rw [size_eq, hbytes, List.length_take]
      exact Nat.min_le_left _ _
  · refine eq_of_bytesOf ?_
    rw [(readAll_delivered hothers.1).2, hothers.2, hkept]
  · refine eq_of_bytesOf ?_
    rw [bytesOf_keepAll, hwritten, hkept]

/-- In chunks of 8191 bytes the room ends in the midst of the last of 129. -/
theorem readAll_exact_overfull :
    let chunks : List ByteArray := List.replicate 129 ⟨Array.replicate 8191 0⟩
    Delivered chunks ∧ (Capture.ofChunks chunks).readAll.left = [] ∧
      (Capture.ofChunks chunks).readAll.kept.size = 1048576 := by
  intro chunks
  have hdelivered : Delivered chunks := by
    intro chunk hm
    rw [List.eq_of_mem_replicate hm, size_eq, bytesOf, Array.toList_replicate,
      List.length_replicate]
    decide
  have hlength : (bytesOfAll chunks).length = 129 * 8191 := by
    rw [bytesOfAll, List.length_flatMap, List.map_replicate, List.sum_replicate, bytesOf,
      Array.toList_replicate, List.length_replicate, smul_eq_mul]
  obtain ⟨hleft, -, hsize, -⟩ := readAll_exact hdelivered
  refine ⟨hdelivered, hleft, ?_⟩
  rw [hsize, hlength]
  decide

/-- A stream has been let go by a time. -/
def Stream.ClosedBy (stream : Stream) (time : Nat) : Prop :=
  ∃ closed, stream.closed = some closed ∧ closed ≤ time

/-- All that is kept, or nothing. -/
theorem Stream.bytesOf_captured (stream : Stream) (ended : Nat) :
    (stream.ClosedBy (ended + grace) ∧
        bytesOf (stream.captured ended) = (bytesOfAll stream.chunks).take captureLimit) ∨
      ¬ stream.ClosedBy (ended + grace) ∧ bytesOf (stream.captured ended) = [] := by
  unfold Stream.captured Stream.ClosedBy
  cases stream.closed with
  | none => exact .inr ⟨nofun, rfl⟩
  | some time =>
    dsimp only
    by_cases htime : time ≤ ended + grace
    · exact .inl ⟨⟨time, rfl, htime⟩, by rw [if_pos htime, bytesOf_keepAll]⟩
    · refine .inr ⟨?_, by rw [if_neg htime]; rfl⟩
      rintro ⟨closed, hclosed, hle⟩
      rw [← Option.some.inj hclosed] at hle
      exact htime hle

/-- A run shows what is kept of its output, however its process ended. -/
theorem Outcome.output_ofFinish (plan : Plan) (notePath : String) (finish : Finish) :
    (Outcome.ofFinish plan notePath finish).output =
      Text.ofBytes (finish.output.captured finish.ended) := by
  unfold Outcome.ofFinish
  cases finish.ending with
  | none => rfl
  | some ending =>
    dsimp only
    cases noteIn? finish.files notePath <;> rfl

/-- Exactly when the output of a run begins with what had been written by any moment, as far as
there is room for it: when the stream is let go within the grace period, or nothing had been
written. Then nothing is missing from the output, and else there is none. -/
theorem Outcome.output_exact (plan : Plan) (notePath : String) (finish : Finish) (arrived : Nat) :
    (Outcome.ofFinish plan notePath finish).output =
        Text.ofBytes (finish.output.captured finish.ended) ∧
      ((finish.output.ClosedBy (finish.ended + grace) ∧
          bytesOf (finish.output.captured finish.ended) =
            (bytesOfAll finish.output.chunks).take captureLimit) ∨
        ¬ finish.output.ClosedBy (finish.ended + grace) ∧
          bytesOf (finish.output.captured finish.ended) = []) ∧
      ((bytesOfAll (finish.output.chunks.take arrived)).take captureLimit <+:
          bytesOf (finish.output.captured finish.ended) ↔
        finish.output.ClosedBy (finish.ended + grace) ∨
          bytesOfAll (finish.output.chunks.take arrived) = []) := by
  have hkept := finish.output.bytesOf_captured finish.ended
  refine ⟨output_ofFinish plan notePath finish, hkept, ?_⟩
  have hsplit : bytesOfAll finish.output.chunks =
      bytesOfAll (finish.output.chunks.take arrived) ++
        bytesOfAll (finish.output.chunks.drop arrived) := by
    rw [bytesOfAll, bytesOfAll, bytesOfAll, ← List.flatMap_append, List.take_append_drop]
  rcases hkept with ⟨hclosed, hall⟩ | ⟨hheld, hnone⟩
  · refine iff_of_true ?_ (.inl hclosed)
    rw [hall, hsplit]
    exact (List.prefix_append _ _).take captureLimit
  · have hlimit : captureLimit ≠ 0 := by decide
    rw [hnone, List.prefix_nil, List.take_eq_nil_iff]
    simp [hheld, hlimit]

/-- A program that writes a line, leaves a process that holds its output for five seconds, and
ends at once. -/
def heldFinish : Finish where
  output := ⟨["hi\n".toUTF8], some 5000⟩
  errors := ⟨[], some 5000⟩
  ending := some (.exited 0)
  ended := 0
  files := default

/-- The line is lost. -/
theorem Outcome.output_of_held :
    Outcome.ofFinish (.ofSettings .standard) "/tmp/run/.gradebot-run.json" heldFinish =
        ⟨"", none, 0⟩ ∧
      ¬ (bytesOfAll heldFinish.output.chunks).take captureLimit <+:
        bytesOf (heldFinish.output.captured heldFinish.ended) := by
  refine ⟨by decide +kernel, fun hprefix => ?_⟩
  have hnone : bytesOf (heldFinish.output.captured heldFinish.ended) = [] := by decide +kernel
  rw [hnone, List.prefix_nil] at hprefix
  exact absurd hprefix (by decide +kernel)

end Marksheet.Run
