import Mathlib.Data.List.Basic

/-!
# A buffered writer over a file that may fail

Writing goes to a buffer of bounded size, and from there to the file.  The
environment chooses how much of what it is asked to write the file takes; if
that is not all, the write fails, and what was not taken stays in the buffer.
The text on its way is the file followed by the buffer: a write that succeeds
adds all of what was written to it, a write that fails adds a part from the
front, and nothing else changes it.
-/

namespace BufWriter

/-- The file and the buffer in front of it. -/
structure Writer (Byte : Type*) where
  capacity : Nat
  file : List Byte
  buffer : List Byte

/-- How much the file takes if a write flushes the buffer, and if it writes
past the buffer. -/
structure Attempt where
  flushed : Nat
  direct : Nat
  deriving DecidableEq, Repr

namespace Writer

variable {Byte : Type*} (writer : Writer Byte)

/-- Room left in the buffer. -/
def spareCapacity : Nat := writer.capacity - writer.buffer.length

/-- Write out the buffer, keeping what the file does not take. -/
def flushBuf (taken : Nat) : Writer Byte × Bool :=
  ({ writer with
      file := writer.file ++ writer.buffer.take taken
      buffer := writer.buffer.drop taken },
    decide (writer.buffer.length ≤ taken))

/-- Append to the buffer. -/
def append (bytes : List Byte) : Writer Byte := { writer with buffer := writer.buffer ++ bytes }

/-- Append to the file, past the buffer. -/
def writeThrough (taken : Nat) (bytes : List Byte) : Writer Byte × Bool :=
  ({ writer with file := writer.file ++ bytes.take taken }, decide (bytes.length ≤ taken))

/-- Write bytes for which room was made: past the buffer if they are no
shorter than its capacity. -/
def deposit (taken : Nat) (bytes : List Byte) : Writer Byte × Bool :=
  if writer.capacity ≤ bytes.length then writer.writeThrough taken bytes
  else (writer.append bytes, true)

/-- Write all of some bytes: to the buffer where they fit, and after a flush
where they do not. -/
def writeAll (attempt : Attempt) (bytes : List Byte) : Writer Byte × Bool :=
  if bytes.length < writer.spareCapacity then (writer.append bytes, true)
  else if writer.spareCapacity < bytes.length then
    let flushed := writer.flushBuf attempt.flushed
    if flushed.2 then flushed.1.deposit attempt.direct bytes else (flushed.1, false)
  else writer.deposit attempt.direct bytes

/-- What has been written, on its way through the buffer. -/
def contents : List Byte := writer.file ++ writer.buffer

/-- The buffer is not over its capacity. -/
def Fits : Prop := writer.buffer.length ≤ writer.capacity

variable {writer}

theorem contents_flushBuf (taken : Nat) :
    (writer.flushBuf taken).1.contents = writer.contents := by
  simp only [flushBuf, contents, List.append_assoc, List.take_append_drop]

theorem contents_append (bytes : List Byte) :
    (writer.append bytes).contents = writer.contents ++ bytes := by
  simp only [append, contents, List.append_assoc]

/-- After a flush that succeeds, everything is in the file. -/
theorem buffer_flushBuf {taken : Nat} (ok : (writer.flushBuf taken).2 = true) :
    (writer.flushBuf taken).1.buffer = [] :=
  List.drop_eq_nil_of_le (of_decide_eq_true ok)

theorem file_flushBuf {taken : Nat} (ok : (writer.flushBuf taken).2 = true) :
    (writer.flushBuf taken).1.file = writer.contents := by
  rw [← contents_flushBuf taken, contents, buffer_flushBuf ok, List.append_nil]

theorem Fits.flushBuf (fits : writer.Fits) (taken : Nat) : (writer.flushBuf taken).1.Fits := by
  have shorter : (writer.buffer.drop taken).length ≤ writer.buffer.length := by
    rw [List.length_drop]
    exact Nat.sub_le _ _
  exact Nat.le_trans shorter fits

/-- What a write does to the text on its way: it adds a part of the bytes from
the front, and all of them if it succeeds. -/
structure Adds (writer after : Writer Byte) (ok : Bool) (bytes : List Byte) : Prop where
  part : exists written, written <+: bytes ∧ after.contents = writer.contents ++ written
  all : ok = true -> after.contents = writer.contents ++ bytes
  fits : after.Fits
  capacity : after.capacity = writer.capacity

theorem Adds.append {bytes : List Byte}
    (room : writer.buffer.length + bytes.length ≤ writer.capacity) :
    writer.Adds (writer.append bytes) true bytes := by
  refine ⟨⟨bytes, List.prefix_rfl, contents_append bytes⟩, fun _ => contents_append bytes, ?_, rfl⟩
  unfold Fits Writer.append
  rw [List.length_append]
  exact room

/-- Past the buffer a write goes only when the buffer is empty. -/
theorem Adds.writeThrough (empty : writer.buffer = []) (taken : Nat) (bytes : List Byte) :
    writer.Adds (writer.writeThrough taken bytes).1 (writer.writeThrough taken bytes).2 bytes := by
  have added : (writer.writeThrough taken bytes).1.contents =
      writer.contents ++ bytes.take taken := by
    simp only [Writer.writeThrough, contents, empty, List.append_nil]
  refine ⟨⟨bytes.take taken, List.take_prefix taken bytes, added⟩, fun ok => ?_, ?_, rfl⟩
  · rw [added, List.take_of_length_le (of_decide_eq_true ok)]
  · unfold Fits Writer.writeThrough
    rw [empty]
    exact Nat.zero_le _

theorem Adds.deposit {bytes : List Byte} (fits : writer.Fits)
    (room : writer.buffer = [] ∨ bytes.length ≤ writer.spareCapacity) (taken : Nat) :
    writer.Adds (writer.deposit taken bytes).1 (writer.deposit taken bytes).2 bytes := by
  unfold Fits spareCapacity at *
  unfold Writer.deposit
  split
  · apply Adds.writeThrough
    rcases room with empty | room
    · exact empty
    · apply List.eq_nil_of_length_eq_zero
      omega
  · apply Adds.append
    rcases room with empty | room
    · rw [empty, List.length_nil]
      omega
    · omega

/-- A write after one that succeeded adds to what that one added. -/
theorem Adds.trans {next after : Writer Byte} {ok : Bool} {bytes more : List Byte}
    (first : writer.Adds next true bytes) (second : next.Adds after ok more) :
    writer.Adds after ok (bytes ++ more) := by
  have all := first.all rfl
  rcases second.part with ⟨written, begins, contents⟩
  refine ⟨⟨bytes ++ written, (List.prefix_append_right_inj bytes).mpr begins, ?_⟩, fun done => ?_,
    second.fits, second.capacity.trans first.capacity⟩
  · rw [contents, all, List.append_assoc]
  · rw [second.all done, all, List.append_assoc]

/-- After a write that failed nothing more is written. -/
theorem Adds.fail {after : Writer Byte} {bytes : List Byte} (first : writer.Adds after false bytes)
    (more : List Byte) : writer.Adds after false (bytes ++ more) := by
  rcases first.part with ⟨written, begins, contents⟩
  exact ⟨⟨written, begins.trans (List.prefix_append bytes more), contents⟩,
    fun failed => absurd failed Bool.false_ne_true, first.fits, first.capacity⟩

theorem Fits.writeAll (fits : writer.Fits) (attempt : Attempt) (bytes : List Byte) :
    writer.Adds (writer.writeAll attempt bytes).1 (writer.writeAll attempt bytes).2 bytes := by
  by_cases small : bytes.length < writer.spareCapacity
  · rw [Writer.writeAll, if_pos small]
    apply Adds.append
    unfold spareCapacity at small
    omega
  · rw [Writer.writeAll, if_neg small]
    by_cases full : writer.spareCapacity < bytes.length
    · rw [if_pos full]
      have same : (writer.flushBuf attempt.flushed).1.contents = writer.contents :=
        contents_flushBuf attempt.flushed
      cases ok : (writer.flushBuf attempt.flushed).2 with
      | true =>
          have empty := buffer_flushBuf ok
          have adds : (writer.flushBuf attempt.flushed).1.Adds _ _ bytes :=
            Adds.deposit (fits.flushBuf attempt.flushed) (Or.inl empty) attempt.direct
          rw [if_pos ok]
          exact ⟨same ▸ adds.part, same ▸ adds.all, adds.fits, adds.capacity⟩
      | false =>
          rw [if_neg (by rw [ok]; exact Bool.false_ne_true)]
          exact ⟨⟨[], List.nil_prefix, by rw [List.append_nil]; exact same⟩,
            fun failed => absurd failed Bool.false_ne_true, fits.flushBuf attempt.flushed, rfl⟩
    · rw [if_neg full]
      exact Adds.deposit fits (Or.inr (Nat.le_of_not_lt full)) attempt.direct

end Writer

end BufWriter
