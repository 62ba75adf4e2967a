import Orbot.Install.TorResourceInstaller

/-! # The two copies

`streamToFile` and `copyFile` copy a stream through a buffer. A read puts its
bytes at the front of the buffer and leaves the rest as it was. `streamToFile`
writes what was read, `copyFile` writes the buffer.
-/

namespace Orbot.Install

open Java (Text)
open Lib Writes

/-- `FILE_WRITE_BUFFER_SIZE` -/
def fileWriteBufferSize : ℕ := 1024

/-- `new byte[1024]` in `copyFile` -/
def copyBufferSize : ℕ := 1024

/-- What the reads of a stream return until it ends, for a buffer of this size. -/
structure Reads (size : ℕ) where
  chunks : List (List UInt8)
  nonempty : ∀ chunk ∈ chunks, chunk ≠ []
  fits : ∀ chunk ∈ chunks, chunk.length ≤ size
  deriving DecidableEq

/-- The bytes of the stream. -/
def Reads.bytes {size : ℕ} (reads : Reads size) : List UInt8 := reads.chunks.flatten

/-- No read is short. -/
def Reads.Full {size : ℕ} (reads : Reads size) : Prop :=
  ∀ chunk ∈ reads.chunks, chunk.length = size

/-- The buffer after a read. -/
def fill (buffer chunk : List UInt8) : List UInt8 := chunk ++ buffer.drop chunk.length

/-! ## The loops -/

/-- What the loop of `streamToFile` writes. -/
def streamLoop (buffer : List UInt8) : List (List UInt8) → List UInt8
  | [] => []
  | chunk :: rest =>
      if chunk.length > 0 then
        (fill buffer chunk).take chunk.length ++ streamLoop (fill buffer chunk) rest
      else []

/-- What the loop of `copyFile` writes. -/
def copyLoop (data : List UInt8) : List (List UInt8) → List UInt8
  | [] => []
  | chunk :: rest => fill data chunk ++ copyLoop (fill data chunk) rest

def newBuffer (size : ℕ) : List UInt8 := .replicate size 0

/-- `new FileOutputStream(file, append)` -/
def openOutput (outFile : Text) (append : Bool) (folder : Folder) : Folder :=
  if append && (folder outFile).isSome then folder else (Op.create outFile).apply folder

def write (outFile : Text) (bytes : List UInt8) (folder : Folder) : Folder :=
  perform (bytes.map (.append outFile)) folder

namespace Reads

/-- `streamToFile(stm, outFile, append, false)` -/
def streamToFile (stm : Reads fileWriteBufferSize) (outFile : Text) (append : Bool)
    (folder : Folder) : Folder :=
  write outFile (streamLoop (newBuffer fileWriteBufferSize) stm.chunks)
    (openOutput outFile append folder)

/-- A file that is there is deleted first; the flag is that of `createNewFile`. -/
def copyFile (is : Reads copyBufferSize) (outputFile : Text) (folder : Folder) : Bool × Folder :=
  let deleted := Function.update folder outputFile none
  let newFile := (deleted outputFile).isNone
  (newFile, write outputFile (copyLoop (newBuffer copyBufferSize) is.chunks)
    (openOutput outputFile false deleted))

end Reads

/-! ## What is written -/

theorem fill_length {buffer chunk : List UInt8} (fits : chunk.length ≤ buffer.length) :
    (fill buffer chunk).length = buffer.length := by
  rw [fill, List.length_append, List.length_drop]
  omega

/-- The bytes of the stream, whatever the buffer holds. -/
theorem streamLoop_eq {chunks : List (List UInt8)} (nonempty : ∀ chunk ∈ chunks, chunk ≠ [])
    (buffer : List UInt8) : streamLoop buffer chunks = chunks.flatten := by
  induction chunks generalizing buffer with
  | nil => rfl
  | cons chunk rest ih =>
      obtain ⟨some, others⟩ := List.forall_mem_cons.mp nonempty
      rw [streamLoop, if_pos (List.length_pos_iff.mpr some), ih others, fill, List.take_left,
        List.flatten_cons]

/-- Every read adds a whole buffer. -/
theorem copyLoop_length {data : List UInt8} {chunks : List (List UInt8)}
    (fits : ∀ chunk ∈ chunks, chunk.length ≤ data.length) :
    (copyLoop data chunks).length = chunks.length * data.length := by
  induction chunks generalizing data with
  | nil => simp [copyLoop]
  | cons chunk rest ih =>
      obtain ⟨first, others⟩ := List.forall_mem_cons.mp fits
      have filled := fill_length first
      have remaining := @ih (fill data chunk) (by rwa [filled])
      rw [copyLoop, List.length_append, remaining, filled, List.length_cons, Nat.succ_mul,
        Nat.add_comm]

/-- A buffer that is full holds nothing else. -/
theorem copyLoop_full {data : List UInt8} {chunks : List (List UInt8)}
    (full : ∀ chunk ∈ chunks, chunk.length = data.length) :
    copyLoop data chunks = chunks.flatten := by
  induction chunks generalizing data with
  | nil => rfl
  | cons chunk rest ih =>
      obtain ⟨first, others⟩ := List.forall_mem_cons.mp full
      have filled : fill data chunk = chunk := by
        rw [fill, List.drop_eq_nil_of_le first.ge, List.append_nil]
      have remaining := @ih chunk (by rwa [first])
      rw [copyLoop, filled, remaining, List.flatten_cons]

theorem flatten_length_le {size : ℕ} {chunks : List (List UInt8)}
    (fits : ∀ chunk ∈ chunks, chunk.length ≤ size) :
    chunks.flatten.length ≤ chunks.length * size := by
  induction chunks with
  | nil => simp
  | cons chunk rest ih =>
      obtain ⟨first, others⟩ := List.forall_mem_cons.mp fits
      have remaining := ih others
      rw [List.flatten_cons, List.length_append, List.length_cons, Nat.succ_mul]
      omega

/-- As many bytes as so many buffers hold are read only by full reads. -/
theorem full_of_flatten_length {size : ℕ} {chunks : List (List UInt8)}
    (fits : ∀ chunk ∈ chunks, chunk.length ≤ size)
    (total : chunks.flatten.length = chunks.length * size) :
    ∀ chunk ∈ chunks, chunk.length = size := by
  induction chunks with
  | nil => exact List.forall_mem_nil _
  | cons chunk rest ih =>
      obtain ⟨first, others⟩ := List.forall_mem_cons.mp fits
      have bound := flatten_length_le others
      rw [List.flatten_cons, List.length_append, List.length_cons, Nat.succ_mul] at total
      exact List.forall_mem_cons.mpr ⟨by omega, ih others (by omega)⟩

theorem copyLoop_eq_iff {data : List UInt8} {chunks : List (List UInt8)}
    (fits : ∀ chunk ∈ chunks, chunk.length ≤ data.length) :
    copyLoop data chunks = chunks.flatten ↔ ∀ chunk ∈ chunks, chunk.length = data.length := by
  constructor
  · intro same
    apply full_of_flatten_length fits
    rw [← same, copyLoop_length fits]
  · exact copyLoop_full

/-! ## The files -/

section Files

variable (file : Text) (folder : Folder)

/-- A new file holds what is written to it. -/
theorem write_new (bytes : List UInt8) :
    write file bytes (openOutput file false folder) file = some bytes := by
  rw [write, perform_appends]
  simp [openOutput, Op.apply]

/-- The stream is written as a whole, in whatever parts it is read. -/
theorem streamToFile_file (stm : Reads fileWriteBufferSize) :
    stm.streamToFile file false folder = perform (streamToFile stm.bytes file) folder := by
  rw [Reads.streamToFile, streamLoop_eq stm.nonempty]
  rfl

theorem copyFile_file (is : Reads copyBufferSize) :
    (is.copyFile file folder).2 file = some (copyLoop (newBuffer copyBufferSize) is.chunks) :=
  write_new file _ _

/-- A copy holds the bytes of the stream exactly if every read filled the buffer. -/
theorem copyFile_eq_iff (is : Reads copyBufferSize) :
    (is.copyFile file folder).2 file = some is.bytes ↔ is.Full := by
  have size : (newBuffer copyBufferSize).length = copyBufferSize := List.length_replicate
  rw [copyFile_file, Option.some_inj, Reads.bytes,
    copyLoop_eq_iff (by simpa only [size] using is.fits), size, Reads.Full]

end Files

/-- The one copy is always that of the stream, and so they agree with it exactly
    where no read of the other is short. -/
theorem copies_agree_iff (stm : Reads fileWriteBufferSize) (is : Reads copyBufferSize)
    (file file' : Text) (folder folder' : Folder) :
    stm.streamToFile file false folder file = some stm.bytes ∧
        (is.copyFile file' folder').2 file' = some is.bytes ↔ is.Full := by
  rw [copyFile_eq_iff, and_iff_right]
  rw [Reads.streamToFile, write_new, streamLoop_eq stm.nonempty, Reads.bytes]

/-- A stream of one byte, as either routine reads it. -/
def oneByte : Reads copyBufferSize where
  chunks := [[127]]
  nonempty := by decide
  fits := by decide

/-- The copy of a stream of one byte has 1023 zeros behind it. -/
theorem copies_disagree :
    (oneByte.copyFile "tor".toList fun _ => none).2 "tor".toList =
        some (127 :: List.replicate 1023 0) ∧
      oneByte.bytes = [127] ∧
      (oneByte.copyFile "tor".toList fun _ => none).2 "tor".toList ≠ some oneByte.bytes := by
  have written := copyFile_file "tor".toList (fun _ => none) oneByte
  have padded : copyLoop (newBuffer copyBufferSize) oneByte.chunks =
      127 :: List.replicate 1023 0 := by
    simp only [copyLoop, fill, newBuffer, copyBufferSize, oneByte, List.drop_replicate,
      List.length_singleton, Nat.reduceSub, List.singleton_append, List.append_nil]
  rw [padded] at written
  refine ⟨written, rfl, ?_⟩
  intro same
  have full := (copyFile_eq_iff "tor".toList (fun _ => none) oneByte).mp same
  exact absurd (full [127] (List.mem_singleton_self _)) (by decide)

end Orbot.Install
