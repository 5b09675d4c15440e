import IsoTp.Bytes

/-!
Buffers of a fixed size.

A new buffer is zero. It keeps the bytes up to the last one written and counts the zero bytes
after them, so that a large buffer costs nothing until it is used; `Buffer.toList` shows all its
bytes. Reading and writing name a region. A region that leaves the buffer yields `none`, so that a
program which never does so can be told from one which does.
-/

namespace IsoTp

/-- What memory a program is given, by the sizes of the buffers that there is room for. -/
structure Memory where
  has : Nat → Bool

/-- Memory for any buffer below 64 gibibytes, for a program that nothing is said about. -/
def Memory.ample : Memory := ⟨(· < 0x1000000000)⟩

/-- A buffer: the bytes up to the last one written, and how many zero bytes follow them. -/
structure Buffer where
  written : Array UInt8
  blank : Nat
deriving DecidableEq, Repr

namespace Buffer

/-- All bytes of a buffer. -/
def toList (b : Buffer) : Bytes := b.written.toList ++ .replicate b.blank 0

def size (b : Buffer) : Nat := b.written.size + b.blank

/-- A buffer that holds `bytes`. -/
def ofList (bytes : Bytes) : Buffer := ⟨bytes.toArray, 0⟩

/-- A buffer of `n` zero bytes. -/
def zeroed (n : Nat) : Buffer := ⟨#[], n⟩

/-- A new buffer of `n` zero bytes, unless there is no memory for it. -/
def allocate? (n : Nat) (memory : Memory := .ample) : Option Buffer :=
  if memory.has n then some (zeroed n) else none

/-- The `count` bytes from `start` on. -/
def read? (b : Buffer) (start count : Nat) : Option Bytes :=
  if start + count ≤ b.size then
    let part := b.written.extract start (start + count)
    some (part.toList ++ .replicate (count - part.size) 0)
  else none

/-- The buffer with `data` in place of the bytes from `start` on. -/
def write? (b : Buffer) (start : Nat) (data : Bytes) : Option Buffer :=
  let stop := start + data.length
  if stop ≤ b.size then
    let before := b.written.extract 0 start ++ Array.replicate (start - b.written.size) 0
    some ⟨before ++ data ++ b.written.extract stop b.written.size,
      b.blank - (stop - b.written.size)⟩
  else none

/-! ### What reading and writing do to the bytes -/

variable {b b' : Buffer} {start count n : Nat} {data : Bytes}

@[simp] theorem length_toList (b : Buffer) : b.toList.length = b.size := by simp [toList, size]

/-- Reading yields the bytes of the region. -/
theorem read?_eq (b : Buffer) (start count : Nat) :
    b.read? start count =
      if start + count ≤ b.size then some ((b.toList.drop start).take count) else none := by
  simp only [read?]
  split
  · next h =>
    simp only [size] at h
    simp only [toList, Array.toList_extract, List.extract_eq_drop_take', Array.size_extract,
      List.drop_append, List.take_append, List.drop_replicate, List.take_replicate,
      List.length_drop, Array.length_toList, Option.some.injEq]
    congr 1
    · rw [List.drop_take, Nat.add_sub_cancel_left]
    · congr 1
      omega
  · rfl

theorem isSome_read?_iff : (b.read? start count).isSome ↔ start + count ≤ b.size := by
  rw [read?_eq]
  split <;> simp_all

theorem isSome_write?_iff : (b.write? start data).isSome ↔ start + data.length ≤ b.size := by
  simp only [write?]
  split <;> simp_all

/-- The bytes after a write: those of the region are replaced. -/
theorem toList_of_write? (h : b.write? start data = some b') :
    b'.toList = b.toList.take start ++ (data ++ b.toList.drop (start + data.length)) := by
  simp only [write?] at h
  split at h
  · next hle =>
    cases h
    simp only [size] at hle
    have hblank : min (start - b.written.size) b.blank = start - b.written.size := by omega
    have hall : b.written.toList.take b.written.size = b.written.toList :=
      List.take_of_length_le (by simp)
    simp [toList, List.extract_eq_drop_take', List.take_append, List.drop_append, hblank, hall]
  · cases h

/-- A write does not change the size. -/
theorem size_of_write? (h : b.write? start data = some b') : b'.size = b.size := by
  have hle : start + data.length ≤ b.size := isSome_write?_iff.1 (by simp [h])
  rw [← length_toList, toList_of_write? h]
  simp
  omega

/-- Up to the end of its region, a write puts the data after the bytes before the region. -/
theorem take_add_of_write? (h : b.write? start data = some b') :
    b'.toList.take (start + data.length) = b.toList.take start ++ data := by
  have hle : start + data.length ≤ b.size := isSome_write?_iff.1 (by simp [h])
  have htake : (b.toList.take start).length = start := List.length_take_of_le (by simp; omega)
  have hlen : (b.toList.take start ++ data).length = start + data.length := by
    rw [List.length_append, htake]
  rw [toList_of_write? h, ← List.append_assoc, ← hlen, List.take_left]

/-- A write leaves the bytes after its region alone. -/
theorem drop_of_write? (h : b.write? start data = some b') (hn : start + data.length ≤ n) :
    b'.toList.drop n = b.toList.drop n := by
  have hle : start + data.length ≤ b.size := isSome_write?_iff.1 (by simp [h])
  have htake : (b.toList.take start).length = start := List.length_take_of_le (by simp; omega)
  rw [toList_of_write? h, List.drop_append, List.drop_of_length_le (by omega), List.drop_append,
    List.drop_of_length_le (by omega), List.drop_drop, htake]
  simp only [List.nil_append]
  congr 1
  omega

end Buffer

end IsoTp
