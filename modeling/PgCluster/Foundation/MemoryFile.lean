import Mathlib.Data.List.TakeDrop

/-! A file in memory: its items and a position that reads and writes move. -/

namespace Foundation

structure MemoryFile (Item : Type*) where
  content : List Item
  position : Nat

namespace MemoryFile

variable {Item : Type*}

def empty : MemoryFile Item := ⟨[], 0⟩

def seek (file : MemoryFile Item) (position : Nat) : MemoryFile Item :=
  ⟨file.content, position⟩

def seekEnd (file : MemoryFile Item) : MemoryFile Item :=
  file.seek file.content.length

/-- The position does not move to the end of a file that it is already behind. -/
def read (file : MemoryFile Item) (count : Nat) : MemoryFile Item × List Item :=
  let data := (file.content.drop file.position).take count
  (file.seek (file.position + data.length), data)

def readAll (file : MemoryFile Item) : MemoryFile Item × List Item :=
  file.read file.content.length

/-- Items are replaced from the position on. A position behind the end is reached with
padding, unless there is nothing to write.
-/
def write [Inhabited Item] (file : MemoryFile Item) (data : List Item) : MemoryFile Item :=
  if data = [] then file
  else
    let padding := List.replicate (file.position - file.content.length) default
    ⟨file.content.take file.position ++ padding ++ data
      ++ file.content.drop (file.position + data.length),
      file.position + data.length⟩

/-- The position stays, even when it is cut off. -/
def truncate (file : MemoryFile Item) (size : Nat) : MemoryFile Item :=
  ⟨file.content.take size, file.position⟩

@[simp] theorem seek_content (file : MemoryFile Item) (position : Nat)
    : (file.seek position).content = file.content :=
  rfl

@[simp] theorem seek_position (file : MemoryFile Item) (position : Nat)
    : (file.seek position).position = position :=
  rfl

@[simp] theorem seekEnd_content (file : MemoryFile Item)
    : file.seekEnd.content = file.content :=
  rfl

@[simp] theorem seekEnd_position (file : MemoryFile Item)
    : file.seekEnd.position = file.content.length :=
  rfl

@[simp] theorem read_content (file : MemoryFile Item) (count : Nat)
    : (file.read count).1.content = file.content :=
  rfl

@[simp] theorem read_data (file : MemoryFile Item) (count : Nat)
    : (file.read count).2 = (file.content.drop file.position).take count :=
  rfl

@[simp] theorem read_position (file : MemoryFile Item) (count : Nat)
    : (file.read count).1.position = file.position + (file.read count).2.length :=
  rfl

@[simp] theorem readAll_content (file : MemoryFile Item)
    : file.readAll.1.content = file.content :=
  rfl

@[simp] theorem readAll_data (file : MemoryFile Item)
    : file.readAll.2 = file.content.drop file.position :=
  List.take_of_length_le (by simp)

@[simp] theorem truncate_content (file : MemoryFile Item) (size : Nat)
    : (file.truncate size).content = file.content.take size :=
  rfl

variable [Inhabited Item]

/-- Inside the file, what is written replaces as many items. -/
theorem write_content (file : MemoryFile Item) (inside : file.position ≤ file.content.length)
    (data : List Item)
    : (file.write data).content
      = file.content.take file.position ++ data
        ++ file.content.drop (file.position + data.length) := by
  by_cases nothing : data = []
  · simp [write, nothing]
  · simp [write, nothing, Nat.sub_eq_zero_of_le inside]

theorem write_take (file : MemoryFile Item) (inside : file.position ≤ file.content.length)
    (data : List Item)
    : (file.write data).content.take (file.position + data.length)
      = file.content.take file.position ++ data := by
  have front : (file.content.take file.position ++ data).length
      = file.position + data.length := by
    rw [List.length_append, List.length_take, Nat.min_eq_left inside]
  rw [write_content file inside, ← front, List.take_left]

/-- What lies behind the written items stays. -/
theorem write_drop (file : MemoryFile Item) {data : List Item} {count : Nat}
    (inside : file.position + data.length ≤ file.content.length)
    (behind : file.position + data.length ≤ count)
    : (file.write data).content.drop count = file.content.drop count := by
  have front : (file.content.take file.position ++ data).length
      = file.position + data.length := by
    rw [List.length_append, List.length_take, Nat.min_eq_left (by omega)]
  rw [write_content file (by omega), List.drop_append, front,
    List.drop_of_length_le (by rw [front]; exact behind), List.nil_append, List.drop_drop,
    Nat.add_sub_cancel' behind]

theorem write_length (file : MemoryFile Item) {data : List Item}
    (inside : file.position + data.length ≤ file.content.length)
    : (file.write data).content.length = file.content.length := by
  rw [write_content file (by omega)]
  simp only [List.length_append, List.length_take, List.length_drop]
  omega

/-- At the end of the file, what is written is appended. -/
@[simp] theorem seekEnd_write_content (file : MemoryFile Item) (data : List Item)
    : (file.seekEnd.write data).content = file.content ++ data := by
  rw [write_content _ (by simp)]
  simp

theorem write_position (file : MemoryFile Item) (data : List Item)
    : (file.write data).position = file.position + data.length := by
  by_cases nothing : data = []
  · simp [write, nothing]
  · simp [write, nothing]

end MemoryFile

end Foundation
