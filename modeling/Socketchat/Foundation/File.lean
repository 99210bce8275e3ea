import Mathlib.Data.List.Basic
import Mathlib.Tactic.Common

/-!
# Files read from front to back

A file is its content and a position in it. `read` is `fread` of one item: it
takes the bytes of the item, or what there is of them, and says whether they
were all there. Whatever it returns, `rest` loses as many bytes as the item has
(`rest_read`).
-/

namespace Socketchat.Foundation

structure File where
  content : List UInt8
  pos : ℕ

namespace File

variable (f : File) (size : ℕ)

/-- `fopen(name, "rb")` of a file with this content. -/
def openRead (content : List UInt8) : File := ⟨content, 0⟩

/-- What has not been read yet. -/
def rest : List UInt8 := f.content.drop f.pos

/-- `fread(ptr, size, 1, f)`: whether it returns 1, and the bytes stored at
`ptr`. -/
def read : Bool × List UInt8 × File :=
  let item := f.rest.take size
  (decide (size ≤ f.rest.length), item, { f with pos := f.pos + item.length })

@[simp] theorem rest_openRead (content : List UInt8) :
    (openRead content).rest = content := rfl

@[simp] theorem read_whole : (f.read size).1 = decide (size ≤ f.rest.length) :=
  rfl

@[simp] theorem read_item : (f.read size).2.1 = f.rest.take size := rfl

@[simp] theorem rest_read : (f.read size).2.2.rest = f.rest.drop size := by
  show f.content.drop (f.pos + (f.rest.take size).length) = _
  rw [← List.drop_drop, List.length_take]
  by_cases h : size ≤ f.rest.length
  · rw [Nat.min_eq_left h]
    rfl
  · have hshort : f.rest.length ≤ size := Nat.le_of_not_le h
    rw [Nat.min_eq_right hshort, List.drop_eq_nil_of_le hshort]
    exact List.drop_length

/-- What has been read from a file stays part of it. -/
theorem infix_content {xs : List UInt8} (h : xs <:+: f.rest) :
    xs <:+: f.content :=
  h.trans (List.drop_suffix ..).isInfix

end File

/-- The number four bytes stand for, the lowest one first. -/
def littleEndian (bytes : List UInt8) : ℕ :=
  bytes.foldr (fun b n => b.toNat + 256 * n) 0

end Socketchat.Foundation
