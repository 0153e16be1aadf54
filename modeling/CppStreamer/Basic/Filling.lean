import CppStreamer.Basic.Checked

/-!
This module contains buffers that are filled from their front, and what the copies of bytes into and out of them
rely on.
-/

/--
What a function that copies bytes relies on: ranges that are inside of their buffers, and assertions.
-/
inductive CopyCheck where
  | inside (offset len size : Nat)
  | assertion (cond : Bool)
  deriving DecidableEq, Repr

def CopyCheck.Holds : CopyCheck → Prop
  | inside offset len size => offset + len ≤ size
  | assertion cond => cond = true

/--
The bytes of a range.
-/
def copyBytes (src : List UInt8) (offset len : Nat) : Checked CopyCheck (List UInt8) := do
  Checked.check (.inside offset len src.length)
  return (src.drop offset).take len

/--
A buffer, with the bytes that have been written to its front.
-/
structure Filling where
  size : Nat
  written : List UInt8 := []
  deriving DecidableEq, Repr

namespace Filling

open Checked

def put (out : Filling) (bytes : List UInt8) : Checked CopyCheck Filling := do
  check (.inside out.written.length bytes.length out.size)
  return { out with written := out.written ++ bytes }

def memcpy (out : Filling) (src : List UInt8) (offset len : Nat) : Checked CopyCheck Filling := do
  let bytes ← copyBytes src offset len
  out.put bytes

end Filling

section Rules

open Checked

variable {src : List UInt8} {offset len : Nat} {out : Filling}

@[simp]
theorem copyBytes_value : (copyBytes src offset len).value = (src.drop offset).take len := rfl

@[simp]
theorem copyBytes_passes : (copyBytes src offset len).Passes CopyCheck.Holds ↔ offset + len ≤ src.length := by
  simp [copyBytes, CopyCheck.Holds]

theorem length_copyBytes (h : offset + len ≤ src.length) : (copyBytes src offset len).value.length = len := by
  simp only [copyBytes_value, List.length_take, List.length_drop]
  omega

theorem copyBytes_append (front rest : List UInt8) {mid : List UInt8} (hsrc : src = front ++ (mid ++ rest))
    (hoffset : offset = front.length) (hlen : len = mid.length)
    : (src.drop offset).take len = mid := by
  rw [hsrc, List.drop_left' hoffset.symm, List.take_left' hlen.symm]

namespace Filling

@[simp]
theorem put_value (bytes : List UInt8) : (out.put bytes).value = { out with written := out.written ++ bytes } := rfl

@[simp]
theorem put_passes (bytes : List UInt8)
    : (out.put bytes).Passes CopyCheck.Holds ↔ out.written.length + bytes.length ≤ out.size := by
  simp [put, CopyCheck.Holds]

@[simp]
theorem memcpy_value
    : (out.memcpy src offset len).value = { out with written := out.written ++ (src.drop offset).take len } := rfl

@[simp]
theorem memcpy_passes
    : (out.memcpy src offset len).Passes CopyCheck.Holds
        ↔ offset + len ≤ src.length ∧ out.written.length + len ≤ out.size := by
  unfold memcpy
  rw [passes_bind, copyBytes_passes, put_passes]
  apply and_congr_right
  intro h
  rw [length_copyBytes h]

end Filling

end Rules
