import DeniableHandshake.Bytes.Endian
import DeniableHandshake.Hash.Keccak

/-!
# SHAKE-256

A sponge over the Keccak permutation that takes in and gives out 136 bytes at a time. The output
has exactly the requested length, and a shorter output is the front of a longer one.
-/
namespace DeniableHandshake

namespace Shake256
open Keccak

def rate : Nat := 136

def word (b : Bytes) : UInt64 := UInt64.ofNat (ofLittleEndian (b.take 8))

/-- Adds up to `rate` bytes to the first lanes. -/
def addBlock (s : State) (b : Bytes) : State :=
  Vector.ofFn fun i => s.get i ^^^ word (b.drop (8 * i))

/-- The message followed by the output mark, zeros, and a last bit at the end of a block. -/
def pad (m : Bytes) : Bytes :=
  let k := rate - m.length % rate
  if k = 1 then m ++ [0x9F] else m ++ 0x1F :: (List.replicate (k - 2) 0 ++ [0x80])

def absorb (s : State) (b : Bytes) : State :=
  if b.length < rate then s else absorb (permute (addBlock s (b.take rate))) (b.drop rate)
termination_by b.length
decreasing_by
  rename_i h
  rw [List.length_drop]
  simp only [rate] at h ⊢
  omega

def outputBlock (s : State) : Bytes :=
  (s.toList.take 17).flatMap fun w => toLittleEndian 8 w.toNat

def squeeze (s : State) (n : Nat) : Bytes :=
  if n ≤ rate then (outputBlock s).take n else outputBlock s ++ squeeze (permute s) (n - rate)
termination_by n
decreasing_by
  rename_i h
  simp only [rate] at h ⊢
  omega

theorem length_outputBlock (s : State) : (outputBlock s).length = rate := by
  simp [outputBlock, List.length_flatMap, List.map_const', rate]

theorem length_squeeze (s : State) (n : Nat) : (squeeze s n).length = n := by
  induction n using Nat.strongRecOn generalizing s with
  | ind n ih =>
    rw [squeeze]
    by_cases h : n ≤ rate
    · rw [if_pos h, List.length_take, length_outputBlock, Nat.min_eq_left h]
    · rw [if_neg h, List.length_append, length_outputBlock, ih (n - rate) (by simp [rate] at h ⊢; omega)]
      omega

end Shake256

def shake256 (m : Bytes) (n : Nat) : Block n :=
  ⟨Shake256.squeeze (Shake256.absorb .zero (Shake256.pad m)) n, Shake256.length_squeeze _ _⟩

end DeniableHandshake
