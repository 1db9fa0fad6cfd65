/-
Numbers in bytes, the least significant byte first, and the checksum of a byte sequence.

`number_little` says that a number that fits into its bytes is read back.
-/

namespace Classwright.Archive

/-- the lowest `width` bytes of a number -/
def little : Nat → Nat → List UInt8
  | 0, _ => []
  | width + 1, n => UInt8.ofNat n :: little width (n / 256)

def number : List UInt8 → Nat
  | [] => 0
  | b :: rest => b.toNat + 256 * number rest

@[simp] theorem length_little (width n : Nat) : (little width n).length = width := by
  induction width generalizing n with
  | zero => rfl
  | succ w ih => simp [little, ih]

theorem number_little (width n : Nat) (h : n < Nat.pow 256 width) : number (little width n) = n := by
  induction width generalizing n with
  | zero =>
    have : n = 0 := by simpa using h
    simp [little, number, this]
  | succ w ih =>
    have hn : n / 256 < Nat.pow 256 w := by
      have hs : Nat.pow 256 (w + 1) = Nat.pow 256 w * 256 := rfl
      omega
    simp only [little, number, ih _ hn, UInt8.toNat_ofNat']
    omega

/-- the number in `width` bytes that start at a position -/
def field (bs : List UInt8) (start width : Nat) : Nat := number ((bs.drop start).take width)

/-! ## Checksum -/

/-- one bit moved out of the register of the cyclic redundancy check with the reversed polynomial `0xEDB88320` -/
def crcBit (r : UInt32) : UInt32 := if r &&& 1 = 1 then (r >>> 1) ^^^ 0xEDB88320 else r >>> 1

def crcByte (r : UInt32) (b : UInt8) : UInt32 :=
  crcBit (crcBit (crcBit (crcBit (crcBit (crcBit (crcBit (crcBit (r ^^^ b.toUInt32))))))))

/-- the 32-bit cyclic redundancy check of bytes -/
def checksum (bs : List UInt8) : Nat := (bs.foldl crcByte 0xFFFFFFFF ^^^ 0xFFFFFFFF).toNat

end Classwright.Archive
