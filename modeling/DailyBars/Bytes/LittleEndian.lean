/-!
# Little-endian numbers

A number as a fixed count of bytes, the lowest byte first, and back.
-/

namespace DailyBars.Bytes

/-- The low `count` bytes of a number, the lowest first. -/
def littleEndian : Nat → Nat → List UInt8
  | 0, _ => []
  | count + 1, n => UInt8.ofNat n :: littleEndian count (n / 256)

/-- The number that bytes hold, the lowest first. -/
def ofLittleEndian (bytes : List UInt8) : Nat :=
  bytes.foldr (fun byte n ↦ byte.toNat + 256 * n) 0

@[simp]
theorem length_littleEndian (count n : Nat) : (littleEndian count n).length = count := by
  induction count generalizing n with
  | zero => rfl
  | succ count ih => simp [littleEndian, ih]

theorem ofLittleEndian_littleEndian {count n : Nat} (h : n < Nat.pow 256 count) :
    ofLittleEndian (littleEndian count n) = n := by
  induction count generalizing n with
  | zero =>
    have : n = 0 := by simpa using h
    subst this
    rfl
  | succ count ih =>
    have hsmall : n / 256 < Nat.pow 256 count :=
      Nat.div_lt_of_lt_mul (Nat.mul_comm 256 _ ▸ h)
    have hstep : ofLittleEndian (littleEndian (count + 1) n) =
        (UInt8.ofNat n).toNat + 256 * ofLittleEndian (littleEndian count (n / 256)) := rfl
    rw [hstep, ih hsmall]
    simp only [UInt8.toNat_ofNat']
    omega

end DailyBars.Bytes
