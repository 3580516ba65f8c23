import Mathlib.Tactic

/-! # Big-endian byte fields — the fixed-width integer library

    A field of `w` bytes carries a natural number below `256 ^ w`, most
    significant byte first.  Writing and reading are inverse below that bound
    (`beNat_beBytes`), and a written field has exactly its width
    (`length_beBytes`).  Nothing here knows which format the fields belong
    to. -/

namespace BigEndian

/-- The number carried by a big-endian byte field. -/
def beNat (bs : List UInt8) : Nat :=
  bs.foldl (fun acc b => acc * 256 + b.toNat) 0

/-- The `w`-byte big-endian field carrying `n`; higher digits are dropped. -/
def beBytes : Nat → Nat → List UInt8
  | 0, _ => []
  | w + 1, n => beBytes w (n / 256) ++ [UInt8.ofNat (n % 256)]

@[simp] theorem length_beBytes (w n : Nat) : (beBytes w n).length = w := by
  induction w generalizing n with
  | zero => rfl
  | succ w ih => simp only [beBytes, List.length_append, ih, List.length_singleton]

/-- Reading consumes the least significant byte last. -/
theorem beNat_concat (bs : List UInt8) (b : UInt8) :
    beNat (bs ++ [b]) = beNat bs * 256 + b.toNat := by
  simp only [beNat, List.foldl_append, List.foldl_cons, List.foldl_nil]

/-- **FIELD ROUND TRIP**: what is written below the width is read back. -/
theorem beNat_beBytes {w n : Nat} (h : n < 256 ^ w) : beNat (beBytes w n) = n := by
  induction w generalizing n with
  | zero =>
      have hn : n = 0 := by simpa using h
      subst hn
      rfl
  | succ w ih =>
      have hdiv : n / 256 < 256 ^ w := by
        rw [pow_succ] at h
        exact Nat.div_lt_of_lt_mul (by rw [Nat.mul_comm]; exact h)
      have hbyte : (UInt8.ofNat (n % 256)).toNat = n % 256 := by
        rw [UInt8.toNat_ofNat']
        exact Nat.mod_eq_of_lt (Nat.mod_lt n (by decide))
      rw [beBytes, beNat_concat, ih hdiv, hbyte]
      omega

end BigEndian
