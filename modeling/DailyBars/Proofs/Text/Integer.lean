import DailyBars.Text.Digits
import Mathlib

/-!
# Signed numbers as text

The text of a 64-bit number is its digits, after a minus where it is negative, and reads back to
the same number (`Text.integer?_int64Text`, `Text.int64?_toInt`). The digits have no zero in front
of others, so that readers which refuse leading zeros take them too.
-/

namespace DailyBars.Text

/-- **Digits do not start with a zero**, unless they are that zero. -/
theorem eq_nil_of_toDigits_eq_cons {n : Nat} {rest : List Char}
    (h : Nat.toDigits 10 n = '0' :: rest) : rest = [] := by
  induction n using Nat.strongRecOn generalizing rest with
  | ind n ih =>
    rw [Nat.toDigits_eq_if (by decide)] at h
    split at h
    · exact (List.cons.inj h).2.symm
    · rename_i hten
      obtain ⟨first, later, hdigits⟩ :=
        List.exists_cons_of_ne_nil (Nat.toDigits_ne_nil (b := 10) (n := n / 10))
      rw [hdigits, List.cons_append] at h
      obtain ⟨rfl, -⟩ := List.cons.inj h
      obtain rfl := ih (n / 10) (by omega) hdigits
      -- The number without its last digit would be written as a single zero.
      have hvalue := Nat.ofDigitChars_ten_toDigits (n := n / 10)
      rw [hdigits] at hvalue
      have hzero : Nat.ofDigitChars 10 ['0'] 0 = 0 := rfl
      omega

theorem toList_int64Text (n : Int64) : (int64Text n).toList =
    (if n.toInt < 0 then ['-'] else []) ++ Nat.toDigits 10 n.toInt.natAbs := by
  rw [int64Text]
  cases n.toInt with
  | ofNat m =>
    show (Nat.repr m).toList = _
    simp [Nat.repr]
  | negSucc m =>
    show ("-" ++ Nat.repr (m + 1)).toList = _
    simp [Nat.repr]

theorem splitSign_toDigits (n : Nat) (rest : List Char) :
    splitSign (Nat.toDigits 10 n ++ rest) = (false, Nat.toDigits 10 n ++ rest) := by
  obtain ⟨first, later, hdigits⟩ :=
    List.exists_cons_of_ne_nil (Nat.toDigits_ne_nil (b := 10) (n := n))
  have hdigit : first.isDigit = true :=
    Nat.isDigit_of_mem_toDigits (by decide) (by decide) (hdigits ▸ List.mem_cons_self)
  rw [hdigits, List.cons_append]
  unfold splitSign
  split
  · rename_i heq
    rw [(List.cons.inj heq).1] at hdigit
    exact absurd hdigit (by decide)
  · rename_i heq
    rw [(List.cons.inj heq).1] at hdigit
    exact absurd hdigit (by decide)
  · rfl

theorem splitSign_int64Text (n : Int64) :
    splitSign (int64Text n).toList = (decide (n.toInt < 0), Nat.toDigits 10 n.toInt.natAbs) := by
  rw [toList_int64Text]
  split
  · rename_i hnegative
    rw [decide_eq_true hnegative]
    rfl
  · rename_i hnegative
    rw [decide_eq_false hnegative]
    have := splitSign_toDigits n.toInt.natAbs []
    rwa [List.append_nil] at this

/-- The digits of a number with the sign of another. -/
theorem signed_ofDigits_toDigits (n : Int) :
    (if decide (n < 0) then -(ofDigits (Nat.toDigits 10 n.natAbs) : Int)
      else (ofDigits (Nat.toDigits 10 n.natAbs) : Int)) = n := by
  rw [ofDigits, Nat.ofDigitChars_ten_toDigits]
  split
  · rename_i h
    have := of_decide_eq_true h
    omega
  · rename_i h
    have := of_decide_eq_false (Bool.eq_false_iff.2 h)
    omega

theorem all_isDigit_toDigits (n : Nat) : (Nat.toDigits 10 n).all Char.isDigit = true :=
  List.all_eq_true.2 fun _ ↦ Nat.isDigit_of_mem_toDigits (by decide) (by decide)

/-- **The text of a number reads back to it.** -/
theorem integer?_int64Text (n : Int64) : integer? (int64Text n).toList = some n.toInt := by
  have hne : (Nat.toDigits 10 n.toInt.natAbs).isEmpty = false := by
    simp [Nat.toDigits_ne_nil]
  rw [integer?, splitSign_int64Text]
  dsimp only
  rw [hne, all_isDigit_toDigits]
  have hvalue := signed_ofDigits_toDigits n.toInt
  split at hvalue
  · rename_i h
    rw [if_pos h, hvalue]
    rfl
  · rename_i h
    rw [if_neg h, hvalue]
    rfl

/-- A 64-bit number is in the range of the 64-bit numbers. -/
theorem int64?_toInt (n : Int64) : int64? n.toInt = some n := by
  have hle := n.le_toInt
  have hlt := n.toInt_lt
  rw [int64?, if_pos ⟨by simpa using hle, by simpa using hlt⟩, Int64.ofInt_toInt]

theorem int64?_eq_some_iff {n : Int} {word : Int64} :
    int64? n = some word ↔ word.toInt = n := by
  constructor
  · intro h
    unfold int64? at h
    split at h
    · rename_i hrange
      cases h
      exact Int64.toInt_ofInt_of_le (by simpa using hrange.1) (by simpa using hrange.2)
    · cases h
  · rintro rfl
    exact int64?_toInt word

end DailyBars.Text
