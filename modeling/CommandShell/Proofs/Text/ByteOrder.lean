import CommandShell.Proofs.Text.Encoding
import CommandShell.Store
import Mathlib.Data.String.Basic

/-!
The order of texts. To compare the numbers of their characters, one after the other, is to compare
the bytes that encode them.
-/

namespace CommandShell

theorem textBefore_iff_lt {first second : List Char} : textBefore first second = true ↔
    first < second := by
  fun_induction textBefore first second with
  | case1 first => simp
  | case2 c second => simp
  | case3 c first d second inductionHypothesis =>
      have smaller : Nat.blt c.toNat d.toNat = true ↔ c < d := by
        rw [Nat.blt_eq, Char.lt_def, UInt32.lt_iff_toNat_lt]
        rfl
      simp [List.cons_lt_cons_iff, inductionHypothesis, smaller]

namespace Bytes

theorem cons_lt_cons {a b : Nat} {first second : Bytes} (small : b < 256) (le : a ≤ b)
    (rest : a = b → first < second) : UInt8.ofNat a :: first < UInt8.ofNat b :: second := by
  rw [List.cons_lt_cons_iff]
  rcases Nat.lt_or_eq_of_le le with less | same
  · refine Or.inl (UInt8.lt_iff_toNat_lt.mpr ?_)
    rwa [toNat_ofNat (Nat.lt_of_le_of_lt le small), toNat_ofNat small]
  · exact Or.inr ⟨by rw [same], rest same⟩

theorem cons_lt_cons_of_lt {a b : Nat} {first second : Bytes} (small : b < 256) (less : a < b) :
    UInt8.ofNat a :: first < UInt8.ofNat b :: second :=
  cons_lt_cons small (Nat.le_of_lt less) fun same => absurd same (Nat.ne_of_lt less)

/-- Of two characters, the bytes of the smaller one come first, whatever stands behind them. -/
theorem utf8EncodeChar_append_lt {c d : Char} (less : c.toNat < d.toNat) (first second : Bytes) :
    String.utf8EncodeChar c ++ first < String.utf8EncodeChar d ++ second := by
  have valid : d.toNat < 0xD800 ∨ 0xDFFF < d.toNat ∧ d.toNat < 0x110000 := d.valid
  have value (e : Char) : e.val.toNat = e.toNat := rfl
  unfold String.utf8EncodeChar
  simp only [value]
  generalize c.toNat = low at less
  generalize d.toNat = high at less valid
  -- More bytes begin with a greater one. Of equally many, the first that differ are ordered as the
  -- numbers are.
  split
  · split
    · exact cons_lt_cons_of_lt (by omega) less
    · split
      · exact cons_lt_cons_of_lt (by omega) (by omega)
      · split <;> exact cons_lt_cons_of_lt (by omega) (by omega)
  · rw [if_neg (by omega : ¬ high ≤ 0x7F)]
    split
    · split
      · exact cons_lt_cons (by omega) (by omega) fun _ => cons_lt_cons_of_lt (by omega) (by omega)
      · split <;> exact cons_lt_cons_of_lt (by omega) (by omega)
    · rw [if_neg (by omega : ¬ high ≤ 0x7FF)]
      split
      · split
        · exact cons_lt_cons (by omega) (by omega) fun _ =>
            cons_lt_cons (by omega) (by omega) fun _ =>
            cons_lt_cons_of_lt (by omega) (by omega)
        · exact cons_lt_cons_of_lt (by omega) (by omega)
      · rw [if_neg (by omega : ¬ high ≤ 0xFFFF)]
        exact cons_lt_cons (by omega) (by omega) fun _ =>
          cons_lt_cons (by omega) (by omega) fun _ =>
          cons_lt_cons (by omega) (by omega) fun _ => cons_lt_cons_of_lt (by omega) (by omega)

theorem encode_lt_encode {first second : List Char} (less : textBefore first second = true) :
    encode first < encode second := by
  fun_induction textBefore first second with
  | case1 => contradiction
  | case2 c text =>
      obtain ⟨byte, bytes, same⟩ := List.exists_cons_of_ne_nil (@String.utf8EncodeChar_ne_nil c)
      rw [encode_nil, encode_cons, same]
      exact List.nil_lt_cons byte _
  | case3 c first d second inductionHypothesis =>
      simp only [Bool.or_eq_true, Nat.blt_eq, Bool.and_eq_true, beq_iff_eq] at less
      rcases less with smaller | ⟨rfl, later⟩
      · exact utf8EncodeChar_append_lt smaller _ _
      · exact List.append_left_lt (inductionHypothesis later)

end Bytes

theorem textBefore_toList_iff {first second : String} :
    textBefore first.toList second.toList = true ↔ first < second := by
  rw [textBefore_iff_lt, String.lt_iff_toList_lt]

theorem Bytes.ofText_lt_ofText {first second : String} (less : first < second) :
    Bytes.ofText first < Bytes.ofText second := by
  rw [Bytes.ofText_eq, Bytes.ofText_eq]
  exact Bytes.encode_lt_encode (textBefore_toList_iff.mpr less)

end CommandShell
