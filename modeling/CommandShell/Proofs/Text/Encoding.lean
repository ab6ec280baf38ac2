import CommandShell.Expansion.Buffer

/-!
Texts and the bytes that encode them. What was encoded is decoded to the same characters, and the
bytes of a character tell whether it ends an argument: only an ASCII character has a byte below 128,
and that is its only one.
-/

namespace CommandShell

namespace Bytes

/-- The bytes of characters. -/
def encode (chars : List Char) : Bytes := chars.flatMap String.utf8EncodeChar

@[simp]
theorem encode_nil : encode [] = [] := rfl

@[simp]
theorem encode_cons (c : Char) (chars : List Char) :
    encode (c :: chars) = String.utf8EncodeChar c ++ encode chars := rfl

@[simp]
theorem encode_append (first second : List Char) :
    encode (first ++ second) = encode first ++ encode second :=
  List.flatMap_append

theorem data_toUTF8 (text : String) : text.toUTF8.data.toList = encode text.toList := by
  rw [String.toUTF8_eq_toByteArray, ← String.utf8Encode_toList, List.utf8Encode,
    List.data_toByteArray]
  rfl

theorem toList_loop (bytes : ByteArray) (place : Nat) (read : List UInt8) :
    ByteArray.toList.loop bytes place read = read.reverse ++ bytes.data.toList.drop place := by
  fun_induction ByteArray.toList.loop bytes place read with
  | case1 place read inside inductionHypothesis =>
      have got : bytes.get! place = bytes.data[place] := getElem!_pos bytes.data place inside
      rw [inductionHypothesis, List.drop_eq_getElem_cons inside, got]
      simp
  | case2 place read outside =>
      have behind : bytes.data.toList.drop place = [] :=
        List.drop_eq_nil_iff.mpr (Nat.le_of_not_lt outside)
      rw [behind, List.append_nil]

theorem ofText_eq (text : String) : ofText text = encode text.toList := by
  rw [← data_toUTF8]
  exact toList_loop text.toUTF8 0 []

/-! Decoding. -/

theorem toNat_ofNat {number : Nat} (small : number < 256) : (UInt8.ofNat number).toNat = number :=
  Nat.mod_eq_of_lt small

theorem begin_two {bits : Nat} (least : 2 ≤ bits) (most : bits < 0x20) :
    begin (UInt8.ofNat (bits + 0xC0)) = some (.inr ⟨1, 0x80, 0xBF, bits⟩) := by
  unfold begin
  rw [toNat_ofNat (by omega)]
  simp only
  rw [if_neg (by omega), if_neg (by omega), if_pos (by omega), Nat.add_sub_cancel]

/-- Behind the first byte of three, the bounds of the second one leave out what has a shorter
encoding and what is no character. -/
theorem begin_three {bits : Nat} (most : bits < 0x10) :
    begin (UInt8.ofNat (bits + 0xE0)) =
      some (.inr ⟨2, if bits = 0 then 0xA0 else 0x80, if bits = 0xD then 0x9F else 0xBF,
        bits⟩) := by
  unfold begin
  rw [toNat_ofNat (by omega)]
  simp only
  rw [if_neg (by omega), if_neg (by omega), if_neg (by omega)]
  by_cases zero : bits = 0
  · simp [zero]
  · rw [if_neg (by omega)]
    by_cases high : bits = 0xD
    · simp [high]
    · rw [if_neg (by omega), if_pos (by omega), if_neg zero, if_neg high, Nat.add_sub_cancel]

theorem begin_four {bits : Nat} (most : bits < 5) :
    begin (UInt8.ofNat (bits + 0xF0)) =
      some (.inr ⟨3, if bits = 0 then 0x90 else 0x80, if bits = 4 then 0x8F else 0xBF, bits⟩) := by
  unfold begin
  rw [toNat_ofNat (by omega)]
  simp only
  rw [if_neg (by omega), if_neg (by omega), if_neg (by omega), if_neg (by omega), if_neg (by omega),
    if_neg (by omega)]
  by_cases zero : bits = 0
  · simp [zero]
  · rw [if_neg (by omega)]
    by_cases high : bits = 4
    · simp [high]
    · rw [if_pos (by omega), if_neg zero, if_neg high, Nat.add_sub_cancel]

variable {read : List (Option Char)} {rest : Bytes}

theorem charsFrom_begin {byte : UInt8} {partly : Partial}
    (begins : begin byte = some (.inr partly)) :
    charsFrom read none (byte :: rest) = charsFrom read (some partly) rest := by
  rw [charsFrom, begins]

theorem charsFrom_more {missing least greatest bits more : Nat} (small : more < 0x40)
    (above : least ≤ more + 0x80) (below : more + 0x80 ≤ greatest) :
    charsFrom read (some ⟨missing + 2, least, greatest, bits⟩) (UInt8.ofNat (more + 0x80) :: rest) =
      charsFrom read (some ⟨missing + 1, 0x80, 0xBF, bits * 64 + more⟩) rest := by
  rw [charsFrom, toNat_ofNat (by omega)]
  simp [above, below]

theorem charsFrom_last {least greatest bits more : Nat} (small : more < 0x40)
    (above : least ≤ more + 0x80) (below : more + 0x80 ≤ greatest) :
    charsFrom read (some ⟨1, least, greatest, bits⟩) (UInt8.ofNat (more + 0x80) :: rest) =
      charsFrom (some (Char.ofNat (bits * 64 + more)) :: read) none rest := by
  rw [charsFrom, toNat_ofNat (by omega)]
  simp [above, below]

theorem charsFrom_char (c : Char) :
    charsFrom read none (String.utf8EncodeChar c ++ rest) =
      charsFrom (some c :: read) none rest := by
  have valid : c.toNat < 0xD800 ∨ 0xDFFF < c.toNat ∧ c.toNat < 0x110000 := c.valid
  have same : Char.ofNat c.toNat = c := Char.ofNat_toNat c
  have value : c.val.toNat = c.toNat := rfl
  unfold String.utf8EncodeChar
  simp only [value]
  generalize c.toNat = number at valid same
  split
  · have single : begin (UInt8.ofNat number) = some (.inl c) := by
      unfold begin
      rw [toNat_ofNat (by omega)]
      simp only
      rw [if_pos (by omega), same]
    rw [List.cons_append, List.nil_append, charsFrom, single]
  · split
    · simp only [List.cons_append, List.nil_append]
      rw [charsFrom_begin (begin_two (by omega) (by omega)),
        charsFrom_last (by omega) (by omega) (by omega)]
      have whole : number / 64 % 0x20 * 64 + number % 0x40 = number := by omega
      rw [whole, same]
    · split
      · simp only [List.cons_append, List.nil_append]
        rw [charsFrom_begin (begin_three (by omega)),
          charsFrom_more (by omega) (by split <;> omega) (by split <;> omega),
          charsFrom_last (by omega) (by omega) (by omega)]
        have whole : (number / 4096 % 0x10 * 64 + number / 64 % 0x40) * 64 + number % 0x40 =
            number := by omega
        rw [whole, same]
      · simp only [List.cons_append, List.nil_append]
        rw [charsFrom_begin (begin_four (by omega)),
          charsFrom_more (by omega) (by split <;> omega) (by split <;> omega),
          charsFrom_more (by omega) (by omega) (by omega),
          charsFrom_last (by omega) (by omega) (by omega)]
        have whole :
            ((number / 262144 % 0x08 * 64 + number / 4096 % 0x40) * 64 + number / 64 % 0x40) * 64 +
            number % 0x40 = number := by omega
        rw [whole, same]

theorem charsFrom_encode (chars : List Char) :
    charsFrom read none (encode chars) = read.reverse ++ chars.map some := by
  induction chars generalizing read with
  | nil => simp [charsFrom]
  | cons c chars inductionHypothesis =>
      rw [encode_cons, charsFrom_char, inductionHypothesis]
      simp

theorem toText?_encode (chars : List Char) :
    toText? (encode chars) = some (String.ofList chars) := by
  have decoded : Bytes.chars (encode chars) = chars.map some := charsFrom_encode chars
  have all : (chars.map some).mapM id = some chars := by
    induction chars with
    | nil => rfl
    | cons c chars inductionHypothesis =>
        have later := inductionHypothesis (charsFrom_encode chars)
        simp [later]
  rw [toText?, decoded, all]
  rfl

end Bytes

/-! Separators. -/

theorem isSeparatorByte_eq_true {byte : UInt8} :
    isSeparatorByte byte = true ↔ byte.toNat ∈ [0x20, 0x09, 0x0a, 0x0b, 0x0c, 0x0d, 0x00] := by
  simp [isSeparatorByte, ← UInt8.toNat_inj]

theorem isSeparator_eq_true {c : Char} :
    isSeparator c = true ↔ c.toNat ∈ [0x20, 0x09, 0x0a, 0x0b, 0x0c, 0x0d, 0x00] := by
  simp [isSeparator, ← Char.toNat_inj, or_assoc]

theorem utf8EncodeChar_of_le {c : Char} (ascii : c.toNat ≤ 0x7F) :
    String.utf8EncodeChar c = [UInt8.ofNat c.toNat] :=
  if_pos ascii

theorem le_toNat_of_mem {c : Char} (wide : 0x7F < c.toNat) {byte : UInt8}
    (inside : byte ∈ String.utf8EncodeChar c) : 0x80 ≤ byte.toNat := by
  have value : c.val.toNat = c.toNat := rfl
  unfold String.utf8EncodeChar at inside
  simp only [value] at inside
  rw [if_neg (Nat.not_le_of_lt wide)] at inside
  -- Every byte is a few bits and a mark of at least 128.
  have marked {bits mark : Nat} (few : bits + mark < 256) (high : 0x80 ≤ mark) :
      0x80 ≤ (UInt8.ofNat (bits + mark)).toNat := by
    rw [Bytes.toNat_ofNat few]
    omega
  split at inside
  · simp only [List.mem_cons, List.not_mem_nil, or_false] at inside
    rcases inside with rfl | rfl <;> exact marked (by omega) (by omega)
  · split at inside
    · simp only [List.mem_cons, List.not_mem_nil, or_false] at inside
      rcases inside with rfl | rfl | rfl <;> exact marked (by omega) (by omega)
    · simp only [List.mem_cons, List.not_mem_nil, or_false] at inside
      rcases inside with rfl | rfl | rfl | rfl <;> exact marked (by omega) (by omega)

theorem utf8EncodeChar_of_isSeparator {c : Char} (separates : isSeparator c = true) :
    ∃ byte, String.utf8EncodeChar c = [byte] ∧ isSeparatorByte byte = true := by
  have listed := isSeparator_eq_true.mp separates
  have ascii : c.toNat ≤ 0x7F := by
    simp only [List.mem_cons, List.not_mem_nil, or_false] at listed
    omega
  refine ⟨UInt8.ofNat c.toNat, utf8EncodeChar_of_le ascii, ?_⟩
  rw [isSeparatorByte_eq_true, Bytes.toNat_ofNat (by omega)]
  exact listed

theorem isSeparatorByte_of_mem {c : Char} (solid : isSeparator c = false) {byte : UInt8}
    (inside : byte ∈ String.utf8EncodeChar c) : isSeparatorByte byte = false := by
  rw [Bool.eq_false_iff, Ne, isSeparatorByte_eq_true]
  intro listed
  by_cases ascii : c.toNat ≤ 0x7F
  · rw [utf8EncodeChar_of_le ascii, List.mem_singleton] at inside
    rw [inside, Bytes.toNat_ofNat (by omega), ← isSeparator_eq_true, solid] at listed
    contradiction
  · have high := le_toNat_of_mem (Nat.lt_of_not_le ascii) inside
    simp only [List.mem_cons, List.not_mem_nil, or_false] at listed
    omega

end CommandShell
