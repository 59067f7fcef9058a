import Mathlib.Data.List.Basic

set_option autoImplicit false

/-! # Bytes that are text

A list of bytes is text if it is the encoding of one. An octet below 128 is a character of its own
wherever it stands, so bytes that hold one are text exactly if the bytes on both sides of it are.
-/

namespace Utf8

variable {a b bytes : List UInt8} {c : UInt8} {s t : List Char} {text : String}

def encode (s : List Char) : List UInt8 := s.flatMap String.utf8EncodeChar

/-- The bytes are an encoded text. -/
def Valid (bytes : List UInt8) : Prop := ∃ s, encode s = bytes

/-- The text that the bytes encode. -/
def decode (bytes : List UInt8) : Option String := String.fromUTF8? bytes.toByteArray

@[simp] theorem encode_nil : encode [] = [] := rfl

theorem encode_cons {d : Char} : encode (d :: s) = String.utf8EncodeChar d ++ encode s :=
  List.flatMap_cons

@[simp] theorem encode_append : encode (s ++ t) = encode s ++ encode t := List.flatMap_append

theorem toByteArray_inj (h : a.toByteArray = b.toByteArray) : a = b := by
  have hdata := congrArg ByteArray.data h
  rw [List.data_toByteArray, List.data_toByteArray] at hdata
  exact congrArg Array.toList hdata

theorem toByteArray_encode : (encode text.toList).toByteArray = text.toByteArray :=
  String.utf8Encode_toList

theorem decode_eq_some_iff : decode bytes = some text ↔ encode text.toList = bytes := by
  unfold decode String.fromUTF8?
  constructor
  · intro h
    split at h
    · have hbytes : bytes.toByteArray = text.toByteArray :=
        congrArg String.toByteArray (Option.some.inj h)
      exact toByteArray_inj (toByteArray_encode.trans hbytes.symm)
    · cases h
  · rintro rfl
    rw [dif_pos ⟨text.toList, rfl⟩, Option.some.injEq, ← String.toByteArray_inj]
    exact toByteArray_encode

@[simp] theorem decode_encode : decode (encode text.toList) = some text :=
  decode_eq_some_iff.mpr rfl

theorem valid_iff : Valid bytes ↔ ∃ text, decode bytes = some text := by
  constructor
  · rintro ⟨s, rfl⟩
    exact ⟨.ofList s, decode_eq_some_iff.mpr (by rw [String.toList_ofList])⟩
  · rintro ⟨text, h⟩
    exact ⟨text.toList, decode_eq_some_iff.mp h⟩

theorem decode_eq_none_iff : decode bytes = none ↔ ¬ Valid bytes := by
  rw [valid_iff, Option.eq_none_iff_forall_ne_some, not_exists]

instance : Decidable (Valid bytes) :=
  decidable_of_iff ((decode bytes).isSome = true) (by rw [Option.isSome_iff_exists, valid_iff])

/-! ## Octets below 128 -/

/-- The octet stands for itself. -/
def Ascii (c : UInt8) : Prop := c < 128

instance : Decidable (Ascii c) := inferInstanceAs (Decidable (c < 128))

theorem le_or {x mask : UInt8} : mask ≤ x ||| mask := by
  rw [UInt8.le_iff_toNat_le, UInt8.toNat_or]
  exact Nat.right_le_or

/-- An octet of a character is below 128 only where it is the whole character. -/
theorem utf8EncodeChar_of_ascii {d : Char} (hc : Ascii c) (h : c ∈ String.utf8EncodeChar d) :
    String.utf8EncodeChar d = [c] := by
  have hnot : ∀ x mask : UInt8, 128 ≤ mask → c ≠ x ||| mask := by
    rintro x mask hmask rfl
    exact absurd (UInt8.le_trans hmask le_or) (UInt8.not_le.mpr hc)
  rcases Char.utf8Size_eq d with hsize | hsize | hsize | hsize
  · rw [String.utf8EncodeChar_eq_singleton hsize] at h ⊢
    rw [List.mem_singleton.mp h]
  · rw [String.utf8EncodeChar_eq_cons_cons hsize] at h
    simp [hnot _ _ (show (128 : UInt8) ≤ 0xc0 by decide), hnot _ _ (show (128 : UInt8) ≤ 0x80 by decide)] at h
  · rw [String.utf8EncodeChar_eq_cons_cons_cons hsize] at h
    simp [hnot _ _ (show (128 : UInt8) ≤ 0xe0 by decide), hnot _ _ (show (128 : UInt8) ≤ 0x80 by decide)] at h
  · rw [String.utf8EncodeChar_eq_cons_cons_cons_cons hsize] at h
    simp [hnot _ _ (show (128 : UInt8) ≤ 0xf0 by decide), hnot _ _ (show (128 : UInt8) ≤ 0x80 by decide)] at h

/-- A text falls apart at an octet below 128. -/
theorem split_at_ascii (hc : Ascii c) (h : encode s = a ++ c :: b) :
    ∃ s₁ d s₂, s = s₁ ++ d :: s₂ ∧ encode s₁ = a ∧ String.utf8EncodeChar d = [c] ∧ encode s₂ = b := by
  induction s generalizing a with
  | nil => simp at h
  | cons d s ih =>
      rw [encode_cons, List.append_eq_append_iff] at h
      rcases h with ⟨a', rfl, h⟩ | ⟨tail, hd, h⟩
      · obtain ⟨s₁, e, s₂, rfl, rfl, he, hb⟩ := ih h
        exact ⟨d :: s₁, e, s₂, rfl, encode_cons, he, hb⟩
      · cases tail with
        | nil =>
            -- the character ends in front of the octet
            rw [List.append_nil] at hd
            obtain ⟨s₁, e, s₂, rfl, hs₁, he, hb⟩ := ih (a := []) h.symm
            refine ⟨d :: s₁, e, s₂, rfl, ?_, he, hb⟩
            rw [encode_cons, hs₁, hd, List.append_nil]
        | cons c' tail =>
            obtain ⟨rfl, rfl⟩ := List.cons.inj h
            have hwhole : String.utf8EncodeChar d = [c] := utf8EncodeChar_of_ascii hc (by simp [hd])
            rw [hwhole] at hd
            have hlength := congrArg List.length hd
            simp only [List.length_append, List.length_cons, List.length_nil] at hlength
            obtain rfl : a = [] := List.length_eq_zero_iff.mp (by omega)
            obtain rfl : tail = [] := List.length_eq_zero_iff.mp (by omega)
            exact ⟨[], d, s, rfl, rfl, hwhole, rfl⟩

theorem Valid.append (ha : Valid a) (hb : Valid b) : Valid (a ++ b) := by
  obtain ⟨s, rfl⟩ := ha
  obtain ⟨t, rfl⟩ := hb
  exact ⟨s ++ t, encode_append⟩

/-- The character that an octet below 128 stands for. -/
theorem encode_ascii (hc : Ascii c) : encode [Char.ofUInt8 c] = [c] := by
  have hsize : (Char.ofUInt8 c).utf8Size = 1 := by
    have hlt : c.toNat < 128 := UInt8.lt_iff_toNat_lt.mp hc
    rw [Char.utf8Size_eq_one_iff, UInt32.le_iff_toNat_le]
    show c.toUInt32.toNat ≤ 127
    rw [UInt8.toNat_toUInt32]
    omega
  have hself : (Char.ofUInt8 c).val.toUInt8 = c := UInt8.toUInt8_toUInt32 c
  rw [encode, List.flatMap_singleton, String.utf8EncodeChar_eq_singleton hsize, hself]

/-- **Bytes with an octet below 128 in them are text exactly if they are on both sides of it.** -/
theorem valid_append_cons_iff (hc : Ascii c) : Valid (a ++ c :: b) ↔ Valid a ∧ Valid b := by
  constructor
  · rintro ⟨s, hs⟩
    obtain ⟨s₁, d, s₂, rfl, ha, -, hb⟩ := split_at_ascii hc hs
    exact ⟨⟨s₁, ha⟩, ⟨s₂, hb⟩⟩
  · rintro ⟨ha, hb⟩
    have hself : Valid [c] := ⟨_, encode_ascii hc⟩
    exact ha.append (hself.append hb)

end Utf8
