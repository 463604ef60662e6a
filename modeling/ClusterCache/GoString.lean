import Mathlib.Data.String.Basic
import Mathlib.Data.List.Lex

/-!
# Go's order on strings

Go compares strings byte by byte: `sort.Strings` orders them by the lexicographic order of their
UTF-8 bytes. The model's strings are Lean strings, lists of Unicode scalar values, and the model
sorts them with Lean's order, which compares code points. The two orders agree on every pair of
strings (`goLess_iff_lt`): the bytes of a code point are its digits in base 64 under a marker
that grows with their number, so the encoding keeps the order of code points, and two encodings
of one length differ within that length, so appending what follows them keeps it too.
-/

namespace ClusterCache

/-- The bytes `String.utf8EncodeChar` gives the code point `v`, as numbers: each byte is the
shifted value, masked and marked as the encoder does. -/
def utf8Bytes (v : ℕ) : List ℕ :=
  if v ≤ 0x7f then [v]
  else if v ≤ 0x7ff then [v / 64 % 32 + 0xc0, v % 64 + 0x80]
  else if v ≤ 0xffff then [v / 4096 % 16 + 0xe0, v / 64 % 64 + 0x80, v % 64 + 0x80]
  else [v / 262144 % 8 + 0xf0, v / 4096 % 64 + 0x80, v / 64 % 64 + 0x80, v % 64 + 0x80]

/-- The bytes of a Go string: the UTF-8 encoding of the string, each byte read as a number. -/
def goBytes (s : String) : List ℕ :=
  s.toUTF8.data.toList.map UInt8.toNat

/-- Go's `<` on strings. -/
def goLess (a b : String) : Prop :=
  List.Lex (· < ·) (goBytes a) (goBytes b)

instance : DecidableRel goLess := fun a b =>
  inferInstanceAs (Decidable (List.Lex (· < ·) (goBytes a) (goBytes b)))

/-! ### The encoder's bytes -/

section Encoding

/-- The four lengths of an encoding. -/
theorem utf8Bytes_cases (v : ℕ) :
    v ≤ 0x7f ∧ utf8Bytes v = [v] ∨
    0x7f < v ∧ v ≤ 0x7ff ∧ utf8Bytes v = [v / 64 % 32 + 0xc0, v % 64 + 0x80] ∨
    0x7ff < v ∧ v ≤ 0xffff ∧
      utf8Bytes v = [v / 4096 % 16 + 0xe0, v / 64 % 64 + 0x80, v % 64 + 0x80] ∨
    0xffff < v ∧
      utf8Bytes v =
        [v / 262144 % 8 + 0xf0, v / 4096 % 64 + 0x80, v / 64 % 64 + 0x80, v % 64 + 0x80] := by
  unfold utf8Bytes
  by_cases h₁ : v ≤ 0x7f
  · exact .inl ⟨h₁, if_pos h₁⟩
  by_cases h₂ : v ≤ 0x7ff
  · exact .inr (.inl ⟨by omega, h₂, by rw [if_neg h₁, if_pos h₂]⟩)
  by_cases h₃ : v ≤ 0xffff
  · exact .inr (.inr (.inl ⟨by omega, h₃, by rw [if_neg h₁, if_neg h₂, if_pos h₃]⟩))
  · exact .inr (.inr (.inr ⟨by omega, by rw [if_neg h₁, if_neg h₂, if_neg h₃]⟩))

theorem utf8Bytes_ne_nil (v : ℕ) : utf8Bytes v ≠ [] := by
  rcases utf8Bytes_cases v with ⟨-, h⟩ | ⟨-, -, h⟩ | ⟨-, -, h⟩ | ⟨-, h⟩ <;> simp [h]

theorem toNat_toUInt8 (v : UInt32) : v.toUInt8.toNat = v.toNat % 256 := by
  show (BitVec.ofNat 8 v.toNat).toNat = _
  simp

theorem toNat_shiftRight (v : UInt32) (k : ℕ) (hk : k < 32) :
    (v >>> UInt32.ofNat k).toNat = v.toNat / 2 ^ k := by
  show (v.toBitVec >>> (BitVec.ofNat 32 k % 32#32)).toNat = _
  rw [BitVec.ushiftRight_eq', BitVec.toNat_ushiftRight, Nat.shiftRight_eq_div_pow,
    BitVec.toNat_umod, BitVec.toNat_ofNat, BitVec.toNat_ofNat,
    Nat.mod_eq_of_lt (Nat.lt_of_lt_of_le hk (by decide)), show 32 % 2 ^ 32 = 32 from rfl,
    Nat.mod_eq_of_lt hk]
  rfl

/-- A byte `x &&& m ||| c` whose mask `m` keeps the low `i` bits and whose marker `c` sets only
higher ones. -/
theorem toNat_byte (x m c : UInt8) {i a : ℕ} (hm : m.toNat = 2 ^ i - 1)
    (hc : c.toNat = 2 ^ i * a) : (x &&& m ||| c).toNat = x.toNat % 2 ^ i + 2 ^ i * a := by
  show (x.toBitVec &&& m.toBitVec ||| c.toBitVec).toNat = _
  rw [BitVec.toNat_or, BitVec.toNat_and]
  change x.toNat &&& m.toNat ||| c.toNat = _
  rw [hm, hc, Nat.and_pow_two_sub_one_eq_mod, Nat.or_comm,
    ← Nat.mul_add_lt_is_or (Nat.mod_lt _ (Nat.two_pow_pos i)), Nat.add_comm]

/-- `utf8Bytes` is the encoder of the standard library, read through `UInt8.toNat`. -/
theorem map_toNat_utf8EncodeChar (c : Char) :
    (String.utf8EncodeChar c).map UInt8.toNat = utf8Bytes c.toNat := by
  have h6 : (c.val >>> 6).toNat = c.toNat / 2 ^ 6 := toNat_shiftRight c.val 6 (by decide)
  have h12 : (c.val >>> 12).toNat = c.toNat / 2 ^ 12 := toNat_shiftRight c.val 12 (by decide)
  have h18 : (c.val >>> 18).toNat = c.toNat / 2 ^ 18 := toNat_shiftRight c.val 18 (by decide)
  have h0 : c.val.toNat = c.toNat := rfl
  have l₁ : c.val ≤ 0x7f ↔ c.toNat ≤ 0x7f := Iff.rfl
  have l₂ : c.val ≤ 0x7ff ↔ c.toNat ≤ 0x7ff := Iff.rfl
  have l₃ : c.val ≤ 0xffff ↔ c.toNat ≤ 0xffff := Iff.rfl
  unfold String.utf8EncodeChar
  rcases utf8Bytes_cases c.toNat with ⟨_, e⟩ | ⟨_, _, e⟩ | ⟨_, _, e⟩ | ⟨_, e⟩ <;>
  · simp (disch := omega) only [e, l₁, l₂, l₃, if_pos, if_neg, List.map_cons, List.map_nil,
      toNat_toUInt8, h0, h6, h12, h18, Nat.reducePow, List.cons.injEq, and_true,
      toNat_byte _ 31 192 (i := 5) (a := 6) rfl rfl, toNat_byte _ 63 128 (i := 6) (a := 2) rfl rfl,
      toNat_byte _ 15 224 (i := 4) (a := 14) rfl rfl, toNat_byte _ 7 240 (i := 3) (a := 30) rfl rfl,
      Nat.mod_mod_of_dvd, Nat.mod_eq_of_lt]

theorem goBytes_eq (s : String) : goBytes s = s.data.flatMap fun c => utf8Bytes c.toNat := by
  simp only [goBytes, ← map_toNat_utf8EncodeChar]
  exact List.map_flatMap _ _ _

theorem toNat_lt_of_char (c : Char) : c.toNat < 0x110000 := by
  have h : c.toNat.isValidChar := c.valid
  unfold Nat.isValidChar at h
  omega

end Encoding

/-! ### Comparing encodings -/

section Order

theorem lex_cons_iff {a b : ℕ} {l₁ l₂ : List ℕ} :
    List.Lex (· < ·) (a :: l₁) (b :: l₂) ↔ a < b ∨ a = b ∧ List.Lex (· < ·) l₁ l₂ := by
  constructor
  · rintro (_ | ⟨h⟩ | ⟨h⟩)
    · exact .inr ⟨rfl, h⟩
    · exact .inl h
  · rintro (h | ⟨rfl, h⟩)
    exacts [.rel h, .cons h]

/-- Two lists of one length in order stay in order whatever follows them. -/
theorem lex_append_of_length {a b : List ℕ} (hl : a.length = b.length)
    (h : List.Lex (· < ·) a b) (s t : List ℕ) : List.Lex (· < ·) (a ++ s) (b ++ t) := by
  induction h with
  | nil => simp at hl
  | cons _ ih => exact .cons (ih (by simpa using hl))
  | rel h => exact .rel h

variable {a₁ a₂ a₃ a₄ b₁ b₂ b₃ b₄ : ℕ}

/-! The encodings of one length compare as the code points their digits spell. -/

theorem lex_two_bytes (ha : a₂ < 64) (hb : b₂ < 64) (h : 64 * a₁ + a₂ < 64 * b₁ + b₂) :
    List.Lex (· < ·) [a₁ + 0xc0, a₂ + 0x80] [b₁ + 0xc0, b₂ + 0x80] := by
  simp only [lex_cons_iff, List.Lex.not_nil_right, and_false, or_false]
  omega

theorem lex_three_bytes (ha : a₂ < 64 ∧ a₃ < 64) (hb : b₂ < 64 ∧ b₃ < 64)
    (h : 4096 * a₁ + 64 * a₂ + a₃ < 4096 * b₁ + 64 * b₂ + b₃) :
    List.Lex (· < ·) [a₁ + 0xe0, a₂ + 0x80, a₃ + 0x80] [b₁ + 0xe0, b₂ + 0x80, b₃ + 0x80] := by
  simp only [lex_cons_iff, List.Lex.not_nil_right, and_false, or_false]
  omega

theorem lex_four_bytes (ha : a₂ < 64 ∧ a₃ < 64 ∧ a₄ < 64) (hb : b₂ < 64 ∧ b₃ < 64 ∧ b₄ < 64)
    (h : 262144 * a₁ + 4096 * a₂ + 64 * a₃ + a₄ < 262144 * b₁ + 4096 * b₂ + 64 * b₃ + b₄) :
    List.Lex (· < ·) [a₁ + 0xf0, a₂ + 0x80, a₃ + 0x80, a₄ + 0x80]
      [b₁ + 0xf0, b₂ + 0x80, b₃ + 0x80, b₄ + 0x80] := by
  simp only [lex_cons_iff, List.Lex.not_nil_right, and_false, or_false]
  omega

/-! The digits of an encoding spell its code point. -/

theorem digits_two {v : ℕ} (h : v ≤ 0x7ff) : 64 * (v / 64 % 32) + v % 64 = v := by
  omega

theorem digits_three {v : ℕ} (h : v ≤ 0xffff) :
    4096 * (v / 4096 % 16) + 64 * (v / 64 % 64) + v % 64 = v := by
  omega

theorem digits_four {v : ℕ} (h : v < 0x110000) :
    262144 * (v / 262144 % 8) + 4096 * (v / 4096 % 64) + 64 * (v / 64 % 64) + v % 64 = v := by
  omega

/-- The encoding keeps the order of code points, whatever follows each: encodings of one length
compare by their digits, and a longer one starts with a greater marker. -/
theorem lex_utf8Bytes {v w : ℕ} (h : v < w) (hw : w < 0x110000) (s t : List ℕ) :
    List.Lex (· < ·) (utf8Bytes v ++ s) (utf8Bytes w ++ t) := by
  rcases utf8Bytes_cases v with ⟨_, hv⟩ | ⟨_, _, hv⟩ | ⟨_, _, hv⟩ | ⟨_, hv⟩ <;>
  rcases utf8Bytes_cases w with ⟨_, hw'⟩ | ⟨_, _, hw'⟩ | ⟨_, _, hw'⟩ | ⟨_, hw'⟩ <;>
  rw [hv, hw'] <;> first
    | refine lex_append_of_length (by rfl) ?_ s t
      first
        | exact lex_four_bytes (by omega) (by omega)
            (by rw [digits_four (by omega), digits_four hw]; exact h)
        | exact lex_three_bytes (by omega) (by omega)
            (by rw [digits_three (by omega), digits_three (by omega)]; exact h)
        | exact lex_two_bytes (by omega) (by omega)
            (by rw [digits_two (by omega), digits_two (by omega)]; exact h)
        | exact .rel h
    | exact .rel (by omega)

theorem lex_flatMap_utf8Bytes {cs ds : List Char} (h : List.Lex (· < ·) cs ds) :
    List.Lex (· < ·) (cs.flatMap fun c => utf8Bytes c.toNat)
      (ds.flatMap fun c => utf8Bytes c.toNat) := by
  induction h with
  | @nil d _ =>
      obtain ⟨x, xs, hx⟩ := List.exists_cons_of_ne_nil (utf8Bytes_ne_nil d.toNat)
      rw [List.flatMap_nil, List.flatMap_cons, hx, List.cons_append]
      exact .nil
  | cons _ ih => simpa only [List.flatMap_cons] using ih.append_left _ _
  | rel h => simpa only [List.flatMap_cons] using lex_utf8Bytes h (toNat_lt_of_char _) _ _

end Order

/-- Go's byte order on strings is Lean's order on them. -/
theorem goLess_iff_lt {a b : String} : goLess a b ↔ a < b := by
  have mono : ∀ {a b : String}, a < b → goLess a b := fun h => by
    rw [String.lt_iff_toList_lt] at h
    simpa only [goLess, goBytes_eq] using lex_flatMap_utf8Bytes h
  refine ⟨fun h => ?_, mono⟩
  rcases lt_trichotomy a b with hab | rfl | hba
  · exact hab
  · exact absurd (show goBytes a < goBytes a from h) (lt_irrefl _)
  · exact absurd (show goBytes a < goBytes b from h) (lt_asymm (mono hba))

example : goLess "web-a" "web-b" := by decide

end ClusterCache
