import Mathlib.Data.List.Basic
import Mathlib.Tactic.Ring

/-! Bytes as they come off a wire. A stream arrives in pieces, cut wherever the network liked; reading
    exactly `n` of it does not depend on the cuts. A word of fixed width is written most significant
    byte first, and the two directions undo each other. -/

namespace Wire

open List Nat

variable {A : Type}

/-- Read `n` items, or what there is if the stream ends before. -/
def readExactly (n : ℕ) : List (List A) → List A × List (List A)
  | [] => ([], [])
  | piece :: pieces =>
    if n ≤ piece.length then (piece.take n, piece.drop n :: pieces)
    else (piece ++ (readExactly (n - piece.length) pieces).1, (readExactly (n - piece.length) pieces).2)

theorem readExactly_fst (n : ℕ) (pieces : List (List A)) :
    (readExactly n pieces).1 = pieces.flatten.take n := by
  induction pieces generalizing n with
  | nil => simp [readExactly]
  | cons piece pieces ih =>
    rw [readExactly, flatten_cons]
    split
    · rename_i h
      rw [take_append_of_le_length h]
    rename_i h
    rw [ih, take_append, take_of_length_le (l := piece) (by omega)]

theorem readExactly_snd (n : ℕ) (pieces : List (List A)) :
    (readExactly n pieces).2.flatten = pieces.flatten.drop n := by
  induction pieces generalizing n with
  | nil => simp [readExactly]
  | cons piece pieces ih =>
    rw [readExactly, flatten_cons]
    split
    · rename_i h
      rw [flatten_cons, drop_append_of_le_length h]
    rename_i h
    rw [ih, drop_append, drop_eq_nil_of_le (show piece.length ≤ _ by omega), nil_append]

/-! ### Words -/

/-- The `width` low bytes of a number, the most significant first. -/
def word : ℕ → ℕ → List UInt8
  | 0, _ => []
  | width + 1, n => UInt8.ofNat (n / 256 ^ width) :: word width n

def wordValue (bytes : List UInt8) : ℕ := bytes.foldl (fun value byte => value * 256 + byte.toNat) 0

@[simp] theorem length_word (width n : ℕ) : (word width n).length = width := by
  induction width with
  | zero => rfl
  | succ width ih => rw [word, length_cons, ih]

theorem foldl_value (bytes : List UInt8) (value : ℕ) :
    bytes.foldl (fun value byte => value * 256 + byte.toNat) value =
      value * 256 ^ bytes.length + wordValue bytes := by
  induction bytes generalizing value with
  | nil => simp [wordValue]
  | cons byte bytes ih =>
    rw [wordValue, foldl_cons, foldl_cons, ih, ih (0 * 256 + byte.toNat), length_cons, pow_succ]
    ring

theorem wordValue_cons (byte : UInt8) (bytes : List UInt8) :
    wordValue (byte :: bytes) = byte.toNat * 256 ^ bytes.length + wordValue bytes := by
  rw [wordValue, foldl_cons, foldl_value, zero_mul, zero_add]

theorem wordValue_word (width n : ℕ) : wordValue (word width n) = n % 256 ^ width := by
  induction width with
  | zero => simp [word, wordValue, mod_one]
  | succ width ih =>
    have hbyte : (UInt8.ofNat (n / 256 ^ width)).toNat = n / 256 ^ width % 256 := UInt8.toNat_ofNat'
    rw [word, wordValue_cons, ih, length_word, hbyte, pow_succ (256 : ℕ), mod_mul, add_comm, mul_comm]

theorem wordValue_lt (bytes : List UInt8) : wordValue bytes < 256 ^ bytes.length := by
  induction bytes with
  | nil => exact one_pos
  | cons byte bytes ih =>
    rw [wordValue_cons, length_cons, pow_succ]
    have hbyte : byte.toNat + 1 ≤ 256 := byte.toNat_lt
    calc byte.toNat * 256 ^ bytes.length + wordValue bytes
        < byte.toNat * 256 ^ bytes.length + 256 ^ bytes.length := by omega
      _ = (byte.toNat + 1) * 256 ^ bytes.length := by ring
      _ ≤ 256 * 256 ^ bytes.length := mul_le_mul_right _ hbyte
      _ = 256 ^ bytes.length * 256 := mul_comm _ _

theorem wordValue_inj {bytes bytes' : List UInt8} (hlength : bytes.length = bytes'.length)
    (h : wordValue bytes = wordValue bytes') : bytes = bytes' := by
  induction bytes generalizing bytes' with
  | nil => exact (length_eq_zero_iff.1 hlength.symm).symm
  | cons byte bytes ih =>
    cases bytes' with
    | nil => cases hlength
    | cons byte' bytes' =>
      have hrest : bytes.length = bytes'.length := Nat.succ.inj hlength
      rw [wordValue_cons, wordValue_cons, ← hrest] at h
      have hlt := wordValue_lt bytes
      have hlt' := hrest ▸ wordValue_lt bytes'
      -- the first byte is the quotient, the rest the remainder
      have hbyte : byte.toNat = byte'.toNat := by
        have hdiv (a v : ℕ) (hv : v < 256 ^ bytes.length) :
            (a * 256 ^ bytes.length + v) / 256 ^ bytes.length = a := by
          rw [mul_comm, mul_add_div (by omega), div_eq_of_lt hv, add_zero]
        rw [← hdiv byte.toNat _ hlt, h, hdiv byte'.toNat _ hlt']
      rw [hbyte, add_left_cancel_iff] at h
      rw [UInt8.toNat_inj.1 hbyte, ih hrest h]

theorem word_wordValue (bytes : List UInt8) : word bytes.length (wordValue bytes) = bytes := by
  refine wordValue_inj (length_word _ _) ?_
  rw [wordValue_word, mod_eq_of_lt (wordValue_lt bytes)]

end Wire
