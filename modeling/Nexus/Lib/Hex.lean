/-
Bytes as hexadecimal digits: written in lower case, read in either case.
-/
import Mathlib.Data.List.Basic

namespace Hex

def decodeDigit (c : Char) : Option Nat :=
  let n := c.toNat
  if 48 ≤ n ∧ n ≤ 57 then .some (n - 48)
  else if 97 ≤ n ∧ n ≤ 102 then .some (n - 87)
  else if 65 ≤ n ∧ n ≤ 70 then .some (n - 55)
  else .none

theorem decodeDigit_digitChar {n : Nat} (h : n < 16) : decodeDigit n.digitChar = .some n := by
  have hall : ∀ m < 16, decodeDigit m.digitChar = .some m := by decide
  exact hall n h

def encode (bytes : List UInt8) : List Char :=
  bytes.flatMap fun b => [(b.toNat / 16).digitChar, (b.toNat % 16).digitChar]

def decode : List Char → Option (List UInt8)
  | [] => .some []
  | [_] => .none
  | high :: low :: rest => do
    let high ← decodeDigit high
    let low ← decodeDigit low
    let rest ← decode rest
    return UInt8.ofNat (high * 16 + low) :: rest

theorem encode_cons (b : UInt8) (bytes : List UInt8) :
    encode (b :: bytes) = (b.toNat / 16).digitChar :: (b.toNat % 16).digitChar :: encode bytes := rfl

theorem decode_encode (bytes : List UInt8) : decode (encode bytes) = .some bytes := by
  induction bytes with
  | nil => rfl
  | cons b bytes ih =>
    have hb := b.toNat_lt
    have hbyte : UInt8.ofNat (b.toNat / 16 * 16 + b.toNat % 16) = b := by
      rw [show b.toNat / 16 * 16 + b.toNat % 16 = b.toNat by omega, UInt8.ofNat_toNat]
    rw [encode_cons, decode, decodeDigit_digitChar (show b.toNat / 16 < 16 by omega),
      decodeDigit_digitChar (show b.toNat % 16 < 16 by omega), ih]
    simp only [Option.bind_eq_bind, Option.bind_some, Option.pure_def, hbyte]

theorem encode_injective {x y : List UInt8} (h : encode x = encode y) : x = y := by
  have hd : decode (encode x) = decode (encode y) := by rw [h]
  rw [decode_encode, decode_encode] at hd
  exact Option.some.inj hd

theorem length_encode (bytes : List UInt8) : (encode bytes).length = 2 * bytes.length := by
  induction bytes with
  | nil => rfl
  | cons b bytes ih => rw [encode_cons, List.length_cons, List.length_cons, ih, List.length_cons]; omega

theorem decodeDigit_of_mem_encode {c : Char} {bytes : List UInt8} (h : c ∈ encode bytes) :
    (decodeDigit c).isSome = true := by
  simp only [encode, List.mem_flatMap, List.mem_cons, List.not_mem_nil, or_false] at h
  obtain ⟨b, _, hc⟩ := h
  have hb := b.toNat_lt
  rcases hc with rfl | rfl
  · rw [decodeDigit_digitChar (by omega)]; rfl
  · rw [decodeDigit_digitChar (by omega)]; rfl

end Hex
