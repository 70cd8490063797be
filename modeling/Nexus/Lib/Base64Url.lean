/-
The URL-safe base64 alphabet without padding, on bytes and characters.

`decode` is lenient the way the standard decoders are: the bits the last
character has left over are dropped and not compared with zero. So two texts
can have one decoding, and only a comparison with `encode` tells which is
the canonical one.
-/
import Mathlib.Data.List.Basic
import Mathlib.Tactic.Common

namespace Base64Url

/-! ## One character -/

/-- The character of a six bit value. -/
def encodeSextet (n : Nat) : Char :=
  if n < 26 then Char.ofNat (65 + n)
  else if n < 52 then Char.ofNat (71 + n)
  else if n < 62 then Char.ofNat (n - 4)
  else if n = 62 then '-'
  else '_'

def decodeSextet (c : Char) : Option Nat :=
  let n := c.toNat
  if 65 ≤ n ∧ n ≤ 90 then .some (n - 65)
  else if 97 ≤ n ∧ n ≤ 122 then .some (n - 71)
  else if 48 ≤ n ∧ n ≤ 57 then .some (n + 4)
  else if n = 45 then .some 62
  else if n = 95 then .some 63
  else .none

/-- `[A-Za-z0-9_-]` -/
def inAlphabet (c : Char) : Bool := (decodeSextet c).isSome

theorem decodeSextet_encodeSextet {n : Nat} (h : n < 64) : decodeSextet (encodeSextet n) = .some n := by
  have hall : ∀ m < 64, decodeSextet (encodeSextet m) = .some m := by decide
  exact hall n h

theorem inAlphabet_encodeSextet {n : Nat} (h : n < 64) : inAlphabet (encodeSextet n) = true := by
  rw [inAlphabet, decodeSextet_encodeSextet h]; rfl

/-! ## The codec -/

def encode : List UInt8 → List Char
  | [] => []
  | [a] => [encodeSextet (a.toNat / 4), encodeSextet (a.toNat % 4 * 16)]
  | [a, b] =>
    [encodeSextet (a.toNat / 4), encodeSextet (a.toNat % 4 * 16 + b.toNat / 16), encodeSextet (b.toNat % 16 * 4)]
  | a :: b :: c :: rest =>
    encodeSextet (a.toNat / 4) :: encodeSextet (a.toNat % 4 * 16 + b.toNat / 16) ::
      encodeSextet (b.toNat % 16 * 4 + c.toNat / 64) :: encodeSextet (c.toNat % 64) :: encode rest

/-- A text of `4 * k + 1` characters has no decoding. -/
def decode : List Char → Option (List UInt8)
  | [] => .some []
  | [_] => .none
  | [p, q] => do
    let p ← decodeSextet p
    let q ← decodeSextet q
    return [UInt8.ofNat (p * 4 + q / 16)]
  | [p, q, r] => do
    let p ← decodeSextet p
    let q ← decodeSextet q
    let r ← decodeSextet r
    return [UInt8.ofNat (p * 4 + q / 16), UInt8.ofNat (q % 16 * 16 + r / 4)]
  | p :: q :: r :: s :: rest => do
    let p ← decodeSextet p
    let q ← decodeSextet q
    let r ← decodeSextet r
    let s ← decodeSextet s
    let rest ← decode rest
    return UInt8.ofNat (p * 4 + q / 16) :: UInt8.ofNat (q % 16 * 16 + r / 4) :: UInt8.ofNat (r % 4 * 64 + s) :: rest

theorem ofNat_eq {n : Nat} {a : UInt8} (h : n = a.toNat) : UInt8.ofNat n = a := by
  subst h; exact UInt8.ofNat_toNat

/-- **Decoding inverts encoding.** -/
theorem decode_encode : ∀ bytes : List UInt8, decode (encode bytes) = .some bytes
  | [] => rfl
  | [a] => by
    have ha := a.toNat_lt
    simp only [encode, decode, decodeSextet_encodeSextet (show a.toNat / 4 < 64 by omega),
      decodeSextet_encodeSextet (show a.toNat % 4 * 16 < 64 by omega)]
    have h1 : UInt8.ofNat (a.toNat / 4 * 4 + a.toNat % 4 * 16 / 16) = a := ofNat_eq (by omega)
    simp only [Option.bind_eq_bind, Option.bind_some, Option.pure_def, h1]
  | [a, b] => by
    have ha := a.toNat_lt
    have hb := b.toNat_lt
    simp only [encode, decode, decodeSextet_encodeSextet (show a.toNat / 4 < 64 by omega),
      decodeSextet_encodeSextet (show a.toNat % 4 * 16 + b.toNat / 16 < 64 by omega),
      decodeSextet_encodeSextet (show b.toNat % 16 * 4 < 64 by omega)]
    have h1 : UInt8.ofNat (a.toNat / 4 * 4 + (a.toNat % 4 * 16 + b.toNat / 16) / 16) = a := ofNat_eq (by omega)
    have h2 : UInt8.ofNat ((a.toNat % 4 * 16 + b.toNat / 16) % 16 * 16 + b.toNat % 16 * 4 / 4) = b := ofNat_eq (by omega)
    simp only [Option.bind_eq_bind, Option.bind_some, Option.pure_def, h1, h2]
  | a :: b :: c :: rest => by
    have ha := a.toNat_lt
    have hb := b.toNat_lt
    have hc := c.toNat_lt
    simp only [encode, decode, decodeSextet_encodeSextet (show a.toNat / 4 < 64 by omega),
      decodeSextet_encodeSextet (show a.toNat % 4 * 16 + b.toNat / 16 < 64 by omega),
      decodeSextet_encodeSextet (show b.toNat % 16 * 4 + c.toNat / 64 < 64 by omega),
      decodeSextet_encodeSextet (show c.toNat % 64 < 64 by omega), decode_encode rest]
    have h1 : UInt8.ofNat (a.toNat / 4 * 4 + (a.toNat % 4 * 16 + b.toNat / 16) / 16) = a := ofNat_eq (by omega)
    have h2 : UInt8.ofNat ((a.toNat % 4 * 16 + b.toNat / 16) % 16 * 16 + (b.toNat % 16 * 4 + c.toNat / 64) / 4) = b :=
      ofNat_eq (by omega)
    have h3 : UInt8.ofNat ((b.toNat % 16 * 4 + c.toNat / 64) % 4 * 64 + c.toNat % 64) = c := ofNat_eq (by omega)
    simp only [Option.bind_eq_bind, Option.bind_some, Option.pure_def, h1, h2, h3]

theorem encode_injective {x y : List UInt8} (h : encode x = encode y) : x = y := by
  have hd : decode (encode x) = decode (encode y) := by rw [h]
  rw [decode_encode, decode_encode] at hd
  exact Option.some.inj hd

theorem encode_alphabet : ∀ bytes : List UInt8, (encode bytes).all inAlphabet = true
  | [] => rfl
  | [a] => by
    have ha := a.toNat_lt
    simp [encode, inAlphabet_encodeSextet (show a.toNat / 4 < 64 by omega),
      inAlphabet_encodeSextet (show a.toNat % 4 * 16 < 64 by omega)]
  | [a, b] => by
    have ha := a.toNat_lt
    have hb := b.toNat_lt
    simp [encode, inAlphabet_encodeSextet (show a.toNat / 4 < 64 by omega),
      inAlphabet_encodeSextet (show a.toNat % 4 * 16 + b.toNat / 16 < 64 by omega),
      inAlphabet_encodeSextet (show b.toNat % 16 * 4 < 64 by omega)]
  | a :: b :: c :: rest => by
    have ha := a.toNat_lt
    have hb := b.toNat_lt
    have hc := c.toNat_lt
    have ih := encode_alphabet rest
    simp [encode, inAlphabet_encodeSextet (show a.toNat / 4 < 64 by omega),
      inAlphabet_encodeSextet (show a.toNat % 4 * 16 + b.toNat / 16 < 64 by omega),
      inAlphabet_encodeSextet (show b.toNat % 16 * 4 + c.toNat / 64 < 64 by omega),
      inAlphabet_encodeSextet (show c.toNat % 64 < 64 by omega)]
    simpa using ih

theorem encode_length : ∀ bytes : List UInt8, (encode bytes).length = (4 * bytes.length + 2) / 3
  | [] => rfl
  | [_] => by simp [encode]
  | [_, _] => by simp [encode]
  | a :: b :: c :: rest => by
    have ih := encode_length rest
    simp only [encode, List.length_cons, ih]
    omega

theorem not_mem_encode {c : Char} (h : inAlphabet c = false) (bytes : List UInt8) : c ∉ encode bytes := by
  intro hmem
  have hall := List.all_eq_true.mp (encode_alphabet bytes) c hmem
  rw [h] at hall
  cases hall

/-- The leftover bits are not part of the value: `AB` and `AA` are both one zero byte. -/
example : decode "AB".toList = decode "AA".toList ∧ encode [0] = "AA".toList := by decide

end Base64Url
