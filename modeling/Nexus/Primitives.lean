/-
Bytes, digests and UUIDs, as the services that sign their texts use them.

HMAC-SHA256 is any function whose digests have 32 bytes. A text is a list of
characters, without the lone surrogates that no codec writes.
-/
import Mathlib.Algebra.Group.Nat.Defs
import Nexus.Base
import Nexus.Lib.Hex

namespace Nexus

abbrev Bytes := List UInt8

abbrev Text := List Char

/-- `hmac.new(key, message, hashlib.sha256).digest()` -/
structure Hmac where
  digest : Bytes → Bytes → Bytes
  length_digest : ∀ key message, (digest key message).length = 32

/-- `text.encode("ascii")`, of a text that is ASCII. -/
def ascii (text : String) : Bytes := text.toList.map fun c => UInt8.ofNat c.toNat

theorem ascii_append (a b : String) : ascii (a ++ b) = ascii a ++ ascii b := by
  simp [ascii]

theorem ascii_ofList (text : Text) : ascii (String.ofList text) = text.map fun c => UInt8.ofNat c.toNat := by
  rw [ascii, String.toList_ofList]

/-! ## UTF-8 -/

/-- `text.encode("utf-8")` -/
def encodeUtf8 (text : Text) : Bytes := text.flatMap String.utf8EncodeChar

/-- `raw.decode("utf-8")` -/
def decodeUtf8 (raw : Bytes) : Option Text := raw.toByteArray.utf8Decode?.map Array.toList

theorem decodeUtf8_encodeUtf8 (text : Text) : decodeUtf8 (encodeUtf8 text) = .some text := by
  have hbytes : (encodeUtf8 text).toByteArray = text.utf8Encode := rfl
  rw [decodeUtf8, hbytes, List.utf8Decode?_utf8Encode, Option.map_some]

theorem encodeUtf8_injective {x y : Text} (h : encodeUtf8 x = encodeUtf8 y) : x = y := by
  have hread : decodeUtf8 (encodeUtf8 x) = decodeUtf8 (encodeUtf8 y) := by rw [h]
  rw [decodeUtf8_encodeUtf8, decodeUtf8_encodeUtf8] at hread
  exact Option.some.inj hread

/-! ## Decimal numbers -/

theorem toDigits_injective {n m : Nat} (h : Nat.toDigits 10 n = Nat.toDigits 10 m) : n = m := by
  rw [← Nat.ofDigitChars_toDigits (b := 10) (n := n) (by omega) (by omega), h,
    Nat.ofDigitChars_toDigits (by omega) (by omega)]

theorem toDigits_append_inj {n m : Nat} {c : Char} {x y : Text} (hc : c.isDigit = false)
    (h : Nat.toDigits 10 n ++ c :: x = Nat.toDigits 10 m ++ c :: y) : n = m ∧ x = y := by
  have hdigits : ∀ (k : Nat) (z : Text), (Nat.toDigits 10 k ++ c :: z).takeWhile Char.isDigit = Nat.toDigits 10 k := by
    intro k z
    rw [List.takeWhile_append_of_pos fun d hd => Nat.isDigit_of_mem_toDigits (by omega) (by omega) hd]
    simp [hc]
  have hn : Nat.toDigits 10 n = Nat.toDigits 10 m := by rw [← hdigits n x, h, hdigits m y]
  rw [hn] at h
  exact ⟨toDigits_injective hn, List.cons.inj (List.append_cancel_left h) |>.2⟩

theorem toList_numberPair (text : String) (n m : Nat) : (text ++ toString n ++ ":" ++ toString m).toList =
    text.toList ++ (Nat.toDigits 10 n ++ ':' :: Nat.toDigits 10 m) := by
  have hdigits : ∀ k : Nat, (toString k).toList = Nat.toDigits 10 k := fun k => by
    rw [Nat.toString_eq_ofList_toDigits, String.toList_ofList]
  have hcolon : ":".toList = [':'] := by decide +kernel
  rw [String.toList_append, String.toList_append, String.toList_append, hdigits, hdigits, hcolon]
  simp

theorem numberPair_injective {text : String} {n n' m m' : Nat}
    (h : text ++ toString n ++ ":" ++ toString m = text ++ toString n' ++ ":" ++ toString m') : n = n' ∧ m = m' := by
  have hlists := congrArg String.toList h
  rw [toList_numberPair, toList_numberPair] at hlists
  obtain ⟨hn, hm⟩ := toDigits_append_inj (by decide) (List.append_cancel_left hlists)
  exact ⟨hn, toDigits_injective hm⟩

/-! ## UUIDs -/

/-- A `uuid.UUID`, by its `bytes`. -/
structure UuidBytes where
  bytes : Bytes
  length_bytes : bytes.length = 16
  deriving DecidableEq, Repr

/-- `UUID(bytes=...)` -/
def UuidBytes.ofBytes (bytes : Bytes) : Option UuidBytes :=
  if h : bytes.length = 16 then .some ⟨bytes, h⟩ else .none

/-- `str(uuid)` -/
def UuidBytes.str (uuid : UuidBytes) : Text :=
  let hex := Hex.encode uuid.bytes
  hex.take 8 ++ '-' :: ((hex.drop 8).take 4 ++ '-' :: ((hex.drop 12).take 4 ++ '-' :: ((hex.drop 16).take 4 ++ '-' ::
    hex.drop 20)))

/-- `UUID(text)`, of a text of digits and hyphens. It takes other spellings too
(braces, `urn:`, blanks inside), none of which is what `str` writes. -/
def UuidBytes.parse (text : Text) : Option UuidBytes :=
  (Hex.decode (text.filter (· ≠ '-'))).bind UuidBytes.ofBytes

/-- The bytes of `UUID(int=n)`. -/
def UuidBytes.ofNat (n : Nat) : UuidBytes := ⟨(List.range 16).map fun i => UInt8.ofNat (n / 256 ^ (15 - i)), by simp⟩

/-- `uuid.int` -/
def UuidBytes.toNat (uuid : UuidBytes) : Nat := uuid.bytes.foldl (fun n b => n * 256 + b.toNat) 0

/-- `str(id)`, of a `uuid` that is its number. -/
def uuidStr (id : Uuid) : Text := (UuidBytes.ofNat id).str

theorem UuidBytes.ofBytes_bytes (uuid : UuidBytes) : UuidBytes.ofBytes uuid.bytes = .some uuid := by
  simp only [UuidBytes.ofBytes, uuid.length_bytes, dite_true]

theorem UuidBytes.ofBytes_eq_some {bytes : Bytes} {uuid : UuidBytes} (h : UuidBytes.ofBytes bytes = .some uuid) :
    uuid.bytes = bytes := by
  unfold UuidBytes.ofBytes at h
  split at h
  · cases h; rfl
  · cases h

theorem UuidBytes.parse_str (uuid : UuidBytes) : UuidBytes.parse uuid.str = .some uuid := by
  have hdigit : ∀ c ∈ Hex.encode uuid.bytes, c ≠ '-' := by
    intro c hc heq
    have hsome := Hex.decodeDigit_of_mem_encode hc
    rw [heq] at hsome
    exact absurd hsome (by decide)
  have hkeep : ∀ l : Text, (∀ c ∈ l, c ∈ Hex.encode uuid.bytes) → l.filter (· ≠ '-') = l := by
    intro l hl
    refine List.filter_eq_self.mpr ?_
    intro c hc
    simpa using hdigit c (hl c hc)
  have htext : uuid.str.filter (· ≠ '-') = Hex.encode uuid.bytes := by
    generalize hhex : Hex.encode uuid.bytes = hex at hkeep
    have hpart : ∀ m n, ((hex.drop m).take n).filter (· ≠ '-') = (hex.drop m).take n := fun m n =>
      hkeep _ (fun c hc => List.mem_of_mem_drop (List.mem_of_mem_take hc))
    have hhead : (hex.take 8).filter (· ≠ '-') = hex.take 8 := hkeep _ (fun c hc => List.mem_of_mem_take hc)
    have hlast : (hex.drop 20).filter (· ≠ '-') = hex.drop 20 := hkeep _ (fun c hc => List.mem_of_mem_drop hc)
    have hdrop : ∀ m n, (hex.drop m).take n ++ hex.drop (m + n) = hex.drop m := fun m n => by
      rw [← List.drop_drop, List.take_append_drop]
    have hhyphen : ∀ l : Text, ('-' :: l).filter (· ≠ '-') = l.filter (· ≠ '-') := fun _ => rfl
    rw [UuidBytes.str, hhex]
    simp only [List.filter_append, hhyphen, hpart, hhead, hlast]
    rw [hdrop 16 4, hdrop 12 4, hdrop 8 4, List.take_append_drop]
  rw [UuidBytes.parse, htext, Hex.decode_encode]
  exact uuid.ofBytes_bytes

end Nexus
