/-
Addresses as `ipaddress.ip_address` reads them.

An IPv4 address is four decimal octets without leading zeros. An IPv6 address
is eight groups of hexadecimal digits, of which one run of zeros may be left
out, the last two may be written as an IPv4 address and a scope may follow.
-/
import Nexus.Lib.CutAt
import Mathlib.Algebra.Group.Nat.Defs

namespace IpAddress

open CutAt

inductive Address
  | v4 (n : Nat)
  | v6 (n : Nat)
  deriving DecidableEq, Repr

/-! ## IPv4 -/

def decimalValue (digits : List Char) : Nat := Nat.ofDigitChars 10 digits 0

def parseOctet (octet : List Char) : Option Nat :=
  if octet.isEmpty || !octet.all Char.isDigit || 3 < octet.length || octet != ['0'] && octet.head? == .some '0' then .none
  else if 255 < decimalValue octet then .none
  else .some (decimalValue octet)

/-- `IPv4Address(text)` -/
def ipv4 (text : List Char) : Option Nat :=
  match text.splitOn '.' with
  | [a, b, c, d] => do return (((← parseOctet a) * 256 + (← parseOctet b)) * 256 + (← parseOctet c)) * 256 + (← parseOctet d)
  | _ => .none

/-! ## IPv6 -/

def hexDigit (c : Char) : Option Nat :=
  if c.isDigit then .some (c.toNat - 48)
  else if 97 ≤ c.toNat ∧ c.toNat ≤ 102 then .some (c.toNat - 87)
  else if 65 ≤ c.toNat ∧ c.toNat ≤ 70 then .some (c.toNat - 55)
  else .none

def parseHextet (hextet : List Char) : Option Nat :=
  if hextet.isEmpty || 4 < hextet.length then .none
  else hextet.foldlM (fun n c => (hexDigit c).map (16 * n + ·)) 0

def hextetsValue (hextets : List (List Char)) : Option Nat :=
  hextets.foldlM (fun n hextet => (parseHextet hextet).map (65536 * n + ·)) 0

/-- The groups, an IPv4 address at the end written as two. -/
def ipv6Parts (text : List Char) : Option (List (List Char)) :=
  let parts := text.splitOn ':'
  if text.isEmpty || parts.length < 3 then .none
  else match parts.getLast? with
    | .none => .none
    | .some ending =>
      if ending.contains '.' then
        (ipv4 ending).map fun n => parts.dropLast ++ [Nat.toDigits 16 (n / 65536), Nat.toDigits 16 (n % 65536)]
      else .some parts

/-- The groups of which one inside stands for a run of zeros. -/
def skippedValue (parts : List (List Char)) (skipIndex : Nat) : Option Nat :=
  let leading := parts.head? == .some []
  let trailing := parts.getLast? == .some []
  let hi := if leading then skipIndex - 1 else skipIndex
  let lo := if trailing then parts.length - skipIndex - 2 else parts.length - skipIndex - 1
  if leading && hi != 0 || trailing && lo != 0 || 8 ≤ hi + lo then .none
  else do return (← hextetsValue (parts.take hi)) * 65536 ^ (8 - hi) + (← hextetsValue (parts.drop (parts.length - lo)))

/-- `_ip_int_from_string` -/
def ipv6Value (text : List Char) : Option Nat := do
  let parts ← ipv6Parts text
  if 9 < parts.length then .none
  else match (List.range parts.length).filter fun i => 0 < i && i + 1 < parts.length && parts[i]? == .some [] with
    | [] => if parts.length != 8 then .none else hextetsValue parts
    | [skipIndex] => skippedValue parts skipIndex
    | _ => .none

/-- `IPv6Address(text)`, of which the scope is no part of the value. -/
def ipv6 (text : List Char) : Option Nat :=
  if text.contains '/' then .none
  else match cutFirst '%' text with
    | (address, .none) => ipv6Value address
    | (address, .some scope) => if scope.isEmpty || scope.contains '%' then .none else ipv6Value address

/-- `ipaddress.ip_address(text)` -/
def ipAddress (text : List Char) : Option Address :=
  ((ipv4 text).map .v4).or ((ipv6 text).map .v6)

/-! ## Networks -/

/-- The addresses that share their first bits with one. -/
inductive Network
  | v4 (address bits : Nat)
  | v6 (address bits : Nat)
  deriving DecidableEq, Repr

/-- `address in network` -/
def Network.contains : Network → Address → Bool
  | .v4 address bits, .v4 n => n / 2 ^ (32 - bits) == address / 2 ^ (32 - bits)
  | .v6 address bits, .v6 n => n / 2 ^ (128 - bits) == address / 2 ^ (128 - bits)
  | _, _ => false

/-! ## What is no address -/

theorem mem_of_splitOn {a c : Char} {text : List Char} (h : c ∈ text) : c = a ∨ ∃ part ∈ text.splitOn a, c ∈ part := by
  induction text with
  | nil => cases h
  | cons b text ih =>
    have hcons := List.splitOnP_cons_eq_if_modifyHead (p := (· == a)) b text
    rw [List.splitOn, hcons]
    by_cases hb : (b == a) = true
    · rw [if_pos hb]
      rcases List.mem_cons.1 h with rfl | h
      · exact .inl (beq_iff_eq.1 hb)
      · exact (ih h).imp_right fun ⟨part, hpart, hc⟩ => ⟨part, List.mem_cons_of_mem _ hpart, hc⟩
    · rw [if_neg hb]
      obtain ⟨first, parts, hparts⟩ := List.exists_cons_of_ne_nil (List.splitOnP_ne_nil (· == a) text)
      rw [List.splitOn, hparts] at ih
      rw [hparts, List.modifyHead_cons]
      rcases List.mem_cons.1 h with rfl | h
      · exact .inr ⟨_, List.mem_cons_self, List.mem_cons_self⟩
      · refine (ih h).imp_right fun ⟨part, hpart, hc⟩ => ?_
        rcases List.mem_cons.1 hpart with rfl | hpart
        · exact ⟨_, List.mem_cons_self, List.mem_cons_of_mem _ hc⟩
        · exact ⟨part, List.mem_cons_of_mem _ hpart, hc⟩

theorem isDigit_of_parseOctet {octet : List Char} {n : Nat} (h : parseOctet octet = .some n) :
    ∀ c ∈ octet, c.isDigit = true := by
  unfold parseOctet at h
  split at h
  next => cases h
  next hcond =>
    simp only [Bool.or_eq_true, not_or, Bool.not_eq_true', Bool.not_eq_false] at hcond
    exact List.all_eq_true.1 hcond.1.1.2

theorem ipv4_chars {text : List Char} {n : Nat} (h : ipv4 text = .some n) : ∀ c ∈ text, c.isDigit = true ∨ c = '.' := by
  intro c hc
  unfold ipv4 at h
  split at h
  next a b d e hparts =>
    simp only [Option.bind_eq_bind, Option.bind_eq_some_iff] at h
    obtain ⟨_, ha, _, hb, _, hd, _, he, _⟩ := h
    rcases mem_of_splitOn (a := '.') hc with hdot | ⟨part, hpart, hmem⟩
    · exact .inr hdot
    · rw [hparts] at hpart
      simp only [List.mem_cons, List.not_mem_nil, or_false] at hpart
      rcases hpart with rfl | rfl | rfl | rfl
      · exact .inl (isDigit_of_parseOctet ha c hmem)
      · exact .inl (isDigit_of_parseOctet hb c hmem)
      · exact .inl (isDigit_of_parseOctet hd c hmem)
      · exact .inl (isDigit_of_parseOctet he c hmem)
  next => cases h

theorem ipv6Value_of_no_colon {text : List Char} (h : ':' ∉ text) : ipv6Value text = .none := by
  have hsplit : text.splitOn ':' = [text] := by
    rw [List.splitOn]
    refine List.splitOnP_eq_singleton fun c hc => ?_
    rw [beq_eq_false_iff_ne]
    rintro rfl
    exact h hc
  unfold ipv6Value ipv6Parts
  rw [hsplit]
  simp

theorem ipv6_of_no_colon {text : List Char} (h : ':' ∉ text) : ipv6 text = .none := by
  have haddress : ':' ∉ (cutFirst '%' text).1 := fun hmem => h (cutFirst_subset '%' text hmem)
  unfold ipv6
  split
  · rfl
  · split
    next address hcut =>
      rw [hcut] at haddress
      exact ipv6Value_of_no_colon haddress
    next address scope hcut =>
      rw [hcut] at haddress
      split
      · rfl
      · exact ipv6Value_of_no_colon haddress

end IpAddress
