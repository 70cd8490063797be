/-
JSON texts, as a standard library writes them with sorted keys and no blanks and
reads them back.

A dict is the list of its entries sorted by key, so that `dumps` writes the
entries as they stand and two equal dicts are one value (`Value.Canonical`).
`loads` is the usual scanner. Numbers with a fraction or an exponent and lone
surrogates, which `dumps` writes for no value here, are left out of both.
`loads_dumps` is the round trip, and from it no two values share a text.
-/
import Mathlib.Data.List.Lex
import Mathlib.Data.List.Sort
import Mathlib.Data.String.Basic
import Nexus.Lib.Hex

namespace Json

inductive Value
  | null
  | bool (b : Bool)
  | int (n : Int)
  | str (s : List Char)
  | arr (items : List Value)
  | obj (entries : List (List Char × Value))
  deriving Repr, Inhabited

/-! ## Dicts -/

section Dict

variable {α : Type}

/-- `d[key] = value` -/
def insertEntry (key : List Char) (value : α) : List (List Char × α) → List (List Char × α)
  | [] => [(key, value)]
  | (k, v) :: d =>
    if key < k then (key, value) :: (k, v) :: d
    else if key = k then (key, value) :: d
    else (k, v) :: insertEntry key value d

/-- `dict(pairs)`: the last value of a key stays. -/
def dictOf (pairs : List (List Char × α)) : List (List Char × α) :=
  pairs.foldl (fun d p => insertEntry p.1 p.2 d) []

/-- Keys in order, each once. -/
def SortedKeys (d : List (List Char × α)) : Prop := d.Pairwise fun p q => p.1 < q.1

theorem mem_keys_insertEntry {key k : List Char} {value : α} {d : List (List Char × α)} :
    k ∈ (insertEntry key value d).map Prod.fst ↔ k = key ∨ k ∈ d.map Prod.fst := by
  induction d with
  | nil => simp [insertEntry]
  | cons p d ih =>
    obtain ⟨k', v'⟩ := p
    rw [insertEntry]
    split
    · simp
    · split
      · rename_i heq
        subst heq
        simp
      · simp only [List.map_cons, List.mem_cons, ih]
        tauto

theorem SortedKeys.insertEntry {key : List Char} {value : α} {d : List (List Char × α)} (h : SortedKeys d) :
    SortedKeys (insertEntry key value d) := by
  induction d with
  | nil => exact List.pairwise_singleton _ _
  | cons p d ih =>
    obtain ⟨k', v'⟩ := p
    have hd : SortedKeys d := (List.pairwise_cons.mp h).2
    have hlt : ∀ q ∈ d, k' < q.1 := (List.pairwise_cons.mp h).1
    rw [Json.insertEntry]
    split
    · rename_i hkey
      refine List.pairwise_cons.mpr ⟨?_, h⟩
      intro q hq
      rcases List.mem_cons.mp hq with rfl | hq
      · exact hkey
      · exact lt_trans hkey (hlt q hq)
    · rename_i hkey
      split
      · rename_i heq
        subst heq
        exact List.pairwise_cons.mpr ⟨hlt, hd⟩
      · rename_i hne
        refine List.pairwise_cons.mpr ⟨?_, ih hd⟩
        intro q hq
        have hmem := mem_keys_insertEntry.mp (List.mem_map_of_mem (f := Prod.fst) hq)
        rcases hmem with heq | hmem
        · rw [heq]
          exact lt_of_le_of_ne (not_lt.mp hkey) (Ne.symm hne)
        · obtain ⟨r, hr, hrq⟩ := List.mem_map.mp hmem
          rw [← hrq]
          exact hlt r hr

theorem sortedKeys_dictOf (pairs : List (List Char × α)) : SortedKeys (dictOf pairs) := by
  have hfold : ∀ (ps d : List (List Char × α)), SortedKeys d →
      SortedKeys (ps.foldl (fun d p => insertEntry p.1 p.2 d) d) := by
    intro ps
    induction ps with
    | nil => intro d h; exact h
    | cons p ps ih => intro d h; exact ih _ h.insertEntry
  exact hfold pairs [] List.Pairwise.nil

theorem insertEntry_append {key : List Char} {value : α} {d : List (List Char × α)} (h : ∀ p ∈ d, p.1 < key) :
    insertEntry key value d = d ++ [(key, value)] := by
  induction d with
  | nil => rfl
  | cons p d ih =>
    obtain ⟨k', v'⟩ := p
    have hk : k' < key := h (k', v') (by simp)
    rw [insertEntry, if_neg (not_lt.mpr (le_of_lt hk)), if_neg (Ne.symm (ne_of_lt hk)),
      ih (fun q hq => h q (by simp [hq]))]
    rfl

theorem mem_insertEntry {key : List Char} {value : α} {d : List (List Char × α)} {e : List Char × α}
    (h : e ∈ insertEntry key value d) : e = (key, value) ∨ e ∈ d := by
  induction d with
  | nil => simpa [insertEntry] using h
  | cons p d ih =>
    obtain ⟨k', v'⟩ := p
    rw [insertEntry] at h
    split at h
    · simpa using h
    · split at h
      · rcases List.mem_cons.mp h with h | h
        · exact .inl h
        · exact .inr (List.mem_cons_of_mem _ h)
      · rcases List.mem_cons.mp h with h | h
        · exact .inr (by simp [h])
        · exact (ih h).imp_right (List.mem_cons_of_mem _)

theorem mem_of_mem_dictOf {pairs : List (List Char × α)} {e : List Char × α} (h : e ∈ dictOf pairs) : e ∈ pairs := by
  have hfold : ∀ ps d : List (List Char × α), e ∈ ps.foldl (fun d p => insertEntry p.1 p.2 d) d → e ∈ d ∨ e ∈ ps := by
    intro ps
    induction ps with
    | nil => intro d h; exact .inl h
    | cons p ps ih =>
      intro d h
      rcases ih _ h with h | h
      · rcases mem_insertEntry h with h | h
        · exact .inr (by simp [h])
        · exact .inl h
      · exact .inr (List.mem_cons_of_mem _ h)
  rcases hfold pairs [] h with h | h
  · cases h
  · exact h

theorem dictOf_sorted {pairs : List (List Char × α)} (h : SortedKeys pairs) : dictOf pairs = pairs := by
  have hfold : ∀ ps d : List (List Char × α), SortedKeys (d ++ ps) →
      ps.foldl (fun d p => insertEntry p.1 p.2 d) d = d ++ ps := by
    intro ps
    induction ps with
    | nil => intro d _; simp
    | cons p ps ih =>
      intro d hsorted
      have hlt : ∀ q ∈ d, q.1 < p.1 := by
        intro q hq
        exact (List.pairwise_append.mp hsorted).2.2 q hq p (by simp)
      rw [List.foldl_cons, insertEntry_append hlt, ih, List.append_assoc]
      · rfl
      · simpa using hsorted
  rw [dictOf, hfold pairs [] h, List.nil_append]

end Dict

/-! ## Writing -/

/-- What `dumps` leaves of a character between quotes, with `ensure_ascii=False`. -/
def escapeChar (c : Char) : List Char :=
  if c = '"' then ['\\', '"']
  else if c = '\\' then ['\\', '\\']
  else if c = '\n' then ['\\', 'n']
  else if c = '\r' then ['\\', 'r']
  else if c = '\t' then ['\\', 't']
  else if c.toNat = 8 then ['\\', 'b']
  else if c.toNat = 12 then ['\\', 'f']
  else if c.toNat < 32 then ['\\', 'u', '0', '0', (c.toNat / 16).digitChar, (c.toNat % 16).digitChar]
  else [c]

def quote (s : List Char) : List Char := '"' :: (s.flatMap escapeChar ++ ['"'])

def dumpsInt (n : Int) : List Char :=
  if n < 0 then '-' :: Nat.toDigits 10 n.natAbs else Nat.toDigits 10 n.natAbs

mutual

/-- `json.dumps` with sorted keys and the separators `,` and `:`. -/
def dumps : Value → List Char
  | .null => "null".toList
  | .bool true => "true".toList
  | .bool false => "false".toList
  | .int n => dumpsInt n
  | .str s => quote s
  | .arr items => '[' :: (dumpsItems items ++ [']'])
  | .obj entries => '\x7b' :: (dumpsEntries entries ++ ['\x7d'])

def dumpsItems : List Value → List Char
  | [] => []
  | [v] => dumps v
  | v :: w :: rest => dumps v ++ ',' :: dumpsItems (w :: rest)

def dumpsEntries : List (List Char × Value) → List Char
  | [] => []
  | [(k, v)] => quote k ++ ':' :: dumps v
  | (k, v) :: e :: rest => quote k ++ ':' :: (dumps v ++ ',' :: dumpsEntries (e :: rest))

end

/-! ## Reading -/

def isSpace (c : Char) : Bool := c = ' ' || c = '\t' || c = '\n' || c = '\r'

def skipSpace (s : List Char) : List Char := s.dropWhile isSpace

def hex4 (a b c d : Char) : Option Nat := do
  let a ← Hex.decodeDigit a
  let b ← Hex.decodeDigit b
  let c ← Hex.decodeDigit c
  let d ← Hex.decodeDigit d
  return ((a * 16 + b) * 16 + c) * 16 + d

/-- What follows a backslash. A high surrogate has to be followed by the escape
of a low one, and a low one cannot stand alone. -/
def scanEscape : List Char → Option (Char × List Char)
  | '"' :: rest => .some ('"', rest)
  | '\\' :: rest => .some ('\\', rest)
  | '/' :: rest => .some ('/', rest)
  | 'b' :: rest => .some (Char.ofNat 8, rest)
  | 'f' :: rest => .some (Char.ofNat 12, rest)
  | 'n' :: rest => .some ('\n', rest)
  | 'r' :: rest => .some ('\r', rest)
  | 't' :: rest => .some ('\t', rest)
  | 'u' :: a :: b :: c :: d :: rest => do
    let n ← hex4 a b c d
    if 0xD800 ≤ n ∧ n ≤ 0xDBFF then
      match rest with
      | '\\' :: 'u' :: e :: f :: g :: h :: rest => do
        let m ← hex4 e f g h
        if 0xDC00 ≤ m ∧ m ≤ 0xDFFF then .some (Char.ofNat (0x10000 + (n - 0xD800) * 0x400 + (m - 0xDC00)), rest)
        else .none
      | _ => .none
    else if 0xDC00 ≤ n ∧ n ≤ 0xDFFF then .none
    else .some (Char.ofNat n, rest)
  | _ => .none

/-- The characters up to the closing quote. A control character is refused. -/
def scanString : Nat → List Char → Option (List Char × List Char)
  | 0, _ => .none
  | fuel + 1, s => match s with
    | [] => .none
    | '"' :: rest => .some ([], rest)
    | '\\' :: rest => do
      let (c, rest) ← scanEscape rest
      let (cs, rest) ← scanString fuel rest
      return (c :: cs, rest)
    | c :: rest =>
      if c.toNat < 32 then .none
      else do
        let (cs, rest) ← scanString fuel rest
        return (c :: cs, rest)

/-- What follows an opening quote. -/
def scanQuoted (s : List Char) : Option (List Char × List Char) := scanString (s.length + 1) s

/-- A fraction or an exponent. -/
def fractionOrExponent : List Char → Bool
  | '.' :: c :: _ => c.isDigit
  | 'e' :: rest | 'E' :: rest => match rest with
    | '+' :: c :: _ | '-' :: c :: _ => c.isDigit
    | c :: _ => c.isDigit
    | [] => false
  | _ => false

/-- `0|[1-9][0-9]*` -/
def scanNat (s : List Char) : Option (Nat × List Char) :=
  match s.takeWhile Char.isDigit with
  | [] => .none
  | '0' :: _ => .some (0, s.tail)
  | digits => .some (Nat.ofDigitChars 10 digits 0, s.dropWhile Char.isDigit)

def scanNumber (s : List Char) : Option (Int × List Char) := do
  let (n, rest) ← match s with
    | '-' :: s => (scanNat s).map fun (n, rest) => (-(n : Int), rest)
    | s => (scanNat s).map fun (n, rest) => ((n : Int), rest)
  if fractionOrExponent rest then .none else .some (n, rest)

mutual

/-- A value and what follows it. Every call takes one of the fuel; the length of
the text is enough (`scanValue_dumps`). -/
def scanValue : Nat → List Char → Option (Value × List Char)
  | 0, _ => .none
  | fuel + 1, s => match s with
    | '"' :: rest => (scanQuoted rest).map fun (s, rest) => (.str s, rest)
    | '[' :: rest => match skipSpace rest with
      | ']' :: rest => .some (.arr [], rest)
      | rest => (scanItems fuel rest).map fun (items, rest) => (.arr items, rest)
    | '\x7b' :: rest => match skipSpace rest with
      | '\x7d' :: rest => .some (.obj [], rest)
      | rest => (scanEntries fuel rest).map fun (pairs, rest) => (.obj (dictOf pairs), rest)
    | 'n' :: 'u' :: 'l' :: 'l' :: rest => .some (.null, rest)
    | 't' :: 'r' :: 'u' :: 'e' :: rest => .some (.bool true, rest)
    | 'f' :: 'a' :: 'l' :: 's' :: 'e' :: rest => .some (.bool false, rest)
    | s => (scanNumber s).map fun (n, rest) => (.int n, rest)

/-- The items up to the closing bracket. -/
def scanItems : Nat → List Char → Option (List Value × List Char)
  | 0, _ => .none
  | fuel + 1, s => do
    let (v, rest) ← scanValue fuel s
    match skipSpace rest with
    | ']' :: rest => .some ([v], rest)
    | ',' :: rest => (scanItems fuel (skipSpace rest)).map fun (vs, rest) => (v :: vs, rest)
    | _ => .none

/-- The entries up to the closing brace. -/
def scanEntries : Nat → List Char → Option (List (List Char × Value) × List Char)
  | 0, _ => .none
  | fuel + 1, s => match s with
    | '"' :: rest => do
      let (k, rest) ← scanQuoted rest
      match skipSpace rest with
      | ':' :: rest => do
        let (v, rest) ← scanValue fuel (skipSpace rest)
        match skipSpace rest with
        | '\x7d' :: rest => .some ([(k, v)], rest)
        | ',' :: rest => (scanEntries fuel (skipSpace rest)).map fun (es, rest) => ((k, v) :: es, rest)
        | _ => .none
      | _ => .none
    | _ => .none

end

/-- `json.loads` -/
def loads (text : List Char) : Option Value := do
  let (v, rest) ← scanValue (text.length + 1) (skipSpace text)
  if skipSpace rest = [] then .some v else .none

/-! ## Reading back a string -/

theorem hex4_control {n : Nat} (h : n < 32) : hex4 '0' '0' (n / 16).digitChar (n % 16).digitChar = .some n := by
  have h0 : Hex.decodeDigit '0' = .some 0 := rfl
  rw [hex4, h0, Hex.decodeDigit_digitChar (show n / 16 < 16 by omega), Hex.decodeDigit_digitChar (show n % 16 < 16 by omega)]
  simp only [Option.bind_eq_bind, Option.bind_some, Option.pure_def, Option.some.injEq]
  omega

theorem scanEscape_control {c : Char} (h : c.toNat < 32) (rest : List Char) :
    scanEscape ('u' :: '0' :: '0' :: (c.toNat / 16).digitChar :: (c.toNat % 16).digitChar :: rest) = .some (c, rest) := by
  have hhigh : ¬ (0xD800 ≤ c.toNat ∧ c.toNat ≤ 0xDBFF) := by omega
  have hlow : ¬ (0xDC00 ≤ c.toNat ∧ c.toNat ≤ 0xDFFF) := by omega
  have hchar : Char.ofNat c.toNat = c := Char.ofNat_toNat c
  simp only [scanEscape, hex4_control h, Option.bind_eq_bind, Option.bind_some, if_neg hhigh, if_neg hlow, hchar]

theorem scanString_escape {fuel : Nat} {s rest : List Char} {c : Char} (h : scanEscape s = .some (c, rest)) :
    scanString (fuel + 1) ('\\' :: s) = (scanString fuel rest).map fun p => (c :: p.1, p.2) := by
  rw [scanString]
  simp only [h, Option.bind_eq_bind, Option.bind_some, Option.pure_def]
  cases scanString fuel rest <;> rfl

theorem scanString_plain {fuel : Nat} {rest : List Char} {c : Char} (hq : c ≠ '"') (hb : c ≠ '\\') (h : ¬ c.toNat < 32) :
    scanString (fuel + 1) (c :: rest) = (scanString fuel rest).map fun p => (c :: p.1, p.2) := by
  rw [scanString, if_neg h]
  · cases scanString fuel rest <;> rfl
  · exact hq
  · exact hb

theorem scanString_escapeChar (fuel : Nat) (c : Char) (rest : List Char) :
    scanString (fuel + 1) (escapeChar c ++ rest) = (scanString fuel rest).map fun p => (c :: p.1, p.2) := by
  unfold escapeChar
  split
  next h => subst h; exact scanString_escape rfl
  next hq =>
    split
    next h => subst h; exact scanString_escape rfl
    next hb =>
      split
      next h => subst h; exact scanString_escape rfl
      next =>
        split
        next h => subst h; exact scanString_escape rfl
        next =>
          split
          next h => subst h; exact scanString_escape rfl
          next =>
            split
            next h =>
              have hc : c = Char.ofNat 8 := by rw [← h, Char.ofNat_toNat]
              rw [hc]; exact scanString_escape rfl
            next =>
              split
              next h =>
                have hc : c = Char.ofNat 12 := by rw [← h, Char.ofNat_toNat]
                rw [hc]; exact scanString_escape rfl
              next =>
                split
                next h => exact scanString_escape (scanEscape_control h rest)
                next h => exact scanString_plain hq hb h

theorem escapeChar_ne_nil (c : Char) : escapeChar c ≠ [] := by
  unfold escapeChar
  repeat' split
  all_goals exact List.cons_ne_nil _ _

theorem scanString_quoted (s rest : List Char) : ∀ {fuel : Nat}, s.length < fuel →
    scanString fuel (s.flatMap escapeChar ++ '"' :: rest) = .some (s, rest) := by
  induction s with
  | nil =>
    intro fuel h
    obtain ⟨f, rfl⟩ : ∃ f, fuel = f + 1 := ⟨fuel - 1, by omega⟩
    rfl
  | cons c s ih =>
    intro fuel h
    obtain ⟨f, rfl⟩ : ∃ f, fuel = f + 1 := ⟨fuel - 1, by omega⟩
    rw [List.length_cons] at h
    rw [List.flatMap_cons, List.append_assoc, scanString_escapeChar, ih (by omega)]
    rfl

theorem length_le_flatMap_escapeChar (s : List Char) : s.length ≤ (s.flatMap escapeChar).length := by
  induction s with
  | nil => exact Nat.le_refl _
  | cons c s ih =>
    have hpos : 0 < (escapeChar c).length := List.length_pos_iff.mpr (escapeChar_ne_nil c)
    rw [List.flatMap_cons, List.length_append, List.length_cons]
    omega

theorem scanQuoted_quote (s rest : List Char) :
    scanQuoted (s.flatMap escapeChar ++ '"' :: rest) = .some (s, rest) := by
  refine scanString_quoted s rest ?_
  have hlen := length_le_flatMap_escapeChar s
  rw [List.length_append]
  omega

/-! ## Reading back a number -/

/-- What can follow a value inside a text that `dumps` wrote. -/
def Delimited (rest : List Char) : Prop := ∀ c ∈ rest.head?, c = ',' ∨ c = ']' ∨ c = '\x7d'

theorem delimited_nil : Delimited [] := by
  intro c hc; cases hc

theorem delimited_cons {c : Char} (h : c = ',' ∨ c = ']' ∨ c = '\x7d') (rest : List Char) : Delimited (c :: rest) := by
  intro d hd
  cases hd
  exact h

theorem Delimited.takeWhile_isDigit {rest : List Char} (h : Delimited rest) : rest.takeWhile Char.isDigit = [] := by
  cases rest with
  | nil => rfl
  | cons c rest =>
    rcases h c rfl with rfl | rfl | rfl <;> rfl

theorem Delimited.dropWhile_isDigit {rest : List Char} (h : Delimited rest) : rest.dropWhile Char.isDigit = rest := by
  cases rest with
  | nil => rfl
  | cons c rest =>
    rcases h c rfl with rfl | rfl | rfl <;> rfl

theorem Delimited.fractionOrExponent {rest : List Char} (h : Delimited rest) : fractionOrExponent rest = false := by
  cases rest with
  | nil => rfl
  | cons c rest =>
    rcases h c rfl with rfl | rfl | rfl <;> rfl

theorem head_toDigits_ne_zero (n : Nat) : 0 < n → ∀ rest, Nat.toDigits 10 n ≠ '0' :: rest := by
  induction n using Nat.strongRecOn with
  | _ n ih =>
    intro hn rest heq
    by_cases hlt : n < 10
    · rw [Nat.toDigits_of_lt_base hlt] at heq
      have hdigit : n.digitChar = '0' := (List.cons.inj heq).1
      have hall : ∀ m < 10, m.digitChar = '0' → m = 0 := by decide
      have := hall n hlt hdigit
      omega
    · rw [Nat.toDigits_of_base_le (by omega) (by omega)] at heq
      cases hdigits : Nat.toDigits 10 (n / 10) with
      | nil => exact Nat.toDigits_ne_nil hdigits
      | cons c digits =>
        rw [hdigits] at heq
        have hc : c = '0' := (List.cons.inj heq).1
        rw [hc] at hdigits
        exact ih (n / 10) (by omega) (by omega) digits hdigits

theorem scanNat_toDigits (n : Nat) {rest : List Char} (h : Delimited rest) :
    scanNat (Nat.toDigits 10 n ++ rest) = .some (n, rest) := by
  have hdigits : ∀ c ∈ Nat.toDigits 10 n, c.isDigit = true := fun c hc =>
    Nat.isDigit_of_mem_toDigits (by omega) (by omega) hc
  have htake : (Nat.toDigits 10 n ++ rest).takeWhile Char.isDigit = Nat.toDigits 10 n := by
    rw [List.takeWhile_append_of_pos hdigits, h.takeWhile_isDigit, List.append_nil]
  have hdrop : (Nat.toDigits 10 n ++ rest).dropWhile Char.isDigit = rest := by
    rw [List.dropWhile_append_of_pos hdigits, h.dropWhile_isDigit]
  by_cases h0 : n = 0
  · subst h0
    unfold scanNat
    rw [htake]
    rfl
  · unfold scanNat
    rw [htake]
    split
    · rename_i heq
      exact absurd heq Nat.toDigits_ne_nil
    · rename_i digits heq
      exact absurd heq (head_toDigits_ne_zero n (by omega) digits)
    · rw [Nat.ofDigitChars_ten_toDigits, hdrop]

theorem scanNumber_dumpsInt (n : Int) {rest : List Char} (h : Delimited rest) :
    scanNumber (dumpsInt n ++ rest) = .some (n, rest) := by
  unfold dumpsInt
  split
  · rename_i hneg
    have hn : -(n.natAbs : Int) = n := by omega
    simp only [List.cons_append, scanNumber, scanNat_toDigits n.natAbs h, Option.map_some, Option.bind_eq_bind,
      Option.bind_some, h.fractionOrExponent, hn, Bool.false_eq_true, if_false]
  · rename_i hneg
    have hn : (n.natAbs : Int) = n := by omega
    have hscan := scanNat_toDigits n.natAbs h
    unfold scanNumber
    split
    · rename_i s heq
      have hmem : '-' ∈ Nat.toDigits 10 n.natAbs := by
        cases hdigits : Nat.toDigits 10 n.natAbs with
        | nil => exact absurd hdigits Nat.toDigits_ne_nil
        | cons c digits =>
          rw [hdigits] at heq
          rw [(List.cons.inj heq).1]
          exact List.mem_cons_self
      exact absurd (Nat.isDigit_of_mem_toDigits (by omega) (by omega) hmem) (by decide)
    · simp only [hscan, Option.map_some, Option.bind_eq_bind, Option.bind_some, h.fractionOrExponent, hn,
        Bool.false_eq_true, if_false]

/-! ## Reading back a value -/

/-- The first character of a value's text. -/
def starts (c : Char) : Bool :=
  c = '"' || c = '[' || c = '\x7b' || c = 'n' || c = 't' || c = 'f' || c = '-' || c.isDigit

theorem starts_not_space {c : Char} (h : starts c = true) : isSpace c = false := by
  cases hs : isSpace c with
  | false => rfl
  | true =>
    simp only [isSpace, Bool.or_eq_true, decide_eq_true_eq] at hs
    rcases hs with ((rfl | rfl) | rfl) | rfl <;> exact absurd h (by decide)

theorem dumpsInt_head (n : Int) : ∃ c s, dumpsInt n = c :: s ∧ (c = '-' ∨ c.isDigit = true) := by
  unfold dumpsInt
  split
  · exact ⟨_, _, rfl, .inl rfl⟩
  · cases hdigits : Nat.toDigits 10 n.natAbs with
    | nil => exact absurd hdigits Nat.toDigits_ne_nil
    | cons c s =>
      refine ⟨c, s, rfl, .inr ?_⟩
      exact Nat.isDigit_of_mem_toDigits (b := 10) (n := n.natAbs) (by omega) (by omega) (by rw [hdigits]; simp)

theorem dumps_head (v : Value) : ∃ c s, dumps v = c :: s ∧ starts c = true := by
  cases v with
  | null => exact ⟨_, _, rfl, rfl⟩
  | bool b => cases b <;> exact ⟨_, _, rfl, rfl⟩
  | int n =>
    obtain ⟨c, s, hs, hc⟩ := dumpsInt_head n
    refine ⟨c, s, hs, ?_⟩
    rcases hc with rfl | hc
    · rfl
    · simp [starts, hc]
  | str s => exact ⟨_, _, rfl, rfl⟩
  | arr items => exact ⟨_, _, rfl, rfl⟩
  | obj entries => exact ⟨_, _, rfl, rfl⟩

theorem skipSpace_cons {c : Char} (h : isSpace c = false) (s : List Char) : skipSpace (c :: s) = c :: s := by
  rw [skipSpace, List.dropWhile_cons_of_neg (by simp [h])]

theorem skipSpace_dumps (v : Value) (rest : List Char) : skipSpace (dumps v ++ rest) = dumps v ++ rest := by
  obtain ⟨c, s, hs, hc⟩ := dumps_head v
  rw [hs, List.cons_append]
  exact skipSpace_cons (starts_not_space hc) _

theorem Delimited.skipSpace {rest : List Char} (h : Delimited rest) : skipSpace rest = rest := by
  cases rest with
  | nil => rfl
  | cons c rest =>
    rcases h c rfl with rfl | rfl | rfl <;> rfl

theorem scanValue_int {n : Int} {rest : List Char} (fuel : Nat) (h : Delimited rest) :
    scanValue (fuel + 1) (dumpsInt n ++ rest) = .some (.int n, rest) := by
  have hscan := scanNumber_dumpsInt n h
  obtain ⟨c, s, hs, hc⟩ := dumpsInt_head n
  rw [hs, List.cons_append] at hscan ⊢
  rw [scanValue, hscan]
  · rfl
  -- A digit or a sign starts no other value.
  all_goals
    intro _ heq
    rw [(List.cons.inj heq).1] at hc
    exact absurd hc (by decide)

theorem length_dumps_pos (v : Value) : 0 < (dumps v).length := by
  obtain ⟨c, s, hs, _⟩ := dumps_head v
  rw [hs]
  exact Nat.succ_pos _

/-- A value whose dicts are sorted. -/
inductive Value.Canonical : Value → Prop
  | null : Canonical .null
  | bool b : Canonical (.bool b)
  | int n : Canonical (.int n)
  | str s : Canonical (.str s)
  | arr {items} : (∀ v ∈ items, Canonical v) → Canonical (.arr items)
  | obj {entries} : (∀ e ∈ entries, Canonical e.2) → SortedKeys entries → Canonical (.obj entries)

theorem dumpsItems_cons (v w : Value) (rest : List Value) :
    dumpsItems (v :: w :: rest) = dumps v ++ ',' :: dumpsItems (w :: rest) := by rw [dumpsItems]

theorem dumpsEntries_cons (k : List Char) (v : Value) (e : List Char × Value) (rest : List (List Char × Value)) :
    dumpsEntries ((k, v) :: e :: rest) = quote k ++ ':' :: (dumps v ++ ',' :: dumpsEntries (e :: rest)) := by
  rw [dumpsEntries]

theorem dumpsItems_head (v : Value) (vs : List Value) : ∃ c s, dumpsItems (v :: vs) = c :: s ∧ starts c = true := by
  obtain ⟨c, s, hs, hc⟩ := dumps_head v
  cases vs with
  | nil => exact ⟨c, s, by rw [dumpsItems, hs], hc⟩
  | cons w vs => exact ⟨c, _, by rw [dumpsItems_cons, hs, List.cons_append], hc⟩

theorem dumpsEntries_head (e : List Char × Value) (es : List (List Char × Value)) :
    ∃ s, dumpsEntries (e :: es) = '"' :: s := by
  obtain ⟨k, v⟩ := e
  cases es with
  | nil => exact ⟨_, rfl⟩
  | cons e es => exact ⟨_, by rw [dumpsEntries_cons]; rfl⟩

theorem scanValue_arr (fuel : Nat) {c : Char} (hc : starts c = true) (s : List Char) :
    scanValue (fuel + 1) ('[' :: c :: s) = (scanItems fuel (c :: s)).map fun p => (.arr p.1, p.2) := by
  rw [scanValue, skipSpace_cons (starts_not_space hc)]
  split
  · rename_i heq
    rw [(List.cons.inj heq).1] at hc
    exact absurd hc (by decide)
  · rfl

theorem scanValue_obj (fuel : Nat) (s : List Char) :
    scanValue (fuel + 1) ('\x7b' :: '"' :: s) =
      (scanEntries fuel ('"' :: s)).map fun p => (.obj (dictOf p.1), p.2) := by
  rw [scanValue, skipSpace_cons rfl]
  rfl

theorem scanEntries_entry {fuel : Nat} {k : List Char} {v : Value} {rest : List Char}
    (hv : scanValue fuel (dumps v ++ rest) = .some (v, rest)) (hrest : Delimited rest) :
    scanEntries (fuel + 1) (quote k ++ ':' :: (dumps v ++ rest)) =
      match (motive := List Char → Option (List (List Char × Value) × List Char)) rest with
      | '\x7d' :: rest => .some ([(k, v)], rest)
      | ',' :: rest => (scanEntries fuel (skipSpace rest)).map fun p => ((k, v) :: p.1, p.2)
      | _ => .none := by
  have hquote : quote k ++ ':' :: (dumps v ++ rest) = '"' :: (k.flatMap escapeChar ++ '"' :: ':' :: (dumps v ++ rest)) := by
    rw [quote, List.cons_append, List.append_assoc]
    rfl
  have hcolon : skipSpace (':' :: (dumps v ++ rest)) = ':' :: (dumps v ++ rest) := skipSpace_cons rfl _
  rw [hquote, scanEntries, scanQuoted_quote]
  simp only [Option.bind_eq_bind, Option.bind_some, hcolon, skipSpace_dumps, hv, hrest.skipSpace]

mutual

/-- A value's text is read back as the value, whatever follows it. -/
theorem scanValue_dumps : ∀ (v : Value), v.Canonical → ∀ {fuel : Nat}, (dumps v).length ≤ fuel → ∀ {rest : List Char},
    Delimited rest → scanValue fuel (dumps v ++ rest) = .some (v, rest)
  | .null, _, fuel, hfuel, rest, _ => by
    obtain ⟨f, rfl⟩ : ∃ f, fuel = f + 1 := ⟨fuel - 1, by have := length_dumps_pos .null; omega⟩
    rfl
  | .bool b, _, fuel, hfuel, rest, _ => by
    obtain ⟨f, rfl⟩ : ∃ f, fuel = f + 1 := ⟨fuel - 1, by have := length_dumps_pos (.bool b); omega⟩
    cases b <;> rfl
  | .int n, _, fuel, hfuel, rest, hrest => by
    obtain ⟨f, rfl⟩ : ∃ f, fuel = f + 1 := ⟨fuel - 1, by have := length_dumps_pos (.int n); omega⟩
    exact scanValue_int f hrest
  | .str s, _, fuel, hfuel, rest, _ => by
    obtain ⟨f, rfl⟩ : ∃ f, fuel = f + 1 := ⟨fuel - 1, by have := length_dumps_pos (.str s); omega⟩
    have hquoted := scanQuoted_quote s rest
    simp only [dumps, quote, List.cons_append, List.append_assoc, List.nil_append, scanValue, hquoted, Option.map_some]
  | .arr [], _, fuel, hfuel, rest, _ => by
    obtain ⟨f, rfl⟩ : ∃ f, fuel = f + 1 := ⟨fuel - 1, by have := length_dumps_pos (.arr []); omega⟩
    rfl
  | .arr (v :: vs), hv, fuel, hfuel, rest, hrest => by
    obtain ⟨f, rfl⟩ : ∃ f, fuel = f + 1 := ⟨fuel - 1, by have := length_dumps_pos (.arr (v :: vs)); omega⟩
    have hall : ∀ w ∈ v :: vs, w.Canonical := by cases hv; assumption
    rw [dumps, List.length_cons, List.length_append, List.length_singleton] at hfuel
    have hitems := scanItems_dumpsItems v vs hall (show (dumpsItems (v :: vs)).length < f by omega) rest
    obtain ⟨c, s, hs, hc⟩ := dumpsItems_head v vs
    have htext : dumps (.arr (v :: vs)) ++ rest = '[' :: (dumpsItems (v :: vs) ++ ']' :: rest) := by
      rw [dumps, List.cons_append, List.append_assoc]
      rfl
    rw [htext, hs, List.cons_append, scanValue_arr f hc, ← List.cons_append, ← hs, hitems]
    rfl
  | .obj [], _, fuel, hfuel, rest, _ => by
    obtain ⟨f, rfl⟩ : ∃ f, fuel = f + 1 := ⟨fuel - 1, by have := length_dumps_pos (.obj []); omega⟩
    rfl
  | .obj (e :: es), hv, fuel, hfuel, rest, hrest => by
    obtain ⟨f, rfl⟩ : ∃ f, fuel = f + 1 := ⟨fuel - 1, by have := length_dumps_pos (.obj (e :: es)); omega⟩
    have hall : (∀ p ∈ e :: es, p.2.Canonical) ∧ SortedKeys (e :: es) := by
      cases hv
      exact ⟨by assumption, by assumption⟩
    rw [dumps, List.length_cons, List.length_append, List.length_singleton] at hfuel
    have hentries := scanEntries_dumpsEntries e es hall.1 (show (dumpsEntries (e :: es)).length < f by omega) rest
    obtain ⟨s, hs⟩ := dumpsEntries_head e es
    have htext : dumps (.obj (e :: es)) ++ rest = '\x7b' :: (dumpsEntries (e :: es) ++ '\x7d' :: rest) := by
      rw [dumps, List.cons_append, List.append_assoc]
      rfl
    rw [htext, hs, List.cons_append, scanValue_obj f, ← List.cons_append, ← hs, hentries]
    simp only [Option.map_some, dictOf_sorted hall.2]

theorem scanItems_dumpsItems : ∀ (v : Value) (vs : List Value), (∀ w ∈ v :: vs, w.Canonical) → ∀ {fuel : Nat},
    (dumpsItems (v :: vs)).length < fuel → ∀ (rest : List Char),
    scanItems fuel (dumpsItems (v :: vs) ++ ']' :: rest) = .some (v :: vs, rest)
  | v, [], hall, fuel, hfuel, rest => by
    obtain ⟨f, rfl⟩ : ∃ f, fuel = f + 1 := ⟨fuel - 1, by omega⟩
    have hd : Delimited (']' :: rest) := delimited_cons (by simp) rest
    have hv := scanValue_dumps v (hall v (by simp)) (show (dumps v).length ≤ f by rw [dumpsItems] at hfuel; omega) hd
    rw [dumpsItems, scanItems, hv]
    simp only [Option.bind_eq_bind, Option.bind_some, hd.skipSpace]
  | v, w :: vs, hall, fuel, hfuel, rest => by
    obtain ⟨f, rfl⟩ : ∃ f, fuel = f + 1 := ⟨fuel - 1, by omega⟩
    rw [dumpsItems_cons, List.length_append, List.length_cons] at hfuel
    have hd : Delimited (',' :: (dumpsItems (w :: vs) ++ ']' :: rest)) := delimited_cons (by simp) _
    have hv := scanValue_dumps v (hall v (by simp)) (show (dumps v).length ≤ f by omega) hd
    have hvs := scanItems_dumpsItems w vs (fun u hu => hall u (by simp [hu])) (show _ < f by omega) rest
    have hskip : skipSpace (dumpsItems (w :: vs) ++ ']' :: rest) = dumpsItems (w :: vs) ++ ']' :: rest := by
      obtain ⟨c, s, hs, hc⟩ := dumpsItems_head w vs
      rw [hs, List.cons_append]
      exact skipSpace_cons (starts_not_space hc) _
    rw [dumpsItems_cons, List.append_assoc, List.cons_append, scanItems, hv]
    simp only [Option.bind_eq_bind, Option.bind_some, hd.skipSpace, hskip, hvs, Option.map_some]

theorem scanEntries_dumpsEntries : ∀ (e : List Char × Value) (es : List (List Char × Value)),
    (∀ p ∈ e :: es, p.2.Canonical) → ∀ {fuel : Nat}, (dumpsEntries (e :: es)).length < fuel → ∀ (rest : List Char),
    scanEntries fuel (dumpsEntries (e :: es) ++ '\x7d' :: rest) = .some (e :: es, rest)
  | (k, v), [], hall, fuel, hfuel, rest => by
    obtain ⟨f, rfl⟩ : ∃ f, fuel = f + 1 := ⟨fuel - 1, by omega⟩
    rw [dumpsEntries, List.length_append, List.length_cons] at hfuel
    have hd : Delimited ('\x7d' :: rest) := delimited_cons (by simp) rest
    have hv := scanValue_dumps v (hall (k, v) (by simp)) (show (dumps v).length ≤ f by omega) hd
    rw [dumpsEntries, List.append_assoc, List.cons_append, scanEntries_entry hv hd]
    rfl
  | (k, v), e :: es, hall, fuel, hfuel, rest => by
    obtain ⟨f, rfl⟩ : ∃ f, fuel = f + 1 := ⟨fuel - 1, by omega⟩
    rw [dumpsEntries_cons, List.length_append, List.length_cons, List.length_append, List.length_cons] at hfuel
    have hd : Delimited (',' :: (dumpsEntries (e :: es) ++ '\x7d' :: rest)) := delimited_cons (by simp) _
    have hv := scanValue_dumps v (hall (k, v) (by simp)) (show (dumps v).length ≤ f by omega) hd
    have hes := scanEntries_dumpsEntries e es (fun p hp => hall p (by simp [hp])) (show _ < f by omega) rest
    have hskip : skipSpace (dumpsEntries (e :: es) ++ '\x7d' :: rest) = dumpsEntries (e :: es) ++ '\x7d' :: rest := by
      obtain ⟨s, hs⟩ := dumpsEntries_head e es
      rw [hs, List.cons_append]
      exact skipSpace_cons rfl _
    rw [dumpsEntries_cons, List.append_assoc, List.cons_append, List.append_assoc, List.cons_append,
      scanEntries_entry hv hd]
    simp only [hskip, hes, Option.map_some]

end

/-- **Reading inverts writing.** -/
theorem loads_dumps {v : Value} (h : v.Canonical) : loads (dumps v) = .some v := by
  have hscan : scanValue ((dumps v).length + 1) (dumps v ++ []) = .some (v, []) :=
    scanValue_dumps v h (by omega) delimited_nil
  rw [List.append_nil] at hscan
  have hskip : skipSpace (dumps v) = dumps v := by
    have hs := skipSpace_dumps v []
    rwa [List.append_nil] at hs
  have hnil : skipSpace [] = [] := rfl
  simp only [loads, hskip, hscan, Option.bind_eq_bind, Option.bind_some, hnil, if_true]

theorem dumps_injective {v w : Value} (hv : v.Canonical) (hw : w.Canonical) (h : dumps v = dumps w) : v = w := by
  have hread : loads (dumps v) = loads (dumps w) := by rw [h]
  rw [loads_dumps hv, loads_dumps hw] at hread
  exact Option.some.inj hread

/-! ## What is read is canonical -/

theorem scan_canonical (fuel : Nat) :
    (∀ {s v rest}, scanValue fuel s = .some (v, rest) → v.Canonical) ∧
    (∀ {s vs rest}, scanItems fuel s = .some (vs, rest) → ∀ v ∈ vs, v.Canonical) ∧
    (∀ {s es rest}, scanEntries fuel s = .some (es, rest) → ∀ e ∈ es, e.2.Canonical) := by
  induction fuel with
  | zero =>
    refine ⟨?_, ?_, ?_⟩ <;>
    · intro _ _ _ h
      cases h
  | succ fuel ih =>
    obtain ⟨ihv, ihi, ihe⟩ := ih
    refine ⟨?_, ?_, ?_⟩
    · intro s v rest h
      unfold scanValue at h
      split at h
      · obtain ⟨p, _, hp⟩ := Option.map_eq_some_iff.mp h
        cases hp
        exact .str _
      · split at h
        · cases h
          exact .arr (fun _ hv => by cases hv)
        · obtain ⟨p, hitems, hp⟩ := Option.map_eq_some_iff.mp h
          cases hp
          exact .arr (ihi hitems)
      · split at h
        · cases h
          exact .obj (fun _ he => by cases he) List.Pairwise.nil
        · obtain ⟨p, hentries, hp⟩ := Option.map_eq_some_iff.mp h
          cases hp
          exact .obj (fun e he => ihe hentries e (mem_of_mem_dictOf he)) (sortedKeys_dictOf _)
      · cases h
        exact .null
      · cases h
        exact .bool _
      · cases h
        exact .bool _
      · obtain ⟨p, _, hp⟩ := Option.map_eq_some_iff.mp h
        cases hp
        exact .int _
    · intro s vs rest h
      rw [scanItems, Option.bind_eq_bind] at h
      obtain ⟨⟨v, s'⟩, hv, h⟩ := Option.bind_eq_some_iff.mp h
      simp only at h
      split at h
      · cases h
        intro w hw
        rw [List.mem_singleton.mp hw]
        exact ihv hv
      · obtain ⟨p, hitems, hp⟩ := Option.map_eq_some_iff.mp h
        cases hp
        intro w hw
        rcases List.mem_cons.mp hw with rfl | hw
        · exact ihv hv
        · exact ihi hitems w hw
      · cases h
    · intro s es rest h
      unfold scanEntries at h
      split at h
      · rw [Option.bind_eq_bind] at h
        obtain ⟨⟨k, s'⟩, _, h⟩ := Option.bind_eq_some_iff.mp h
        simp only at h
        split at h
        · rw [Option.bind_eq_bind] at h
          obtain ⟨⟨v, s''⟩, hv, h⟩ := Option.bind_eq_some_iff.mp h
          simp only at h
          split at h
          · cases h
            intro e he
            rw [List.mem_singleton.mp he]
            exact ihv hv
          · obtain ⟨p, hentries, hp⟩ := Option.map_eq_some_iff.mp h
            cases hp
            intro e he
            rcases List.mem_cons.mp he with rfl | he
            · exact ihv hv
            · exact ihe hentries e he
          · cases h
        · cases h
      · cases h

theorem loads_canonical {text : List Char} {v : Value} (h : loads text = .some v) : v.Canonical := by
  rw [loads, Option.bind_eq_bind] at h
  obtain ⟨⟨w, rest⟩, hscan, h⟩ := Option.bind_eq_some_iff.mp h
  simp only at h
  split at h
  · cases h
    exact (scan_canonical _).1 hscan
  · cases h

end Json
