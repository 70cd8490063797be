/-
The authenticated codec of keyset cursors.

A cursor is the base64url text of a canonical JSON body and its MAC. The decoder
does not trust the MAC for more than it says: it re-encodes the base64, it
re-writes the body, and it re-writes every scalar it read, so what it accepts is
what `encode` writes for the values it returns. HMAC-SHA256 and SHA-256 are
parameters; a different query is refused because the digests of two queries in
hand are assumed to differ.
-/
import Nexus.Collections.Keyset
import Nexus.Lib.Base64Url
import Nexus.Lib.DateTime
import Nexus.Lib.ExceptFacts
import Nexus.Lib.Json
import Nexus.Primitives

namespace Nexus.Collections

open Iso (DateTime)

/-! ## Scalars -/

/-- A `KeysetScalar` other than `None`. -/
inductive KeysetScalar
  | int (n : Int)
  | dateTime (d : DateTime)
  | uuid (u : UuidBytes)
  | text (s : Text)
  deriving DecidableEq, Repr

/-- `KeysetValueKind.value` -/
def KeysetValueKind.word : KeysetValueKind → Text
  | .int => "int".toList
  | .dateTime => "datetime".toList
  | .dateTimeOrNull => "datetime_or_null".toList
  | .uuid => "uuid".toList
  | .text => "text".toList
  | .textOrNull => "text_or_null".toList

/-- What the codec raises. The decoder turns all but an `OverflowError` into its
API error. -/
inductive CodecError
  | valueError
  | typeError
  | overflowError
  | api (e : ApiError)
  deriving DecidableEq, Repr

def int64Min : Int := -2 ^ 63

def int64Max : Int := 2 ^ 63 - 1

/-- `_canonical_datetime`. `astimezone(UTC)` overflows outside of the years 1 to 9999. -/
def canonicalDatetime (d : DateTime) : Except CodecError Text :=
  match d.instant with
  | .none => .error .valueError
  | .some t => if 0 ≤ t ∧ t < Iso.maxMicros then .ok (Iso.isoformat t.toNat) else .error .overflowError

def encodeValue (kind : KeysetValueKind) (value : Option KeysetScalar) : Except CodecError Json.Value :=
  match kind, value with
  | .int, .some (.int n) => if int64Min ≤ n ∧ n ≤ int64Max then .ok (.int n) else .error .valueError
  | .int, _ => .error .valueError
  | .dateTime, .some (.dateTime d) => (canonicalDatetime d).map .str
  | .dateTimeOrNull, .none => .ok .null
  | .dateTimeOrNull, .some (.dateTime d) => (canonicalDatetime d).map .str
  | .uuid, .some (.uuid u) => .ok (.str u.str)
  | .text, .some (.text s) => .ok (.str s)
  | .textOrNull, .none => .ok .null
  | .textOrNull, .some (.text s) => .ok (.str s)
  | _, _ => .error .typeError

def parseDatetime (value : Json.Value) : Except CodecError DateTime :=
  match value with
  | .str s => match Iso.fromisoformat s with
    | .none => .error .valueError
    | .some parsed => match canonicalDatetime parsed with
      | .error e => .error e
      | .ok text => if text = s then .ok parsed else .error .valueError
  | _ => .error .valueError

def parseUuid (value : Json.Value) : Except CodecError UuidBytes :=
  match value with
  | .str s => match UuidBytes.parse s with
    | .none => .error .valueError
    | .some parsed => if parsed.str = s then .ok parsed else .error .valueError
  | _ => .error .valueError

def decodeValue (kind : KeysetValueKind) (value : Json.Value) : Except CodecError (Option KeysetScalar) :=
  match kind, value with
  | .int, .int n => if int64Min ≤ n ∧ n ≤ int64Max then .ok (.some (.int n)) else .error .valueError
  | .int, _ => .error .valueError
  | .dateTime, value => (parseDatetime value).map fun d => .some (.dateTime d)
  | .dateTimeOrNull, .null => .ok .none
  | .dateTimeOrNull, value => (parseDatetime value).map fun d => .some (.dateTime d)
  | .uuid, value => (parseUuid value).map fun u => .some (.uuid u)
  | .text, .str s => .ok (.some (.text s))
  | .textOrNull, .null => .ok .none
  | .textOrNull, .str s => .ok (.some (.text s))
  | _, _ => .error .valueError

/-! ## Cursors -/

def macBytes : Nat := 32

def maxCursorChars : Nat := 16384

def domain : Bytes := ascii "nexus:signed-keyset-cursor:v1"

/-- `_FAMILY_PATTERN.fullmatch` -/
def familyPattern (family : Text) : Bool :=
  match family with
  | [] => false
  | c :: rest => c.isAlpha && rest.length ≤ 127 && rest.all fun c => c.isAlphanum || c = ':' || c = '.'

/-- A `query` argument: a mapping that can be written as JSON. -/
structure Query where
  entries : List (Text × Json.Value)
  canonical : (Json.Value.obj entries).Canonical

def canonicalJson (payload : Json.Value) : Bytes := encodeUtf8 (Json.dumps payload)

def afterKey : Text := "after".toList

def familyKey : Text := "family".toList

def queryDigestKey : Text := "queryDigest".toList

def cursorBody (encoded : List Json.Value) (family digest : Text) : Json.Value :=
  .obj [(afterKey, .arr encoded), (familyKey, .str family), (queryDigestKey, .str digest)]

section Codec

variable (hmac : Hmac) (sha256 : Bytes → Bytes) (root : Bytes)

def queryDigest (query : Query) : Text := Hex.encode (sha256 (canonicalJson (.obj query.entries)))

def signingKey : Bytes := sha256 (root ++ domain)

def encodeElement (value : KeysetValue KeysetScalar) : Except CodecError Json.Value :=
  (encodeValue value.kind value.value).map fun encoded => .arr [.str value.kind.word, encoded]

def encodeSignedKeysetCursor (family : Text) (query : Query) (after : List (KeysetValue KeysetScalar)) :
    Except CodecError Text :=
  if !familyPattern family then .error .valueError
  else match after.mapM encodeElement with
    | .error e => .error e
    | .ok encoded =>
      let raw := canonicalJson (cursorBody encoded family (queryDigest sha256 query))
      let token := Base64Url.encode (raw ++ hmac.digest (signingKey sha256 root) raw)
      if maxCursorChars < token.length then .error .valueError else .ok token

/-- The body's bytes, once the cursor is canonical base64url and the MAC is right. -/
def openCursor (cursor : Text) : Option Bytes :=
  if cursor = [] ∨ maxCursorChars < cursor.length ∨ !cursor.all Base64Url.inAlphabet then .none
  else match Base64Url.decode cursor with
    | .none => .none
    | .some packed =>
      if Base64Url.encode packed ≠ cursor ∨ packed.length ≤ macBytes then .none
      else
        let raw := packed.take (packed.length - macBytes)
        let suppliedMac := packed.drop (packed.length - macBytes)
        if suppliedMac = hmac.digest (signingKey sha256 root) raw then .some raw else .none

/-- `json.loads` of the body and the comparison with its canonical text. A body
in another encoding, with a number that is no integer or with a lone surrogate
is read as nothing here; none of these is the text of a body the checks after it
accept. -/
def loadBody (raw : Bytes) : Option Json.Value :=
  match (decodeUtf8 raw).bind Json.loads with
  | .none => .none
  | .some body => if canonicalJson body = raw then .some body else .none

/-- `body[key] == text` -/
def hasText (entries : List (Text × Json.Value)) (key text : Text) : Bool :=
  match entries.lookup key with
  | .some (.str s) => s = text
  | _ => false

/-- The body's `after`, when it is a body of this family and query. -/
def bodyAfter (body : Json.Value) (family digest : Text) : Option (List Json.Value) :=
  match body with
  | .obj entries =>
    let keys := entries.map Prod.fst
    if keys.all ([afterKey, familyKey, queryDigestKey].contains ·) && [afterKey, familyKey, queryDigestKey].all (keys.contains ·) &&
        hasText entries familyKey family && hasText entries queryDigestKey digest then
      match entries.lookup afterKey with
      | .some (.arr items) => .some items
      | _ => .none
    else .none
  | _ => .none

def decodeElement (element : Json.Value) (kind : KeysetValueKind) : Except CodecError (Option KeysetScalar) :=
  match element with
  | .arr [.str word, value] => if word = kind.word then decodeValue kind value else .error .valueError
  | _ => .error .valueError

/-- The body of the decoder's `try`. -/
def decodeChecked (cursor family : Text) (query : Query) (expectedKinds : List KeysetValueKind) :
    Except CodecError (List (Option KeysetScalar)) :=
  match (openCursor hmac sha256 root cursor).bind loadBody with
  | .none => .error .valueError
  | .some body => match bodyAfter body family (queryDigest sha256 query) with
    | .none => .error .valueError
    | .some after =>
      if after.length ≠ expectedKinds.length then .error .valueError
      else (after.zip expectedKinds).mapM fun p => decodeElement p.1 p.2

def invalidCursor : ApiError := ⟨.invalidCursor, "Invalid cursor"⟩

def decodeSignedKeysetCursor (cursor family : Text) (query : Query) (expectedKinds : List KeysetValueKind) :
    Except CodecError (List (Option KeysetScalar)) :=
  if !familyPattern family then .error .valueError
  else match decodeChecked hmac sha256 root cursor family query expectedKinds with
    | .ok values => .ok values
    | .error .overflowError => .error .overflowError
    | .error _ => .error (.api invalidCursor)

end Codec

/-! ## Scalars round-trip -/

/-- The same value, or two datetimes of one instant. -/
def SameValue : Option KeysetScalar → Option KeysetScalar → Prop
  | .some (.dateTime d), .some (.dateTime d') => d.instant = d'.instant
  | value, value' => value = value'

theorem SameValue.refl (value : Option KeysetScalar) : SameValue value value := by
  cases value with
  | none => rfl
  | some scalar => cases scalar <;> rfl

theorem canonicalDatetime_eq_ok {d : DateTime} {text : Text} (h : canonicalDatetime d = .ok text) :
    ∃ n, n < Iso.maxMicros ∧ d.instant = .some (n : Int) ∧ text = Iso.isoformat n := by
  unfold canonicalDatetime at h
  split at h
  · cases h
  · rename_i t ht
    split at h
    · rename_i hrange
      cases h
      refine ⟨t.toNat, by omega, ?_, rfl⟩
      rw [ht, Int.toNat_of_nonneg hrange.1]
    · cases h

theorem instant_ofUtc {n : Nat} (h : n < Iso.maxMicros) : (Iso.ofUtc n h).instant = .some (n : Int) := by
  show Option.some ((n : Int) - 0) = _
  rw [Int.sub_zero]

theorem canonicalDatetime_of_instant {d : DateTime} {t : Int} (hinstant : d.instant = .some t)
    (h : 0 ≤ t ∧ t < Iso.maxMicros) : canonicalDatetime d = .ok (Iso.isoformat t.toNat) := by
  unfold canonicalDatetime
  rw [hinstant]
  exact if_pos h

theorem instant_in_range {n : Nat} (h : n < Iso.maxMicros) : 0 ≤ (n : Int) ∧ (n : Int) < Iso.maxMicros :=
  ⟨Int.natCast_nonneg n, Int.ofNat_lt.mpr h⟩

theorem canonicalDatetime_ofUtc {n : Nat} (h : n < Iso.maxMicros) :
    canonicalDatetime (Iso.ofUtc n h) = .ok (Iso.isoformat (Int.toNat n)) :=
  canonicalDatetime_of_instant (instant_ofUtc h) (instant_in_range h)

theorem parseDatetime_of_text {text : Text} {d : DateTime} (hread : Iso.fromisoformat text = .some d)
    (hwrite : canonicalDatetime d = .ok text) : parseDatetime (.str text) = .ok d := by
  simp only [parseDatetime, hread, hwrite, if_true]

theorem parseDatetime_canonicalDatetime {d : DateTime} {text : Text} (h : canonicalDatetime d = .ok text) :
    ∃ d', parseDatetime (.str text) = .ok d' ∧ d.instant = d'.instant := by
  obtain ⟨n, hn, hinstant, rfl⟩ := canonicalDatetime_eq_ok h
  have hcanonical := canonicalDatetime_ofUtc hn
  rw [Int.toNat_natCast] at hcanonical
  refine ⟨Iso.ofUtc n hn, parseDatetime_of_text (Iso.fromisoformat_isoformat hn) hcanonical, ?_⟩
  rw [hinstant, instant_ofUtc]

theorem parseDatetime_eq_ok {value : Json.Value} {d : DateTime} (h : parseDatetime value = .ok d) :
    ∃ text, value = .str text ∧ canonicalDatetime d = .ok text := by
  unfold parseDatetime at h
  split at h
  · split at h
    · cases h
    · split at h
      · cases h
      · rename_i hcanonical
        split at h
        · rename_i heq
          cases h
          exact ⟨_, rfl, heq ▸ hcanonical⟩
        · cases h
  · cases h

theorem parseUuid_str (u : UuidBytes) : parseUuid (.str u.str) = .ok u := by
  simp only [parseUuid, UuidBytes.parse_str, if_true]

theorem parseUuid_eq_ok {value : Json.Value} {u : UuidBytes} (h : parseUuid value = .ok u) : value = .str u.str := by
  unfold parseUuid at h
  split at h
  · split at h
    · cases h
    · split at h
      · rename_i heq
        cases h
        rw [heq]
      · cases h
  · cases h

/-- **A scalar is read back from what it was written as**, and that is canonical JSON. -/
theorem decodeValue_encodeValue {kind : KeysetValueKind} {value : Option KeysetScalar} {encoded : Json.Value}
    (h : encodeValue kind value = .ok encoded) :
    encoded.Canonical ∧ ∃ value', decodeValue kind encoded = .ok value' ∧ SameValue value value' := by
  have hdatetime : ∀ {d : DateTime}, (canonicalDatetime d).map Json.Value.str = .ok encoded →
      encoded.Canonical ∧ encoded ≠ .null ∧ ∃ d', parseDatetime encoded = .ok d' ∧ d.instant = d'.instant := by
    intro d hd
    obtain ⟨text, htext, rfl⟩ := ExceptFacts.map_eq_ok.mp hd
    exact ⟨.str _, Json.Value.noConfusion, parseDatetime_canonicalDatetime htext⟩
  unfold encodeValue at h
  split at h
  · split at h
    · rename_i hrange
      cases h
      exact ⟨.int _, _, if_pos hrange, .refl _⟩
    · cases h
  · cases h
  · obtain ⟨hcanonical, _, d', hd', hsame⟩ := hdatetime h
    exact ⟨hcanonical, .some (.dateTime d'), by rw [decodeValue, hd']; rfl, hsame⟩
  · cases h
    exact ⟨.null, _, rfl, .refl _⟩
  · obtain ⟨hcanonical, hnull, d', hd', hsame⟩ := hdatetime h
    exact ⟨hcanonical, .some (.dateTime d'), by rw [decodeValue, hd']; rfl; exact hnull, hsame⟩
  · rename_i u
    cases h
    exact ⟨.str _, .some (.uuid u), by rw [decodeValue, parseUuid_str]; rfl, .refl _⟩
  · cases h
    exact ⟨.str _, _, rfl, .refl _⟩
  · cases h
    exact ⟨.null, _, rfl, .refl _⟩
  · cases h
    exact ⟨.str _, _, rfl, .refl _⟩
  · cases h

/-- **What a scalar was read from is what it is written as.** -/
theorem encodeValue_decodeValue {kind : KeysetValueKind} {value : Option KeysetScalar} {encoded : Json.Value}
    (h : decodeValue kind encoded = .ok value) : encodeValue kind value = .ok encoded := by
  unfold decodeValue at h
  split at h
  · split at h
    · rename_i hrange
      cases h
      exact if_pos hrange
    · cases h
  · cases h
  · obtain ⟨d, hd, rfl⟩ := ExceptFacts.map_eq_ok.mp h
    obtain ⟨text, rfl, hcanonical⟩ := parseDatetime_eq_ok hd
    rw [encodeValue, hcanonical]
    rfl
  · cases h; rfl
  · obtain ⟨d, hd, rfl⟩ := ExceptFacts.map_eq_ok.mp h
    obtain ⟨text, rfl, hcanonical⟩ := parseDatetime_eq_ok hd
    rw [encodeValue, hcanonical]
    rfl
  · obtain ⟨u, hu, rfl⟩ := ExceptFacts.map_eq_ok.mp h
    rw [parseUuid_eq_ok hu]
    rfl
  · cases h; rfl
  · cases h; rfl
  · cases h; rfl
  · cases h

/-! ## Cursors round-trip -/

section Codec

variable (hmac : Hmac) (sha256 : Bytes → Bytes) (root : Bytes)

theorem cursorBody_canonical {encoded : List Json.Value} (h : ∀ v ∈ encoded, v.Canonical) (family digest : Text) :
    (cursorBody encoded family digest).Canonical := by
  have hsorted : Json.SortedKeys [(afterKey, Json.Value.arr encoded), (familyKey, .str family), (queryDigestKey, .str digest)] := by
    have hkeys : afterKey < familyKey ∧ afterKey < queryDigestKey ∧ familyKey < queryDigestKey := by decide
    simp [Json.SortedKeys, hkeys]
  refine .obj ?_ hsorted
  intro e he
  simp only [List.mem_cons, List.not_mem_nil, or_false] at he
  rcases he with rfl | rfl | rfl
  · exact .arr h
  · exact .str _
  · exact .str _

theorem bodyAfter_cursorBody (encoded : List Json.Value) (family digest : Text) :
    bodyAfter (cursorBody encoded family digest) family digest = .some encoded := by
  have hfamily : (familyKey == afterKey) = false := by decide
  have hdigest : (queryDigestKey == afterKey) = false ∧ (queryDigestKey == familyKey) = false := by decide
  simp [bodyAfter, cursorBody, hasText, List.lookup_cons, hfamily, hdigest]

theorem entries_of_keys {entries : List (Text × Json.Value)} (hsorted : Json.SortedKeys entries)
    (hsub : ∀ k ∈ entries.map Prod.fst, k ∈ [afterKey, familyKey, queryDigestKey])
    (hsup : ∀ k ∈ [afterKey, familyKey, queryDigestKey], k ∈ entries.map Prod.fst) :
    entries.map Prod.fst = [afterKey, familyKey, queryDigestKey] := by
  have hkeys : (entries.map Prod.fst).Pairwise (· < ·) := List.pairwise_map.mpr hsorted
  have hthree : [afterKey, familyKey, queryDigestKey].Pairwise (· < ·) := by decide
  have hperm : (entries.map Prod.fst).Perm [afterKey, familyKey, queryDigestKey] := by
    refine (List.perm_ext_iff_of_nodup (hkeys.imp ne_of_lt) (hthree.imp ne_of_lt)).mpr ?_
    intro k
    exact ⟨hsub k, hsup k⟩
  exact hperm.eq_of_pairwise (fun a b _ _ hab hba => absurd hba (lt_asymm hab)) hkeys hthree

theorem hasText_eq_true {entries : List (Text × Json.Value)} {key text : Text} (h : hasText entries key text = true) :
    entries.lookup key = .some (.str text) := by
  unfold hasText at h
  split at h
  · rename_i s hlookup
    rw [hlookup, of_decide_eq_true h]
  · cases h

theorem bodyAfter_eq_some {body : Json.Value} {family digest : Text} {items : List Json.Value} (hbody : body.Canonical)
    (h : bodyAfter body family digest = .some items) : body = cursorBody items family digest := by
  unfold bodyAfter at h
  split at h
  · rename_i entries
    simp only at h
    split at h
    · rename_i hcheck
      simp only [Bool.and_eq_true, List.all_eq_true, List.contains_iff_mem] at hcheck
      obtain ⟨⟨⟨hsub, hsup⟩, hfamily⟩, hdigest⟩ := hcheck
      have hsorted : Json.SortedKeys entries := by cases hbody; assumption
      have hkeys := entries_of_keys hsorted hsub hsup
      have hfamily := hasText_eq_true hfamily
      have hdigest := hasText_eq_true hdigest
      split at h
      · rename_i items' hafter
        cases h
        match entries, hkeys with
        | [(k1, v1), (k2, v2), (k3, v3)], hkeys =>
          simp only [List.map_cons, List.map_nil, List.cons.injEq, and_true] at hkeys
          obtain ⟨rfl, rfl, rfl⟩ := hkeys
          have h21 : (familyKey == afterKey) = false := by decide
          have h31 : (queryDigestKey == afterKey) = false := by decide
          have h32 : (queryDigestKey == familyKey) = false := by decide
          simp only [List.lookup_cons, beq_self_eq_true, h21, h31, h32, Option.some.injEq] at hafter hfamily hdigest
          rw [hafter, hfamily, hdigest]
          rfl
      · cases h
    · cases h
  · cases h

theorem openCursor_eq_some {cursor : Text} {raw : Bytes} (h : openCursor hmac sha256 root cursor = .some raw) :
    cursor.length ≤ maxCursorChars ∧ cursor = Base64Url.encode (raw ++ hmac.digest (signingKey sha256 root) raw) := by
  unfold openCursor at h
  split at h
  · cases h
  · rename_i hshape
    rw [not_or, not_or, Nat.not_lt] at hshape
    split at h
    · cases h
    · rename_i packed _
      split at h
      · cases h
      · rename_i hcanonical
        rw [not_or, not_not] at hcanonical
        simp only at h
        split at h
        · rename_i hmac'
          cases h
          refine ⟨hshape.2.1, ?_⟩
          rw [← hmac', List.take_append_drop, hcanonical.1]
        · cases h

theorem openCursor_encode {raw : Bytes} (hne : raw ≠ [])
    (hlen : (Base64Url.encode (raw ++ hmac.digest (signingKey sha256 root) raw)).length ≤ maxCursorChars) :
    openCursor hmac sha256 root (Base64Url.encode (raw ++ hmac.digest (signingKey sha256 root) raw)) = .some raw := by
  generalize hmac' : hmac.digest (signingKey sha256 root) raw = mac at hlen
  have hmac32 : mac.length = 32 := by rw [← hmac', hmac.length_digest]
  have hpos : 0 < raw.length := List.length_pos_iff.mpr hne
  have htext : Base64Url.encode (raw ++ mac) ≠ [] := by
    intro hnil
    have hlength := Base64Url.encode_length (raw ++ mac)
    rw [hnil, List.length_append] at hlength
    simp only [List.length_nil] at hlength
    omega
  have hcut : (raw ++ mac).length - macBytes = raw.length := by
    rw [List.length_append, hmac32, macBytes]; omega
  have hshape : ¬ (Base64Url.encode (raw ++ mac) = [] ∨ maxCursorChars < (Base64Url.encode (raw ++ mac)).length ∨
      (!(Base64Url.encode (raw ++ mac)).all Base64Url.inAlphabet) = true) := by
    rw [Base64Url.encode_alphabet, not_or, not_or]
    exact ⟨htext, Nat.not_lt.mpr hlen, by simp⟩
  have hpacked : ¬ (Base64Url.encode (raw ++ mac) ≠ Base64Url.encode (raw ++ mac) ∨ (raw ++ mac).length ≤ macBytes) := by
    rw [not_or, List.length_append, hmac32, macBytes]
    exact ⟨by simp, by omega⟩
  unfold openCursor
  simp only [if_neg hshape, Base64Url.decode_encode, if_neg hpacked, hcut, List.take_left, List.drop_left, hmac', if_true]

theorem loadBody_canonicalJson {body : Json.Value} (h : body.Canonical) :
    loadBody (canonicalJson body) = .some body := by
  have hread : (decodeUtf8 (canonicalJson body)).bind Json.loads = .some body := by
    rw [canonicalJson, decodeUtf8_encodeUtf8, Option.bind_some, Json.loads_dumps h]
  rw [loadBody, hread]
  exact if_pos rfl

theorem loadBody_eq_some {raw : Bytes} {body : Json.Value} (h : loadBody raw = .some body) :
    body.Canonical ∧ canonicalJson body = raw := by
  unfold loadBody at h
  split at h
  · cases h
  · rename_i body' hread
    split at h
    · rename_i heq
      cases h
      obtain ⟨text, _, hloads⟩ := Option.bind_eq_some_iff.mp hread
      exact ⟨Json.loads_canonical hloads, heq⟩
    · cases h

theorem canonicalJson_injective {v w : Json.Value} (hv : v.Canonical) (hw : w.Canonical)
    (h : canonicalJson v = canonicalJson w) : v = w :=
  Json.dumps_injective hv hw (encodeUtf8_injective h)

/-! ## Elements -/

theorem KeysetValueKind.word_injective {kind kind' : KeysetValueKind} (h : kind.word = kind'.word) : kind = kind' := by
  cases kind <;> cases kind' <;> first | rfl | exact absurd h (by decide)

theorem decodeElement_encodeElement {value : KeysetValue KeysetScalar} {element : Json.Value}
    (h : encodeElement value = .ok element) :
    element.Canonical ∧ ∃ value', decodeElement element value.kind = .ok value' ∧ SameValue value.value value' := by
  obtain ⟨encoded, hencoded, rfl⟩ := ExceptFacts.map_eq_ok.mp h
  obtain ⟨hcanonical, value', hdecode, hsame⟩ := decodeValue_encodeValue hencoded
  refine ⟨.arr ?_, value', ?_, hsame⟩
  · intro v hv
    simp only [List.mem_cons, List.not_mem_nil, or_false] at hv
    rcases hv with rfl | rfl
    · exact .str _
    · exact hcanonical
  · rw [decodeElement, if_pos rfl, hdecode]

theorem decodeElement_eq_ok {element : Json.Value} {kind : KeysetValueKind} {value : Option KeysetScalar}
    (h : decodeElement element kind = .ok value) :
    ∃ encoded, element = .arr [.str kind.word, encoded] ∧ decodeValue kind encoded = .ok value := by
  unfold decodeElement at h
  split at h
  · split at h
    · rename_i hword
      exact ⟨_, by rw [hword], h⟩
    · cases h
  · cases h

theorem encodeElement_decodeElement {element : Json.Value} {kind : KeysetValueKind} {value : Option KeysetScalar}
    (h : decodeElement element kind = .ok value) : encodeElement ⟨kind, value⟩ = .ok element := by
  obtain ⟨encoded, rfl, hdecode⟩ := decodeElement_eq_ok h
  exact ExceptFacts.map_eq_ok.mpr ⟨encoded, encodeValue_decodeValue hdecode, rfl⟩

theorem kind_of_element {value : KeysetValue KeysetScalar} {element : Json.Value} {kind : KeysetValueKind}
    {value' : Option KeysetScalar} (h : encodeElement value = .ok element) (h' : decodeElement element kind = .ok value') :
    kind = value.kind := by
  obtain ⟨encoded, _, rfl⟩ := ExceptFacts.map_eq_ok.mp h
  obtain ⟨encoded', heq, _⟩ := decodeElement_eq_ok h'
  simp only [Json.Value.arr.injEq, List.cons.injEq, Json.Value.str.injEq] at heq
  exact (KeysetValueKind.word_injective heq.1).symm

theorem decodeElements_encodeElements {after : List (KeysetValue KeysetScalar)} {encoded : List Json.Value}
    (h : List.Forall₂ (fun value element => encodeElement value = .ok element) after encoded) :
    (∀ v ∈ encoded, v.Canonical) ∧ ∃ values,
      List.Forall₂ (fun p value => decodeElement p.1 p.2 = .ok value) (encoded.zip (after.map KeysetValue.kind)) values ∧
      List.Forall₂ SameValue (after.map KeysetValue.value) values := by
  induction h with
  | nil => exact ⟨fun _ hv => (List.not_mem_nil hv).elim, [], .nil, .nil⟩
  | @cons value element after encoded hhead _ ih =>
    obtain ⟨hall, values, hdecode, hsame⟩ := ih
    obtain ⟨hcanonical, value', hvalue, hsame'⟩ := decodeElement_encodeElement hhead
    refine ⟨?_, value' :: values, .cons hvalue hdecode, .cons hsame' hsame⟩
    intro v hv
    rcases List.mem_cons.mp hv with rfl | hv
    · exact hcanonical
    · exact hall v hv

theorem encodeElements_decodeElements : ∀ {items : List Json.Value} {kinds : List KeysetValueKind}
    {values : List (Option KeysetScalar)}, items.length = kinds.length →
    List.Forall₂ (fun p value => decodeElement p.1 p.2 = .ok value) (items.zip kinds) values →
    List.Forall₂ (fun value element => encodeElement value = .ok element) (List.zipWith KeysetValue.mk kinds values) items
  | [], [], _, _, h => by cases h; exact .nil
  | item :: items, kind :: kinds, _, hlen, h => by
    cases h with
    | cons hhead htail =>
      exact .cons (encodeElement_decodeElement hhead)
        (encodeElements_decodeElements (by simpa using hlen) htail)

theorem kinds_of_elements {after : List (KeysetValue KeysetScalar)} {encoded : List Json.Value}
    (h : List.Forall₂ (fun value element => encodeElement value = .ok element) after encoded) :
    ∀ {kinds : List KeysetValueKind} {values : List (Option KeysetScalar)}, encoded.length = kinds.length →
      List.Forall₂ (fun p value => decodeElement p.1 p.2 = .ok value) (encoded.zip kinds) values →
      kinds = after.map KeysetValue.kind := by
  induction h with
  | nil =>
    intro kinds values hlen _
    rw [List.map_nil]
    exact List.length_eq_zero_iff.mp (by simpa using hlen.symm)
  | @cons value element after encoded hhead _ ih =>
    intro kinds values hlen hdecode
    match kinds with
    | [] => cases hlen
    | kind :: kinds =>
      cases hdecode with
      | cons hkind htail =>
        have hkind' : kind = value.kind := kind_of_element hhead hkind
        rw [List.map_cons, hkind', ih (by simpa using hlen) htail]

/-! ## Both directions -/

/-- The text of a body under the signing key. -/
def signedText (body : Json.Value) : Text :=
  Base64Url.encode (canonicalJson body ++ hmac.digest (signingKey sha256 root) (canonicalJson body))

theorem signedText_injective {body body' : Json.Value} (hbody : body.Canonical) (hbody' : body'.Canonical)
    (h : signedText hmac sha256 root body = signedText hmac sha256 root body') : body = body' := by
  have hpacked := Base64Url.encode_injective h
  have hmac32 := hmac.length_digest (signingKey sha256 root)
  have hlen : (canonicalJson body).length = (canonicalJson body').length := by
    have hlength := congrArg List.length hpacked
    rw [List.length_append, List.length_append, hmac32, hmac32] at hlength
    omega
  exact canonicalJson_injective hbody hbody' (List.append_inj hpacked hlen).1

theorem encode_eq_ok {family : Text} {query : Query} {after : List (KeysetValue KeysetScalar)} {token : Text} :
    encodeSignedKeysetCursor hmac sha256 root family query after = .ok token ↔
      familyPattern family = true ∧ ∃ encoded,
        List.Forall₂ (fun value element => encodeElement value = .ok element) after encoded ∧
        token = signedText hmac sha256 root (cursorBody encoded family (queryDigest sha256 query)) ∧
        token.length ≤ maxCursorChars := by
  unfold encodeSignedKeysetCursor
  cases hfamily : familyPattern family with
  | false => simp
  | true =>
    simp only [Bool.not_true, Bool.false_eq_true, if_false, true_and, ← ExceptFacts.mapM_eq_ok]
    cases hmap : after.mapM encodeElement with
    | error e => simp
    | ok encoded =>
      simp only [Except.ok.injEq, exists_eq_left']
      constructor
      · intro h
        split at h
        · cases h
        · rename_i hlen
          cases h
          exact ⟨rfl, Nat.not_lt.mp hlen⟩
      · rintro ⟨rfl, hlen⟩
        exact if_neg (Nat.not_lt.mpr hlen)

theorem decode_eq_ok {cursor family : Text} {query : Query} {kinds : List KeysetValueKind}
    {values : List (Option KeysetScalar)}
    (h : decodeSignedKeysetCursor hmac sha256 root cursor family query kinds = .ok values) :
    familyPattern family = true ∧ ∃ items,
      (cursorBody items family (queryDigest sha256 query)).Canonical ∧
      cursor = signedText hmac sha256 root (cursorBody items family (queryDigest sha256 query)) ∧
      cursor.length ≤ maxCursorChars ∧ items.length = kinds.length ∧
      List.Forall₂ (fun p value => decodeElement p.1 p.2 = .ok value) (items.zip kinds) values := by
  unfold decodeSignedKeysetCursor at h
  split at h
  · cases h
  · rename_i hfamily
    split at h
    · rename_i values' hchecked
      cases h
      unfold decodeChecked at hchecked
      split at hchecked
      · cases hchecked
      · rename_i body hbody
        obtain ⟨raw, hopen, hload⟩ := Option.bind_eq_some_iff.mp hbody
        obtain ⟨hcanonical, hraw⟩ := loadBody_eq_some hload
        obtain ⟨hlen, hcursor⟩ := openCursor_eq_some hmac sha256 root hopen
        split at hchecked
        · cases hchecked
        · rename_i items hafter
          split at hchecked
          · cases hchecked
          · rename_i hlength
            have hshape := bodyAfter_eq_some hcanonical hafter
            rw [hshape] at hcanonical hraw
            refine ⟨by simpa using hfamily, items, hcanonical, ?_, hlen, not_not.mp hlength,
              ExceptFacts.mapM_eq_ok.mp hchecked⟩
            rw [hcursor, signedText, hraw]
    · cases h
    · cases h

theorem decode_signedText {family : Text} {query : Query} {kinds : List KeysetValueKind} {items : List Json.Value}
    {values : List (Option KeysetScalar)} (hfamily : familyPattern family = true) (hitems : ∀ v ∈ items, v.Canonical)
    (hlen : (signedText hmac sha256 root (cursorBody items family (queryDigest sha256 query))).length ≤ maxCursorChars)
    (hlength : items.length = kinds.length)
    (hdecode : List.Forall₂ (fun p value => decodeElement p.1 p.2 = .ok value) (items.zip kinds) values) :
    decodeSignedKeysetCursor hmac sha256 root
      (signedText hmac sha256 root (cursorBody items family (queryDigest sha256 query))) family query kinds =
      .ok values := by
  have hcanonical := cursorBody_canonical hitems family (queryDigest sha256 query)
  have hne : canonicalJson (cursorBody items family (queryDigest sha256 query)) ≠ [] := List.cons_ne_nil 0x7b _
  have hopen := openCursor_encode hmac sha256 root hne hlen
  have hchecked : decodeChecked hmac sha256 root
      (signedText hmac sha256 root (cursorBody items family (queryDigest sha256 query))) family query kinds =
      .ok values := by
    unfold decodeChecked
    rw [signedText, hopen, Option.bind_some, loadBody_canonicalJson hcanonical]
    simp only [bodyAfter_cursorBody, hlength, ne_eq, not_true_eq_false, if_false]
    exact ExceptFacts.mapM_eq_ok.mpr hdecode
  unfold decodeSignedKeysetCursor
  rw [hfamily, hchecked]
  rfl

theorem decode_encode {family : Text} {query : Query} {after : List (KeysetValue KeysetScalar)} {token : Text}
    (h : encodeSignedKeysetCursor hmac sha256 root family query after = .ok token) :
    ∃ values, decodeSignedKeysetCursor hmac sha256 root token family query (after.map KeysetValue.kind) = .ok values ∧
      List.Forall₂ SameValue (after.map KeysetValue.value) values := by
  obtain ⟨hfamily, encoded, hencoded, rfl, hlen⟩ := (encode_eq_ok hmac sha256 root).mp h
  obtain ⟨hcanonical, values, hdecode, hsame⟩ := decodeElements_encodeElements hencoded
  have hlength : encoded.length = (after.map KeysetValue.kind).length := by
    rw [List.length_map, hencoded.length_eq]
  exact ⟨values, decode_signedText hmac sha256 root hfamily hcanonical hlen hlength hdecode, hsame⟩

theorem encode_decode {cursor family : Text} {query : Query} {kinds : List KeysetValueKind}
    {values : List (Option KeysetScalar)}
    (h : decodeSignedKeysetCursor hmac sha256 root cursor family query kinds = .ok values) :
    encodeSignedKeysetCursor hmac sha256 root family query (List.zipWith KeysetValue.mk kinds values) = .ok cursor := by
  obtain ⟨hfamily, items, _, hcursor, hlen, hlength, hdecode⟩ := decode_eq_ok hmac sha256 root h
  exact (encode_eq_ok hmac sha256 root).mpr
    ⟨hfamily, items, encodeElements_decodeElements hlength hdecode, hcursor, hlen⟩

/-- A cursor is accepted for the family, the query and the kinds it was minted
for, and no others. -/
theorem minted_for {family family' : Text} {query query' : Query} {after : List (KeysetValue KeysetScalar)}
    {token : Text} {kinds' : List KeysetValueKind} {values : List (Option KeysetScalar)}
    (hcollision : sha256 (canonicalJson (.obj query.entries)) = sha256 (canonicalJson (.obj query'.entries)) →
      canonicalJson (.obj query.entries) = canonicalJson (.obj query'.entries))
    (h : encodeSignedKeysetCursor hmac sha256 root family query after = .ok token)
    (h' : decodeSignedKeysetCursor hmac sha256 root token family' query' kinds' = .ok values) :
    family' = family ∧ query'.entries = query.entries ∧ kinds' = after.map KeysetValue.kind := by
  obtain ⟨_, encoded, hencoded, htoken, _⟩ := (encode_eq_ok hmac sha256 root).mp h
  obtain ⟨_, items, hcanonical', htoken', _, hlength, hdecode⟩ := decode_eq_ok hmac sha256 root h'
  have hcanonical := cursorBody_canonical (decodeElements_encodeElements hencoded).1 family (queryDigest sha256 query)
  have hbody := signedText_injective hmac sha256 root hcanonical hcanonical' (htoken.symm.trans htoken')
  simp only [cursorBody, Json.Value.obj.injEq, List.cons.injEq, Prod.mk.injEq, Json.Value.arr.injEq,
    Json.Value.str.injEq, true_and, and_true] at hbody
  obtain ⟨hitems, hfamily, hdigest⟩ := hbody
  subst hitems
  have hquery := canonicalJson_injective query.canonical query'.canonical (hcollision (Hex.encode_injective hdigest))
  refine ⟨hfamily.symm, ?_, kinds_of_elements hencoded hlength hdecode⟩
  exact (Json.Value.obj.inj hquery).symm

theorem decodeElement_error {value : KeysetValue KeysetScalar} {element : Json.Value} {kind : KeysetValueKind}
    {e : CodecError} (h : encodeElement value = .ok element) (h' : decodeElement element kind = .error e) :
    e = .valueError := by
  obtain ⟨encoded, hencoded, rfl⟩ := ExceptFacts.map_eq_ok.mp h
  unfold decodeElement at h'
  simp only at h'
  split at h'
  · rename_i hword
    obtain ⟨_, value', hdecode, _⟩ := decodeValue_encodeValue hencoded
    rw [KeysetValueKind.word_injective hword, h'] at hdecode
    cases hdecode
  · cases h'
    rfl

theorem decodeChecked_minted {family family' : Text} {query query' : Query} {after : List (KeysetValue KeysetScalar)}
    {token : Text} {kinds' : List KeysetValueKind} {e : CodecError}
    (h : encodeSignedKeysetCursor hmac sha256 root family query after = .ok token)
    (h' : decodeChecked hmac sha256 root token family' query' kinds' = .error e) : e = .valueError := by
  obtain ⟨_, encoded, hencoded, rfl, hlen⟩ := (encode_eq_ok hmac sha256 root).mp h
  unfold decodeChecked at h'
  split at h'
  · cases h'; rfl
  · rename_i body hbody
    obtain ⟨raw, hopen, hload⟩ := Option.bind_eq_some_iff.mp hbody
    obtain ⟨hcanonical', hraw⟩ := loadBody_eq_some hload
    have hcanonical := cursorBody_canonical (decodeElements_encodeElements hencoded).1 family (queryDigest sha256 query)
    have hsame : cursorBody encoded family (queryDigest sha256 query) = body := by
      refine signedText_injective hmac sha256 root hcanonical hcanonical' ?_
      rw [(openCursor_eq_some hmac sha256 root hopen).2, signedText, hraw]
    split at h'
    · cases h'; rfl
    · rename_i items hafter
      have hshape := bodyAfter_eq_some hcanonical' hafter
      rw [← hsame, cursorBody, cursorBody] at hshape
      simp only [Json.Value.obj.injEq, List.cons.injEq, Prod.mk.injEq, Json.Value.arr.injEq, true_and] at hshape
      rw [← hshape.1] at h'
      split at h'
      · cases h'; rfl
      · obtain ⟨p, hp, hp'⟩ := ExceptFacts.mapM_eq_error h'
        obtain ⟨value, _, hvalue⟩ := ExceptFacts.exists_of_forall₂ hencoded (List.of_mem_zip hp).1
        exact decodeElement_error hvalue hp'

/-- **The cursor codec.** A cursor decodes, under what it was minted for, to the
values it carries; whatever decodes is the encoding of the values it decodes to;
and under another family, query or list of kinds a cursor is refused, as long as
the digests of the two queries differ. -/
theorem signed_cursor_codec :
    (∀ family query after token, encodeSignedKeysetCursor hmac sha256 root family query after = .ok token →
      ∃ values, decodeSignedKeysetCursor hmac sha256 root token family query (after.map KeysetValue.kind) = .ok values ∧
        List.Forall₂ SameValue (after.map KeysetValue.value) values) ∧
    (∀ cursor family query kinds values,
      decodeSignedKeysetCursor hmac sha256 root cursor family query kinds = .ok values →
      encodeSignedKeysetCursor hmac sha256 root family query (List.zipWith KeysetValue.mk kinds values) = .ok cursor) ∧
    (∀ family query after token family' query' kinds',
      encodeSignedKeysetCursor hmac sha256 root family query after = .ok token →
      (sha256 (canonicalJson (.obj query.entries)) = sha256 (canonicalJson (.obj query'.entries)) →
        canonicalJson (.obj query.entries) = canonicalJson (.obj query'.entries)) →
      ¬ (family' = family ∧ query'.entries = query.entries ∧ kinds' = after.map KeysetValue.kind) →
      decodeSignedKeysetCursor hmac sha256 root token family' query' kinds' =
        .error (if familyPattern family' then .api invalidCursor else .valueError)) := by
  refine ⟨fun _ _ _ _ h => decode_encode hmac sha256 root h, fun _ _ _ _ _ h => encode_decode hmac sha256 root h, ?_⟩
  intro family query after token family' query' kinds' h hcollision hother
  cases hdecode : decodeSignedKeysetCursor hmac sha256 root token family' query' kinds' with
  | ok values => exact absurd (minted_for hmac sha256 root hcollision h hdecode) hother
  | error e =>
    unfold decodeSignedKeysetCursor at hdecode
    cases hfamily : familyPattern family' with
    | false =>
      rw [hfamily] at hdecode
      cases hdecode
      rfl
    | true =>
      rw [hfamily] at hdecode
      simp only [Bool.not_true, Bool.false_eq_true, if_false] at hdecode
      split at hdecode
      · cases hdecode
      · rename_i hchecked
        cases decodeChecked_minted hmac sha256 root h hchecked
      · cases hdecode
        rfl

end Codec

end Nexus.Collections
