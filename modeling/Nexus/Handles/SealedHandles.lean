/-
Sealed handles: `prefix.id.tag`, where the tag authenticates the identity
under a key of the handle's own domain.

HMAC-SHA256 is a parameter of which only the length of its digest is used:
that an accepted handle is the canonical one comes from recomputing the tag and
from re-encoding both base64 parts, and that a domain refuses the handles of
another from the prefix.
-/
import Nexus.Primitives
import Nexus.Lib.Base64Url

namespace Nexus

namespace Handles

open Base64Url (inAlphabet)

/-! ## Constants -/

def entityIdBytes : Nat := 16

def entityTagBytes : Nat := 16

def entityPartChars : Nat := 22

def discoveryTargetMaxBytes : Nat := 4096

def discoveryTargetTagBytes : Nat := 32

/-- The `{43}` of `_DISCOVERY_TARGET_RE`. -/
def discoveryTargetTagChars : Nat := 43

def entityHandleInputPrefix : Bytes := ascii "nexus-handle\x00"

def entityKeyInputPrefix : Bytes := ascii "nexus-handle-key\x00"

def discoveryTargetInputPrefix : Bytes := ascii "nexus-discovery-target\x00"

def discoveryTargetKeyInput : Bytes := ascii "nexus-handle-key\x00browse-discovery-target"

def discoveryTargetWord : List Char := "ndt1".toList

structure EntityHandleSpec where
  handlePrefix : List Char
  domain : String
  version : String
  /-- So that `raw.split(".")` reads the prefix back. -/
  no_dot : '.' ∉ handlePrefix

def resourceGrant : EntityHandleSpec := ⟨"nrg1".toList, "resource-grant", "1", by decide⟩

def user : EntityHandleSpec := ⟨"nus1".toList, "user", "1", by decide⟩

def libraryInvitation : EntityHandleSpec := ⟨"nli1".toList, "library-invitation", "1", by decide⟩

inductive EntityDomain
  | resourceGrant
  | user
  | libraryInvitation
  deriving DecidableEq, Repr

def EntityDomain.spec : EntityDomain → EntityHandleSpec
  | .resourceGrant => Handles.resourceGrant
  | .user => Handles.user
  | .libraryInvitation => Handles.libraryInvitation

/-- The message of the `InvalidSealedHandle` a domain's `unseal` raises. -/
def EntityDomain.message : EntityDomain → String
  | .resourceGrant => "Invalid resource grant handle"
  | .user => "Invalid user handle"
  | .libraryInvitation => "Invalid library invitation handle"

def invalidSealedHandle (message : String) : ApiError := ⟨.invalidRequest, message⟩

def invalidDiscoveryTargetHandle : ApiError := ⟨.invalidDiscoveryTarget, "Invalid discovery target"⟩

/-- What `_root_key` returns: a root that decodes to fewer bytes is a defect of
the settings and stops the process. -/
structure RootKey where
  bytes : Bytes
  length_bytes : 32 ≤ bytes.length

/-! ## Base64 parts -/

/-- `_B64URL_RE.fullmatch` -/
def b64urlRe (value : List Char) : Bool := !value.isEmpty && value.all inAlphabet

def decodeCanonicalB64url (value : List Char) (expectedBytes : Nat) : Option Bytes :=
  if !b64urlRe value then .none
  else match Base64Url.decode value with
    | .none => .none
    | .some decoded =>
      if decoded.length ≠ expectedBytes ∨ Base64Url.encode decoded ≠ value then .none else .some decoded

def decodeVariableCanonicalB64url (value : List Char) : Option Bytes :=
  if !b64urlRe value then .none
  else match Base64Url.decode value with
    | .none => .none
    | .some decoded =>
      if decoded = [] ∨ discoveryTargetMaxBytes < decoded.length ∨ Base64Url.encode decoded ≠ value then .none
      else .some decoded

/-! ## Entity handles -/

section Keyed

variable (hmac : Hmac) (rootKey : RootKey)

def derivedKey (spec : EntityHandleSpec) : Bytes :=
  hmac.digest rootKey.bytes (entityKeyInputPrefix ++ ascii spec.domain ++ [0] ++ ascii spec.version)

def authenticatedInput (spec : EntityHandleSpec) (entityId : UuidBytes) : Bytes :=
  entityHandleInputPrefix ++ ascii spec.domain ++ [0] ++ ascii spec.version ++ [0] ++ entityId.bytes

def tag (spec : EntityHandleSpec) (entityId : UuidBytes) : Bytes :=
  (hmac.digest (derivedKey hmac rootKey spec) (authenticatedInput spec entityId)).take entityTagBytes

/-- `spec.pattern.fullmatch`: no class of the pattern has a dot, so a match is
three parts. -/
def EntityHandleSpec.pattern (spec : EntityHandleSpec) (raw : List Char) : Bool :=
  match raw.splitOn '.' with
  | [handlePrefix, idPart, tagPart] =>
    handlePrefix == spec.handlePrefix && idPart.length == entityPartChars && idPart.all inAlphabet &&
      tagPart.length == entityPartChars && tagPart.all inAlphabet
  | _ => false

def parseEntityWire (raw : List Char) (spec : EntityHandleSpec) : Option (UuidBytes × Bytes) :=
  if !spec.pattern raw then .none
  else match raw.splitOn '.' with
    | [handlePrefix, idPart, tagPart] =>
      if handlePrefix ≠ spec.handlePrefix then .none
      else do
        let idBytes ← decodeCanonicalB64url idPart entityIdBytes
        let entityId ← UuidBytes.ofBytes idBytes
        let presentedTag ← decodeCanonicalB64url tagPart entityTagBytes
        return (entityId, presentedTag)
    | _ => .none

def sealWith (entityId : UuidBytes) (spec : EntityHandleSpec) : List Char :=
  ['.'].intercalate
    [spec.handlePrefix, Base64Url.encode entityId.bytes, Base64Url.encode (tag hmac rootKey spec entityId)]

def unsealWith (raw : List Char) (spec : EntityHandleSpec) (message : String) : Except ApiError UuidBytes :=
  match parseEntityWire raw spec with
  | .none => .error (invalidSealedHandle message)
  | .some (entityId, presentedTag) =>
    if presentedTag = tag hmac rootKey spec entityId then .ok entityId else .error (invalidSealedHandle message)

/-- `seal_resource_grant`, `seal_user` and `seal_library_invitation` -/
def sealHandle (domain : EntityDomain) (entityId : UuidBytes) : List Char := sealWith hmac rootKey entityId domain.spec

/-- `unseal_resource_grant`, `unseal_user` and `unseal_library_invitation` -/
def unsealHandle (domain : EntityDomain) (raw : List Char) : Except ApiError UuidBytes :=
  unsealWith hmac rootKey raw domain.spec domain.message

/-! ## Discovery targets -/

def discoveryTargetKey : Bytes := hmac.digest rootKey.bytes discoveryTargetKeyInput

def discoveryTargetTag (payload : Bytes) : Bytes :=
  hmac.digest (discoveryTargetKey hmac rootKey) (discoveryTargetInputPrefix ++ payload)

/-- `_DISCOVERY_TARGET_RE.fullmatch` with its two groups. -/
def discoveryTargetRe (raw : List Char) : Option (List Char × List Char) :=
  match raw.splitOn '.' with
  | [word, payloadPart, tagPart] =>
    if word = discoveryTargetWord ∧ b64urlRe payloadPart ∧ tagPart.length = discoveryTargetTagChars ∧
        tagPart.all inAlphabet then
      .some (payloadPart, tagPart)
    else .none
  | _ => .none

def parseDiscoveryTargetWire (raw : List Char) : Option (Bytes × Bytes) := do
  let (payloadPart, tagPart) ← discoveryTargetRe raw
  let payload ← decodeVariableCanonicalB64url payloadPart
  let presentedTag ← decodeCanonicalB64url tagPart discoveryTargetTagBytes
  return (payload, presentedTag)

/-- A payload that is empty or too long raises `ValueError`. -/
def sealDiscoveryTarget (canonicalPayload : Bytes) : Option (List Char) :=
  if canonicalPayload = [] ∨ discoveryTargetMaxBytes < canonicalPayload.length then .none
  else .some (['.'].intercalate
    [discoveryTargetWord, Base64Url.encode canonicalPayload,
      Base64Url.encode (discoveryTargetTag hmac rootKey canonicalPayload)])

def unsealDiscoveryTarget (raw : List Char) : Except ApiError Bytes :=
  match parseDiscoveryTargetWire raw with
  | .none => .error invalidDiscoveryTargetHandle
  | .some (payload, presentedTag) =>
    if presentedTag = discoveryTargetTag hmac rootKey payload then .ok payload else .error invalidDiscoveryTargetHandle

end Keyed

/-! ## Base64 parts are canonical -/

theorem b64urlRe_encode {bytes : Bytes} (h : bytes ≠ []) : b64urlRe (Base64Url.encode bytes) = true := by
  have hlen := Base64Url.encode_length bytes
  have hpos : 0 < bytes.length := List.length_pos_iff.mpr h
  have hne : Base64Url.encode bytes ≠ [] := by
    intro hnil
    rw [hnil, List.length_nil] at hlen
    omega
  simp only [b64urlRe, Base64Url.encode_alphabet, Bool.and_true, Bool.not_eq_true', List.isEmpty_eq_false_iff]
  exact hne

theorem decodeCanonicalB64url_encode {bytes : Bytes} {n : Nat} (hn : bytes.length = n) (h : bytes ≠ []) :
    decodeCanonicalB64url (Base64Url.encode bytes) n = .some bytes := by
  simp [decodeCanonicalB64url, b64urlRe_encode h, Base64Url.decode_encode, hn]

theorem decodeCanonicalB64url_eq_some {value : List Char} {n : Nat} {bytes : Bytes}
    (h : decodeCanonicalB64url value n = .some bytes) : Base64Url.encode bytes = value ∧ bytes.length = n := by
  unfold decodeCanonicalB64url at h
  split at h
  · cases h
  · split at h
    · cases h
    · split at h
      · cases h
      · rename_i hcheck
        rw [not_or, not_not, not_not] at hcheck
        cases h
        exact ⟨hcheck.2, hcheck.1⟩

theorem decodeVariableCanonicalB64url_encode {bytes : Bytes} (h : bytes ≠ [])
    (hlen : bytes.length ≤ discoveryTargetMaxBytes) :
    decodeVariableCanonicalB64url (Base64Url.encode bytes) = .some bytes := by
  simp [decodeVariableCanonicalB64url, b64urlRe_encode h, Base64Url.decode_encode, h, hlen]

theorem decodeVariableCanonicalB64url_eq_some {value : List Char} {bytes : Bytes}
    (h : decodeVariableCanonicalB64url value = .some bytes) :
    Base64Url.encode bytes = value ∧ bytes ≠ [] ∧ bytes.length ≤ discoveryTargetMaxBytes := by
  unfold decodeVariableCanonicalB64url at h
  split at h
  · cases h
  · split at h
    · cases h
    · split at h
      · cases h
      · rename_i hcheck
        rw [not_or, not_or, Nat.not_lt, not_not] at hcheck
        cases h
        exact ⟨hcheck.2.2, hcheck.1, hcheck.2.1⟩

/-! ## What the grammars accept -/

theorem dot_not_mem_encode (bytes : Bytes) : '.' ∉ Base64Url.encode bytes :=
  Base64Url.not_mem_encode (by decide) bytes

theorem splitOn_wire {word : List Char} (h : '.' ∉ word) (x y : Bytes) :
    (['.'].intercalate [word, Base64Url.encode x, Base64Url.encode y]).splitOn '.' =
      [word, Base64Url.encode x, Base64Url.encode y] := by
  refine List.splitOn_intercalate '.' ?_ (by simp)
  intro part hpart
  simp only [List.mem_cons, List.not_mem_nil, or_false] at hpart
  rcases hpart with rfl | rfl | rfl
  · exact h
  · exact dot_not_mem_encode x
  · exact dot_not_mem_encode y

theorem wire_of_splitOn {raw word x y : List Char} (h : raw.splitOn '.' = [word, x, y]) :
    raw = ['.'].intercalate [word, x, y] := by
  rw [← h, List.intercalate_splitOn]

theorem parseEntityWire_wire (spec : EntityHandleSpec) (entityId : UuidBytes) {tagBytes : Bytes}
    (htag : tagBytes.length = entityTagBytes) :
    parseEntityWire (['.'].intercalate [spec.handlePrefix, Base64Url.encode entityId.bytes, Base64Url.encode tagBytes])
      spec = .some (entityId, tagBytes) := by
  have hsplit := splitOn_wire spec.no_dot entityId.bytes tagBytes
  have hid : entityId.bytes.length = entityIdBytes := entityId.length_bytes
  have hid0 : entityId.bytes ≠ [] := by
    intro h; rw [h] at hid; cases hid
  have htag0 : tagBytes ≠ [] := by
    intro h; rw [h] at htag; cases htag
  have hpattern : spec.pattern
      (['.'].intercalate [spec.handlePrefix, Base64Url.encode entityId.bytes, Base64Url.encode tagBytes]) = true := by
    rw [EntityHandleSpec.pattern, hsplit]
    simp only [Base64Url.encode_alphabet, Base64Url.encode_length, hid, htag, beq_self_eq_true, Bool.true_and,
      Bool.and_true]
    decide
  rw [parseEntityWire, hpattern, hsplit]
  simp only [Bool.not_true, Bool.false_eq_true, if_false, ne_eq, not_true_eq_false,
    decodeCanonicalB64url_encode hid hid0, decodeCanonicalB64url_encode htag htag0, Option.bind_eq_bind,
    Option.bind_some, UuidBytes.ofBytes_bytes, Option.pure_def]

theorem parseEntityWire_eq_some {raw : List Char} {spec : EntityHandleSpec} {entityId : UuidBytes} {tagBytes : Bytes}
    (h : parseEntityWire raw spec = .some (entityId, tagBytes)) :
    raw = ['.'].intercalate [spec.handlePrefix, Base64Url.encode entityId.bytes, Base64Url.encode tagBytes] := by
  unfold parseEntityWire at h
  split at h
  · cases h
  · split at h
    · rename_i word idPart tagPart hsplit
      split at h
      · cases h
      · rename_i hword
        simp only [Option.bind_eq_bind, Option.bind_eq_some_iff, Option.pure_def, Option.some.injEq, Prod.mk.injEq] at h
        obtain ⟨idBytes, hid, entityId', huuid, presentedTag, htag, rfl, rfl⟩ := h
        have hidPart := (decodeCanonicalB64url_eq_some hid).1
        have htagPart := (decodeCanonicalB64url_eq_some htag).1
        have hbytes := UuidBytes.ofBytes_eq_some huuid
        have hprefix : word = spec.handlePrefix := not_not.mp hword
        rw [wire_of_splitOn hsplit, hprefix, hbytes, hidPart, htagPart]
    · cases h

theorem parseDiscoveryTargetWire_wire {payload tagBytes : Bytes} (hne : payload ≠ [])
    (hlen : payload.length ≤ discoveryTargetMaxBytes) (htag : tagBytes.length = discoveryTargetTagBytes) :
    parseDiscoveryTargetWire
      (['.'].intercalate [discoveryTargetWord, Base64Url.encode payload, Base64Url.encode tagBytes]) =
      .some (payload, tagBytes) := by
  have hdot : '.' ∉ discoveryTargetWord := by decide
  have hsplit := splitOn_wire hdot payload tagBytes
  have htag0 : tagBytes ≠ [] := by
    intro h; rw [h] at htag; cases htag
  have hchars : (Base64Url.encode tagBytes).length = discoveryTargetTagChars := by
    rw [Base64Url.encode_length, htag]; rfl
  have hre : discoveryTargetRe
      (['.'].intercalate [discoveryTargetWord, Base64Url.encode payload, Base64Url.encode tagBytes]) =
      .some (Base64Url.encode payload, Base64Url.encode tagBytes) := by
    rw [discoveryTargetRe, hsplit]
    simp only [b64urlRe_encode hne, hchars, Base64Url.encode_alphabet, if_true, and_self]
  rw [parseDiscoveryTargetWire, hre]
  simp only [Option.bind_eq_bind, Option.bind_some, decodeVariableCanonicalB64url_encode hne hlen,
    decodeCanonicalB64url_encode htag htag0, Option.pure_def]

theorem discoveryTargetRe_eq_some {raw payloadPart tagPart : List Char}
    (h : discoveryTargetRe raw = .some (payloadPart, tagPart)) :
    raw = ['.'].intercalate [discoveryTargetWord, payloadPart, tagPart] := by
  unfold discoveryTargetRe at h
  split at h
  · rename_i word payloadPart' tagPart' hsplit
    split at h
    · rename_i hcheck
      cases h
      rw [wire_of_splitOn hsplit, hcheck.1]
    · cases h
  · cases h

theorem parseDiscoveryTargetWire_eq_some {raw : List Char} {payload tagBytes : Bytes}
    (h : parseDiscoveryTargetWire raw = .some (payload, tagBytes)) :
    raw = ['.'].intercalate [discoveryTargetWord, Base64Url.encode payload, Base64Url.encode tagBytes] ∧
      payload ≠ [] ∧ payload.length ≤ discoveryTargetMaxBytes := by
  unfold parseDiscoveryTargetWire at h
  simp only [Option.bind_eq_bind, Option.bind_eq_some_iff, Option.pure_def, Option.some.injEq, Prod.mk.injEq,
    Prod.exists] at h
  obtain ⟨payloadPart, tagPart, hre, payload', hpayload, tagBytes', htag, rfl, rfl⟩ := h
  obtain ⟨hpayloadPart, hne, hlen⟩ := decodeVariableCanonicalB64url_eq_some hpayload
  have htagPart := (decodeCanonicalB64url_eq_some htag).1
  refine ⟨?_, hne, hlen⟩
  rw [discoveryTargetRe_eq_some hre, hpayloadPart, htagPart]

/-! ## Sealing and unsealing -/

section Keyed

variable (hmac : Hmac) (rootKey : RootKey)

theorem length_tag (spec : EntityHandleSpec) (entityId : UuidBytes) :
    (tag hmac rootKey spec entityId).length = entityTagBytes := by
  rw [tag, List.length_take, hmac.length_digest]; rfl

theorem unseal_seal (domain : EntityDomain) (entityId : UuidBytes) :
    unsealHandle hmac rootKey domain (sealHandle hmac rootKey domain entityId) = .ok entityId := by
  have hparse := parseEntityWire_wire domain.spec entityId (length_tag hmac rootKey domain.spec entityId)
  rw [unsealHandle, unsealWith, sealHandle, sealWith, hparse]
  exact if_pos rfl

theorem seal_of_unseal {domain : EntityDomain} {raw : List Char} {entityId : UuidBytes}
    (h : unsealHandle hmac rootKey domain raw = .ok entityId) : raw = sealHandle hmac rootKey domain entityId := by
  unfold unsealHandle unsealWith at h
  split at h
  · cases h
  · rename_i entityId' presentedTag hparse
    split at h
    · rename_i htag
      cases h
      rw [parseEntityWire_eq_some hparse, htag]
      rfl
    · cases h

theorem word_of_wire {word word' x y x' y' : List Char} (h : '.' ∉ word) (h' : '.' ∉ word')
    (heq : ['.'].intercalate [word, x, y] = ['.'].intercalate [word', x', y']) : word = word' := by
  have hsplit : ∀ w a b : List Char, '.' ∉ w →
      (['.'].intercalate [w, a, b]).splitOn '.' = w :: (a ++ '.' :: b).splitOn '.' := by
    intro w a b hw
    rw [List.intercalate_cons_cons, List.intercalate_cons_cons, List.intercalate_singleton]
    simpa using List.splitOn_append_cons_self_of_not_mem hw (a ++ '.' :: b)
  have hcons : word :: (x ++ '.' :: y).splitOn '.' = word' :: (x' ++ '.' :: y').splitOn '.' := by
    rw [← hsplit word x y h, ← hsplit word' x' y' h', heq]
  exact (List.cons.inj hcons).1

theorem EntityDomain.handlePrefix_injective {d d' : EntityDomain} (h : d.spec.handlePrefix = d'.spec.handlePrefix) :
    d = d' := by
  cases d <;> cases d' <;> first | rfl | exact absurd h (by decide)

theorem EntityDomain.handlePrefix_ne_discoveryTarget (d : EntityDomain) : d.spec.handlePrefix ≠ discoveryTargetWord := by
  cases d <;> decide

theorem unsealHandle_error {domain : EntityDomain} {raw : List Char} {e : ApiError}
    (h : unsealHandle hmac rootKey domain raw = .error e) : e = invalidSealedHandle domain.message := by
  unfold unsealHandle unsealWith at h
  split at h
  · cases h; rfl
  · split at h
    · cases h
    · cases h; rfl

theorem unsealDiscoveryTarget_error {raw : List Char} {e : ApiError}
    (h : unsealDiscoveryTarget hmac rootKey raw = .error e) : e = invalidDiscoveryTargetHandle := by
  unfold unsealDiscoveryTarget at h
  split at h
  · cases h; rfl
  · split at h
    · cases h
    · cases h; rfl

theorem unseal_other_domain {d d' : EntityDomain} (hne : d ≠ d') {raw : List Char} {entityId : UuidBytes}
    (h : unsealHandle hmac rootKey d raw = .ok entityId) :
    unsealHandle hmac rootKey d' raw = .error (invalidSealedHandle d'.message) := by
  unfold unsealHandle unsealWith
  split
  · rfl
  · rename_i entityId' presentedTag hparse
    have hraw := seal_of_unseal hmac rootKey h
    rw [parseEntityWire_eq_some hparse] at hraw
    have hword := word_of_wire d'.spec.no_dot d.spec.no_dot hraw
    exact absurd (EntityDomain.handlePrefix_injective hword).symm hne

theorem unseal_seal_discoveryTarget {payload : Bytes} (hne : payload ≠ [])
    (hlen : payload.length ≤ discoveryTargetMaxBytes) :
    ∃ raw, sealDiscoveryTarget hmac rootKey payload = .some raw ∧ unsealDiscoveryTarget hmac rootKey raw = .ok payload := by
  have hok : ¬ (payload = [] ∨ discoveryTargetMaxBytes < payload.length) := by
    rw [not_or, Nat.not_lt]; exact ⟨hne, hlen⟩
  have htag : (discoveryTargetTag hmac rootKey payload).length = discoveryTargetTagBytes := hmac.length_digest _ _
  refine ⟨_, if_neg hok, ?_⟩
  rw [unsealDiscoveryTarget, parseDiscoveryTargetWire_wire hne hlen htag]
  exact if_pos rfl

theorem seal_of_unsealDiscoveryTarget {raw : List Char} {payload : Bytes}
    (h : unsealDiscoveryTarget hmac rootKey raw = .ok payload) :
    sealDiscoveryTarget hmac rootKey payload = .some raw := by
  unfold unsealDiscoveryTarget at h
  split at h
  · cases h
  · rename_i payload' presentedTag hparse
    split at h
    · rename_i htag
      cases h
      obtain ⟨hraw, hne, hlen⟩ := parseDiscoveryTargetWire_eq_some hparse
      have hok : ¬ (payload = [] ∨ discoveryTargetMaxBytes < payload.length) := by
        rw [not_or, Nat.not_lt]; exact ⟨hne, hlen⟩
      rw [sealDiscoveryTarget, if_neg hok, hraw, htag]
    · cases h

theorem not_entity_and_discoveryTarget {domain : EntityDomain} {raw : List Char} {entityId : UuidBytes} {payload : Bytes}
    (h : unsealHandle hmac rootKey domain raw = .ok entityId) (h' : unsealDiscoveryTarget hmac rootKey raw = .ok payload) :
    False := by
  have hraw := seal_of_unseal hmac rootKey h
  unfold unsealDiscoveryTarget at h'
  split at h'
  · cases h'
  · rename_i payload' presentedTag hparse
    rw [(parseDiscoveryTargetWire_eq_some hparse).1] at hraw
    have hword := word_of_wire (by decide) domain.spec.no_dot hraw
    exact domain.handlePrefix_ne_discoveryTarget hword.symm

/-- **Sealed handles have one spelling and one domain.** Unsealing inverts
sealing, what a domain accepts is the handle it seals the result to and no other
domain accepts it, and so for discovery targets of a permitted size. -/
theorem sealed_handles_canonical :
    (∀ domain entityId, unsealHandle hmac rootKey domain (sealHandle hmac rootKey domain entityId) = .ok entityId) ∧
    (∀ domain raw entityId, unsealHandle hmac rootKey domain raw = .ok entityId →
      raw = sealHandle hmac rootKey domain entityId) ∧
    (∀ domain domain' raw entityId, domain ≠ domain' → unsealHandle hmac rootKey domain raw = .ok entityId →
      unsealHandle hmac rootKey domain' raw = .error (invalidSealedHandle domain'.message)) ∧
    (∀ payload, payload ≠ [] → payload.length ≤ discoveryTargetMaxBytes →
      ∃ raw, sealDiscoveryTarget hmac rootKey payload = .some raw ∧
        unsealDiscoveryTarget hmac rootKey raw = .ok payload) ∧
    (∀ raw payload, unsealDiscoveryTarget hmac rootKey raw = .ok payload →
      sealDiscoveryTarget hmac rootKey payload = .some raw ∧
        ∀ domain, unsealHandle hmac rootKey domain raw = .error (invalidSealedHandle domain.message)) ∧
    (∀ domain entityId, unsealDiscoveryTarget hmac rootKey (sealHandle hmac rootKey domain entityId) =
      .error invalidDiscoveryTargetHandle) := by
  refine ⟨unseal_seal hmac rootKey, fun _ _ _ h => seal_of_unseal hmac rootKey h,
    fun _ _ _ _ hne h => unseal_other_domain hmac rootKey hne h,
    fun _ hne hlen => unseal_seal_discoveryTarget hmac rootKey hne hlen, ?_, ?_⟩
  · intro raw payload h
    refine ⟨seal_of_unsealDiscoveryTarget hmac rootKey h, ?_⟩
    intro domain
    cases hunseal : unsealHandle hmac rootKey domain raw with
    | ok entityId => exact absurd h (not_entity_and_discoveryTarget hmac rootKey hunseal)
    | error e => rw [unsealHandle_error hmac rootKey hunseal]
  · intro domain entityId
    cases hunseal : unsealDiscoveryTarget hmac rootKey (sealHandle hmac rootKey domain entityId) with
    | ok payload => exact absurd hunseal (not_entity_and_discoveryTarget hmac rootKey (unseal_seal hmac rootKey domain entityId))
    | error e => rw [unsealDiscoveryTarget_error hmac rootKey hunseal]

end Keyed

end Handles

end Nexus
