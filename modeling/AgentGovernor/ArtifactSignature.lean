import AgentGovernor.DomainCanonical

/-! Signed governance artifacts. The signature is over the digest of a manifest that names the kind,
the format version, the digest of the payload and the revision of the artifact. -/

namespace AgentGovernor

namespace Artifact

/-- A Go string of ASCII characters. -/
def ascii (text : String) : List UInt8 := text.toList.map Char.toUInt8

inductive Kind where
  | policyBundle | trustRootSet | revocationConfig | resourceOverride | privilegedAgentClass
  | other (text : List UInt8)
  deriving DecidableEq

namespace Kind

def text : Kind → List UInt8
  | policyBundle => ascii "POLICY_BUNDLE"
  | trustRootSet => ascii "TRUST_ROOT_SET"
  | revocationConfig => ascii "REVOCATION_CONFIG"
  | resourceOverride => ascii "RESOURCE_OVERRIDE_CONFIG"
  | privilegedAgentClass => ascii "PRIVILEGED_AGENT_CLASS_CONFIG"
  | other text => text

def valid : Kind → Bool
  | other _ => false
  | _ => true

theorem text_length {kind : Kind} (h : kind.valid) : kind.text.length < 2 ^ 32 := by
  cases kind <;> first | decide | cases h

theorem text_injective {kind kind' : Kind} (h : kind.valid) (h' : kind'.valid)
    (heq : kind.text = kind'.text) : kind = kind' := by
  cases kind <;> first | cases h; done | (cases kind' <;> first | rfl | cases h'; done | (revert heq; decide))

end Kind

/-- The value that a signer signs, with the name of its hash. -/
structure SigningDigest where
  hash : String
  value : Vector UInt8 32

structure Envelope (σ : Type) where
  kind : Kind
  formatVersion : List UInt8
  revision : UInt64
  digest : List UInt8
  payload : List UInt8
  signature : σ

def maxPayloadBytes : Nat := 4 * 2 ^ 20

def bigEndian (width n : Nat) : List UInt8 := positional UInt8.ofNat 256 width n 0 width

def signingManifest (kind : Kind) (version : List UInt8) (revision : UInt64)
    (payloadDigest : Vector UInt8 32) : List UInt8 :=
  [kind.text, version, payloadDigest.toList].foldl
    (fun manifest value => manifest ++ bigEndian 4 (value.length % 2 ^ 32) ++ value)
    (ascii "thinkpixelag.signed-artifact/v1\x00") ++ bigEndian 8 revision.toNat

def digestText (sum : Vector UInt8 32) : List UInt8 :=
  ascii "sha256:" ++ sum.toList.flatMap fun b => [ID.digit (b.toNat / 16), ID.digit (b.toNat % 16)]

section Digests

variable {σ : Type} (sha256 : List UInt8 → Vector UInt8 32)

def signingDigest (kind : Kind) (version : List UInt8) (revision : UInt64) (payload : List UInt8) :
    Except String (SigningDigest × List UInt8) :=
  if !kind.valid ∨ version = [] ∨ revision = 0 ∨ revision.toNat > 2 ^ 63 - 1 ∨ payload.length = 0 ∨
      payload.length > maxPayloadBytes then .error "signed artifact is invalid"
  else
    let payloadDigest := sha256 payload
    .ok (⟨"SHA-256", sha256 (signingManifest kind version revision payloadDigest)⟩,
      digestText payloadDigest)

/-- The verifier and the accepted versions may be missing; `trimSpace` is that of the library. -/
def verify (trimSpace : List UInt8 → List UInt8) (verifier : Option (σ → SigningDigest → Bool))
    (versions : Option (Kind → List UInt8 → Bool)) (envelope : Envelope σ) : Except String Unit :=
  if !envelope.kind.valid ∨ envelope.formatVersion = [] ∨
      trimSpace envelope.formatVersion ≠ envelope.formatVersion ∨ envelope.formatVersion.length > 128 ∨
      envelope.revision = 0 ∨ envelope.revision.toNat > 2 ^ 63 - 1 then
    .error "signed artifact identity or version is invalid"
  else if envelope.payload.length = 0 ∨ envelope.payload.length > maxPayloadBytes then
    .error "signed artifact payload size is outside bounds"
  else match verifier, versions with
    | some accepts, some versions =>
      if !versions envelope.kind envelope.formatVersion then
        .error "signed artifact format version is unsupported"
      else
        let sum := sha256 envelope.payload
        if envelope.digest ≠ digestText sum then .error "signed artifact digest mismatch"
        else
          let manifest := signingManifest envelope.kind envelope.formatVersion envelope.revision sum
          if !accepts envelope.signature ⟨"SHA-256", sha256 manifest⟩ then
            .error "signed artifact signature verification failed"
          else .ok ()
    | _, _ => .error "signed artifact format version is unsupported"

end Digests

/-! ### The manifest names its artifact -/

theorem bigEndian_injective {width m n : Nat} (hm : m < 256 ^ width) (hn : n < 256 ^ width)
    (h : bigEndian width m = bigEndian width n) : m = n := by
  have hlt : ∀ {m n}, m < 256 ^ width → n < 256 ^ width → bigEndian width m = bigEndian width n →
      ¬m < n := by
    intro m n hm hn h
    rw [← ID.positional_byte_lt hm hn]
    change ¬bigEndian width m < bigEndian width n
    rw [h]
    exact List.lt_irrefl _
  exact le_antisymm (not_lt.mp (hlt hn hm h.symm)) (not_lt.mp (hlt hm hn h))

/-- A value behind its length is read off the front. -/
theorem append_of_prefixed {value value' rest rest' : List UInt8} (hlt : value.length < 2 ^ 32)
    (hlt' : value'.length < 2 ^ 32)
    (h : bigEndian 4 (value.length % 2 ^ 32) ++ (value ++ rest) =
      bigEndian 4 (value'.length % 2 ^ 32) ++ (value' ++ rest')) : value = value' ∧ rest = rest' := by
  obtain ⟨hsize, h⟩ := List.append_inj h (by rw [bigEndian, bigEndian, positional_length, positional_length])
  rw [Nat.mod_eq_of_lt hlt, Nat.mod_eq_of_lt hlt'] at hsize
  exact List.append_inj h (bigEndian_injective hlt hlt' hsize)

theorem signingManifest_injective {kind kind' : Kind} {version version' : List UInt8}
    {revision revision' : UInt64} {sum sum' : Vector UInt8 32} (hkind : kind.valid) (hkind' : kind'.valid)
    (hversion : version.length ≤ 128) (hversion' : version'.length ≤ 128)
    (h : signingManifest kind version revision sum = signingManifest kind' version' revision' sum') :
    kind = kind' ∧ version = version' ∧ revision = revision' ∧ sum = sum' := by
  simp only [signingManifest, List.foldl_cons, List.foldl_nil, List.append_assoc,
    List.append_cancel_left_eq] at h
  obtain ⟨htext, h⟩ := append_of_prefixed (Kind.text_length hkind) (Kind.text_length hkind') h
  obtain ⟨hversions, h⟩ := append_of_prefixed (by omega) (by omega) h
  obtain ⟨hsum, h⟩ := append_of_prefixed (by simp) (by simp) h
  have hrevision := bigEndian_injective (show revision.toNat < 256 ^ 8 from revision.toNat_lt)
    revision'.toNat_lt h
  exact ⟨Kind.text_injective hkind hkind' htext, hversions, UInt64.toNat_inj.mp hrevision,
    Vector.toList_inj.mp hsum⟩

/-- The hash tells these messages apart. -/
def CollisionFree (sha256 : List UInt8 → Vector UInt8 32) (x y : List UInt8) : Prop :=
  sha256 x = sha256 y → x = y

/-- Equal signing digests mean equal artifacts, unless a payload or a manifest collides with the other
one, and an envelope is accepted only if the verifier has accepted the signing digest of its own
fields, next to which stands the digest of its payload. -/
theorem signed_artifacts_bound {σ : Type} (sha256 : List UInt8 → Vector UInt8 32) :
    (∀ kind kind' version version' revision revision' payload payload' digest text text',
      version.length ≤ 128 → version'.length ≤ 128 →
      signingDigest sha256 kind version revision payload = .ok (digest, text) →
      signingDigest sha256 kind' version' revision' payload' = .ok (digest, text') →
      CollisionFree sha256 payload payload' →
      CollisionFree sha256 (signingManifest kind version revision (sha256 payload))
        (signingManifest kind' version' revision' (sha256 payload')) →
      kind = kind' ∧ version = version' ∧ revision = revision' ∧ payload = payload') ∧
    ∀ trimSpace verifier versions (envelope : Envelope σ),
      verify sha256 trimSpace verifier versions envelope = .ok () →
      ∃ accepts digest, verifier = some accepts ∧ accepts envelope.signature digest = true ∧
        signingDigest sha256 envelope.kind envelope.formatVersion envelope.revision envelope.payload =
          .ok (digest, envelope.digest) := by
  constructor
  · intro kind kind' version version' revision revision' payload payload' digest text text' hversion
      hversion' h h' hpayload hmanifest
    simp only [signingDigest, ite_error_eq_ok, not_or, Bool.not_eq_true, Bool.not_eq_false',
      Except.ok.injEq, Prod.mk.injEq] at h h'
    have hvalues := congrArg SigningDigest.value (h.2.1.trans h'.2.1.symm)
    obtain ⟨hkind, rfl, rfl, hsum⟩ := signingManifest_injective h.1.1 h'.1.1 hversion hversion'
      (hmanifest hvalues)
    exact ⟨hkind, rfl, rfl, hpayload hsum⟩
  · intro trimSpace verifier versions envelope h
    unfold verify at h
    rw [ite_error_eq_ok, ite_error_eq_ok] at h
    obtain ⟨hidentity, hsize, h⟩ := h
    split at h
    · rename_i accepts versions
      simp only [ite_error_eq_ok] at h
      obtain ⟨_, hdigest, haccepts, _⟩ := h
      refine ⟨accepts, _, rfl, by simpa using haccepts, ?_⟩
      rw [not_not.mp hdigest, signingDigest, if_neg]
      simp only [not_or] at hidentity hsize ⊢
      exact ⟨hidentity.1, hidentity.2.1, hidentity.2.2.2.2.1, hidentity.2.2.2.2.2, hsize⟩
    · cases h

namespace ArtifactSample

/-- The last 32 bytes stand in for the hash. -/
def last32 (message : List UInt8) : Vector UInt8 32 := Vector.ofFn fun k => message.reverse.getD k.val 0

def envelope : Envelope Unit := ⟨.policyBundle, ascii "v1", 1, digestText (last32 [1]), [1], ()⟩

def accepts (_ : Unit) (digest : SigningDigest) : Bool := digest.hash = "SHA-256"

end ArtifactSample

open ArtifactSample

/-- An accepted envelope has the digest of its fields, and the next revision of the artifact has another. -/
theorem signed_artifacts_bound_accepted :
    (∃ digest, accepts () digest = true ∧
      signingDigest last32 .policyBundle (ascii "v1") 1 [1] = .ok (digest, envelope.digest)) ∧
    ∀ digest text text', signingDigest last32 .policyBundle (ascii "v1") 1 [1] = .ok (digest, text) →
      signingDigest last32 .policyBundle (ascii "v1") 2 [1] ≠ .ok (digest, text') := by
  obtain ⟨hbound, hverified⟩ := @signed_artifacts_bound Unit last32
  constructor
  · obtain ⟨_, digest, ⟨⟩, haccepts, hdigest⟩ :=
      hverified id (some accepts) (some fun _ _ => true) envelope (by decide +kernel)
    exact ⟨digest, haccepts, hdigest⟩
  · intro digest text text' h h'
    have hsame := hbound _ _ _ _ _ _ _ _ _ _ _ (by decide) (by decide) h h' (fun _ => rfl)
      fun hcollision => absurd hcollision (by decide +kernel)
    exact absurd hsame.2.2.1 (by decide)

end Artifact

end AgentGovernor
