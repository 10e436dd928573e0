import VpnAuthority.Proofs.Certificate.Extensions
import VpnAuthority.Proofs.Chance

/-! No certificate of the authority is very long, since its names are limited. -/
namespace VpnAuthority

open Asn1 (Fits ObjectId)

private theorem length_flatten_le {parts : List Bytes} (bound : Nat)
    (h : ∀ part ∈ parts, part.length ≤ bound) : parts.flatten.length ≤ bound * parts.length := by
  induction parts with
  | nil => simp
  | cons part rest ih =>
    have first := h part List.mem_cons_self
    have others := ih fun part hp => h part (List.mem_cons_of_mem _ hp)
    rw [List.flatten_cons, List.length_append, List.length_cons, Nat.mul_succ]
    omega

private theorem length_sequence_le {parts : List Bytes} (bound : Nat)
    (h : parts.flatten.length ≤ bound) : (Asn1.sequence parts).length ≤ 2 * bound + 2 :=
  (Asn1.length_encode_le _ _).trans (by omega)

private theorem length_go_le (digits : Nat) {n : Nat} (h : n < 128 ^ digits) :
    (ObjectId.encodeArc.go n).length ≤ digits := by
  induction digits generalizing n with
  | zero =>
    rw [ObjectId.encodeArc.go, if_pos (by simpa using h)]
    exact Nat.le_refl 0
  | succ digits ih =>
    rw [ObjectId.encodeArc.go]
    split
    · simp
    · have := ih (n := n / 128) (by rw [pow_succ] at h; omega)
      simpa using this

def Asn1.ObjectId.IsSmall (id : ObjectId) : Bool :=
  id.arcs.length ≤ 10 && id.arcs.all (· < 1000000)

theorem Asn1.ObjectId.length_encode_le (id : ObjectId) (h : id.IsSmall = true) :
    id.encode.length ≤ 82 := by
  simp only [IsSmall, Bool.and_eq_true, decide_eq_true_eq, List.all_eq_true] at h
  obtain ⟨few, small⟩ := h
  have arc {n : Nat} (hn : n < 41000000) : (encodeArc n).length ≤ 4 := by
    have := length_go_le 3 (n := n / 128) (by omega)
    rw [encodeArc, List.length_append, List.length_singleton]
    omega
  have arcs (numbers : List Nat) (hn : ∀ n ∈ numbers, n < 41000000) :
      (numbers.flatMap encodeArc).length ≤ 4 * numbers.length := by
    have small : ∀ part ∈ numbers.map encodeArc, part.length ≤ 4 := fun part hp => by
      obtain ⟨n, hm, rfl⟩ := List.mem_map.1 hp
      exact arc (hn n hm)
    have := length_flatten_le 4 small
    rwa [List.length_map] at this
  have octets : id.octets.length ≤ 40 := by
    unfold ObjectId.octets
    split
    · next first second rest he =>
      rw [he] at few small
      simp only [List.forall_mem_cons] at small
      have := arcs ((first * 40 + second) :: rest)
        (List.forall_mem_cons.2 ⟨by omega, fun n hn => (small.2.2 n hn).trans (by decide)⟩)
      simp only [List.length_cons] at few this
      omega
    · have := arcs id.arcs fun n hn => (small n hn).trans (by decide)
      omega
  exact (Asn1.length_encode_le _ _).trans (by omega)

def DistinguishedName.maxLength : Nat := 20000000

theorem DistinguishedName.isKept_of_length_le {sets : List (List NameAttribute)}
    (isText : ∀ set ∈ sets, ∀ entry ∈ set, entry.IsText)
    (short : (ofSets sets).der.length ≤ maxLength) : (ofSets sets).IsKept :=
  have fits : Fits (ofSets sets).der := short.trans_lt (by decide : maxLength < 256 ^ 126)
  isKept_ofSets isText fits.of_encode

theorem DistinguishedName.length_ofSets_le {policy : Policy} {commonName : String}
    (accepted : ∀ field : SubjectField, field.accepts (field.value policy commonName) = true) :
    (ofSets (subjectSets policy commonName)).der.length ≤ maxLength := by
  have value (field : SubjectField) :
      (Utf8.encode (field.value policy commonName)).length ≤ 131072 := by
    have fits := accepted field
    simp only [SubjectField.accepts, Bool.and_eq_true, decide_eq_true_eq] at fits
    have limit : field.maxLength ≤ 32768 := by cases field <;> decide
    have := Utf8.length_encode_le (field.value policy commonName)
    omega
  have entry (field : SubjectField) :
      (field.entry (field.value policy commonName)).encode.length ≤ 524458 := by
    have type := ObjectId.length_encode_le field.type (by cases field <;> decide)
    have octets := Asn1.length_encode_le (UInt8.ofNat field.tag)
      (Utf8.encode (field.value policy commonName))
    have := value field
    refine length_sequence_le 262228 ?_
    simp only [SubjectField.entry, List.flatten_cons, List.flatten_nil, List.length_append,
      List.length_nil]
    omega
  have set (field : SubjectField) :
      (Asn1.set [(field.entry (field.value policy commonName)).encode]).length ≤ 1048918 := by
    have := Asn1.length_encode_le Asn1.setTag (field.entry (field.value policy commonName)).encode
    have := entry field
    rw [Asn1.set, List.flatten_singleton]
    omega
  refine (length_sequence_le 8391344 ?_).trans (by decide)
  refine (length_flatten_le 1048918 ?_).trans (by simp [subjectSets, SubjectField.all])
  intro part hp
  obtain ⟨_, hs, rfl⟩ := List.mem_map.1 hp
  obtain ⟨field, -, rfl⟩ := List.mem_map.1 hs
  exact set field

theorem DistinguishedName.length_commonName_le {policy : Policy} {commonName : String}
    (accepted : ∀ field : SubjectField, field.accepts (field.value policy commonName) = true) :
    commonName.length ≤ 64 := by
  have := accepted .commonName
  simp only [SubjectField.accepts, Bool.and_eq_true, decide_eq_true_eq] at this
  exact this.1.2

private theorem length_toInfo_le {key : Rsa.PublicKey}
    (h : key.encode.length ≤ Rsa.PublicKey.maxLength) :
    key.toInfo.encode.length ≤ 2200000000 := by
  have id := ObjectId.length_encode_le Rsa.PublicKey.algorithmId (by decide)
  have algorithm : key.toInfo.algorithm.encode.length ≤ 170 := by
    refine length_sequence_le 84 ?_
    have null : Asn1.null.length = 2 := by decide
    simp only [Rsa.PublicKey.toInfo, Option.getD_some, List.flatten_cons, List.flatten_nil,
      List.length_append, List.length_nil]
    omega
  have bits := Asn1.length_encode_le Asn1.bitStringTag (0 :: key.encode)
  refine (length_sequence_le 1090000000 ?_).trans (by decide)
  rw [Rsa.PublicKey.maxLength] at h
  simp only [Rsa.PublicKey.toInfo, List.length_cons, List.flatten_cons, List.flatten_nil,
    List.length_append, List.length_nil] at algorithm bits ⊢
  omega

private theorem length_standardAlgorithm_le : standardAlgorithm.encode.length ≤ 170 := by
  have id := ObjectId.length_encode_le Digest.Kind.sha256.signatureId (by decide)
  have null : Asn1.null.length = 2 := by decide
  refine length_sequence_le 84 ?_
  simp only [standardAlgorithm, Option.getD_some, List.flatten_cons, List.flatten_nil,
    List.length_append, List.length_nil]
  omega

private theorem length_validity_le {validity : Validity} {first last : Instant}
    (h : validity.IsBetween first last) : validity.encode.length ≤ 130 := by
  have time {t : Instant} {time : Asn1.Time} (ht : Asn1.Time.ofInstant? t = some time) :
      time.encode.length ≤ 32 := by
    have := Asn1.length_encode_le (UInt8.ofNat time.tag) time.octets
    rw [Asn1.Time.encode]
    rcases Asn1.Time.form_of_ofInstant? ht with ⟨-, hl⟩ | ⟨-, hl⟩ <;> omega
  have notBefore := time h.1
  have notAfter := time h.2
  refine length_sequence_le 64 ?_
  simp only [List.flatten_cons, List.flatten_nil, List.length_append, List.length_nil]
  omega

private theorem length_extension_le {extension : Extension} (hi : extension.id.IsSmall = true)
    (hv : extension.value.length ≤ 2000) : extension.encode.length ≤ 10000 := by
  have id := ObjectId.length_encode_le extension.id hi
  have value := Asn1.length_encode_le Asn1.octetStringTag extension.value
  have mark : (if extension.critical then Asn1.boolean true else []).length ≤ 3 := by
    split <;> decide
  refine (length_sequence_le 4087 ?_).trans (by decide)
  simp only [Asn1.octetString, List.flatten_cons, List.flatten_nil, List.length_append,
    List.length_nil]
  omega

private theorem length_subjectKey_le (key : PublicKeyInfo) :
    (Extension.subjectKey key.keyId).encode.length ≤ 10000 := by
  have := key.length_keyId
  have := Asn1.length_encode_le Asn1.octetStringTag key.keyId
  refine length_extension_le rfl ?_
  simp only [Extension.subjectKey, Asn1.octetString]
  omega

private theorem length_authorityKey_le {keyId : Option Bytes}
    (short : ∀ id, keyId = some id → id.length ≤ 20) :
    (Extension.authorityKey keyId).encode.length ≤ 10000 := by
  refine length_extension_le rfl ((length_sequence_le 42 ?_).trans (by decide))
  rw [List.flatten_singleton]
  cases keyId with
  | none => exact Nat.zero_le _
  | some id =>
    have := short id rfl
    have := Asn1.length_encode_le 0x80 id
    change (Asn1.encode 0x80 id).length ≤ 42
    omega

theorem PublicKeyInfo.length_keyId_le {key : PublicKeyInfo} (id : Bytes)
    (h : some key.keyId = some id) : id.length ≤ 20 := by
  cases h
  exact key.length_keyId.le

namespace Certificate

private theorem length_rootExtensions_le (key : PublicKeyInfo) :
    ∀ extension ∈ rootExtensions key, extension.encode.length ≤ 10000 := by
  simp only [rootExtensions, List.forall_mem_cons]
  exact ⟨length_subjectKey_le key, length_authorityKey_le PublicKeyInfo.length_keyId_le,
    length_extension_le (by decide) (by decide +kernel), by simp⟩

private theorem length_leafExtensions_le {commonName : String} {issuerKey : Option Bytes}
    (short : commonName.length ≤ 64) (given : ∀ id, issuerKey = some id → id.length ≤ 20)
    (key : PublicKeyInfo) (purpose : Purpose) :
    ∀ extension ∈ leafExtensions commonName key issuerKey purpose,
      extension.encode.length ≤ 10000 := by
  have host : (Extension.hostName commonName).encode.length ≤ 10000 := by
    have text := Utf8.length_encode_le commonName
    have := Asn1.length_encode_le 0x82 (Utf8.encode commonName)
    refine length_extension_le rfl ((length_sequence_le 514 ?_).trans (by decide))
    rw [List.flatten_singleton]
    omega
  have use : (Extension.purpose purpose).encode.length ≤ 10000 := by
    have := ObjectId.length_encode_le purpose.id (by cases purpose <;> decide)
    refine length_extension_le (by cases purpose <;> decide)
      ((length_sequence_le 82 ?_).trans (by decide))
    rw [List.flatten_singleton]
    exact this
  simp only [leafExtensions, List.forall_mem_cons]
  exact ⟨host, length_subjectKey_le key, length_authorityKey_le given,
    length_extension_le (by decide) (by decide), use,
    length_extension_le (by decide) (by decide), by simp⟩

def maxBodyLength : Nat := 5000000000

def maxLength : Nat := 20000000000

theorem length_newBody_le {serial : Nat} {issuer subject : DistinguishedName}
    {validity : Validity} {key : Rsa.PublicKey} {extensions : List Extension} {first last : Instant}
    (hn : serial < 2 ^ serialBits) (hi : issuer.der.length ≤ DistinguishedName.maxLength)
    (hs : subject.der.length ≤ DistinguishedName.maxLength) (hv : validity.IsBetween first last)
    (hk : key.encode.length ≤ Rsa.PublicKey.maxLength) (few : extensions.length ≤ 6)
    (he : ∀ extension ∈ extensions, extension.encode.length ≤ 10000) :
    (newBody serial issuer subject validity key.toInfo extensions).encode.length ≤
      maxBodyLength := by
  have version := Asn1.length_encode_le (Asn1.contextTag 0)
    (Asn1.natural CertificateBody.version3.toNat)
  have two := Asn1.length_natural_le 8 1 (n := CertificateBody.version3.toNat) (by decide)
    (by decide)
  have number := Asn1.length_natural_le serialBits 20 hn (by decide)
  have all : (extensions.map Extension.encode).flatten.length ≤ 60000 := by
    refine (length_flatten_le 10000 fun part hp => ?_).trans
      (by rw [List.length_map]; omega)
    obtain ⟨extension, hm, rfl⟩ := List.mem_map.1 hp
    exact he extension hm
  have listed := length_sequence_le _ all
  have tagged := Asn1.length_encode_le (Asn1.contextTag 3)
    (Asn1.sequence (extensions.map Extension.encode))
  have info := length_toInfo_le hk
  have valid := length_validity_le hv
  have algorithm := length_standardAlgorithm_le
  rw [DistinguishedName.maxLength] at hi hs
  refine (length_sequence_le 2300000000 ?_).trans (by decide)
  simp only [newBody, Int.toNat_natCast, List.flatten_cons, List.flatten_nil, List.length_append,
    List.length_nil]
  omega

theorem length_signed_le {body : CertificateBody} {signature : Bytes}
    (ha : body.algorithm = standardAlgorithm) (hb : body.encode.length ≤ maxBodyLength)
    (hs : signature.length ≤ 100000000) : (signed body signature).encode.length ≤ maxLength := by
  have algorithm := length_standardAlgorithm_le
  rw [maxBodyLength] at hb
  rw [← ha] at algorithm
  have bits := Asn1.length_encode_le Asn1.bitStringTag (0 :: signature)
  refine (length_sequence_le 5300000000 ?_).trans (by decide)
  rw [List.length_cons] at bits
  simp only [signed, List.flatten_cons, List.flatten_nil, List.length_append, List.length_nil]
  omega

theorem fits_of_length_le {certificate : Certificate} (h : certificate.encode.length ≤ maxLength) :
    Fits certificate.encode :=
  h.trans_lt (by decide : maxLength < 256 ^ 126)

theorem decode?_encode_newBody {serial : Nat} {issuer subject : DistinguishedName}
    {validity : Validity} {key : Rsa.PublicKey} {extensions : List Extension} {first last : Instant}
    {signature : Bytes} (hn : serial < 2 ^ serialBits) (issuerKept : issuer.IsKept)
    (subjectKept : subject.IsKept) (issuerShort : issuer.der.length ≤ DistinguishedName.maxLength)
    (subjectShort : subject.der.length ≤ DistinguishedName.maxLength)
    (hv : validity.IsBetween first last) (hk : key.encode.length ≤ Rsa.PublicKey.maxLength)
    (few : extensions.length ≤ 6)
    (he : ∀ extension ∈ extensions, extension.id.IsWritable = true ∧
      extension.encode.length ≤ 10000) (hs : signature.length ≤ 100000000) :
    decode? (signed (newBody serial issuer subject validity key.toInfo extensions) signature).encode =
      some (signed (newBody serial issuer subject validity key.toInfo extensions) signature) := by
  have length := length_newBody_le hn issuerShort subjectShort hv hk few
    fun extension hm => (he extension hm).2
  have isPlain : (newBody serial issuer subject validity key.toInfo extensions).IsPlain :=
    isPlain_newBody issuerKept subjectKept hv (isWhole_toInfo key)
      fun extension hm => (he extension hm).1
  exact decode?_encode (isPlain_signed isPlain signature)
    (fits_of_length_le (length_signed_le rfl length hs))

private theorem length_signature_le {key : Rsa.PrivateKey} {bits : Nat} {message signature : Bytes}
    (sized : key.IsOfSize bits) (hb : bits ≤ Rsa.maxBits)
    (h : Rsa.sign? key .sha256 message = some signature) : signature.length ≤ 100000000 := by
  have : Rsa.bitLength key.toPublic.modulus ≤ bits := sized.modulus.2
  rw [Rsa.length_of_sign?_eq_some h, Rsa.PublicKey.size]
  rw [Rsa.maxBits] at hb
  omega

section
variable {policy : Policy} {caKey key : Rsa.PrivateKey} {commonName : String} {serial bits : Nat}
  {validity : Validity} {signature : Bytes} {first last : Instant}

theorem length_root_le (hb : bits ≤ Rsa.maxBits) (sized : key.IsOfSize bits)
    (hn : serial < 2 ^ serialBits)
    (accepted : ∀ field : SubjectField, field.accepts (field.value policy commonName) = true)
    (hv : validity.IsBetween first last)
    (hs : Rsa.sign? key .sha256 (rootBody policy key commonName serial validity).encode =
      some signature) :
    (signed (rootBody policy key commonName serial validity) signature).encode.length ≤
      maxLength := by
  have name := DistinguishedName.length_ofSets_le accepted
  exact length_signed_le rfl (length_newBody_le hn name name hv (sized.length_toPublic_encode_le hb)
    (by simp [rootExtensions]) (length_rootExtensions_le _)) (length_signature_le sized hb hs)

theorem length_leaf_le (request : LeafRequest) {issuer : Certificate}
    (hb : bits ≤ Rsa.maxBits) (caSized : caKey.IsOfSize bits) (sized : key.IsOfSize bits)
    (hn : serial < 2 ^ serialBits) (hk : request.key = key.toPublic.toInfo)
    (named : issuer.body.subject.der.length ≤ DistinguishedName.maxLength)
    (given : ∀ id, issuer.givenKeyId = some id → id.length ≤ 20)
    (accepted : ∀ field : SubjectField,
      field.accepts (field.value request.policy commonName) = true)
    (hv : validity.IsBetween first last)
    (hs : Rsa.sign? caKey .sha256 (leafBody request issuer commonName serial validity).encode =
      some signature) :
    (signed (leafBody request issuer commonName serial validity) signature).encode.length ≤
      maxLength := by
  have short := DistinguishedName.length_commonName_le accepted
  refine length_signed_le rfl ?_ (length_signature_le caSized hb hs)
  rw [leafBody, hk]
  exact length_newBody_le hn named (DistinguishedName.length_ofSets_le accepted) hv
    (sized.length_toPublic_encode_le hb) (by simp [leafExtensions])
    (length_leafExtensions_le short given _ _)

theorem length_encode_root_le {days : Nat} {clock : Clock} {certificate : Certificate}
    (hb : bits ≤ Rsa.maxBits) (sized : key.IsOfSize bits) (hn : serial < 2 ^ serialBits)
    (made : root policy (.rsa key) commonName days serial clock = .ok certificate) :
    certificate.encode.length ≤ maxLength := by
  obtain ⟨accepted, validity, signature, between, isSigned, rfl⟩ := root_eq_ok_iff.1 made
  exact length_root_le hb sized hn accepted between isSigned

theorem ofPem?_toPem_root {days : Nat} {clock : Clock} {certificate : Certificate}
    (hb : bits ≤ Rsa.maxBits) (sized : key.IsOfSize bits) (hn : serial < 2 ^ serialBits)
    (made : root policy (.rsa key) commonName days serial clock = .ok certificate) :
    ofPem? certificate.toPem = some certificate := by
  exact ofPem?_toPem_root_of_fits made
    (fits_of_length_le (length_encode_root_le hb sized hn made))

end

theorem size_text_lt {certificate : Certificate} (h : certificate.encode.length ≤ maxLength) :
    (Pem.text certificate.toPem).utf8ByteSize < 2 ^ 63 := by
  have text := (Pem.length_encode_bounds pemLabel certificate.encode).2
  have label : pemLabel.length = 11 := by decide
  rw [← Utf8.length_encode, encode_text_toPem, toPem]
  rw [maxLength] at h
  omega

end Certificate

end VpnAuthority
