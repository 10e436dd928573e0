import VpnAuthority.Certificate
import VpnAuthority.Proofs.Asn1.Time
import VpnAuthority.Proofs.DistinguishedName
import VpnAuthority.Proofs.Pem

/-! A certificate is read back field by field, with the octets that its signature
covers. -/
namespace VpnAuthority

open Asn1 (Element Fits Reads written)

namespace Algorithm

/-- Algorithms that are read back as they are written: without parameters, or with some in
their shortest form. -/
structure IsKept (algorithm : Algorithm) : Prop where
  id : algorithm.id.IsWritable = true
  parameters : ∀ bytes, algorithm.parameters = some bytes → ∃ tag content,
    Asn1.IsShortTag tag ∧ tag ≠ 0 ∧ bytes = Asn1.encode tag content ∧
      parameters? (written tag content) = some bytes

def content (algorithm : Algorithm) : Bytes :=
  algorithm.id.encode ++ algorithm.parameters.getD []

theorem encode_eq (algorithm : Algorithm) :
    algorithm.encode = Asn1.encode Asn1.sequenceTag algorithm.content := by
  simp [encode, content, Asn1.sequence]

theorem ofElement?_written {algorithm : Algorithm} (h : algorithm.IsKept)
    (fits : Fits algorithm.content) :
    ofElement? (written Asn1.sequenceTag algorithm.content) = some algorithm := by
  obtain ⟨id, parameters⟩ := algorithm
  have idFits : Fits id.octets := (Fits.of_append fits).1.of_encode
  rw [ofElement?, Asn1.members?_written_sequence]
  cases parameters with
  | none =>
    have : content ⟨id, none⟩ = Asn1.encode Asn1.objectIdTag id.octets := by
      simp [content, Asn1.ObjectId.encode]
    rw [this, Asn1.readAll?_encode (by decide) (by decide) idFits]
    simp only [Option.bind_eq_bind, Option.bind_some, Asn1.objectId?_written h.id]
  | some bytes =>
    obtain ⟨tag, value, isShort, isSome, rfl, kept⟩ := h.parameters bytes rfl
    have valueFits : Fits value := (Fits.of_append fits).2.of_encode
    have : content ⟨id, some (Asn1.encode tag value)⟩ =
        Asn1.encode Asn1.objectIdTag id.octets ++ Asn1.encode tag value := by
      simp [content, Asn1.ObjectId.encode]
    rw [this, Asn1.readAll?_encode_append (by decide) (by decide) idFits,
      Asn1.readAll?_encode isShort isSome valueFits]
    simp only [Option.map_some, Option.bind_eq_bind, Option.bind_some, Asn1.objectId?_written h.id,
      kept]

end Algorithm

namespace PublicKeyInfo

structure IsWhole (key : PublicKeyInfo) : Prop where
  algorithm : key.algorithm.IsKept
  unused : key.unused = 0

def content (key : PublicKeyInfo) : Bytes :=
  key.algorithm.encode ++ Asn1.encode Asn1.bitStringTag (key.unused :: key.octets)

theorem encode_eq (key : PublicKeyInfo) :
    key.encode = Asn1.encode Asn1.sequenceTag key.content := by
  simp [encode, content, Asn1.sequence]

theorem ofElement?_written {key : PublicKeyInfo} (h : key.IsWhole) (fits : Fits key.content) :
    ofElement? (written Asn1.sequenceTag key.content) = some key := by
  obtain ⟨algorithm, unused, octets⟩ := key
  obtain ⟨kept, rfl⟩ := h
  obtain ⟨algorithmFits, octetsFit⟩ := Fits.of_append fits
  dsimp only at algorithmFits octetsFit kept
  rw [Algorithm.encode_eq] at algorithmFits
  have members : (written Asn1.sequenceTag (content ⟨algorithm, 0, octets⟩)).members? =
      some [written Asn1.sequenceTag algorithm.content,
        written Asn1.bitStringTag (0 :: octets)] := by
    rw [Asn1.members?_written_sequence, content, Algorithm.encode_eq,
      Asn1.readAll?_encode_append (by decide) (by decide) algorithmFits.of_encode,
      Asn1.readAll?_encode (by decide) (by decide) octetsFit.of_encode]
    rfl
  rw [ofElement?, members]
  simp only [Option.bind_eq_bind, Option.bind_some, Asn1.bitString?_written,
    Asn1.bitStringOfOctets?_zero, Algorithm.ofElement?_written kept algorithmFits.of_encode]

end PublicKeyInfo

namespace Extension

def content (extension : Extension) : Bytes :=
  extension.id.encode ++ (if extension.critical then Asn1.boolean true else [])
    ++ Asn1.octetString extension.value

theorem encode_eq (extension : Extension) :
    extension.encode = Asn1.encode Asn1.sequenceTag extension.content := by
  simp [encode, content, Asn1.sequence]

theorem ofElement?_written {extension : Extension} (h : extension.id.IsWritable = true)
    (fits : Fits extension.content) :
    ofElement? (written Asn1.sequenceTag extension.content) = some extension := by
  obtain ⟨id, critical, value⟩ := extension
  obtain ⟨frontFits, valueFits⟩ := Fits.of_append fits
  have idFits : Fits id.octets := (Fits.of_append frontFits).1.of_encode
  have valueRead := Asn1.readAll?_encode (by decide : Asn1.IsShortTag Asn1.octetStringTag)
    (by decide) (Fits.of_encode valueFits)
  rw [ofElement?, Asn1.members?_written_sequence]
  cases critical with
  | false =>
    have : content ⟨id, false, value⟩ =
        Asn1.encode Asn1.objectIdTag id.octets ++ Asn1.encode Asn1.octetStringTag value := by
      simp [content, Asn1.ObjectId.encode, Asn1.octetString]
    rw [this, Asn1.readAll?_encode_append (by decide) (by decide) idFits, valueRead]
    simp only [Option.map_some, Option.bind_eq_bind, Option.bind_some, Asn1.objectId?_written h,
      Asn1.octetString?_written]
  | true =>
    have : content ⟨id, true, value⟩ = Asn1.encode Asn1.objectIdTag id.octets
        ++ (Asn1.encode Asn1.booleanTag [0xff]
          ++ Asn1.encode Asn1.octetStringTag value) := by
      simp [content, Asn1.ObjectId.encode, Asn1.octetString, Asn1.boolean]
    have isTrue : (written Asn1.booleanTag [0xff]).boolean? = some true := rfl
    rw [this, Asn1.readAll?_encode_append (by decide) (by decide) idFits,
      Asn1.readAll?_encode_append (by decide) (by decide) (by unfold Fits; decide), valueRead]
    simp only [Option.map_some, Option.bind_eq_bind, Option.bind_some, Asn1.objectId?_written h,
      Asn1.octetString?_written, isTrue]

theorem items?_written {extensions : List Extension}
    (h : ∀ extension ∈ extensions, extension.id.IsWritable = true)
    (fits : Fits (extensions.map encode).flatten) :
    ((written Asn1.sequenceTag (extensions.map encode).flatten).items? 16).bind
      (·.mapM ofElement?) = some extensions := by
  have eachFits (extension : Extension) (he : extension ∈ extensions) : Fits extension.content := by
    have := fits.of_mem (List.mem_map_of_mem (f := encode) he)
    rw [encode_eq] at this
    exact this.of_encode
  have parts : extensions.map encode =
      (extensions.map content).map (Asn1.encode Asn1.sequenceTag) := by
    rw [List.map_map]
    exact List.map_congr_left fun extension _ => extension.encode_eq
  have elements : Asn1.readAll? (extensions.map encode).flatten =
      some (extensions.map fun extension => written Asn1.sequenceTag extension.content) := by
    rw [parts, Asn1.readAll?_map_encode (by decide) (by decide), List.map_map]
    · rfl
    · intro content hc
      obtain ⟨extension, he, rfl⟩ := List.mem_map.1 hc
      exact eachFits extension he
  rw [Asn1.items?_written_sequence, elements, Option.bind_some]
  exact mapM_map_eq_some fun extension he =>
    ofElement?_written (h extension he) (eachFits extension he)

end Extension

namespace Validity

def IsBetween (validity : Validity) (first last : Instant) : Prop :=
  Asn1.Time.ofInstant? first = some validity.notBefore ∧
    Asn1.Time.ofInstant? last = some validity.notAfter

def content (validity : Validity) : Bytes :=
  validity.notBefore.encode ++ validity.notAfter.encode

theorem encode_eq (validity : Validity) :
    validity.encode = Asn1.encode Asn1.sequenceTag validity.content := by
  simp [encode, content, Asn1.sequence]

theorem ofElement?_written {validity : Validity} {first last : Instant}
    (h : validity.IsBetween first last) :
    ofElement? (written Asn1.sequenceTag validity.content) = some validity := by
  obtain ⟨notBefore, notAfter⟩ := h
  have later := (Asn1.Time.reads_encode notAfter []).readAll?_append
  rw [List.append_nil, Asn1.readAll?_nil] at later
  rw [ofElement?, Asn1.members?_written_sequence, content,
    (Asn1.Time.reads_encode notBefore _).readAll?_append, later]
  simp only [Option.map_some, Option.bind_eq_bind, Option.bind_some,
    Asn1.Time.time?_written notBefore, Asn1.Time.time?_written notAfter]

end Validity

namespace CertificateBody

/-- Bodies as the authority makes them: of the third version, and with every part in a
form that is read back. -/
structure IsPlain (body : CertificateBody) : Prop where
  version : body.version = version3
  serial : 0 ≤ body.serial
  algorithm : body.algorithm.IsKept
  issuer : body.issuer.IsKept
  validity : ∃ first last, body.validity.IsBetween first last
  subject : body.subject.IsKept
  key : body.key.IsWhole
  extensions : ∀ extension ∈ body.extensions, extension.id.IsWritable = true

def content (body : CertificateBody) : Bytes :=
  Asn1.encode (Asn1.contextTag 0) (Asn1.natural body.version.toNat) ++
    (Asn1.natural body.serial.toNat ++ (body.algorithm.encode ++ (body.issuer.der ++
      (body.validity.encode ++ (body.subject.der ++ (body.key.encode ++
        Asn1.encode (Asn1.contextTag 3)
          (Asn1.sequence (body.extensions.map Extension.encode))))))))

theorem encode_eq (body : CertificateBody) :
    body.encode = Asn1.encode Asn1.sequenceTag body.content := by
  simp [encode, content, Asn1.sequence]

def elements (body : CertificateBody) (issuer subject : Element) : List Element := [
  written (Asn1.contextTag 0) (Asn1.encode Asn1.integerTag (Asn1.naturalOctets body.version.toNat)),
  written Asn1.integerTag (Asn1.naturalOctets body.serial.toNat),
  written Asn1.sequenceTag body.algorithm.content,
  issuer,
  written Asn1.sequenceTag body.validity.content,
  subject,
  written Asn1.sequenceTag body.key.content,
  written (Asn1.contextTag 3)
    (Asn1.encode Asn1.sequenceTag (body.extensions.map Extension.encode).flatten)]

structure PartsFit (body : CertificateBody) : Prop where
  version : Fits (Asn1.encode (Asn1.contextTag 0) (Asn1.natural body.version.toNat))
  serial : Fits (Asn1.natural body.serial.toNat)
  algorithm : Fits (Asn1.encode Asn1.sequenceTag body.algorithm.content)
  validity : Fits (Asn1.encode Asn1.sequenceTag body.validity.content)
  subject : Fits body.subject.der
  key : Fits (Asn1.encode Asn1.sequenceTag body.key.content)
  extensions : Fits (Asn1.encode (Asn1.contextTag 3)
    (Asn1.sequence (body.extensions.map Extension.encode)))

theorem partsFit {body : CertificateBody} (fits : Fits body.content) : body.PartsFit := by
  obtain ⟨version, fits⟩ := Fits.of_append fits
  obtain ⟨serial, fits⟩ := Fits.of_append fits
  obtain ⟨algorithm, fits⟩ := Fits.of_append fits
  obtain ⟨-, fits⟩ := Fits.of_append fits
  obtain ⟨validity, fits⟩ := Fits.of_append fits
  obtain ⟨subject, fits⟩ := Fits.of_append fits
  obtain ⟨key, extensions⟩ := Fits.of_append fits
  rw [Algorithm.encode_eq] at algorithm
  rw [Validity.encode_eq] at validity
  rw [PublicKeyInfo.encode_eq] at key
  exact ⟨version, serial, algorithm, validity, subject, key, extensions⟩

theorem fits_value {body : CertificateBody} (fits : Fits body.encode) {extension : Extension}
    (h : extension ∈ body.extensions) : Fits extension.value := by
  rw [encode_eq] at fits
  have listed := (partsFit fits.of_encode).extensions.of_encode.of_encode
  have written := listed.of_mem (List.mem_map_of_mem (f := Extension.encode) h)
  rw [Extension.encode_eq] at written
  exact (Fits.of_append written.of_encode).2.of_encode

private theorem readAll?_content {body : CertificateBody} {issuer subject : Element}
    (fits : body.PartsFit)
    (issuerReads : ∀ more, more ≠ [] → Reads body.issuer.der issuer more)
    (subjectReads : ∀ more, more ≠ [] → Reads body.subject.der subject more) :
    Asn1.readAll? body.content = some (body.elements issuer subject) := by
  rw [content, Asn1.readAll?_encode_append (by decide) (by decide) fits.version.of_encode,
    Asn1.natural, Asn1.natural,
    Asn1.readAll?_encode_append (by decide) (by decide) fits.serial.of_encode,
    Algorithm.encode_eq,
    Asn1.readAll?_encode_append (by decide) (by decide) fits.algorithm.of_encode,
    (issuerReads _ (by simp [Validity.encode_eq, Asn1.encode])).readAll?_append,
    Validity.encode_eq, Asn1.readAll?_encode_append (by decide) (by decide) fits.validity.of_encode,
    (subjectReads _ (by simp [PublicKeyInfo.encode_eq, Asn1.encode])).readAll?_append,
    PublicKeyInfo.encode_eq, Asn1.readAll?_encode_append (by decide) (by decide) fits.key.of_encode,
    Asn1.readAll?_encode (by decide) (by decide) fits.extensions.of_encode]
  rfl

private theorem extensions?_written {extensions : List Extension}
    (h : ∀ extension ∈ extensions, extension.id.IsWritable = true)
    (fits : Fits (extensions.map Extension.encode).flatten) :
    extensions? [written (Asn1.contextTag 3)
      (Asn1.encode Asn1.sequenceTag (extensions.map Extension.encode).flatten)] =
        some extensions := by
  have isThird : (written (Asn1.contextTag 3) (Asn1.encode Asn1.sequenceTag
      (extensions.map Extension.encode).flatten)).isContext 3 = true := rfl
  have members := Asn1.readAll?_encode (by decide : Asn1.IsShortTag Asn1.sequenceTag) (by decide)
    fits
  have inner := Asn1.explicit?_written (by decide : (Asn1.contextTag 3 &&& 0x20 != 0) = true)
    members
  rw [extensions?, if_pos isThird, inner]
  exact Extension.items?_written h fits

theorem ofElement?_written {body : CertificateBody} (h : body.IsPlain) (fits : Fits body.content) :
    ofElement? (written Asn1.sequenceTag body.content) = some body := by
  have parts := partsFit fits
  obtain ⟨issuer, hi, issuerReads⟩ := h.issuer
  obtain ⟨subject, hs, subjectReads⟩ := h.subject
  obtain ⟨first, last, validity⟩ := h.validity
  have version : version? (body.elements issuer subject) =
      some (body.version, (body.elements issuer subject).tail) := by
    have isFirst (content : Bytes) : (written (Asn1.contextTag 0) content).isContext 0 = true := rfl
    have members := Asn1.readAll?_encode (by decide : Asn1.IsShortTag Asn1.integerTag) (by decide)
      parts.version.of_encode.of_encode
    have inner := Asn1.explicit?_written (by decide : (Asn1.contextTag 0 &&& 0x20 != 0) = true)
      members
    rw [elements, version?, if_pos (isFirst _), inner]
    simp only [Option.bind_eq_bind, Option.bind_some, Asn1.integer?_written_natural, h.version]
    rfl
  have extensions := extensions?_written h.extensions parts.extensions.of_encode.of_encode
  have notUnique (n : Nat) (hn : n ≠ 3) (content : Bytes) :
      skipUnique n [written (Asn1.contextTag 3) content] =
        some [written (Asn1.contextTag 3) content] := by
    have : (written (Asn1.contextTag 3) content).isContext n = (3 == n) := rfl
    rw [skipUnique, this, beq_eq_false_iff_ne.2 hn.symm]
    rfl
  rw [ofElement?, Asn1.members?_written_sequence,
    readAll?_content parts issuerReads subjectReads]
  simp only [Option.bind_eq_bind, Option.bind_some, version]
  simp only [elements, List.tail_cons, Option.bind_some, Asn1.integer?_written_natural,
    Algorithm.ofElement?_written h.algorithm parts.algorithm.of_encode, hi,
    Validity.ofElement?_written validity, hs,
    PublicKeyInfo.ofElement?_written h.key parts.key.of_encode, notUnique 2 (by decide),
    notUnique 1 (by decide), extensions, Int.toNat_of_nonneg h.serial]

theorem isKept_subject {body : CertificateBody} {element : Element}
    (h : ofElement? element = some body) : body.subject.IsKept := by
  simp only [ofElement?, Option.bind_eq_bind, Option.bind_eq_some_iff, Prod.exists] at h
  obtain ⟨members, hm, version, fields, hv, h⟩ := h
  obtain ⟨bytes, hr⟩ : ∃ bytes, Asn1.readAll? bytes = some members := by
    unfold Element.members? at hm
    split at hm
    · exact ⟨_, hm⟩
    · cases hm
  have isPart : ∀ field ∈ fields, field ∈ members := by
    unfold version? at hv
    split at hv
    · split at hv
      · simp only [Option.bind_eq_bind, Option.bind_eq_some_iff] at hv
        obtain ⟨_, _, _, _, hv⟩ := hv
        cases hv
        exact fun field hf => List.mem_cons_of_mem _ hf
      · cases hv
        exact fun field hf => hf
    · cases hv
  split at h
  · next serial algorithm issuer validity subject key rest =>
    simp only [Option.bind_eq_some_iff] at h
    obtain ⟨_, _, _, _, _, _, _, _, name, hn, _, _, _, _, _, _, _, _, h⟩ := h
    cases h
    obtain ⟨_, _, hr⟩ := Asn1.read?_of_mem_readAll? hr subject (isPart _ (by simp))
    exact DistinguishedName.isKept_of_read hr hn
  · cases h

end CertificateBody

namespace Certificate

structure IsPlain (certificate : Certificate) : Prop where
  body : certificate.body.IsPlain
  bodyDer : certificate.bodyDer = certificate.body.encode
  algorithm : certificate.algorithm.IsKept
  unused : certificate.unused = 0

def content (certificate : Certificate) : Bytes :=
  certificate.bodyDer ++ (certificate.algorithm.encode ++
    Asn1.encode Asn1.bitStringTag (certificate.unused :: certificate.signature))

theorem encode_eq (certificate : Certificate) :
    certificate.encode = Asn1.encode Asn1.sequenceTag certificate.content := by
  simp [encode, content, Asn1.sequence]

theorem decode?_encode {certificate : Certificate} (h : certificate.IsPlain)
    (fits : Fits certificate.encode) : decode? certificate.encode = some certificate := by
  obtain ⟨body, bodyDer, algorithm, unused, signature⟩ := certificate
  obtain ⟨plain, hb, kept, hu⟩ := h
  dsimp only at hb hu
  subst hb hu
  rw [encode_eq] at fits ⊢
  obtain ⟨bodyFits, behindFits⟩ := Fits.of_append fits.of_encode
  obtain ⟨algorithmFits, signatureFits⟩ := Fits.of_append behindFits
  dsimp only at plain kept bodyFits algorithmFits signatureFits
  rw [CertificateBody.encode_eq] at bodyFits
  rw [Algorithm.encode_eq] at algorithmFits
  have whole := Asn1.read?_encode (by decide : Asn1.IsShortTag Asn1.sequenceTag) fits.of_encode []
  rw [List.append_nil] at whole
  have members : Asn1.readAll? (content ⟨body, body.encode, algorithm, 0, signature⟩) = some [
      written Asn1.sequenceTag body.content, written Asn1.sequenceTag algorithm.content,
      written Asn1.bitStringTag (0 :: signature)] := by
    rw [content, CertificateBody.encode_eq, Algorithm.encode_eq,
      Asn1.readAll?_encode_append (by decide) (by decide) bodyFits.of_encode,
      Asn1.readAll?_encode_append (by decide) (by decide) algorithmFits.of_encode,
      Asn1.readAll?_encode (by decide) (by decide) signatureFits.of_encode]
    rfl
  rw [decode?, whole]
  simp only [Option.bind_eq_bind, Option.bind_some, Asn1.members?_written_sequence, members,
    Asn1.bitString?_written, Asn1.bitStringOfOctets?_zero,
    CertificateBody.ofElement?_written plain bodyFits.of_encode,
    Algorithm.ofElement?_written kept algorithmFits.of_encode, Asn1.written_raw,
    ← CertificateBody.encode_eq]

theorem isLabel_pemLabel : Pem.IsLabel pemLabel where
  isPlain := by decide +kernel
  noColon := by decide
  fits := by decide

theorem isLabel_oldPemLabel : Pem.IsLabel oldPemLabel where
  isPlain := by decide +kernel
  noColon := by decide
  fits := by decide

theorem ofPem?_toPem_eq (certificate : Certificate) :
    ofPem? certificate.toPem = decode? certificate.encode := by
  have isSome : certificate.encode ≠ [] := by simp [encode_eq, Asn1.encode]
  rw [ofPem?, toPem, Pem.find?_encode isLabel_pemLabel isSome, if_pos (by decide)]
  rfl

theorem ofPem?_encode_amid {label der : Bytes} {notes : List Bytes}
    (known : label = pemLabel ∨ label = oldPemLabel) (isSome : der ≠ [])
    (h : ∀ line ∈ notes, Pem.IsNote line) (behind : Bytes) :
    ofPem? (Pem.joined notes ++ Pem.encode label der ++ behind) = decode? der := by
  have found : Pem.find? (fun label => label == pemLabel || label == oldPemLabel)
      (Pem.joined notes ++ Pem.encode label der ++ behind) = some ⟨label, [], der⟩ := by
    rcases known with rfl | rfl
    · exact Pem.find?_amid h isLabel_pemLabel (by decide) isSome behind
    · exact Pem.find?_amid h isLabel_oldPemLabel (by decide) isSome behind
  rw [ofPem?, found]
  rfl

theorem ofPem?_amid (certificate : Certificate) {notes : List Bytes}
    (h : ∀ line ∈ notes, Pem.IsNote line) (behind : Bytes) :
    ofPem? (Pem.joined notes ++ certificate.toPem ++ behind) = decode? certificate.encode :=
  ofPem?_encode_amid (.inl rfl) (by simp [encode_eq, Asn1.encode]) h behind

theorem ofPem?_toPem {certificate : Certificate} (h : certificate.IsPlain)
    (fits : Fits certificate.encode) : ofPem? certificate.toPem = some certificate := by
  rw [ofPem?_toPem_eq, decode?_encode h fits]

theorem encode_text_toPem (certificate : Certificate) :
    Utf8.encode (Pem.text certificate.toPem) = certificate.toPem :=
  Pem.encode_text (Pem.isAscii_of_mem_encode isLabel_pemLabel)

theorem length_encode_le_text (certificate : Certificate) :
    certificate.encode.length ≤ (Pem.text certificate.toPem).utf8ByteSize := by
  rw [← Utf8.length_encode, encode_text_toPem]
  exact (Pem.length_encode_bounds pemLabel certificate.encode).1

theorem fits_of_size {certificate : Certificate}
    (size : (Pem.text certificate.toPem).utf8ByteSize < 2 ^ 63) : Fits certificate.encode :=
  ((length_encode_le_text certificate).trans_lt size).trans (by decide)

theorem ofPem?_text {certificate : Certificate} (h : certificate.IsPlain)
    (fits : Fits certificate.encode) :
    ofPem? (Utf8.encode (Pem.text certificate.toPem)) = some certificate := by
  rw [encode_text_toPem, ofPem?_toPem h fits]

theorem isKept_subject_of_decode? {bytes : Bytes} {certificate : Certificate}
    (h : decode? bytes = some certificate) : certificate.body.subject.IsKept := by
  simp only [decode?, Option.bind_eq_bind, Option.bind_eq_some_iff, Prod.exists] at h
  obtain ⟨element, _, -, members, -, h⟩ := h
  split at h
  · simp only [Option.bind_eq_some_iff, Prod.exists] at h
    obtain ⟨_, _, -, body, hb, _, -, h⟩ := h
    cases h
    exact CertificateBody.isKept_subject hb
  · cases h

theorem isKept_subject_of_ofPem? {text : Bytes} {certificate : Certificate}
    (h : ofPem? text = some certificate) : certificate.body.subject.IsKept := by
  simp only [ofPem?, Option.bind_eq_bind, Option.bind_eq_some_iff] at h
  obtain ⟨block, -, h⟩ := h
  split at h
  · exact isKept_subject_of_decode? h
  · cases h

end Certificate

end VpnAuthority
