import VpnAuthority.Authority.Rendering
import VpnAuthority.Proofs.Authority.Credentials
import VpnAuthority.Proofs.Certificate.Reencoding

/-! The certificate of an authority as it is handed out: written anew, whatever its file looks
like, and nothing else of the file with it. -/
namespace VpnAuthority

open Asn1 (Fits)

/-- A text that is one block of a certificate and nothing else: rows of 64 digits, of which the
last may be shorter, between two lines for the label, each with a line feed. -/
def Certificate.IsBlock (text : Bytes) : Prop :=
  ∃ rows, text = Pem.joined (Utf8.encode "-----BEGIN CERTIFICATE-----" ::
      (rows ++ [Utf8.encode "-----END CERTIFICATE-----"])) ∧
    Pem.IsWrapped rows ∧ ∀ row ∈ rows, Pem.IsPlainRow row

theorem Certificate.isBlock_toPem (certificate : Certificate) : IsBlock certificate.toPem := by
  obtain ⟨rows, same, -, wrapped, plain⟩ := Pem.exists_encode_eq pemLabel certificate.encode
  have marks : Pem.beginMark ++ pemLabel ++ Pem.tailMark =
      Utf8.encode "-----BEGIN CERTIFICATE-----" ∧
    Pem.endMark ++ pemLabel ++ Pem.tailMark = Utf8.encode "-----END CERTIFICATE-----" := by
    decide +kernel
  rw [marks.1, marks.2] at same
  exact ⟨rows, same, wrapped, plain⟩

namespace Authority

variable {authority : Authority} {files : FileSystem} {pem : String}

theorem certificatePem_eq_ok_iff :
    authority.certificatePem files = .ok pem ↔
      ∃ certificate, authority.loadCertificate files = .ok certificate ∧
        Pem.text certificate.toPem = pem := by
  simp only [certificatePem, bind_eq_ok, Except.ok.injEq]

theorem configurations_eq {certificate : Certificate}
    (loaded : authority.loadCertificate files = .ok certificate) :
    (∀ parameters, authority.clientConfiguration files parameters =
      (readTemplate files authority.settings.templates.client).bind fun template =>
        renderClient template (Pem.text certificate.toPem) parameters) ∧
    ∀ parameters, authority.serverConfiguration files parameters =
      (readTemplate files authority.settings.templates.server).bind fun template =>
        renderServer template (Pem.text certificate.toPem) parameters := by
  have pem : authority.certificatePem files = .ok (Pem.text certificate.toPem) :=
    certificatePem_eq_ok_iff.2 ⟨certificate, loaded, rfl⟩
  constructor <;> intro parameters
  · rw [clientConfiguration, pem]
    rfl
  · rw [serverConfiguration, pem]
    rfl

/-- What an authority hands out as its certificate is one block, in the one form in which blocks
are written, of the first certificate in its file, and nothing else of the file is in it or in
a configuration. It is read as the same certificate, with the same common name, and handed out
as it is, unless the parameters of the outer algorithm are of the one kind that is not read
back: then it is no certificate. -/
theorem certificatePem_again (h : authority.certificatePem files = .ok pem)
    (size : pem.utf8ByteSize < 2 ^ 63) :
    ∃ text certificate,
      files.read authority.certificatePath = .ok text ∧
      Certificate.ofPem? text = some certificate ∧
      Certificate.IsBlock (Utf8.encode pem) ∧
      (¬certificate.algorithm.EndsEarly →
        Certificate.ofPem? (Utf8.encode pem) = some certificate ∧
        extractCommonName (Utf8.encode pem) = extractCommonName text ∧
        ∀ later : FileSystem, later.read authority.certificatePath = .ok (Utf8.encode pem) →
          authority.loadCertificate later = .ok certificate ∧
          authority.certificatePem later = .ok pem) ∧
      (certificate.algorithm.EndsEarly → Certificate.ofPem? (Utf8.encode pem) = none) ∧
      ∀ later : FileSystem, authority.loadCertificate later = .ok certificate →
        authority.certificatePem later = .ok pem ∧
        (∀ parameters, authority.clientConfiguration later parameters =
          (readTemplate later authority.settings.templates.client).bind fun template =>
            renderClient template pem parameters) ∧
        ∀ parameters, authority.serverConfiguration later parameters =
          (readTemplate later authority.settings.templates.server).bind fun template =>
            renderServer template pem parameters := by
  obtain ⟨certificate, loaded, rfl⟩ := certificatePem_eq_ok_iff.1 h
  obtain ⟨text, read, found⟩ := loadCertificate_eq_ok_iff.1 loaded
  have octets := Certificate.encode_text_toPem certificate
  have again : Certificate.ofPem? (Utf8.encode (Pem.text certificate.toPem)) =
      if certificate.algorithm.EndsEarly then none else some certificate := by
    rw [octets]
    exact Certificate.ofPem?_toPem_again found (Certificate.fits_of_size size)
  refine ⟨text, certificate, read, found, ?_, fun lasts => ?_, fun ends => ?_,
    fun later loaded' => ?_⟩
  · rw [octets]
    exact certificate.isBlock_toPem
  · rw [if_neg lasts] at again
    refine ⟨again, ?_, fun later read' => ?_⟩
    · rw [extractCommonName, extractCommonName, Certificate.commonNameOfPem,
        Certificate.commonNameOfPem, again, found]
    · have loaded' := loadCertificate_eq_ok_iff.2 ⟨_, read', again⟩
      exact ⟨loaded', certificatePem_eq_ok_iff.2 ⟨certificate, loaded', rfl⟩⟩
  · rw [again, if_pos ends]
  · exact ⟨certificatePem_eq_ok_iff.2 ⟨certificate, loaded', rfl⟩, configurations_eq loaded'⟩

def withCertificateText (authority : Authority) (text : Bytes) : FileSystem :=
  FileSystem.empty.insert [authority.certificatePath] (.file text .everyone)

theorem read_withCertificateText (name : Path.IsName authority.certificatePath) (text : Bytes) :
    (authority.withCertificateText text).read authority.certificatePath = .ok text :=
  FileSystem.read_eq_ok_iff.2 ⟨_, .everyone, FileSystem.target_name_of_file name
    (FileSystem.get?_insert_self (by simp))⟩

def notes : List Bytes := [Utf8.encode "subject=CN = Example CA", Utf8.encode "-----"]

private theorem isNote_of_mem_notes : ∀ line ∈ notes, Pem.IsNote line := by
  refine List.forall_mem_cons.2 ⟨⟨⟨?_, ?_, ?_⟩, ?_, ?_⟩,
    List.forall_mem_singleton.2 ⟨⟨?_, ?_, ?_⟩, ?_, ?_⟩⟩ <;> decide +kernel

theorem certificatePem_again_plain :
    ∃ certificate : Certificate, ∃ files : FileSystem,
      files.read plain.certificatePath = .ok (Pem.joined notes ++ certificate.toPem ++
        plain.keyText (.ofSmallPrime 5) ((Chance.ofSmallPrime 5).key 2206)) ∧
      plain.certificatePem files = .ok (Pem.text certificate.toPem) ∧
      Certificate.ofPem? (Utf8.encode (Pem.text certificate.toPem)) = some certificate := by
  have regular := Chance.isSound_ofSmallPrime_five.toIsRegular
  obtain ⟨certificate, -, -, -, own⟩ := exists_bootstrap_plain regular
  have length := Certificate.length_encode_root_le own.isSize regular.key
    (Chance.ofSmallPrime 5).serial.isLt own.certificate
  have decoded := Certificate.ofPem?_toPem_root own.isSize regular.key
    (Chance.ofSmallPrime 5).serial.isLt own.certificate
  rw [Certificate.ofPem?_toPem_eq,
    ← certificate.ofPem?_amid isNote_of_mem_notes (plain.keyText (.ofSmallPrime 5) _)] at decoded
  have lasts : ¬certificate.algorithm.EndsEarly := by
    obtain ⟨-, _, _, -, -, made⟩ := Certificate.root_eq_ok_iff.1 own.certificate
    rw [show certificate = _ from made]
    exact (by decide : ¬standardAlgorithm.EndsEarly)
  have read := read_withCertificateText isName_certificatePath_plain
    (Pem.joined notes ++ certificate.toPem ++ plain.keyText (.ofSmallPrime 5)
      ((Chance.ofSmallPrime 5).key 2206))
  have handedOut := certificatePem_eq_ok_iff.2
    ⟨certificate, loadCertificate_eq_ok_iff.2 ⟨_, read, decoded⟩, rfl⟩
  obtain ⟨text, first, read', found, -, again, -⟩ :=
    certificatePem_again handedOut (Certificate.size_text_lt length)
  obtain rfl := Except.ok.inj (read'.symm.trans read)
  obtain rfl := Option.some.inj (found.symm.trans decoded)
  exact ⟨_, _, read, handedOut, (again lasts).1⟩

def unending : Certificate :=
  { nameless with algorithm := ⟨Digest.Kind.sha256.signatureId, some Asn1.openEnd⟩ }

/-- An encoding of it in which the parameters are an empty constructed element. -/
def unendingDer : Bytes :=
  Asn1.sequence [nameless.bodyDer,
    Asn1.sequence [Digest.Kind.sha256.signatureId.encode, [0x20, 0]],
    Asn1.encode Asn1.bitStringTag [0]]

private theorem length_around {parameters : Bytes} (two : parameters.length = 2) :
    (Asn1.sequence [nameless.bodyDer,
      Asn1.sequence [Digest.Kind.sha256.signatureId.encode, parameters],
      Asn1.encode Asn1.bitStringTag [0]]).length ≤ Certificate.maxLength := by
  have same : (Asn1.sequence [Digest.Kind.sha256.signatureId.encode, parameters]).length =
      (Asn1.sequence [Digest.Kind.sha256.signatureId.encode, Asn1.null]).length := by
    have two' : Asn1.null.length = 2 := by decide
    simp [Asn1.sequence, Asn1.encode, two, two']
  have around {a b : Bytes} (h : a.length = b.length) (front back : Bytes) :
      (Asn1.sequence [front, a, back]).length = (Asn1.sequence [front, b, back]).length := by
    simp [Asn1.sequence, Asn1.encode, h]
  exact (around same nameless.bodyDer _).trans_le length_encode_nameless

private theorem ofElement?_unending :
    Algorithm.ofElement? (Asn1.written Asn1.sequenceTag
      (Asn1.encode Asn1.objectIdTag Digest.Kind.sha256.signatureId.octets ++
        Asn1.encode 0x20 [])) = some unending.algorithm := by
  have idFits : Fits Digest.Kind.sha256.signatureId.octets := by
    have few : Digest.Kind.sha256.signatureId.octets.length ≤ 9 := by
      simp [Digest.Kind.signatureId, Asn1.ObjectId.octets, Asn1.ObjectId.encodeArc,
        Asn1.ObjectId.encodeArc.go]
    exact few.trans_lt (by decide)
  have id := Asn1.objectId?_written (by rfl : Digest.Kind.sha256.signatureId.IsWritable = true)
  have parameters : Algorithm.parameters? (Asn1.written 0x20 []) = some Asn1.openEnd := by
    have nothing : (Asn1.written 0x20 []).octets? = some [] := by
      have constructed : (Asn1.written 0x20 []).constructed = true := by decide
      rw [Asn1.Element.octets?, Asn1.Element.joined?, constructed, Asn1.written_content,
        Asn1.readAll?_nil]
      rfl
    change ((Asn1.written 0x20 []).octets?.bind fun octets =>
      if Asn1.isWhole 0 octets then some (Algorithm.encodeSimple 0 octets) else none) = _
    rw [nothing]
    rfl
  rw [Algorithm.ofElement?, Asn1.members?_written_sequence,
    Asn1.readAll?_encode_append (by decide) (by decide) idFits,
    Asn1.readAll?_encode (by decide) (by decide) (by unfold Fits; decide)]
  simp only [Option.map_some, Option.bind_eq_bind, Option.bind_some, id, parameters]
  rfl

private theorem decode?_unendingDer : Certificate.decode? unendingDer = some unending := by
  obtain ⟨⟨body, hb, raw, reads⟩, -, -⟩ := Certificate.parts_of_decode? decode?_encode_nameless
  rw [← raw] at reads
  have asParts : unendingDer = Asn1.encode Asn1.sequenceTag (body.raw ++
      (Asn1.encode Asn1.sequenceTag (Asn1.encode Asn1.objectIdTag
        Digest.Kind.sha256.signatureId.octets ++ Asn1.encode 0x20 []) ++
          Asn1.encode Asn1.bitStringTag [0])) := by
    rw [raw, unendingDer, show [0x20, 0] = Asn1.encode 0x20 [] by decide]
    simp [Asn1.sequence, Asn1.ObjectId.encode]
  have fits : Fits unendingDer :=
    (length_around rfl).trans_lt (by decide : Certificate.maxLength < 256 ^ 126)
  rw [asParts] at fits ⊢
  rw [Certificate.decode?_around hb reads (Asn1.bitStringOfOctets?_zero []) fits.of_encode,
    ofElement?_unending, Option.map_some, raw]
  rfl

/-- A certificate that is read and handed out, and not read where it is handed out. -/
theorem unending_not_again :
    plain.certificatePem
        (plain.withCertificateText (Pem.encode Certificate.pemLabel unendingDer)) =
      .ok (Pem.text unending.toPem) ∧
    (Pem.text unending.toPem).utf8ByteSize < 2 ^ 63 ∧
    ∀ certificate, plain.loadCertificate
      (plain.withCertificateText (Utf8.encode (Pem.text unending.toPem))) ≠ .ok certificate := by
  have isSome : unendingDer ≠ [] := by simp [unendingDer, Asn1.sequence, Asn1.encode]
  have found : Certificate.ofPem? (Pem.encode Certificate.pemLabel unendingDer) =
      some unending := by
    rw [Certificate.ofPem?, Pem.find?_encode Certificate.isLabel_pemLabel isSome,
      if_pos (by decide)]
    exact decode?_unendingDer
  have length : unending.encode.length ≤ Certificate.maxLength := length_around (by decide)
  have fits : Fits unending.encode := length.trans_lt (by decide)
  refine ⟨certificatePem_eq_ok_iff.2 ⟨unending, loadCertificate_eq_ok_iff.2
    ⟨_, read_withCertificateText isName_certificatePath_plain _, found⟩, rfl⟩,
    Certificate.size_text_lt length, fun certificate loaded => ?_⟩
  obtain ⟨text, read, again⟩ := loadCertificate_eq_ok_iff.1 loaded
  rw [read_withCertificateText isName_certificatePath_plain, Except.ok.injEq] at read
  rw [← read, Certificate.encode_text_toPem, Certificate.ofPem?_toPem_again found fits,
    if_pos (by rfl)] at again
  cases again

end Authority
end VpnAuthority
