import VpnAuthority.Proofs.Asn1.Integer
import VpnAuthority.Proofs.Authority.Credentials
import VpnAuthority.Proofs.Authority.Impartiality
import VpnAuthority.Proofs.Authority.Log
import VpnAuthority.Proofs.Number.Digits

/-! The serial number that chance gives: how it stands in the octets of a certificate, and how
the log spells it. -/
namespace VpnAuthority

open Asn1 (Fits)

/-- An element that holds a serial number: an integer of at most twenty octets with the bit of
its sign clear, which no fewer octets denote. -/
structure Asn1.Element.IsSerial (element : Asn1.Element) (serial : Nat) : Prop where
  isInteger : element.isUniversal 2 = true
  raw : element.raw = 2 :: UInt8.ofNat element.content.length :: element.content
  isPositive : Asn1.signBit element.content = false
  isMinimal : Asn1.IsMinimal element.content
  isShortest : ∀ other ≠ [], Asn1.twosComplement other = serial →
    element.content.length ≤ other.length
  length_le : element.content.length ≤ 20
  value : Asn1.twosComplement element.content = serial
  isRead : element.integer? = some (serial : Int)

theorem Asn1.isSerial_written {serial : Nat} (few : serial < 2 ^ serialBits) :
    (written integerTag (naturalOctets serial)).IsSerial serial := by
  -- One bit of twenty octets is that of the sign, and the other 159 are those of the number.
  have bits : 2 ^ serialBits = 128 * 256 ^ 19 := by decide +kernel
  have length_le : (naturalOctets serial).length ≤ 20 := length_naturalOctets_le (bits ▸ few)
  have isShort : (naturalOctets serial).length < 0x80 := by omega
  exact {
    isInteger := rfl
    raw := by rw [written_raw, written_content, encode, encodeLength, if_pos isShort]; rfl
    isPositive := signBit_naturalOctets serial
    isMinimal := isMinimal_naturalOctets serial
    isShortest := fun other isSome same =>
      length_le_of_twosComplement_eq (isMinimal_naturalOctets serial) isSome
        (same.trans (twosComplement_naturalOctets serial).symm)
    length_le
    value := twosComplement_naturalOctets serial
    isRead := integer?_written_natural serial }

namespace Certificate

/-- The element of an encoded certificate in which its serial number stands: the one behind
the version, if there is one. -/
def serialElement? (der : Bytes) : Option Asn1.Element := do
  let (whole, _) ← Asn1.read? der
  let (body, _) ← Asn1.read? whole.content
  let (first, behind) ← Asn1.read? body.content
  if first.isContext 0 then (Asn1.read? behind).map Prod.fst else some first

structure HoldsSerial (certificate : Certificate) (serial : Nat) : Prop where
  field : certificate.body.serial = serial
  encoded : ∃ element, serialElement? certificate.encode = some element ∧ element.IsSerial serial

section
variable {body : CertificateBody} {signature : Bytes} (fits : Fits (signed body signature).encode)
include fits

theorem serialElement?_signed : serialElement? (signed body signature).encode =
    some (Asn1.written Asn1.integerTag (Asn1.naturalOctets body.serial.toNat)) := by
  have bodyFits := fits_body_of_fits_signed fits
  rw [encode_eq] at fits ⊢
  rw [CertificateBody.encode_eq] at bodyFits
  have parts := CertificateBody.partsFit bodyFits.of_encode
  have whole := Asn1.read?_encode (by decide : Asn1.IsShortTag Asn1.sequenceTag) fits.of_encode []
  have isVersion (content : Bytes) :
      (Asn1.written (Asn1.contextTag 0) content).isContext 0 = true := rfl
  rw [List.append_nil] at whole
  rw [serialElement?, whole]
  simp only [Option.bind_eq_bind, Option.bind_some, Asn1.written_content]
  rw [content, signed, CertificateBody.encode_eq,
    Asn1.read?_encode (by decide) bodyFits.of_encode]
  simp only [Option.bind_some, Asn1.written_content]
  rw [CertificateBody.content, Asn1.read?_encode (by decide) parts.version.of_encode]
  simp only [Option.bind_some, isVersion, if_true]
  rw [Asn1.natural, Asn1.read?_encode (by decide) parts.serial.of_encode, Option.map_some]

theorem holdsSerial_signed {serial : Nat} (given : body.serial = serial)
    (few : serial < 2 ^ serialBits) : (signed body signature).HoldsSerial serial := by
  refine ⟨given, _, serialElement?_signed fits, ?_⟩
  rw [given, Int.toNat_natCast]
  exact Asn1.isSerial_written few

end

section
variable {policy : Policy} {request : LeafRequest} {issuer certificate : Certificate}
  {key : Rsa.PrivateKey} {signer : Signer} {suffix : UniqueSuffix} {days serial : Nat}
  {clock : Clock} {commonName : String}

theorem holdsSerial_root
    (made : root policy (.rsa key) commonName days serial clock = .ok certificate)
    (fits : Fits certificate.encode) (few : serial < 2 ^ serialBits) :
    certificate.HoldsSerial serial := by
  obtain ⟨-, validity, signature, -, -, rfl⟩ := root_eq_ok_iff.1 made
  exact holdsSerial_signed fits rfl few

theorem holdsSerial_leafBy
    (made : leafBy request issuer signer suffix serial clock = .ok (certificate, commonName))
    (fits : Fits certificate.encode) (few : serial < 2 ^ serialBits) :
    certificate.HoldsSerial serial := by
  obtain ⟨-, -, validity, signature, -, -, rfl⟩ := leafBy_eq_ok_iff.1 made
  exact holdsSerial_signed fits rfl few

end

theorem forget_root (policy : Policy) (key : PrivateKey) (commonName : String)
    (days serial : Nat) (clock : Clock) :
    forget (root policy key commonName days serial clock) = (do
      let _ ← subject policy commonName
      let _ ← validityBy clock days
      match key with
      | .rsa rsaKey => if 62 ≤ rsaKey.toPublic.size then .ok () else .error .signing
      | .other _ => .error .signing) := by
  unfold root
  cases subject policy commonName with
  | error fault => rfl
  | ok name =>
    cases validityBy clock days with
    | error fault => rfl
    | ok validity =>
      cases key with
      | rsa rsaKey => exact forget_sign _ rsaKey
      | other system => rfl

end Certificate

theorem Event.read?_serialText (serial : Nat) :
    Digits.read? 16 (serialText serial).toList = some serial := by
  unfold serialText
  split
  · next isZero =>
    subst isZero
    rfl
  · next isSome =>
    rw [String.toList_ofList,
      Digits.read?_flatMap_paddedUpperHex (BigEndian.ofNat_ne_nil isSome), BigEndian.toNat_ofNat]

example : Event.serialText 0xabc = "0ABC" := by decide +kernel

namespace Authority

variable {authority : Authority} {endpoint : Endpoint} {chance : Chance} {clock : Clock}
  {site site' : Site} {credential : Credential}

theorem serial_of_root {policy : Policy} {key : PrivateKey} {commonName : String} {days : Nat}
    {certificate : Certificate}
    (made : Certificate.root policy key commonName days chance.serial clock = .ok certificate)
    (size : certificate.encode.length < 2 ^ 63) :
    Certificate.decode? certificate.encode = some certificate ∧
      certificate.HoldsSerial chance.serial := by
  obtain ⟨rsaKey, rfl⟩ := Certificate.exists_rsa_of_root_eq_ok made
  have fits : Fits certificate.encode := size.trans (by decide)
  exact ⟨Certificate.decode?_encode_root made fits,
    Certificate.holdsSerial_root made fits chance.serial.isLt⟩

theorem serial_of_bootstrap {later : FileSystem} {place : Place} {content : Bytes}
    {access : Access} (left : later = ((authority.bootstrap chance clock).perform site).2.files)
    (there : later.get? place = some (.file content access))
    (isNew : site.files.get? place ≠ later.get? place) (size : content.length < 2 ^ 63) :
    (∃ key, chance.keyOfSize? authority.policy.keySize = some key ∧
        content = authority.keyText chance key) ∨
      ∃ certificate, content = certificate.toPem ∧
        Certificate.ofPem? content = some certificate ∧
        certificate.HoldsSerial chance.serial := by
  have leaves := authority.leaves_bootstrap chance clock site place
  rw [← left] at leaves
  cases leaves with
  | same isSame => exact absurd isSame.symm isNew
  | directory isFree isDirectory =>
    rw [there] at isDirectory
    cases isDirectory
  | key isFree isNew isMade leads =>
    rw [FileSystem.get?_of_target leads, Option.some.injEq, Node.file.injEq] at there
    exact .inl ⟨_, isMade, there.1.symm⟩
  | certificate isNew hasKey isMade becomes leads =>
    rw [FileSystem.get?_of_target leads, Option.some.injEq, Node.file.injEq] at there
    obtain ⟨rfl, -⟩ := there
    have fits : Fits (Certificate.encode _) :=
      ((Pem.length_encode_bounds _ _).1.trans_lt size).trans (by decide)
    exact .inr ⟨_, rfl, Certificate.ofPem?_toPem_root_of_fits isMade fits,
      Certificate.holdsSerial_root isMade fits chance.serial.isLt⟩

theorem serial_of_issued
    (h : (authority.issueFor endpoint chance clock).perform site = (.ok credential, site')) :
    ∃ leaf text, credential.certificatePem = Pem.text leaf.toPem ∧
      (credential.certificatePem.utf8ByteSize < 2 ^ 63 →
        Certificate.ofPem? (Utf8.encode credential.certificatePem) = some leaf ∧
        leaf.HoldsSerial chance.serial) ∧
      ∃ event : Event,
        site'.events = site.events ++ endpoint.warnings chance.suffix ++ [event] ∧
        event.message = "Issued VPN certificate" ∧
        event.data = [("common_name", .text credential.commonName),
          ("purpose", .text endpoint.purpose.name), ("serial", .text text)] ∧
        Digits.read? 16 text.toList = some (chance.serial : Nat) := by
  rw [issueFor_eq, issue_eq_ok_iff] at h
  obtain ⟨material, key, leaf, name, loaded, -, made, rfl, rfl⟩ := h
  obtain ⟨text, -, read⟩ := loadCertificate_eq_ok_iff.1 (loadMaterial_eq_ok_iff.1 loaded).1
  have serial : leaf.body.serial = (chance.serial : Nat) := by
    obtain ⟨-, -, validity, rsaKey, signature, -, -, -, rfl⟩ := Certificate.leaf_eq_ok_iff.1 made
    rfl
  refine ⟨leaf, Event.serialText leaf.body.serial.toNat, rfl, fun size => ?_, _, rfl, rfl, rfl, ?_⟩
  · have fits := Certificate.fits_of_size size
    rw [Certificate.encode_text_toPem, Certificate.ofPem?_toPem_eq]
    exact ⟨Certificate.decode?_encode_of_leafBy (Certificate.isKept_subject_of_ofPem? read)
      (Certificate.isWhole_toInfo _) Certificate.isKept_standardAlgorithm made fits,
      Certificate.holdsSerial_leafBy made fits chance.serial.isLt⟩
  · rw [Event.read?_serialText, serial, Int.toNat_natCast]

/-- Whichever serial number chance gives, each certificate holds it: the authority's own, any
leaf, what a bootstrap writes besides the key, and what is issued, the report of which spells it
in hexadecimal digits. No number makes a certificate fail that is made with another one. -/
theorem serial_of_chance (chance : Chance) :
    (∀ {policy : Policy} {key : PrivateKey} {commonName : String} {days : Nat} {clock : Clock}
        {certificate : Certificate},
      Certificate.root policy key commonName days chance.serial clock = .ok certificate →
      certificate.encode.length < 2 ^ 63 →
        Certificate.decode? certificate.encode = some certificate ∧
        certificate.HoldsSerial chance.serial) ∧
    (∀ {request : Certificate.LeafRequest} {issuer leaf : Certificate} {signer : Signer}
        {suffix : UniqueSuffix} {clock : Clock} {commonName : String},
      Certificate.leafBy request issuer signer suffix chance.serial clock =
        .ok (leaf, commonName) →
      leaf.encode.length < 2 ^ 63 → leaf.HoldsSerial chance.serial) ∧
    (∀ {authority : Authority} {clock : Clock} {site : Site} {later : FileSystem} {place : Place}
        {content : Bytes} {access : Access},
      later = ((authority.bootstrap chance clock).perform site).2.files →
      later.get? place = some (.file content access) →
      site.files.get? place ≠ later.get? place → content.length < 2 ^ 63 →
        (∃ key, chance.keyOfSize? authority.policy.keySize = some key ∧
          content = authority.keyText chance key) ∨
        ∃ certificate, content = certificate.toPem ∧
          Certificate.ofPem? content = some certificate ∧
          certificate.HoldsSerial chance.serial) ∧
    (∀ {authority : Authority} {endpoint : Endpoint} {clock : Clock} {site site' : Site}
        {credential : Credential},
      (authority.issueFor endpoint chance clock).perform site = (.ok credential, site') →
        ∃ leaf text, credential.certificatePem = Pem.text leaf.toPem ∧
          (credential.certificatePem.utf8ByteSize < 2 ^ 63 →
            Certificate.ofPem? (Utf8.encode credential.certificatePem) = some leaf ∧
            leaf.HoldsSerial chance.serial) ∧
          ∃ event : Event,
            site'.events = site.events ++ endpoint.warnings chance.suffix ++ [event] ∧
            event.message = "Issued VPN certificate" ∧
            event.data = [("common_name", .text credential.commonName),
              ("purpose", .text endpoint.purpose.name), ("serial", .text text)] ∧
            Digits.read? 16 text.toList = some (chance.serial : Nat)) ∧
    ∀ serial : Fin (Nat.pow 2 serialBits),
      (∀ (policy : Policy) (key : PrivateKey) (commonName : String) (days : Nat) (clock : Clock),
        forget (Certificate.root policy key commonName days serial clock) =
          forget (Certificate.root policy key commonName days chance.serial clock)) ∧
      ∀ (authority : Authority) (endpoint : Endpoint) (clock : Clock) (site : Site),
        forget ((authority.issueFor endpoint { chance with serial } clock).perform site).1 =
          forget ((authority.issueFor endpoint chance clock).perform site).1 := by
  refine ⟨serial_of_root, fun made size => Certificate.holdsSerial_leafBy made
    (size.trans (by decide)) chance.serial.isLt, serial_of_bootstrap, serial_of_issued,
    fun serial => ⟨fun policy key commonName days clock => ?_,
      fun authority endpoint clock site => ?_⟩⟩
  · rw [Certificate.forget_root, Certificate.forget_root]
  · exact (authority.forget_issueFor endpoint { chance with serial } clock site).trans
      (authority.forget_issueFor endpoint chance clock site).symm

def numbered (p : Nat) (serial : Fin (Nat.pow 2 serialBits)) : Chance :=
  { Chance.ofSmallPrime p with serial }

theorem serial_of_chance_edges :
    let own := numbered 5 ⟨0x80, by decide +kernel⟩
    let other := numbered 7 ⟨Nat.pow 2 159 - 1, by decide +kernel⟩
    ∃ certificate reported credential later issued leaf text,
      (plain.bootstrap own plainClock).perform ⟨.empty, []⟩ =
        (.ok (), ⟨plain.newFiles own certificate .empty, reported⟩) ∧
      Certificate.decode? certificate.encode = some certificate ∧
      certificate.HoldsSerial 0x80 ∧
      (∃ element, Certificate.serialElement? certificate.encode = some element ∧
        element.raw = [2, 2, 0, 0x80]) ∧
      (∃ content access written, (plain.newFiles own certificate .empty).get?
          [plain.certificatePath] = some (.file content access) ∧
        Certificate.ofPem? content = some written ∧ written.HoldsSerial 0x80) ∧
      (plain.issueFor (.client ⟨"office", .user "alice@example.org"⟩) other plainClock).perform
        ⟨plain.newFiles own certificate .empty, reported⟩ = (.ok credential, later) ∧
      Certificate.ofPem? (Utf8.encode credential.certificatePem) = some issued ∧
      issued.HoldsSerial (2 ^ 159 - 1) ∧
      credential.certificatePem = Pem.text (Certificate.toPem leaf) ∧
      leaf.HoldsSerial (2 ^ 159 - 1) ∧
      Digits.read? 16 (text : String).toList = some (2 ^ 159 - 1) := by
  intro own other
  have regular : own.IsRegular 2206 :=
    ⟨Chance.isSound_ofSmallPrime_five.key, Chance.isSound_ofSmallPrime_five.iv⟩
  have regular' : other.IsRegular 2206 :=
    ⟨Chance.isSound_ofSmallPrime_seven.key, Chance.isSound_ofSmallPrime_seven.iv⟩
  obtain ⟨certificate, reported, bootstrapped, loaded, isOwn⟩ := exists_bootstrap_plain regular
  obtain ⟨credential, events, done, -, size⟩ := exists_issueFor_plain
    (.client ⟨"office", .user "alice@example.org"⟩) reported dates_plainClock regular
    regular' loaded isOwn (by decide) (by decide)
  have length := Certificate.length_encode_root_le isOwn.isSize regular.key own.serial.isLt
    isOwn.certificate
  have caSize := length.trans_lt (by decide : Certificate.maxLength < 2 ^ 63)
  have pemSize := Certificate.size_text_lt length
  rw [← Utf8.length_encode, Certificate.encode_text_toPem] at pemSize
  have there : (plain.newFiles own certificate .empty).get? [plain.certificatePath] =
    some (.file certificate.toPem .everyone) := get?_certificatePath_newFiles
  obtain ⟨root, -, bootstrap, -⟩ := serial_of_chance own
  obtain ⟨-, leafBy, -, issue, -⟩ := serial_of_chance other
  obtain ⟨decoded, holds⟩ := root isOwn.certificate caSize
  have element : ∃ element, Certificate.serialElement? certificate.encode = some element ∧
      element.raw = [2, 2, 0, 0x80] := by
    obtain ⟨-, validity, signature, -, -, rfl⟩ := Certificate.root_eq_ok_iff.1 isOwn.certificate
    exact ⟨_, Certificate.serialElement?_signed (caSize.trans (by decide)),
      (by decide +kernel : Asn1.natural 0x80 = [2, 2, 0, 0x80])⟩
  obtain ⟨written, isWritten, holdsWritten⟩ : ∃ written,
      Certificate.ofPem? certificate.toPem = some written ∧ written.HoldsSerial 0x80 := by
    have new := @bootstrap plain plainClock ⟨.empty, []⟩ _ _ _ _ (by rw [bootstrapped]) there
      (by rw [there]; exact nofun) pemSize
    rcases new with ⟨key, -, isKey⟩ | ⟨written, -, found⟩
    · -- The labels of the two kinds of block differ.
      have label : certificate.toPem[11]? = some 67 := rfl
      rw [isKey] at label
      cases label
    · exact ⟨written, found⟩
  obtain ⟨issued, text, -, read, event, -, -, -, spelt⟩ := issue done
  have steps := done
  rw [issueFor_eq, issue_eq_ok_iff] at steps
  obtain ⟨material, key, leaf, name, -, -, made, rfl, -⟩ := steps
  have holdsLeaf := leafBy made ((Certificate.length_encode_le_text leaf).trans_lt size)
  exact ⟨certificate, reported, _, _, issued, leaf, text, bootstrapped, decoded, holds, element,
    ⟨_, _, written, there, isWritten, holdsWritten⟩, done, (read size).1, (read size).2, rfl,
    holdsLeaf, spelt⟩

end Authority

end VpnAuthority
