import VpnAuthority.Proofs.Certificate.Profile
import VpnAuthority.Proofs.Digest

/-! The extensions that the authority writes are read back, and all are in order. -/
namespace VpnAuthority

open Asn1 (Fits written)

theorem PublicKeyInfo.length_keyId (key : PublicKeyInfo) : key.keyId.length = 20 :=
  Digest.Kind.length_apply .sha1 key.octets

namespace Extension

theorem element?_encode {tag : UInt8} {content : Bytes} (hs : Asn1.IsShortTag tag)
    (fits : Fits content) : element? (Asn1.encode tag content) = some (written tag content) := by
  have := Asn1.read?_encode hs fits []
  rw [List.append_nil] at this
  rw [element?, this]
  rfl

theorem octets?_octetString {content : Bytes} (fits : Fits content) :
    octets? (Asn1.octetString content) = some content := by
  rw [octets?, Asn1.octetString, element?_encode (by decide) fits]
  exact Asn1.octetString?_written content

theorem bits?_digitalSignature : bits? digitalSignature.value = some [0x80] := by decide +kernel

theorem objectIds?_purpose (purpose : Purpose) :
    objectIds? (Extension.purpose purpose).value = some [purpose.id] := by
  cases purpose <;> decide +kernel

theorem generalNames?_hostName {name : String} (fits : Fits (Asn1.encode 0x82 (Utf8.encode name))) :
    generalNames? (hostName name).value = some [none] := by
  have inner : Asn1.readAll? (Asn1.encode 0x82 (Utf8.encode name)) =
      some [written 0x82 (Utf8.encode name)] :=
    Asn1.readAll?_encode (by decide) (by decide) fits.of_encode
  have isGeneral : readGeneralName? (written 0x82 (Utf8.encode name)) = some none := rfl
  have isList (content : Bytes) : (written Asn1.sequenceTag content).isUniversal 16 = true := rfl
  rw [generalNames?, hostName, Asn1.sequence, List.flatten_singleton,
    element?_encode (by decide) fits]
  simp only [Option.bind_eq_bind, Option.bind_some, isList, if_true, readGeneralNames?,
    Asn1.written_content, inner, List.mapM_cons, List.mapM_nil, isGeneral]
  rfl

def hostNames? (value : Bytes) : Option (List Bytes) := do
  (← (← element? value).items? 16).mapM fun name =>
    if name.isContext 2 ∧ !name.constructed then some name.content else none

theorem hostNames?_hostName {name : String} (fits : Fits (Asn1.encode 0x82 (Utf8.encode name))) :
    hostNames? (hostName name).value = some [Utf8.encode name] := by
  have inner : Asn1.readAll? (Asn1.encode 0x82 (Utf8.encode name)) =
      some [written 0x82 (Utf8.encode name)] :=
    Asn1.readAll?_encode (by decide) (by decide) fits.of_encode
  have isHost : (written 0x82 (Utf8.encode name)).isContext 2 ∧
      !(written 0x82 (Utf8.encode name)).constructed := ⟨rfl, rfl⟩
  unfold hostNames? hostName Asn1.sequence
  rw [List.flatten_singleton, element?_encode (by decide) fits]
  simp only [Option.bind_eq_bind, Option.bind_some, Asn1.items?_written_sequence, inner,
    List.mapM_cons, List.mapM_nil, if_pos isHost, Asn1.written_content]
  rfl

end Extension

theorem BasicConstraints.decode?_encode_root :
    decode? (encode ⟨true, some 0⟩) = some ⟨true, some 0⟩ := by
  decide +kernel

theorem BasicConstraints.decode?_encode_leaf :
    decode? (encode ⟨false, none⟩) = some ⟨false, none⟩ := by
  decide +kernel

theorem AuthorityKey.decode?_encode_none : decode? (encode none) = some ⟨none, [], none⟩ := by
  decide +kernel

theorem AuthorityKey.decode?_encode {keyId : Bytes} (fits : Fits (Asn1.encode 0x80 keyId)) :
    decode? (encode (some keyId)) = some ⟨some keyId, [], none⟩ := by
  have read : Asn1.readAll? (Asn1.encode 0x80 keyId) = some [written 0x80 keyId] :=
    Asn1.readAll?_encode (by decide) (by decide) fits.of_encode
  have fields : Extension.fields? (encode (some keyId)) = some [written 0x80 keyId] := by
    rw [Extension.fields?, encode, Asn1.sequence, List.flatten_singleton,
      Extension.element?_encode (by decide) fits]
    simp only [Option.bind_eq_bind, Option.bind_some, Asn1.members?_written_sequence, read]
    rfl
  have octets : (written 0x80 keyId).octets? = some keyId := Asn1.octets?_written (by decide) keyId
  have tag : (written 0x80 keyId).tag = 0 := rfl
  rw [decode?, fields]
  simp [readField?, tag, octets]

end VpnAuthority
