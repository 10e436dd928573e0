import VpnAuthority.Authority
import VpnAuthority.Proofs.Certificate
import VpnAuthority.Proofs.Outcome
import VpnAuthority.Proofs.PrivateKey

/-! What an authority finds in its files. -/
namespace VpnAuthority

theorem Certificate.ofPem?_toEncryptedPem (key : Rsa.PrivateKey) {passphrase iv : Bytes}
    (hi : iv.length = 16) : Certificate.ofPem? (key.toEncryptedPem passphrase iv) = none := by
  have other : ¬(PrivateKey.bareLabel == Certificate.pemLabel ||
      PrivateKey.bareLabel == Certificate.oldPemLabel) = true := by decide
  rw [Certificate.ofPem?, Rsa.PrivateKey.find?_toEncryptedPem hi, if_neg other]
  rfl

theorem PrivateKey.ofPem?_certificate (passphrase : Bytes) (certificate : Certificate) :
    PrivateKey.ofPem? passphrase certificate.toPem = none := by
  have isSome : certificate.encode ≠ [] := by simp [Certificate.encode_eq, Asn1.encode]
  have other : ¬PrivateKey.labels.contains Certificate.pemLabel = true := by decide
  rw [PrivateKey.ofPem?, Certificate.toPem, Pem.find?_encode Certificate.isLabel_pemLabel isSome,
    if_neg other]
  rfl

namespace Authority

variable {authority : Authority} {files : FileSystem}

theorem readMaterial_eq_ok_iff {path : String} {text : Bytes} :
    readMaterial files path = .ok text ↔ files.read path = .ok text := by
  unfold readMaterial
  split <;> simp_all

theorem loadCertificate_eq_ok_iff {certificate : Certificate} :
    authority.loadCertificate files = .ok certificate ↔
      ∃ text, files.read authority.certificatePath = .ok text ∧
        Certificate.ofPem? text = some certificate := by
  simp only [loadCertificate, bind_eq_ok, readMaterial_eq_ok_iff]
  refine exists_congr fun text => and_congr_right fun _ => ?_
  cases Certificate.ofPem? text <;> simp

theorem loadKey_eq_ok_iff {key : Rsa.PrivateKey} :
    authority.loadKey files = .ok key ↔
      ∃ text, files.read authority.keyPath = .ok text ∧
        authority.passphrase.octets.contains 0 = false ∧
        PrivateKey.ofPem? authority.passphrase.octets text = some (.rsa key) := by
  simp only [loadKey, loadKeyBy, bind_eq_ok, readMaterial_eq_ok_iff]
  refine exists_congr fun text => and_congr_right fun _ => ?_
  unfold keyOfText
  split
  · next nul => simp only [nul, reduceCtorEq, Bool.true_eq_false, false_and]
  · next plain =>
    rw [Bool.not_eq_true] at plain
    split <;> simp_all

theorem loadMaterial_eq_ok_iff {material : Material} :
    authority.loadMaterial files = .ok material ↔
      authority.loadCertificate files = .ok material.certificate ∧
        authority.loadKey files = .ok material.key := by
  simp only [loadMaterial, bind_eq_ok]
  constructor
  · rintro ⟨certificate, hc, key, hk, ⟨⟩⟩
    exact ⟨hc, hk⟩
  · rintro ⟨hc, hk⟩
    exact ⟨_, hc, _, hk, rfl⟩

end Authority

end VpnAuthority
