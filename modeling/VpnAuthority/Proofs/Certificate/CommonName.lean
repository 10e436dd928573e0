import VpnAuthority.Certificate.CommonName
import VpnAuthority.Proofs.Certificate.Profile

/-! The common name of an issued certificate, as it is read again: what stands in front
of a first NUL. -/
namespace VpnAuthority

namespace CommonName

def front (name : String) : String := String.ofList (name.toList.takeWhile (· ≠ '\x00'))

theorem front_eq_self_iff (name : String) : front name = name ↔ '\x00' ∉ name.toList := by
  rw [front, ← String.toList_inj, String.toList_ofList, List.takeWhile_eq_self_iff]
  simp only [decide_eq_true_eq, ne_eq]
  exact ⟨fun h hm => h _ hm rfl, fun h c hc he => h (he ▸ hc)⟩

def kept (subject : String) : List Char :=
  if subject.length ≤ maxLength then subject.toList else subject.toList.take keptLength

theorem nul_mem_ofSubject_iff (suffix : UniqueSuffix) (subject : String) :
    '\x00' ∈ (ofSubject suffix subject).toList ↔ '\x00' ∈ kept subject := by
  unfold ofSubject kept
  split
  · rfl
  · have noNul : '\x00' ∉ suffix.digits := fun hm =>
      absurd (List.all_eq_true.1 suffix.isHex _ hm) (by decide)
    rw [String.toList_ofList, List.mem_append, or_iff_left noNul]

end CommonName

namespace Certificate

theorem commonNames_leaf (request : LeafRequest) (issuer : Certificate) (name : String)
    (serial : Nat) (validity : Validity) (signature : Bytes) :
    (signed (leafBody request issuer name serial validity) signature).commonNames =
      [SubjectField.commonName.entry name] := by
  simp only [commonNames, signed, leafBody, newBody, DistinguishedName.attributes,
    DistinguishedName.ofSets, DistinguishedName.subjectSets, SubjectField.all]
  rfl

theorem text?_commonName_entry (name : String) :
    (SubjectField.commonName.entry name).text? = some name := by
  simp [SubjectField.entry, SubjectField.tag, NameAttribute.text?, Asn1.text?]

theorem commonName_leaf (request : LeafRequest) (issuer : Certificate) (name : String)
    (serial : Nat) (validity : Validity) (signature : Bytes) :
    (signed (leafBody request issuer name serial validity) signature).commonName =
      .ok (CommonName.front name) := by
  rw [commonName, commonNames_leaf]
  simp only [text?_commonName_entry, CommonName.front]

end Certificate

end VpnAuthority
