import VpnAuthority.Proofs.Certificate

/-! A certificate of any origin, written anew. The body is kept as it was read; the algorithm
and the signature around it get a form of their own, which is read as the same. One kind of
parameters is the exception: written anew they are the mark of an open end. -/
namespace VpnAuthority

open Asn1 (Element Fits Reads written)

/-- The mark that ends an element of open length, and what an element of its tag is without
content. -/
def Asn1.openEnd : Bytes := Asn1.encode 0 []

namespace Algorithm

def EndsEarly (algorithm : Algorithm) : Prop := algorithm.parameters = some Asn1.openEnd

instance (algorithm : Algorithm) : Decidable algorithm.EndsEarly :=
  inferInstanceAs (Decidable (_ = _))

private def simple (tag : Nat) (content : Bytes) : Element :=
  ⟨.universal, tag, false, content, encodeSimple tag content⟩

private theorem simple_of_low {tag : Nat} (low : tag < 31) (content : Bytes) :
    simple tag content = written (UInt8.ofNat tag) content ∧ Asn1.IsShortTag (UInt8.ofNat tag) := by
  have all : ∀ tag < 31, Asn1.TagClass.ofOctet (UInt8.ofNat tag) = .universal ∧
      (UInt8.ofNat tag).toNat &&& 0x1f = tag ∧ (UInt8.ofNat tag &&& 0x20 != 0) = false ∧
      Asn1.IsShortTag (UInt8.ofNat tag) := by decide
  obtain ⟨universal, same, primitive, isShort⟩ := all tag low
  rw [simple, encodeSimple, if_pos low, written, universal, same, primitive]
  exact ⟨rfl, isShort⟩

private theorem reads_encodeSimple {tag : Nat} {content : Bytes} (high : ¬tag < 31)
    (small : tag < 2 ^ 31) (fits : Fits content) (rest : Bytes) :
    Reads (encodeSimple tag content) (simple tag content) rest := by
  have header : Asn1.readHeader (0x1f :: (Asn1.ObjectId.encodeArc tag ++
      Asn1.encodeLength content.length) ++ (content ++ rest)) =
      some (⟨.universal, tag, false, some content.length⟩, content ++ rest) := by
    have hr : content.length ≤ (content ++ rest).length := by simp
    rw [List.cons_append, Asn1.readHeader, if_pos (by decide), List.append_assoc,
      Asn1.ObjectId.readHighTag_encodeArc small]
    simp only [Option.bind_eq_bind, Option.bind_some, Asn1.readLength_encodeLength fits hr, hr,
      if_true]
    rfl
  have whole : encodeSimple tag content = 0x1f :: (Asn1.ObjectId.encodeArc tag ++
      Asn1.encodeLength content.length) ++ content := by
    rw [encodeSimple, if_neg high, List.cons_append]
  constructor
  · rw [simple, whole, List.append_assoc, Asn1.read?_of_readHeader header rfl]
  · exact ⟨0x1f, _, whole, by decide⟩

private theorem readAll?_encodeSimple {tag : Nat} {content : Bytes} (small : tag < 2 ^ 31)
    (fits : Fits (encodeSimple tag content)) (other : encodeSimple tag content ≠ Asn1.openEnd) :
    Asn1.readAll? (encodeSimple tag content) = some [simple tag content] := by
  by_cases low : tag < 31
  · obtain ⟨same, isShort⟩ := simple_of_low low content
    rw [same]
    rw [encodeSimple, if_pos low] at fits other ⊢
    exact Asn1.readAll?_encode_alone isShort fits.of_encode other
  · have fits : Fits content := by
      rw [encodeSimple, if_neg low] at fits
      exact (Fits.of_append (b := content) (a := 0x1f :: _) fits).2
    have alone := (reads_encodeSimple low small fits []).readAll?_append
    rwa [List.append_nil, Asn1.readAll?_nil] at alone

private theorem primitive?_again {element : Element} {n : Nat} {read : Bytes → Option α} {value : α}
    (h : (element.primitive? n).bind read = some value) :
    ((simple n element.content).primitive? n).bind read = some value := by
  obtain ⟨content, hp, hr⟩ := Option.bind_eq_some_iff.1 h
  have again : (simple n content).primitive? n = some content := by
    simp [Element.primitive?, Element.isUniversal, simple]
  unfold Element.primitive? at hp
  split at hp
  · cases hp
    rw [again, Option.bind_some, hr]
  · cases hp

private theorem bitString?_again {element : Element} {unused : UInt8} {octets : Bytes}
    (h : element.bitString? = some (unused, octets)) :
    (written Asn1.bitStringTag (unused :: octets)).bitString? = some (unused, octets) := by
  unfold Element.bitString? at h
  split at h
  · obtain ⟨joined, -, hb⟩ := Option.bind_eq_some_iff.1 h
    rw [Asn1.bitString?_written, Asn1.bitStringOfOctets?_again hb]
  · cases h

private theorem parameters?_octets {tag : Nat} {octets : Bytes}
    (isOther : ∀ known ∈ [1, 2, 3, 5, 6, 10, 16, 17], tag ≠ known)
    (isWhole : Asn1.isWhole tag octets = true) :
    parameters? (simple tag octets) = some (encodeSimple tag octets) := by
  rw [parameters?, if_neg (by simp [simple])]
  dsimp only [simple]
  split
  iterate 8 · exact absurd rfl (isOther _ (by simp))
  · rw [Element.octets?, Element.joined?]
    exact if_pos isWhole

/-- What a simple type is written as is in order if it was. -/
private theorem parameters?_simple {element : Element} {bytes : Bytes}
    (universal : element.tagClass = .universal) (isSimple : element.tag ≠ 16 ∧ element.tag ≠ 17)
    (h : parameters? element = some bytes) :
    ∃ content, bytes = encodeSimple element.tag content ∧
      parameters? (simple element.tag content) = some bytes := by
  rw [parameters?, if_neg (not_not_intro universal)] at h
  split at h
  · next isSequence => exact absurd isSequence isSimple.1
  · next isSet => exact absurd isSet isSimple.2
  · next isBoolean =>
    obtain ⟨value, hb, rfl⟩ := Option.map_eq_some_iff.1 h
    rw [isBoolean]
    exact ⟨element.content, rfl,
      congrArg (Option.map fun _ => Asn1.encode 1 element.content) (primitive?_again hb)⟩
  · next isInteger =>
    obtain ⟨value, hi, rfl⟩ := Option.map_eq_some_iff.1 h
    rw [isInteger]
    exact ⟨element.content, rfl,
      congrArg (Option.map fun _ => Asn1.encode 2 element.content) (primitive?_again hi)⟩
  · next isEnumerated =>
    split at h
    · cases h
    · obtain ⟨value, hi, rfl⟩ := Option.map_eq_some_iff.1 h
      rw [isEnumerated]
      exact ⟨element.content, rfl,
        congrArg (Option.map fun _ => Asn1.encode 10 element.content) hi⟩
  · next isBits =>
    obtain ⟨⟨unused, octets⟩, hb, rfl⟩ := Option.map_eq_some_iff.1 h
    rw [isBits]
    exact ⟨unused :: octets, rfl, congrArg (Option.map fun bits : UInt8 × Bytes =>
      Asn1.encode 3 (bits.1 :: bits.2)) (bitString?_again hb)⟩
  · next isNull =>
    split at h
    · cases h
      rw [isNull]
      exact ⟨[], rfl, rfl⟩
    · cases h
  · next isId =>
    obtain ⟨value, hi, rfl⟩ := Option.map_eq_some_iff.1 h
    rw [isId]
    exact ⟨element.content, rfl,
      congrArg (Option.map fun _ => Asn1.encode 6 element.content) (primitive?_again hi)⟩
  · next noSequence noSet noBoolean noInteger noEnumerated noBits noNull noId =>
    obtain ⟨octets, ho, h⟩ := Option.bind_eq_some_iff.1 h
    split at h
    · next isWhole =>
      cases h
      refine ⟨octets, rfl, parameters?_octets ?_ isWhole⟩
      simp only [List.forall_mem_cons]
      exact ⟨noBoolean, noInteger, noBits, noNull, noId, noEnumerated, isSimple.1, isSimple.2,
        by simp⟩
    · cases h

private theorem eq_raw_of_parameters? {element : Element} {bytes : Bytes}
    (kept : element.tagClass ≠ .universal ∨ element.tag = 16 ∨ element.tag = 17)
    (h : parameters? element = some bytes) : bytes = element.raw := by
  unfold parameters? at h
  split at h
  · exact (Option.some.inj h).symm
  · next universal =>
    have isList : element.tag = 16 ∨ element.tag = 17 := kept.resolve_left universal
    have listed : (if element.constructed then some element.raw else none) = some bytes := by
      rcases isList with tag | tag <;> rw [tag] at h <;> exact h
    split at listed
    · exact (Option.some.inj listed).symm
    · cases listed

theorem parameters?_again {element : Element} {bytes : Bytes}
    (h : parameters? element = some bytes) (alone : Asn1.readAll? element.raw = some [element])
    (fits : Fits bytes) (other : bytes ≠ Asn1.openEnd) :
    ∃ again, Asn1.readAll? bytes = some [again] ∧ parameters? again = some bytes := by
  by_cases kept : element.tagClass ≠ .universal ∨ element.tag = 16 ∨ element.tag = 17
  · obtain rfl := eq_raw_of_parameters? kept h
    exact ⟨element, alone, h⟩
  · rw [not_or, not_not, not_or] at kept
    obtain ⟨content, rfl, again⟩ := parameters?_simple kept.1 kept.2 h
    exact ⟨_, readAll?_encodeSimple (Asn1.tag_lt_of_readAll? alone _ (by simp)) fits other, again⟩

private theorem members_of_ofElement? {element : Element} {algorithm : Algorithm}
    (h : ofElement? element = some algorithm) :
    algorithm.id.IsWritable = true ∧ ∀ bytes, algorithm.parameters = some bytes →
      ∃ parameters, parameters? parameters = some bytes ∧
        Asn1.readAll? parameters.raw = some [parameters] := by
  simp only [ofElement?, Option.bind_eq_bind, Option.bind_eq_some_iff] at h
  obtain ⟨members, hm, h⟩ := h
  have writable {id : Element} {value : Asn1.ObjectId} (hi : id.objectId? = some value) :
      value.IsWritable = true := by
    obtain ⟨octets, -, ho⟩ := Option.bind_eq_some_iff.1 hi
    exact Asn1.ObjectId.isWritable_of_ofOctets? ho
  unfold Element.members? at hm
  split at hm
  · split at h
    · simp only [Option.bind_eq_some_iff] at h
      obtain ⟨value, hi, h⟩ := h
      cases h
      refine ⟨writable hi, fun _ absent => ?_⟩
      cases absent
    · next id parameters =>
      simp only [Option.bind_eq_some_iff] at h
      obtain ⟨value, hi, bytes, hp, h⟩ := h
      cases h
      refine ⟨writable hi, fun _ same => ⟨parameters, ?_, ?_⟩⟩
      · exact hp.trans same
      · have last : Asn1.readAll? element.content = some ([id] ++ [parameters]) := hm
        exact Asn1.readAll?_raw_last last
    · cases h
  · cases hm

/-- An algorithm that was read is read again as it is written, unless its parameters are written
as the mark of an open end. Then nothing is. -/
theorem ofElement?_again {element : Element} {algorithm : Algorithm}
    (h : ofElement? element = some algorithm) (fits : Fits algorithm.content) :
    ofElement? (written Asn1.sequenceTag algorithm.content) =
      if algorithm.EndsEarly then none else some algorithm := by
  obtain ⟨writable, alone⟩ := members_of_ofElement? h
  obtain ⟨id, parameters⟩ := algorithm
  have idFits : Fits id.octets := (Fits.of_append fits).1.of_encode
  have idRead := Asn1.objectId?_written writable
  have members : Asn1.readAll? (content ⟨id, parameters⟩) =
      (Asn1.readAll? (parameters.getD [])).map (written Asn1.objectIdTag id.octets :: ·) :=
    Asn1.readAll?_encode_append (by decide) (by decide) idFits _
  rw [ofElement?, Asn1.members?_written_sequence, members]
  dsimp only at writable alone idRead ⊢
  split
  · next isMark =>
    have isNone : Asn1.readAll? Asn1.openEnd = none := by
      change Asn1.readAll? [0, 0] = none
      rw [Asn1.readAll?]
    rw [show parameters = some Asn1.openEnd from isMark, Option.getD_some, isNone]
    rfl
  · next other =>
    cases parameters with
    | none =>
      rw [Option.getD_none, Asn1.readAll?_nil]
      simp only [Option.map_some, Option.bind_eq_bind, Option.bind_some, idRead]
    | some bytes =>
      obtain ⟨before, hb, hr⟩ := alone bytes rfl
      obtain ⟨again, read, kept⟩ := parameters?_again hb hr (Fits.of_append fits).2
        fun same => other (congrArg some same)
      rw [Option.getD_some, read]
      simp only [Option.map_some, Option.bind_eq_bind, Option.bind_some, idRead, kept]

end Algorithm

private theorem CertificateBody.tag_ne_zero {element : Element} {body : CertificateBody}
    (h : ofElement? element = some body) : element.tag ≠ 0 := by
  simp only [ofElement?, Option.bind_eq_bind, Option.bind_eq_some_iff, Prod.exists] at h
  obtain ⟨members, hm, -⟩ := h
  unfold Element.members? Element.isUniversal at hm
  split at hm
  · next isSequence =>
    simp only [Bool.and_eq_true, beq_iff_eq] at isSequence
    rw [isSequence.1.2]
    decide
  · cases hm

namespace Certificate

variable {bytes : Bytes} {certificate : Certificate}

theorem parts_of_decode? (h : decode? bytes = some certificate) :
    (∃ body, CertificateBody.ofElement? body = some certificate.body ∧
      body.raw = certificate.bodyDer ∧
      ∀ more, more ≠ [] → Reads certificate.bodyDer body more) ∧
    (∃ algorithm, Algorithm.ofElement? algorithm = some certificate.algorithm) ∧
    Asn1.bitStringOfOctets? (certificate.unused :: certificate.signature) =
      some (certificate.unused, certificate.signature) := by
  simp only [decode?, Option.bind_eq_bind, Option.bind_eq_some_iff, Prod.exists] at h
  obtain ⟨element, _, -, members, hm, h⟩ := h
  split at h
  · next body algorithm signature =>
    simp only [Option.bind_eq_some_iff, Prod.exists] at h
    obtain ⟨unused, octets, bits, fields, hb, value, ha, h⟩ := h
    cases h
    refine ⟨⟨body, hb, rfl, fun more hm' => ?_⟩, ⟨algorithm, ha⟩, ?_⟩
    · unfold Element.members? at hm
      split at hm
      · obtain ⟨front, rest, hr⟩ := Asn1.read?_of_mem_readAll? hm body List.mem_cons_self
        exact Asn1.reads_raw hr (CertificateBody.tag_ne_zero hb) hm'
      · cases hm
    · unfold Element.bitString? at bits
      split at bits
      · obtain ⟨joined, -, bits⟩ := Option.bind_eq_some_iff.1 bits
        exact Asn1.bitStringOfOctets?_again bits
      · cases bits
  · cases h

theorem decode?_around {body : Element} {fields : CertificateBody} {algorithm signature : Bytes}
    {unused : UInt8} {octets : Bytes} (hb : CertificateBody.ofElement? body = some fields)
    (reads : ∀ more, more ≠ [] → Reads body.raw body more)
    (bits : Asn1.bitStringOfOctets? signature = some (unused, octets))
    (fits : Fits (body.raw ++ (Asn1.encode Asn1.sequenceTag algorithm ++
      Asn1.encode Asn1.bitStringTag signature))) :
    decode? (Asn1.encode Asn1.sequenceTag (body.raw ++ (Asn1.encode Asn1.sequenceTag algorithm ++
        Asn1.encode Asn1.bitStringTag signature))) =
      (Algorithm.ofElement? (written Asn1.sequenceTag algorithm)).map fun algorithm =>
        ⟨fields, body.raw, algorithm, unused, octets⟩ := by
  obtain ⟨-, behindFits⟩ := Fits.of_append fits
  obtain ⟨algorithmFits, signatureFits⟩ := Fits.of_append behindFits
  have whole := Asn1.read?_encode (by decide : Asn1.IsShortTag Asn1.sequenceTag) fits []
  rw [List.append_nil] at whole
  have members : Asn1.readAll? (body.raw ++ (Asn1.encode Asn1.sequenceTag algorithm ++
      Asn1.encode Asn1.bitStringTag signature)) = some [
        body, written Asn1.sequenceTag algorithm, written Asn1.bitStringTag signature] := by
    rw [(reads _ (by simp [Asn1.encode])).readAll?_append,
      Asn1.readAll?_encode_append (by decide) (by decide) algorithmFits.of_encode,
      Asn1.readAll?_encode (by decide) (by decide) signatureFits.of_encode]
    rfl
  rw [decode?, whole]
  simp only [Option.bind_eq_bind, Option.bind_some, Asn1.members?_written_sequence, members,
    Asn1.bitString?_written, bits, hb]
  cases Algorithm.ofElement? (written Asn1.sequenceTag algorithm) <;> rfl

/-- Of a certificate that was read, all is read again as it is written, or nothing is. -/
theorem decode?_encode_again (h : decode? bytes = some certificate)
    (fits : Fits certificate.encode) :
    decode? certificate.encode =
      if certificate.algorithm.EndsEarly then none else some certificate := by
  obtain ⟨⟨body, hb, raw, reads⟩, ⟨algorithm, ha⟩, bits⟩ := parts_of_decode? h
  rw [encode_eq, content, ← raw, Algorithm.encode_eq] at fits ⊢
  rw [← raw] at reads
  have algorithmFits := (Fits.of_append (Fits.of_append fits.of_encode).2).1.of_encode
  rw [decode?_around hb reads bits fits.of_encode, Algorithm.ofElement?_again ha algorithmFits]
  split
  · rfl
  · rw [Option.map_some, raw]

theorem ofPem?_toPem_again {text : Bytes} (h : ofPem? text = some certificate)
    (fits : Fits certificate.encode) :
    ofPem? certificate.toPem =
      if certificate.algorithm.EndsEarly then none else some certificate := by
  simp only [ofPem?, Option.bind_eq_bind, Option.bind_eq_some_iff] at h
  obtain ⟨block, -, h⟩ := h
  split at h
  · rw [ofPem?_toPem_eq, decode?_encode_again h fits]
  · cases h

end Certificate
end VpnAuthority
