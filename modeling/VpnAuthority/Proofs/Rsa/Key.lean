import VpnAuthority.Proofs.Asn1.Values
import VpnAuthority.Rsa.Key

/-! Keys are read back from the numbers they are written as. -/
namespace VpnAuthority.Rsa

open Asn1 (Element Fits written)

private theorem readAll?_naturals {numbers : List Nat}
    (fits : Fits (numbers.map Asn1.natural).flatten) :
    Asn1.readAll? (numbers.map Asn1.natural).flatten =
      some (numbers.map fun n => written Asn1.integerTag (Asn1.naturalOctets n)) := by
  have parts : numbers.map Asn1.natural =
      (numbers.map Asn1.naturalOctets).map (Asn1.encode Asn1.integerTag) := by
    rw [List.map_map]
    rfl
  rw [parts, Asn1.readAll?_map_encode (by decide) (by decide), List.map_map]
  · rfl
  · intro content hc
    obtain ⟨n, hn, rfl⟩ := List.mem_map.1 hc
    exact (fits.of_mem (List.mem_map_of_mem (f := Asn1.natural) hn)).of_encode

private theorem read?_naturals (numbers : List Nat)
    (fits : Fits (Asn1.sequence (numbers.map Asn1.natural))) :
    (Asn1.read? (Asn1.sequence (numbers.map Asn1.natural))).bind (·.1.members?) =
      some (numbers.map fun n => written Asn1.integerTag (Asn1.naturalOctets n)) := by
  have whole := Asn1.read?_encode (by decide : Asn1.IsShortTag Asn1.sequenceTag) fits.of_encode []
  rw [List.append_nil] at whole
  rw [Asn1.sequence, whole, Option.bind_some, Asn1.members?_written_sequence,
    readAll?_naturals fits.of_encode]

theorem PublicKey.decode?_encode {key : PublicKey} (fits : Fits key.encode) :
    decode? key.encode = some key := by
  have := read?_naturals [key.modulus, key.exponent] fits
  obtain ⟨⟨element, rest⟩, read, members⟩ := Option.bind_eq_some_iff.1 this
  rw [decode?, encode]
  simp only [List.map_cons, List.map_nil] at read members
  simp only [read, members, Option.bind_eq_bind, Option.bind_some, Asn1.magnitude?_written_natural]

@[simp] theorem PublicKey.ofInfo?_toInfo {key : PublicKey} (fits : Fits key.encode) :
    ofInfo? key.toInfo = some key := by
  rw [ofInfo?, toInfo, if_pos rfl]
  exact decode?_encode fits

theorem PrivateKey.decode?_encode {key : PrivateKey} (fits : Fits key.encode) :
    decode? key.encode = some key := by
  have := read?_naturals [0, key.modulus, key.publicExponent, key.privateExponent,
    key.firstPrime, key.secondPrime, key.firstExponent, key.secondExponent, key.coefficient] fits
  obtain ⟨⟨element, rest⟩, read, members⟩ := Option.bind_eq_some_iff.1 this
  simp only [List.map_cons, List.map_nil] at read members
  have twoPrimes := Asn1.shortInteger?_written_natural (by decide : 0 < 0x80000000)
  rw [decode?, encode]
  simp only [List.map_cons, List.map_nil, read, members, Option.bind_eq_bind, Option.bind_some,
    twoPrimes, List.take_succ_cons, List.take_nil, List.mapM_cons,
    List.mapM_nil, Asn1.magnitude?_written_natural]
  rfl

end VpnAuthority.Rsa
