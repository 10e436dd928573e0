import VpnAuthority.CommonName
import VpnAuthority.Proofs.Text.Utf8

/-! What a shortened name keeps of its subject, and that it is told from any other by its random
half alone. -/
namespace VpnAuthority

theorem UniqueSuffix.digits_inj {suffix suffix' : UniqueSuffix} :
    suffix.digits = suffix'.digits ↔ suffix = suffix' := by
  cases suffix
  cases suffix'
  simp

theorem UniqueSuffix.isAscii_of_mem (suffix : UniqueSuffix) :
    ∀ c ∈ suffix.digits, c.toNat < 128 := by
  intro c isMember
  have isDigit := List.all_eq_true.1 suffix.isHex c isMember
  simp only [Digits.isLowerHex, Char.isDigit, Bool.or_eq_true, Bool.and_eq_true,
    decide_eq_true_eq, Char.le_def, ge_iff_le, UInt32.le_iff_toNat_le] at isDigit
  change c.val.toNat < 128
  rcases isDigit with ⟨-, below⟩ | ⟨-, below⟩ <;> exact Nat.lt_of_le_of_lt below (by decide)

namespace CommonName

variable {suffix suffix' : UniqueSuffix} {subject subject' : String}

theorem ofSubject_of_le (short : subject.length ≤ maxLength) : ofSubject suffix subject = subject :=
  if_pos short

theorem ofSubject_of_lt (long : maxLength < subject.length) :
    ofSubject suffix subject = String.ofList (subject.toList.take keptLength ++ suffix.digits) :=
  if_neg (Nat.not_le.2 long)

theorem toList_ofSubject (long : maxLength < subject.length) :
    (ofSubject suffix subject).toList = subject.toList.take keptLength ++ suffix.digits := by
  rw [ofSubject_of_lt long, String.toList_ofList]

theorem encode_ofSubject (long : maxLength < subject.length) :
    Utf8.encode (ofSubject suffix subject) =
      Utf8.encode (String.ofList (subject.toList.take keptLength)) ++
        suffix.digits.map fun c => UInt8.ofNat c.toNat := by
  rw [ofSubject_of_lt long, Utf8.encode_ofList, List.flatMap_append, ← Utf8.encode_ofList,
    ← Utf8.encode_ofList, Utf8.encode_ofList_ascii suffix.isAscii_of_mem]

theorem length_take (long : maxLength < subject.length) :
    (subject.toList.take keptLength).length = keptLength := by
  have : keptLength ≤ maxLength := by decide
  rw [List.length_take, String.length_toList]
  omega

theorem length_shortened (long : maxLength < subject.length) :
    (ofSubject suffix subject).length = maxLength := by
  rw [← String.length_toList, toList_ofSubject long, List.length_append, length_take long,
    suffix.length_digits]
  rfl

theorem ofSubject_eq_self_iff : ofSubject suffix subject = subject ↔ subject.length ≤ maxLength := by
  refine ⟨fun same => ?_, ofSubject_of_le⟩
  by_contra long
  have shortened : (ofSubject suffix subject).length = maxLength :=
    length_shortened (Nat.not_le.1 long)
  rw [same] at shortened
  exact long (Nat.le_of_eq shortened)

/-- Both halves of a shortened name can be told apart, since their lengths are fixed. -/
theorem ofSubject_inj (long : maxLength < subject.length) (long' : maxLength < subject'.length) :
    ofSubject suffix subject = ofSubject suffix' subject' ↔
      subject.toList.take keptLength = subject'.toList.take keptLength ∧ suffix = suffix' := by
  have sameLength : (subject.toList.take keptLength).length =
      (subject'.toList.take keptLength).length := by rw [length_take long, length_take long']
  rw [← String.toList_inj, toList_ofSubject long, toList_ofSubject long',
    ← UniqueSuffix.digits_inj]
  exact ⟨fun same => List.append_inj same sameLength, fun ⟨front, back⟩ => by rw [front, back]⟩

/-- A subject of at most 64 characters is its own common name, and no other is. Of a longer one
the first 32 characters are kept, whatever number of octets each has, and the random digits stand
behind them; a name made so is never shortened again. Two of them are the same only if what they
keep and their digits are. -/
theorem shortening_of_subject (suffix : UniqueSuffix) (subject : String) :
    (ofSubject suffix subject = subject ↔ subject.length ≤ 64) ∧
    (64 < subject.length →
      (ofSubject suffix subject).length = 64 ∧
      (ofSubject suffix subject).toList = subject.toList.take 32 ++ suffix.digits ∧
      Utf8.encode (ofSubject suffix subject) =
        Utf8.encode (String.ofList (subject.toList.take 32)) ++
          suffix.digits.map (fun c => UInt8.ofNat c.toNat) ∧
      ofSubject suffix subject ≠ subject ∧
      ∀ suffix', ofSubject suffix' (ofSubject suffix subject) = ofSubject suffix subject) ∧
    ∀ suffix' subject', 64 < subject.length → 64 < subject'.length →
      (ofSubject suffix subject = ofSubject suffix' subject' ↔
        subject.toList.take 32 = subject'.toList.take 32 ∧ suffix = suffix') ∧
      (suffix ≠ suffix' → ofSubject suffix subject ≠ ofSubject suffix' subject') := by
  refine ⟨ofSubject_eq_self_iff, fun long => ?_, fun suffix' subject' long long' => ?_⟩
  · have length : (ofSubject suffix subject).length = maxLength := length_shortened long
    refine ⟨length, toList_ofSubject long, encode_ofSubject long, fun same => ?_, fun suffix' => ?_⟩
    · exact absurd (ofSubject_eq_self_iff.1 same) (Nat.not_le.2 long)
    · exact ofSubject_of_le (Nat.le_of_eq length)
  · exact ⟨ofSubject_inj long long', fun apart same => apart ((ofSubject_inj long long').1 same).2⟩

theorem shortening_of_subject_wide :
    let subject := String.ofList (List.replicate 65 'ü')
    64 < subject.length ∧
      (Utf8.encode (ofSubject (.ofBits 0) subject)).length = 32 * 2 + 32 ∧
      ofSubject (.ofBits 1) (ofSubject (.ofBits 0) subject) = ofSubject (.ofBits 0) subject ∧
      ofSubject (.ofBits 0) subject ≠ ofSubject (.ofBits 1) subject := by
  intro subject
  have long : 64 < subject.length := by
    rw [String.length_ofList, List.length_replicate]
    decide
  obtain ⟨-, shortened, apart⟩ := shortening_of_subject (.ofBits 0) subject
  obtain ⟨-, -, octets, -, stays⟩ := shortened long
  refine ⟨long, ?_, stays _, (apart (.ofBits 1) subject long long).2 ?_⟩
  · rw [octets, String.toList_ofList, List.take_replicate]
    decide +kernel
  · decide +kernel

end CommonName

end VpnAuthority
