import VpnAuthority.Proofs.Certificate.Length

/-! The names of subjects, by a table of what each of their attributes may be. A name is made
exactly if the table admits all of its values, and it is read back as these values and nothing
else. -/
namespace VpnAuthority

open Asn1 (Fits)

namespace CertificateFault

private def all : List CertificateFault :=
  SubjectField.all.map subject ++ [startTime, endTime, signing, malformed, commonName, chainCheck]

theorem message_injective {a b : CertificateFault} (h : a.message = b.message) : a = b := by
  have isKnown (fault : CertificateFault) : fault ∈ all := by
    cases fault with
    | subject field => cases field <;> simp [all, SubjectField.all]
    | startTime | endTime | signing | malformed | commonName | chainCheck => simp [all]
  have differ : ∀ a ∈ all, ∀ b ∈ all, a.message = b.message → a = b := by decide +kernel
  exact differ a (isKnown a) b (isKnown b) h

end CertificateFault

def IsPrintable (c : Char) : Prop :=
  ('A' ≤ c ∧ c ≤ 'Z') ∨ ('a' ≤ c ∧ c ≤ 'z') ∨ ('0' ≤ c ∧ c ≤ '9') ∨
    c ∈ [' ', '\'', '(', ')', '+', ',', '-', '.', '/', ':', '=', '?']

theorem isPrintableStringChar_iff (c : Char) :
    Asn1.isPrintableStringChar c = true ↔ IsPrintable c := by
  have split : c.isAlphanum = (c.isUpper || c.isLower || c.isDigit) := rfl
  have upper : c.isUpper = decide ('A'.val ≤ c.val ∧ c.val ≤ 'Z'.val) := rfl
  have lower : c.isLower = (decide ('a'.val ≤ c.val) && decide (c.val ≤ 'z'.val)) := rfl
  have digit : c.isDigit = (decide ('0'.val ≤ c.val) && decide (c.val ≤ '9'.val)) := rfl
  simp only [Asn1.isPrintableStringChar, IsPrintable, split, upper, lower, digit, Bool.or_eq_true,
    Bool.and_eq_true, decide_eq_true_eq, List.contains_iff_mem, Char.le_def, or_assoc]

theorem IsPrintable.isAscii {c : Char} (h : IsPrintable c) : c.toNat < 128 := by
  have bound {d : Char} (hd : d.toNat < 128) (hc : c ≤ d) : c.toNat < 128 := by
    have : c.toNat ≤ d.toNat := UInt32.le_iff_toNat_le.1 (Char.le_def.1 hc)
    omega
  rcases h with ⟨-, h⟩ | ⟨-, h⟩ | ⟨-, h⟩ | h
  · exact bound (by decide) h
  · exact bound (by decide) h
  · exact bound (by decide) h
  · have marks : [' ', '\'', '(', ')', '+', ',', '-', '.', '/', ':', '=', '?'].all
        (·.toNat < 128) = true := by decide
    exact of_decide_eq_true (List.all_eq_true.1 marks c h)

theorem latinText_encode {text : String} (h : ∀ c ∈ text.toList, c.toNat < 128) :
    Asn1.latinText (Utf8.encode text) = text.toList := by
  rw [← String.ofList_toList (s := text), Utf8.encode_ofList_ascii (by simpa using h),
    String.toList_ofList, Asn1.latinText, List.map_map]
  refine (List.map_congr_left fun c hc => ?_).trans (List.map_id _)
  have small := h c hc
  rw [Function.comp_apply, UInt8.toNat_ofNat', Nat.mod_eq_of_lt (by omega), Char.ofNat_toNat, id]

theorem SubjectField.text?_entry {field : SubjectField} {text : String}
    (accepted : field.accepts text = true) : (field.entry text).text? = some text := by
  obtain ⟨-, -, admits⟩ := accepts_iff.1 accepted
  have octetwise (isAscii : ∀ c ∈ text.toList, c.toNat < 128) :
      (some (Asn1.latinText (Utf8.encode text))).map String.ofList = some text := by
    rw [latinText_encode isAscii, Option.map_some, String.ofList_toList]
  cases field with
  | country => exact octetwise fun c hc => ((isPrintableStringChar_iff c).1 (admits c hc)).isAscii
  | email => exact octetwise fun c hc => of_decide_eq_true (admits c hc)
  | province | locality | organization | unit | commonName | name =>
    simp [entry, tag, NameAttribute.text?, Asn1.text?]

/-- A value of a name with what is asked of it: its type and the type of its text, how many
characters it may have and which, and how its refusal is told. -/
structure SubjectRow where
  type : Asn1.ObjectId
  tag : Nat
  text : String
  least : Nat
  most : Nat
  Admits : Char → Prop
  refusal : String

structure SubjectRow.IsAdmitted (row : SubjectRow) : Prop where
  isSome : row.least ≤ row.text.length
  fits : row.text.length ≤ row.most
  admits : ∀ c ∈ row.text.toList, row.Admits c

def subjectRows (policy : Policy) (commonName : String) : List SubjectRow := [
  ⟨⟨[2, 5, 4, 6]⟩, 19, policy.country, 2, 2, IsPrintable, "Failed to set country"⟩,
  ⟨⟨[2, 5, 4, 8]⟩, 12, policy.province, 1, 128, fun _ => True, "Failed to set state/province"⟩,
  ⟨⟨[2, 5, 4, 7]⟩, 12, policy.city, 1, 128, fun _ => True, "Failed to set locality"⟩,
  ⟨⟨[2, 5, 4, 10]⟩, 12, policy.organization, 1, 64, fun _ => True, "Failed to set organization"⟩,
  ⟨⟨[2, 5, 4, 11]⟩, 12, policy.unit, 1, 64, fun _ => True, "Failed to set organizational unit"⟩,
  ⟨⟨[2, 5, 4, 3]⟩, 12, commonName, 1, 64, fun _ => True, "Failed to set CN"⟩,
  ⟨⟨[2, 5, 4, 41]⟩, 12, policy.name, 1, 32768, fun _ => True, "Failed to set name"⟩,
  ⟨⟨[1, 2, 840, 113549, 1, 9, 1]⟩, 22, policy.email, 1, 128, fun c => c.toNat < 128,
    "Failed to set email"⟩]

private def SubjectField.row (policy : Policy) (commonName : String) (field : SubjectField) :
    SubjectRow where
  type := field.type
  tag := field.tag
  text := field.value policy commonName
  least := field.minLength
  most := field.maxLength
  Admits := match field with
    | .country => IsPrintable
    | .email => fun c => c.toNat < 128
    | _ => fun _ => True
  refusal := (CertificateFault.subject field).message

section
variable {policy : Policy} {commonName : String}

private theorem subjectRows_eq (policy : Policy) (commonName : String) :
    subjectRows policy commonName = SubjectField.all.map (SubjectField.row policy commonName) := rfl

private theorem isAdmitted_row_iff {field : SubjectField} :
    (field.row policy commonName).IsAdmitted ↔
      field.accepts (field.value policy commonName) = true := by
  have same : (∀ c ∈ (field.value policy commonName).toList,
      (field.row policy commonName).Admits c) ↔
        ∀ c ∈ (field.value policy commonName).toList, field.admits c = true := by
    refine forall₂_congr fun c _ => ?_
    cases field with
    | country => exact (isPrintableStringChar_iff c).symm
    | email => exact ⟨fun h => decide_eq_true h, of_decide_eq_true⟩
    | province | locality | organization | unit | commonName | name =>
      exact iff_of_true trivial rfl
  rw [SubjectField.accepts_iff, ← same]
  exact ⟨fun h => ⟨h.isSome, h.fits, h.admits⟩, fun h => ⟨h.1, h.2.1, h.2.2⟩⟩

private theorem isAdmitted_rows_iff :
    (∀ row ∈ subjectRows policy commonName, row.IsAdmitted) ↔
      ∀ field : SubjectField, field.accepts (field.value policy commonName) = true := by
  rw [subjectRows_eq, List.forall_mem_map]
  simp only [isAdmitted_row_iff]
  constructor
  · intro h field
    exact h field (by cases field <;> decide)
  · intro h field _
    exact h field

private theorem refused?_eq_some_iff {field : SubjectField} :
    DistinguishedName.refused? policy commonName = some field ↔
      ∃ before behind, subjectRows policy commonName =
          before ++ field.row policy commonName :: behind ∧
        (∀ row ∈ before, row.IsAdmitted) ∧ ¬(field.row policy commonName).IsAdmitted := by
  rw [DistinguishedName.refused?, List.find?_eq_some_iff_append, subjectRows_eq]
  simp only [isAdmitted_row_iff, Bool.not_eq_true', Bool.not_eq_true, Bool.not_not]
  constructor
  · rintro ⟨refused, before, behind, order, accepted⟩
    refine ⟨before.map (·.row policy commonName), behind.map (·.row policy commonName), ?_, ?_,
      refused⟩
    · rw [order, List.map_append, List.map_cons]
    · intro row hr
      obtain ⟨other, ho, rfl⟩ := List.mem_map.1 hr
      exact isAdmitted_row_iff.2 (accepted other ho)
  · rintro ⟨before, behind, order, admitted, refused⟩
    obtain ⟨front, rest, cut, rfl, inRest⟩ := List.map_eq_append_iff.1 order
    obtain ⟨other, others, rfl, same, -⟩ := List.map_eq_cons_iff.1 inRest
    have told : (CertificateFault.subject other).message =
        (CertificateFault.subject field).message :=
      congrArg SubjectRow.refusal same
    obtain rfl := CertificateFault.subject.inj (CertificateFault.message_injective told)
    refine ⟨refused, front, others, cut, fun another ha => ?_⟩
    exact isAdmitted_row_iff.1 (admitted _ (List.mem_map_of_mem ha))

end

namespace Certificate

private theorem subject_eq_error_iff {policy : Policy} {commonName : String}
    {fault : CertificateFault} :
    subject policy commonName = .error fault ↔
      ∃ field, DistinguishedName.refused? policy commonName = some field ∧
        fault = .subject field := by
  rw [subject, DistinguishedName.ofSubject_eq]
  cases DistinguishedName.refused? policy commonName with
  | none => simp
  | some field => simp [eq_comm]

section
variable {policy : Policy} {commonName : String} {name : DistinguishedName}

private theorem read?_der_of_subject (made : subject policy commonName = .ok name) :
    ∃ element, Asn1.read? name.der = some (element, []) ∧
      DistinguishedName.ofElement? element = some name := by
  obtain ⟨rfl, accepted⟩ := subject_eq_ok_iff.1 made
  have isText := DistinguishedName.isText_of_mem_subjectSets policy commonName
  have fits : Fits (DistinguishedName.ofSets
      (DistinguishedName.subjectSets policy commonName)).der :=
    (DistinguishedName.length_ofSets_le accepted).trans_lt (by decide)
  have contentFits : Fits (DistinguishedName.content
      (DistinguishedName.subjectSets policy commonName)) := Fits.of_encode fits
  have read := Asn1.read?_encode (by decide : Asn1.IsShortTag Asn1.sequenceTag) contentFits []
  rw [List.append_nil] at read
  exact ⟨_, read, DistinguishedName.ofElement?_written isText contentFits⟩

private theorem sets_of_subject (made : subject policy commonName = .ok name) :
    name.sets.map (·.map fun entry => (entry.type, entry.tag, entry.text?)) =
      (subjectRows policy commonName).map fun row => [(row.type, row.tag, some row.text)] := by
  obtain ⟨rfl, accepted⟩ := subject_eq_ok_iff.1 made
  rw [subjectRows_eq, DistinguishedName.ofSets, DistinguishedName.subjectSets, List.map_map,
    List.map_map]
  refine List.map_congr_left fun field _ => ?_
  rw [Function.comp_apply, Function.comp_apply, List.map_singleton,
    SubjectField.text?_entry (accepted field)]
  rfl

private theorem texts_of_der {policy' : Policy} {commonName' : String} {name' : DistinguishedName}
    (made : subject policy commonName = .ok name) (made' : subject policy' commonName' = .ok name')
    (same : name'.der = name.der) :
    (subjectRows policy' commonName').map (·.text) = (subjectRows policy commonName).map (·.text) := by
  obtain ⟨element, read, decoded⟩ := read?_der_of_subject made
  obtain ⟨element', read', decoded'⟩ := read?_der_of_subject made'
  rw [same, read, Option.some.injEq, Prod.mk.injEq] at read'
  rw [← read'.1, decoded, Option.some.injEq] at decoded'
  subst decoded'
  have rows := (sets_of_subject made').symm.trans (sets_of_subject made)
  have texts := congrArg (List.map fun set => (set.head?.bind (·.2.2)).getD "") rows
  rwa [List.map_map, List.map_map] at texts

private theorem commonName_of_subject (made : subject policy commonName = .ok name) :
    ∃ entry, name.attributes.filter (·.type = ⟨[2, 5, 4, 3]⟩) = [entry] ∧
      entry.text? = some commonName := by
  obtain ⟨rfl, accepted⟩ := subject_eq_ok_iff.1 made
  refine ⟨SubjectField.commonName.entry commonName, ?_,
    SubjectField.text?_entry (accepted .commonName)⟩
  simp only [DistinguishedName.attributes, DistinguishedName.ofSets,
    DistinguishedName.subjectSets, SubjectField.all]
  rfl

end

/-- A name is made exactly if the table admits every value of it, and of one that it does not
admit the first decides the fault. The name that is made consists of eight attributes, each
alone in its set, which are read from its octets as the values that were given: the common name
stands in it once, and other values give other octets. -/
theorem subject_of_rows (policy : Policy) (commonName : String) :
    ((∃ name, subject policy commonName = .ok name) ↔
      ∀ row ∈ subjectRows policy commonName, row.IsAdmitted) ∧
    (∀ fault, subject policy commonName = .error fault ↔
      ∃ before row behind, subjectRows policy commonName = before ++ row :: behind ∧
        (∀ r ∈ before, r.IsAdmitted) ∧ ¬row.IsAdmitted ∧ fault.message = row.refusal) ∧
    ∀ name, subject policy commonName = .ok name →
      (∃ element, Asn1.read? name.der = some (element, []) ∧
        DistinguishedName.ofElement? element = some name) ∧
      name.sets.map (·.map fun entry => (entry.type, entry.tag, entry.text?)) =
        (subjectRows policy commonName).map (fun row => [(row.type, row.tag, some row.text)]) ∧
      (∃ entry, name.attributes.filter (·.type = ⟨[2, 5, 4, 3]⟩) = [entry] ∧
        entry.text? = some commonName) ∧
      ∀ policy' commonName' name', subject policy' commonName' = .ok name' →
        name'.der = name.der →
          (subjectRows policy' commonName').map (·.text) =
            (subjectRows policy commonName).map (·.text) := by
  refine ⟨?_, fun fault => ?_, fun name made => ?_⟩
  · rw [isAdmitted_rows_iff]
    simp only [subject_eq_ok_iff, exists_eq_left]
  · rw [subject_eq_error_iff]
    constructor
    · rintro ⟨field, refused, rfl⟩
      obtain ⟨before, behind, order, admitted, isRefused⟩ := refused?_eq_some_iff.1 refused
      exact ⟨before, _, behind, order, admitted, isRefused, rfl⟩
    · rintro ⟨before, row, behind, order, admitted, isRefused, told⟩
      obtain ⟨field, -, rfl⟩ : ∃ field ∈ SubjectField.all, field.row policy commonName = row := by
        rw [← List.mem_map, ← subjectRows_eq, order]
        simp
      exact ⟨field, refused?_eq_some_iff.2 ⟨before, behind, order, admitted, isRefused⟩,
        CertificateFault.message_injective told⟩
  · exact ⟨read?_der_of_subject made, sets_of_subject made, commonName_of_subject made,
      fun _ _ _ made' same => texts_of_der made made' same⟩

def unplacedPolicy : Policy := { Policy.default with city := "", organization := "" }

theorem subject_of_rows_default :
    (∃ name element, subject .default (String.ofList (List.replicate 64 'é')) = .ok name ∧
      Asn1.read? name.der = some (element, []) ∧
      DistinguishedName.ofElement? element = some name) ∧
    ∃ fault, subject unplacedPolicy "office" = .error fault ∧
      fault.message = "Failed to set locality" := by
  constructor
  · obtain ⟨made, -, reads⟩ := subject_of_rows .default (String.ofList (List.replicate 64 'é'))
    have accepted : ∀ field : SubjectField, field.accepts
        (field.value .default (String.ofList (List.replicate 64 'é'))) = true := by
      intro field
      cases field <;> decide +kernel
    obtain ⟨name, made⟩ := made.2 (isAdmitted_rows_iff.2 accepted)
    obtain ⟨⟨element, read, decoded⟩, -⟩ := reads name made
    exact ⟨name, element, made, read, decoded⟩
  · have refused := (subject_of_rows unplacedPolicy "office").2.1 (.subject .locality)
    have country : (SubjectField.country.row unplacedPolicy "office").IsAdmitted :=
      isAdmitted_row_iff.2 (by decide)
    have province : (SubjectField.province.row unplacedPolicy "office").IsAdmitted :=
      isAdmitted_row_iff.2 (by decide)
    refine ⟨_, refused.2 ⟨[_, _], _, _, rfl, List.forall_mem_cons.2 ⟨country,
      List.forall_mem_singleton.2 province⟩, ?_, rfl⟩, rfl⟩
    exact fun h => absurd h.isSome (by decide)

end Certificate

end VpnAuthority
