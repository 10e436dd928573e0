import VpnAuthority.DistinguishedName.Subject
import VpnAuthority.Proofs.Asn1.Reread
import VpnAuthority.Proofs.Asn1.Values
import VpnAuthority.Proofs.Outcome

/-! Names are read back with their encoding: those that are written attribute by
attribute, and those that were read before. -/
namespace VpnAuthority

open Asn1 (Element Fits Reads written)

namespace NameAttribute

/-- Attributes whose value is text of the kind that its tag tells. -/
structure IsText (entry : NameAttribute) : Prop where
  type : entry.type.IsWritable = true
  tag : entry.tag = 12 ∨ entry.tag = 19 ∨ entry.tag = 22
  text : entry.text?.isSome

def content (entry : NameAttribute) : Bytes :=
  entry.type.encode ++ Asn1.encode (UInt8.ofNat entry.tag) entry.octets

theorem encode_eq (entry : NameAttribute) :
    entry.encode = Asn1.encode Asn1.sequenceTag entry.content := by
  simp [encode, content, Asn1.sequence]

private theorem valueOctets?_eq {value : Element} {n : Nat} {octets : Bytes}
    (hc : value.tagClass = .universal) (ht : value.tag = n) (hn : n = 12 ∨ n = 19 ∨ n = 22)
    (ho : value.octets? = some octets) (isText : (Asn1.text? n octets).isNone = false) :
    valueOctets? value = some octets := by
  rw [valueOctets?, hc, ht, ho]
  rcases hn with rfl | rfl | rfl <;>
    simp [allowedTags, Asn1.isWhole, isText, -Option.isNone_iff_eq_none]

theorem valueOctets?_written {entry : NameAttribute} (h : entry.IsText) :
    valueOctets? (written (UInt8.ofNat entry.tag) entry.octets) = some entry.octets := by
  obtain ⟨-, tag, text⟩ := h
  obtain ⟨type, n, octets⟩ := entry
  have isText : (Asn1.text? n octets).isNone = false := by
    simpa [NameAttribute.text?] using text
  refine valueOctets?_eq ?_ ?_ tag (Asn1.octets?_written ?_ octets) isText
  · rcases tag with rfl | rfl | rfl <;> rfl
  · rcases tag with rfl | rfl | rfl <;> dsimp only <;> rfl
  · rcases tag with rfl | rfl | rfl <;> dsimp only <;> rfl

theorem ofElement?_written {entry : NameAttribute} (h : entry.IsText) (fits : Fits entry.content) :
    ofElement? (written Asn1.sequenceTag entry.content) = some entry := by
  have tagged : Asn1.IsShortTag (UInt8.ofNat entry.tag) ∧ UInt8.ofNat entry.tag ≠ 0 ∧
      (written (UInt8.ofNat entry.tag) entry.octets).tag = entry.tag := by
    rcases h.tag with ht | ht | ht <;> rw [ht] <;> exact ⟨by decide, by decide, rfl⟩
  have typeFits : Fits entry.type.octets :=
    fits.of_length_le ((Asn1.length_le_encode _ _).trans (List.sublist_append_left _ _).length_le)
  have octetsFit : Fits entry.octets :=
    fits.of_length_le ((Asn1.length_le_encode _ _).trans (List.sublist_append_right _ _).length_le)
  have type := Asn1.reads_encode (by decide : Asn1.IsShortTag Asn1.objectIdTag) (by decide) typeFits
  have value := Asn1.reads_encode tagged.1 tagged.2.1 octetsFit []
  have members : (written Asn1.sequenceTag entry.content).members? =
      some [written Asn1.objectIdTag entry.type.octets,
        written (UInt8.ofNat entry.tag) entry.octets] := by
    have := value.readAll?_append
    rw [List.append_nil] at this
    rw [Asn1.members?_written_sequence, content, Asn1.ObjectId.encode, (type _).readAll?_append,
      this, Asn1.readAll?_nil]
    rfl
  rw [ofElement?, members]
  simp only [Option.bind_eq_bind, Option.bind_some, Asn1.objectId?_written h.type, tagged.2.2,
    valueOctets?_written h]

end NameAttribute

theorem SubjectField.accepts_iff {field : SubjectField} {text : String} :
    field.accepts text = true ↔
      field.minLength ≤ text.length ∧ text.length ≤ field.maxLength ∧
        ∀ c ∈ text.toList, field.admits c = true := by
  simp only [accepts, Bool.and_eq_true, decide_eq_true_eq, List.all_eq_true, and_assoc]

namespace DistinguishedName

def content (sets : List (List NameAttribute)) : Bytes :=
  (sets.map fun set => Asn1.set (set.map NameAttribute.encode)).flatten

private theorem readSet {set : List NameAttribute} (h : ∀ entry ∈ set, entry.IsText)
    (fits : Fits (set.map NameAttribute.encode).flatten) :
    ((written Asn1.setTag (set.map NameAttribute.encode).flatten).items? 17).bind
      (·.mapM NameAttribute.ofElement?) = some set := by
  have entryFits (entry : NameAttribute) (he : entry ∈ set) : Fits entry.content := by
    have := fits.of_mem (List.mem_map_of_mem (f := NameAttribute.encode) he)
    rw [NameAttribute.encode_eq] at this
    exact this.of_encode
  have parts : set.map NameAttribute.encode =
      (set.map NameAttribute.content).map (Asn1.encode Asn1.sequenceTag) := by
    rw [List.map_map]
    exact List.map_congr_left fun entry _ => entry.encode_eq
  have elements : Asn1.readAll? (set.map NameAttribute.encode).flatten =
      some (set.map fun entry => written Asn1.sequenceTag entry.content) := by
    rw [parts, Asn1.readAll?_map_encode (by decide) (by decide), List.map_map]
    · rfl
    · intro content hc
      obtain ⟨entry, he, rfl⟩ := List.mem_map.1 hc
      exact entryFits entry he
  rw [Asn1.items?_written_set, elements, Option.bind_some]
  exact mapM_map_eq_some fun entry he =>
    NameAttribute.ofElement?_written (h entry he) (entryFits entry he)

theorem ofElement?_written {sets : List (List NameAttribute)}
    (h : ∀ set ∈ sets, ∀ entry ∈ set, entry.IsText) (fits : Fits (content sets)) :
    ofElement? (written Asn1.sequenceTag (content sets)) = some (ofSets sets) := by
  have setFits (set : List NameAttribute) (hs : set ∈ sets) :
      Fits (set.map NameAttribute.encode).flatten :=
    (fits.of_mem (List.mem_map_of_mem
      (f := fun set => Asn1.set (set.map NameAttribute.encode)) hs)).of_encode
  have elements : Asn1.readAll? (content sets) =
      some (sets.map fun set => written Asn1.setTag (set.map NameAttribute.encode).flatten) := by
    have fit : ∀ content ∈ sets.map fun set => (set.map NameAttribute.encode).flatten,
        Fits content := fun content hc => by
      obtain ⟨set, hs, rfl⟩ := List.mem_map.1 hc
      exact setFits set hs
    have := Asn1.readAll?_map_encode (by decide : Asn1.IsShortTag Asn1.setTag) (by decide) fit
    rw [List.map_map, List.map_map] at this
    exact this
  rw [ofElement?, Asn1.items?_written_sequence, elements]
  simp only [Option.bind_eq_bind, Option.bind_some]
  rw [mapM_map_eq_some fun set hs => readSet (h set hs) (setFits set hs)]
  rfl

/-- A name that is read back from its encoding wherever something follows that. -/
def IsKept (name : DistinguishedName) : Prop :=
  ∃ element, ofElement? element = some name ∧ ∀ more, more ≠ [] → Reads name.der element more

theorem isKept_ofSets {sets : List (List NameAttribute)}
    (h : ∀ set ∈ sets, ∀ entry ∈ set, entry.IsText) (fits : Fits (content sets)) :
    (ofSets sets).IsKept :=
  ⟨_, ofElement?_written h fits, fun more _ => Asn1.reads_encode (by decide) (by decide) fits more⟩

theorem isKept_of_read {name : DistinguishedName} {element : Element} {bytes rest : Bytes}
    (hr : Asn1.read? bytes = some (element, rest)) (h : ofElement? element = some name) :
    name.IsKept := by
  refine ⟨element, h, fun more hm => ?_⟩
  simp only [ofElement?, Option.bind_eq_bind, Option.bind_eq_some_iff] at h
  obtain ⟨sets, hs, _, -, rest⟩ := h
  cases rest
  refine Asn1.reads_raw hr ?_ hm
  unfold Element.items? Element.isUniversal at hs
  split at hs
  · next isSequence =>
    simp only [Bool.and_eq_true, beq_iff_eq] at isSequence
    rw [isSequence.2]
    decide
  · cases hs

theorem isText_entry (field : SubjectField) (text : String) : (field.entry text).IsText where
  type := by cases field <;> rfl
  tag := by cases field <;> simp [SubjectField.entry, SubjectField.tag]
  text := by
    cases field <;>
      simp [SubjectField.entry, SubjectField.tag, NameAttribute.text?, Asn1.text?]

def subjectSets (policy : Policy) (commonName : String) : List (List NameAttribute) :=
  SubjectField.all.map fun field => [field.entry (field.value policy commonName)]

theorem isText_of_mem_subjectSets (policy : Policy) (commonName : String) :
    ∀ set ∈ subjectSets policy commonName, ∀ entry ∈ set, entry.IsText := by
  intro set hs entry he
  obtain ⟨field, -, rfl⟩ := List.mem_map.1 hs
  rw [List.mem_singleton.1 he]
  exact isText_entry field _

private theorem mapM_ite_eq {α β ε : Type} (p : α → Bool) (g : α → β) (e : α → ε) (l : List α) :
    l.mapM (fun a => if p a then Except.ok (g a) else .error (e a)) =
      match l.find? (!p ·) with
      | none => .ok (l.map g)
      | some a => .error (e a) := by
  induction l with
  | nil => rfl
  | cons a rest ih =>
    rw [List.mapM_cons, ih, List.find?_cons]
    cases p a with
    | false => rfl
    | true =>
      simp only [if_true, Bool.not_true]
      cases rest.find? (!p ·) <;> rfl

def refused? (policy : Policy) (commonName : String) : Option SubjectField :=
  SubjectField.all.find? fun field => !field.accepts (field.value policy commonName)

theorem refused?_eq_none_iff {policy : Policy} {commonName : String} :
    refused? policy commonName = none ↔
      ∀ field : SubjectField, field.accepts (field.value policy commonName) = true := by
  simp only [refused?, List.find?_eq_none, Bool.not_eq_true, Bool.not_eq_false']
  constructor
  · intro h field
    exact h field (by cases field <;> decide)
  · intro h field _
    exact h field

theorem ofSubject_eq (policy : Policy) (commonName : String) :
    ofSubject policy commonName =
      match refused? policy commonName with
      | none => .ok (ofSets (subjectSets policy commonName))
      | some field => .error field := by
  simp only [ofSubject, refused?, mapM_ite_eq]
  cases SubjectField.all.find? fun field =>
    !field.accepts (field.value policy commonName) <;> rfl

theorem ofSubject_eq_ok_iff {policy : Policy} {commonName : String} {name : DistinguishedName} :
    ofSubject policy commonName = .ok name ↔
      name = ofSets (subjectSets policy commonName) ∧
        ∀ field : SubjectField, field.accepts (field.value policy commonName) = true := by
  rw [← refused?_eq_none_iff, ofSubject_eq]
  cases refused? policy commonName with
  | none => simp [eq_comm]
  | some field => simp

end DistinguishedName

end VpnAuthority
