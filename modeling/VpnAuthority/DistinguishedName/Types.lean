import VpnAuthority.DistinguishedName

/-! The types of attributes that names are made of, and how a name shows in a log. -/
namespace VpnAuthority.NameAttribute

open Asn1 (ObjectId)

def attributeType (n : Nat) : ObjectId := ⟨[2, 5, 4, n]⟩

def commonNameType : ObjectId := attributeType 3
def countryType : ObjectId := attributeType 6
def localityType : ObjectId := attributeType 7
def provinceType : ObjectId := attributeType 8
def organizationType : ObjectId := attributeType 10
def unitType : ObjectId := attributeType 11
def nameType : ObjectId := attributeType 41
def emailType : ObjectId := ⟨[1, 2, 840, 113549, 1, 9, 1]⟩

def directoryTypes : List (Nat × String) := [
  (3, "commonName"), (4, "surname"), (5, "serialNumber"), (6, "countryName"),
  (7, "localityName"), (8, "stateOrProvinceName"), (9, "streetAddress"),
  (10, "organizationName"), (11, "organizationalUnitName"), (12, "title"),
  (13, "description"), (14, "searchGuide"), (15, "businessCategory"), (16, "postalAddress"),
  (17, "postalCode"), (18, "postOfficeBox"), (19, "physicalDeliveryOfficeName"),
  (20, "telephoneNumber"), (21, "telexNumber"), (22, "teletexTerminalIdentifier"),
  (23, "facsimileTelephoneNumber"), (24, "x121Address"), (25, "internationaliSDNNumber"),
  (26, "registeredAddress"), (27, "destinationIndicator"), (28, "preferredDeliveryMethod"),
  (29, "presentationAddress"), (30, "supportedApplicationContext"), (31, "member"),
  (32, "owner"), (33, "roleOccupant"), (34, "seeAlso"), (35, "userPassword"),
  (36, "userCertificate"), (37, "cACertificate"), (38, "authorityRevocationList"),
  (39, "certificateRevocationList"), (40, "crossCertificatePair"), (41, "name"),
  (42, "givenName"), (43, "initials"), (44, "generationQualifier"),
  (45, "x500UniqueIdentifier"), (46, "dnQualifier"), (47, "enhancedSearchGuide"),
  (48, "protocolInformation"), (49, "distinguishedName"), (50, "uniqueMember"),
  (51, "houseIdentifier"), (52, "supportedAlgorithms"), (53, "deltaRevocationList"),
  (54, "dmdName"), (65, "pseudonym"), (72, "role"), (97, "organizationIdentifier"),
  (98, "countryCode3c"), (99, "countryCode3n"), (100, "dnsName")]

def otherTypes : List (List Nat × String) := [
  ([1, 2, 840, 113549, 1, 9, 1], "emailAddress"),
  ([1, 2, 840, 113549, 1, 9, 2], "unstructuredName"),
  ([1, 2, 840, 113549, 1, 9, 7], "challengePassword"),
  ([1, 2, 840, 113549, 1, 9, 8], "unstructuredAddress"),
  ([0, 9, 2342, 19200300, 100, 1, 1], "userId"),
  ([0, 9, 2342, 19200300, 100, 1, 3], "rfc822Mailbox"),
  ([0, 9, 2342, 19200300, 100, 1, 25], "domainComponent"),
  ([1, 3, 6, 1, 4, 1, 311, 60, 2, 1, 1], "jurisdictionLocalityName"),
  ([1, 3, 6, 1, 4, 1, 311, 60, 2, 1, 2], "jurisdictionStateOrProvinceName"),
  ([1, 3, 6, 1, 4, 1, 311, 60, 2, 1, 3], "jurisdictionCountryName")]

/-- The name of a type; a type without one is written by its numbers. -/
def typeName (type : ObjectId) : String :=
  let known := match type.arcs with
    | [2, 5, 4, n] => directoryTypes.lookup n
    | arcs => otherTypes.lookup arcs
  known.getD type.dotted

/-- A value that has no text is not shown, and text only up to a first NUL. -/
def summary (entry : NameAttribute) : String :=
  let value := match entry.text? with
    | some text => Quoted.text (String.ofList (text.toList.takeWhile (· ≠ '\x00')))
    | none => "non-ASCII"
  typeName entry.type ++ " = " ++ value

def nameSummary (name : DistinguishedName) : String :=
  "[" ++ ", ".intercalate (name.attributes.map NameAttribute.summary) ++ "]"

end VpnAuthority.NameAttribute
