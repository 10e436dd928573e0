import VpnAuthority.Cipher.KeyDerivation
import VpnAuthority.Pem
import VpnAuthority.Rsa.Key

/-! Private keys in armoured form: bare or wrapped with the name of their system, in the
clear or encrypted under a passphrase. -/
namespace VpnAuthority

open Asn1 (Element ObjectId)

/-- A private key. Of systems other than the one in use only the name is kept. -/
inductive PrivateKey where
  | rsa (key : Rsa.PrivateKey)
  | other (system : ObjectId)
  deriving DecidableEq

/-- A way to read private keys: what a text gives under a passphrase. -/
abbrev PrivateKey.Reader := (passphrase text : Bytes) → Option PrivateKey

namespace PrivateKey

def processMark : Bytes := Utf8.encode "Proc-Type: 4,ENCRYPTED\nDEK-Info: "

def encryptionHeader (kind : Cipher.Kind) (iv : Bytes) : Bytes :=
  processMark ++ Utf8.encode kind.name ++ 0x2c ::
    (iv.flatMap fun b => [b / 16, b % 16].map fun n => if n < 10 then 48 + n else 55 + n)
      ++ [Pem.lineFeed]

def skip? (mark text : Bytes) : Option Bytes :=
  if mark.isPrefixOf text then some (text.drop mark.length) else none

def isBlank (b : UInt8) : Bool := b == 32 || b == 9

def skipBlanks (text : Bytes) : Bytes := text.dropWhile isBlank

def readHex? : Nat → Bytes → Option Bytes
  | 0, _ => some []
  | count + 1, a :: b :: rest => do
    let a ← Digits.value? (Char.ofNat a.toNat)
    let b ← Digits.value? (Char.ofNat b.toNat)
    some (UInt8.ofNat (a * 16 + b) :: (← readHex? count rest))
  | _, _ => none

def lowerCase (text : Bytes) : Bytes := text.map fun b => if 65 ≤ b ∧ b ≤ 90 then b + 32 else b

def cipherNamed? (name : Bytes) : Option Cipher.Kind :=
  Cipher.Kind.all.find? fun kind => lowerCase (Utf8.encode kind.name) == lowerCase name

/-- The cipher and its start that a header names; it has to say first that the content
is encrypted. -/
def readEncryption? (header : Bytes) : Option (Cipher.Kind × Bytes) := do
  let rest ← skip? (Utf8.encode "Proc-Type:") header
  let rest ← skip? (Utf8.encode "4,") (skipBlanks rest)
  let rest ← skip? (Utf8.encode "ENCRYPTED") (skipBlanks rest)
  let rest ← skip? [Pem.lineFeed] (rest.dropWhile fun b => isBlank b || b == 13)
  let rest := skipBlanks (← skip? (Utf8.encode "DEK-Info:") rest)
  let kind ← cipherNamed? (rest.takeWhile fun b => !isBlank b && b != 0x2c)
  let rest ← skip? [0x2c] (skipBlanks (rest.dropWhile fun b => !isBlank b && b != 0x2c))
  some (kind, ← readHex? kind.blockSize rest)

/-- The key of a cipher is salted with the front of its start. -/
def saltLength : Nat := 8

def encryptedPem (label : Bytes) (kind : Cipher.Kind) (passphrase iv content : Bytes) : Bytes :=
  let key := Cipher.keyOfPassphrase kind passphrase (iv.take saltLength)
  Pem.encodeWith label (encryptionHeader kind iv) (Cipher.encrypt kind key iv content)

/-- Headers of at most this many octets are passed over. -/
def ignoredHeaderLength : Nat := 10

def clearContent? (passphrase : Bytes) (block : Pem.Block) : Option Bytes :=
  if block.header.length ≤ ignoredHeaderLength then some block.content
  else do
    let (kind, iv) ← readEncryption? block.header
    let key := Cipher.keyOfPassphrase kind passphrase (iv.take saltLength)
    Cipher.decrypt? kind key iv block.content

def ellipticId : ObjectId := ⟨[1, 2, 840, 10045, 2, 1]⟩

def montgomeryIds : List (ObjectId × Nat) := [
  (⟨[1, 3, 101, 110]⟩, 32), (⟨[1, 3, 101, 111]⟩, 56),
  (⟨[1, 3, 101, 112]⟩, 32), (⟨[1, 3, 101, 113]⟩, 57)]

/-- A variant of the system in use that binds its keys to one kind of signature. -/
def boundRsaId : ObjectId := ⟨[1, 2, 840, 113549, 1, 1, 10]⟩

def discreteLogId : ObjectId := ⟨[1, 2, 840, 10040, 4, 1]⟩

def keyAgreementId : ObjectId := ⟨[1, 2, 840, 113549, 1, 3, 1]⟩

def parameter? (algorithm : Algorithm) : Option Element := do
  (← Asn1.read? (← algorithm.parameters)).1

def isCurve (element : Element) : Bool := element.objectId?.isSome || element.members?.isSome

/-- Whether optional parts of a bare key on a curve are in order: the curve, which has to be told
somewhere, and the public half. -/
def areEllipticParts (isTold : Bool) : List Element → Bool
  | [] => isTold
  | part :: rest =>
    if part.isContext 0 then
      part.explicit?.any isCurve &&
        rest.all (fun last => last.isContext 1 && (last.explicit?.bind Element.bitString?).isSome)
        && rest.length < 2
    else isTold && part.isContext 1 && (part.explicit?.bind Element.bitString?).isSome
      && rest.isEmpty

def readElliptic? (isTold : Bool) (bytes : Bytes) : Option PrivateKey := do
  let (element, _) ← Asn1.read? bytes
  match ← element.members? with
  | version :: secret :: parts =>
    let _ ← version.shortInteger?
    let _ ← secret.octetString?
    if areEllipticParts isTold parts then some (.other ellipticId) else none
  | _ => none

def readDiscreteLog? (bytes : Bytes) : Option PrivateKey := do
  let (element, _) ← Asn1.read? bytes
  match ← element.members? with
  | version :: numbers =>
    let _ ← version.shortInteger?
    let numbers ← numbers.mapM Element.magnitude?
    if numbers.length = 5 then some (.other discreteLogId) else none
  | [] => none

def readNamed? (system : Algorithm) (content : Bytes) : Option PrivateKey :=
  if system.id = Rsa.PublicKey.algorithmId then (Rsa.PrivateKey.decode? content).map .rsa
  else if system.id = boundRsaId then
    (Rsa.PrivateKey.decode? content).map fun _ => .other system.id
  else if system.id = ellipticId then
    if (parameter? system).any isCurve then readElliptic? true content else none
  else if system.id = discreteLogId ∨ system.id = keyAgreementId then do
    let domain ← (← (← parameter? system).members?).mapM Element.magnitude?
    let (secret, _) ← Asn1.read? content
    let _ ← secret.magnitude?
    if domain.length = 3 ∨ (domain.length = 2 ∧ system.id = keyAgreementId) then
      some (.other system.id)
    else none
  else do
    let size ← montgomeryIds.lookup system.id
    let (secret, _) ← Asn1.read? content
    let octets ← secret.octetString?
    if octets.length = size ∧ system.parameters.isNone then some (.other system.id) else none

def readAttribute? (element : Element) : Option Unit := do
  match ← element.members? with
  | [type, values] =>
    let _ ← type.objectId?
    (values.items? 17).map fun _ => ()
  | _ => none

def areAttributes : List Element → Bool
  | [] => true
  | [attributes] => attributes.isContext 0 &&
    ((Asn1.readAll? attributes.content).bind (·.mapM readAttribute?)).isSome
  | _ => false

/-- A wrapped key: a version, the system and the key as octets, perhaps with
attributes. -/
def readWrapped? (bytes : Bytes) : Option PrivateKey := do
  let (element, _) ← Asn1.read? bytes
  match ← element.members? with
  | version :: system :: key :: rest =>
    let _ ← version.integer?
    let system ← Algorithm.ofElement? system
    let content ← key.octetString?
    if areAttributes rest then readNamed? system content else none
  | _ => none

def stretchingId : ObjectId := ⟨[1, 2, 840, 113549, 1, 5, 12]⟩

def stretchedEncryptionId : ObjectId := ⟨[1, 2, 840, 113549, 1, 5, 13]⟩

def keyedDigests : List (ObjectId × Digest.Kind) := [
  (⟨[1, 2, 840, 113549, 2, 7]⟩, .sha1), (⟨[1, 2, 840, 113549, 2, 8]⟩, .sha224),
  (⟨[1, 2, 840, 113549, 2, 9]⟩, .sha256), (⟨[1, 2, 840, 113549, 2, 10]⟩, .sha384),
  (⟨[1, 2, 840, 113549, 2, 11]⟩, .sha512)]

def cipherIds : List (ObjectId × Cipher.Kind) := [
  (⟨[2, 16, 840, 1, 101, 3, 4, 1, 2]⟩, .aes128), (⟨[2, 16, 840, 1, 101, 3, 4, 1, 22]⟩, .aes192),
  (⟨[2, 16, 840, 1, 101, 3, 4, 1, 42]⟩, .aes256), (⟨[1, 2, 840, 113549, 3, 7]⟩, .tripleDes)]

def readStretching? (algorithm : Algorithm) (size : Nat) :
    Option (Bytes × Nat × Digest.Kind) := do
  if algorithm.id ≠ stretchingId then none
  match ← (← parameter? algorithm).members? with
  | salt :: rounds :: rest =>
    let salt ← salt.octetString?
    let rounds ← rounds.integer?
    let (sized, rest) := match rest with
      | size' :: more => if size'.isUniversal 2 then (size'.integer? == some size, more)
        else (true, rest)
      | [] => (true, [])
    let digest ← match rest with
      | [] => some .sha1
      | [name] => do keyedDigests.lookup (← Algorithm.ofElement? name).id
      | _ => none
    if sized ∧ 1 ≤ rounds then some (salt, rounds.toNat, digest) else none
  | _ => none

def openWrapping? (passphrase bytes : Bytes) : Option Bytes := do
  let (element, _) ← Asn1.read? bytes
  match ← element.members? with
  | [algorithm, secret] =>
    let algorithm ← Algorithm.ofElement? algorithm
    let secret ← secret.octetString?
    if algorithm.id ≠ stretchedEncryptionId then none
    match ← (← parameter? algorithm).members? with
    | [stretching, cipher] =>
      let cipher ← Algorithm.ofElement? cipher
      let kind ← cipherIds.lookup cipher.id
      let iv ← (← parameter? cipher).octetString?
      let (salt, rounds, digest) ←
        readStretching? (← Algorithm.ofElement? stretching) kind.keySize
      if iv.length ≠ kind.blockSize then none
      let key := Cipher.stretchedKey digest passphrase salt rounds kind.keySize
      Cipher.decrypt? kind key iv secret
    | _ => none
  | _ => none

def bareLabel : Bytes := Utf8.encode "RSA PRIVATE KEY"

def ellipticLabel : Bytes := Utf8.encode "EC PRIVATE KEY"

def discreteLogLabel : Bytes := Utf8.encode "DSA PRIVATE KEY"

def wrappedLabel : Bytes := Utf8.encode "PRIVATE KEY"

def encryptedLabel : Bytes := Utf8.encode "ENCRYPTED PRIVATE KEY"

def labels : List Bytes :=
  [bareLabel, ellipticLabel, discreteLogLabel, wrappedLabel, encryptedLabel]

/-- The key of a block's content in the clear; a wrapped key may stand under the label
of a bare one. -/
def ofContent? (label passphrase content : Bytes) : Option PrivateKey :=
  if label = wrappedLabel ∨ label = encryptedLabel then
    match openWrapping? passphrase content with
    | some inner => readWrapped? inner
    | none => readWrapped? content
  else
    let bare :=
      if label = bareLabel then (Rsa.PrivateKey.decode? content).map .rsa
      else if label = ellipticLabel then readElliptic? false content
      else readDiscreteLog? content
    match bare with
    | some key => some key
    | none => readWrapped? content

/-- Passphrases are cut to this many octets when a key is read. -/
def maxPassphraseLength : Nat := 1024

def ofPem? (passphrase text : Bytes) : Option PrivateKey := do
  let block ← Pem.find? labels.contains text
  let passphrase := passphrase.take maxPassphraseLength
  ofContent? block.label passphrase (← clearContent? passphrase block)

end PrivateKey

namespace Rsa.PrivateKey

def toPem (key : PrivateKey) : Bytes := Pem.encode VpnAuthority.PrivateKey.bareLabel key.encode

def toEncryptedPem (key : PrivateKey) (passphrase iv : Bytes) : Bytes :=
  VpnAuthority.PrivateKey.encryptedPem VpnAuthority.PrivateKey.bareLabel .aes256 passphrase iv
    key.encode

end Rsa.PrivateKey
end VpnAuthority
