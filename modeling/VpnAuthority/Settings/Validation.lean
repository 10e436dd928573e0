import VpnAuthority.Settings
import VpnAuthority.Text.Quoted

/-! The settings that an authority accepts. -/
namespace VpnAuthority.Settings

def minKeySize : Nat := 2048

inductive Fault where
  | keySize (bits : Nat)
  | validity (leafDays authorityDays : Nat)
  | country (given : String)
  deriving DecidableEq, Repr

def Fault.message : Fault → String
  | .keySize bits => s!"key_size {bits} is below the {minKeySize} bit minimum"
  | .validity leafDays authorityDays =>
    s!"key_expire_days ({leafDays}) must be positive and shorter than " ++
      s!"ca_expire_days ({authorityDays})"
  | .country given => "country must be a two-letter code, got " ++ Quoted.text given

/-- Keys need 2048 bits, a leaf lives at least a day and less long than the
authority, and a country has two letters; the first rule that fails is told. -/
def check (settings : Settings) : Except Fault Unit :=
  let policy := settings.policy
  if policy.keySize < minKeySize then .error (.keySize policy.keySize)
  else if policy.leafDays = 0 ∨ policy.authorityDays ≤ policy.leafDays then
    .error (.validity policy.leafDays policy.authorityDays)
  else if policy.country.length ≠ 2 then .error (.country policy.country)
  else .ok ()

end VpnAuthority.Settings
