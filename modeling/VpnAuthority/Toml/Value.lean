import VpnAuthority.Number.Binary64

/-! The values of a settings document. -/
namespace VpnAuthority.Toml

/-- A table keeps its keys in the order in which they were defined. A date or a
time is kept as it is written. -/
inductive Value where
  | string (text : String)
  | integer (value : Int)
  | float (value : Binary64)
  | boolean (value : Bool)
  | dateTime (text : String)
  | array (items : List Value)
  | table (entries : List (String × Value))

namespace Value

mutual

def isSame : Value → Value → Bool
  | .string a, .string b => a == b
  | .integer a, .integer b => a == b
  | .float a, .float b => a == b
  | .boolean a, .boolean b => a == b
  | .dateTime a, .dateTime b => a == b
  | .array a, .array b => areSame a b
  | .table a, .table b => areSameEntries a b
  | _, _ => false

def areSame : List Value → List Value → Bool
  | [], [] => true
  | a :: as, b :: bs => a.isSame b && areSame as bs
  | _, _ => false

def areSameEntries : List (String × Value) → List (String × Value) → Bool
  | [], [] => true
  | (j, a) :: as, (k, b) :: bs => j == k && a.isSame b && areSameEntries as bs
  | _, _ => false

end

mutual

theorem isSame_iff : ∀ {a b : Value}, a.isSame b = true ↔ a = b
  | .string a, b | .integer a, b | .float a, b | .boolean a, b | .dateTime a, b => by
    cases b <;> simp [isSame]
  | .array a, b => by cases b <;> simp [isSame, areSame_iff]
  | .table a, b => by cases b <;> simp [isSame, areSameEntries_iff]

theorem areSame_iff : ∀ {a b : List Value}, areSame a b = true ↔ a = b
  | [], b => by cases b <;> simp [areSame]
  | a :: as, b => by cases b <;> simp [areSame, isSame_iff, areSame_iff]

theorem areSameEntries_iff : ∀ {a b : List (String × Value)}, areSameEntries a b = true ↔ a = b
  | [], b => by cases b <;> simp [areSameEntries]
  | (j, a) :: as, b => by
    cases b <;> simp [areSameEntries, isSame_iff, areSameEntries_iff, Prod.ext_iff, and_assoc]

end

instance : DecidableEq Value := fun _ _ => decidable_of_decidable_of_iff isSame_iff

end Value

end VpnAuthority.Toml
