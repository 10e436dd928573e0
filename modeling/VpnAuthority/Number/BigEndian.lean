import VpnAuthority.Text.Utf8

/-! Natural numbers as octets, the most significant first. -/
namespace VpnAuthority.BigEndian

def ofNat (n : Nat) : Bytes :=
  if n = 0 then [] else ofNat (n / 256) ++ [UInt8.ofNat n]
termination_by n

def toNat (bytes : Bytes) : Nat := bytes.foldl (fun n b => n * 256 + b.toNat) 0

@[simp] theorem toNat_nil : toNat [] = 0 := rfl

@[simp] theorem toNat_append_singleton (bytes : Bytes) (b : UInt8) :
    toNat (bytes ++ [b]) = toNat bytes * 256 + b.toNat := by
  simp [toNat]

@[simp] theorem toNat_ofNat (n : Nat) : toNat (ofNat n) = n := by
  fun_induction ofNat n with
  | case1 => rfl
  | case2 n h ih => simp [ih]; omega

def padded (width n : Nat) : Bytes :=
  let bytes := ofNat n
  List.replicate (width - bytes.length) 0 ++ bytes

theorem toNat_replicate_zero_append (count : Nat) (bytes : Bytes) :
    toNat (List.replicate count 0 ++ bytes) = toNat bytes := by
  induction count with
  | zero => simp
  | succ count ih => simpa [toNat, List.replicate_succ] using ih

@[simp] theorem toNat_padded (width n : Nat) : toNat (padded width n) = n := by
  simp [padded, toNat_replicate_zero_append]

end VpnAuthority.BigEndian
