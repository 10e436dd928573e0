/-! Lists cut at a separator, and lists read piece by piece from the front. -/
namespace VpnAuthority

/-- The parts of a list between the members that satisfy `separates`; there is
always one more part than there are separators. -/
def fields (separates : α → Bool) : List α → List (List α)
  | [] => [[]]
  | a :: rest =>
    match fields separates rest with
    | [] => [[a]]
    | part :: parts => if separates a then [] :: part :: parts else (a :: part) :: parts

theorem fields_ne_nil (separates : α → Bool) (l : List α) : fields separates l ≠ [] := by
  cases l with
  | nil => simp [fields]
  | cons a rest =>
    simp only [fields]
    split
    · simp
    · split <;> simp

/-- Goes on with what is left of a list, if that is shorter than the list was. Readers
of repeated pieces end because each piece takes something. -/
def continueWith (whole rest : List α)
    (next : (r : List α) → r.length < whole.length → Option β) : Option β :=
  if h : rest.length < whole.length then next rest h else none

end VpnAuthority
