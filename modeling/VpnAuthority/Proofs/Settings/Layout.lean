import Mathlib.Data.List.Pairwise
import Mathlib.Data.List.Perm.Basic
import VpnAuthority.Proofs.Outcome
import VpnAuthority.Proofs.Toml.Statement
import VpnAuthority.Settings.Document

/-! A record read from the entries of a table depends on what they have for the keys of its
layout, and neither on their order nor on other keys. -/
namespace VpnAuthority.Settings

open Toml (Value)

variable {α β γ : Type}

/-- Two keys whose values may be read in either order. -/
def Commute (field other : Value → α → Parsed α) : Prop :=
  ∀ value value' a, ((field value a).toOption.bind fun b => (other value' b).toOption) =
    (other value' a).toOption.bind fun b => (field value b).toOption

theorem Commute.symm {field other : Value → α → Parsed α} (h : Commute field other) :
    Commute other field := fun value value' a => (h value' value a).symm

theorem toOption_set (read : Value → Parsed β) (set : β → α → α) (value : Value) (a : α) :
    (do .ok (set (← read value) a) : Parsed α).toOption =
      (read value).toOption.map (set · a) := by
  cases read value <;> simp [bind, Except.bind, Except.toOption]

theorem commute_of_sets {read : Value → Parsed β} {read' : Value → Parsed γ}
    {set : β → α → α} {set' : γ → α → α} (h : ∀ x y a, set' y (set x a) = set x (set' y a)) :
    Commute (fun value a => do .ok (set (← read value) a))
      (fun value a => do .ok (set' (← read' value) a)) := by
  intro value value' a
  simp only [toOption_set]
  cases (read value).toOption <;> cases (read' value').toOption <;> simp [h]

structure IsOrderly (layout : Layout α) : Prop where
  distinct : (layout.map Prod.fst).Nodup
  commute : layout.Pairwise fun field other => Commute field.2 other.2

/-- A key's effect if the rows have a value for it. -/
def override? (rows : List (String × Value)) (a : α) (field : String × (Value → α → Parsed α)) :
    Option α :=
  match rows.lookup field.1 with
  | none => some a
  | some value => (field.2 value a).toOption

variable {layout : Layout α} {rows : List (String × Value)}

def readRow (layout : Layout α) (read : Option α) (row : String × Value) : Option α :=
  read.bind fun a =>
    match layout.lookup row.1 with
    | some field => (field row.2 a).toOption
    | none => some a

theorem IsOrderly.readRow_comm (isOrderly : IsOrderly layout) {row other : String × Value}
    (h : row.1 ≠ other.1) (read : Option α) :
    readRow layout (readRow layout read row) other =
      readRow layout (readRow layout read other) row := by
  cases read with
  | none => rfl
  | some a =>
    simp only [readRow, Option.bind_some]
    cases found : layout.lookup row.1 with
    | none => simp
    | some field =>
      cases found' : layout.lookup other.1 with
      | none => simp
      | some field' =>
        have : Std.Symm fun field other : String × (Value → α → Parsed α) =>
            Commute field.2 other.2 := ⟨fun _ _ => Commute.symm⟩
        exact isOrderly.commute.forall (Toml.mem_of_lookup found) (Toml.mem_of_lookup found')
          (fun same => h (Prod.ext_iff.1 same).1) row.2 other.2 a

theorem toOption_readEntries_eq_foldl (start : α) :
    (readEntries layout rows start).toOption = rows.foldl (readRow layout) (some start) := by
  rw [readEntries, toOption_foldlM, List.foldlM_eq_foldl]
  refine List.foldl_ext _ _ _ fun read (key, value) _ => Option.bind_congr fun a _ => ?_
  dsimp only
  cases layout.lookup key <;> rfl

/-- The rows of keys that are known, in the order of the layout. -/
def rowsInOrder (layout : Layout α) (rows : List (String × Value)) : List (String × Value) :=
  (layout.map Prod.fst).filterMap fun key => (rows.lookup key).map (key, ·)

theorem IsOrderly.perm_rowsInOrder (isOrderly : IsOrderly layout)
    (nodup : (rows.map Prod.fst).Nodup) :
    (rows.filter fun row => (layout.lookup row.1).isSome).Perm (rowsInOrder layout rows) := by
  have isNodup : (rowsInOrder layout rows).Nodup := by
    refine isOrderly.distinct.filterMap fun key other row h h' => ?_
    obtain ⟨value, -, rfl⟩ := Option.map_eq_some_iff.1 h
    obtain ⟨value', -, same⟩ := Option.map_eq_some_iff.1 h'
    exact (congrArg Prod.fst same).symm
  refine (List.perm_ext_iff_of_nodup (nodup.of_map.filter _) isNodup).2 fun row => ?_
  rw [List.mem_filter, rowsInOrder, List.mem_filterMap]
  constructor
  · rintro ⟨member, isKnown⟩
    obtain ⟨field, isField, same⟩ := List.lookup_isSome_iff.1 isKnown
    refine ⟨row.1, List.mem_map.2 ⟨field, isField, (beq_iff_eq.1 same).symm⟩, ?_⟩
    rw [(Toml.lookup_eq_some_iff_mem nodup).2 member, Option.map_some]
  · rintro ⟨key, isKey, found⟩
    obtain ⟨value, isRow, rfl⟩ := Option.map_eq_some_iff.1 found
    obtain ⟨field, isField, same⟩ := List.mem_map.1 isKey
    exact ⟨Toml.mem_of_lookup isRow,
      List.lookup_isSome_iff.2 ⟨field, isField, beq_iff_eq.2 same.symm⟩⟩

/-- The rows may be read in the order of the layout: those of unknown keys have no effect, and
the others commute. -/
theorem toOption_readEntries (isOrderly : IsOrderly layout) (nodup : (rows.map Prod.fst).Nodup)
    (start : α) :
    (readEntries layout rows start).toOption = layout.foldlM (override? rows) start := by
  calc (readEntries layout rows start).toOption
      = rows.foldl (readRow layout) (some start) := toOption_readEntries_eq_foldl start
    _ = (rows.filter fun row => (layout.lookup row.1).isSome).foldl (readRow layout)
          (some start) := by
        rw [List.foldl_filter]
        refine List.foldl_ext _ _ _ fun read row _ => ?_
        split
        · rfl
        · next isUnknown =>
          simp [readRow, Option.not_isSome_iff_eq_none.1 isUnknown]
    _ = (rowsInOrder layout rows).foldl (readRow layout) (some start) := by
        have perm := isOrderly.perm_rowsInOrder nodup
        refine perm.foldl_eq' (fun row isRow other isOther read => ?_) _
        by_cases same : row = other
        · rw [same]
        · refine isOrderly.readRow_comm (fun sameKey => same ?_) read
          exact List.inj_on_of_nodup_map nodup (List.mem_filter.1 isRow).1
            (List.mem_filter.1 isOther).1 sameKey
    _ = layout.foldlM (override? rows) start := by
        rw [rowsInOrder, List.filterMap_map, List.foldl_filterMap, List.foldlM_eq_foldl]
        refine List.foldl_ext _ _ _ fun read (key, field) member => ?_
        have isKnown := (Toml.lookup_eq_some_iff_mem isOrderly.distinct).2 member
        simp only [Function.comp_apply, override?]
        cases rows.lookup key with
        | none => simp
        | some value => simp [readRow, isKnown]

/-- The rows of a record: the entries of a table, and the items of an array as the values of the
record's keys in their order. A date has none. -/
def rowsOf? (keys : List String) : Value → Option (List (String × Value))
  | .table entries => some entries
  | .dateTime _ => some []
  | .array items => some (keys.zip items)
  | _ => none

theorem nodup_keys_zip {keys : List String} (nodup : keys.Nodup) (items : List β) :
    ((keys.zip items).map Prod.fst).Nodup := by
  rw [List.zip_eq_zip_take_min, List.map_fst_zip (by simp)]
  exact nodup.sublist (List.take_sublist _ _)

theorem nodup_of_rowsOf? {keys : List String} (nodup : keys.Nodup) {value : Value}
    (isTidy : value.IsTidy) (h : rowsOf? keys value = some rows) : (rows.map Prod.fst).Nodup := by
  cases isTidy with
  | table isNodup all =>
    cases h
    exact isNodup
  | dateTime text =>
    cases h
    exact List.nodup_nil
  | array all =>
    cases h
    exact nodup_keys_zip nodup _
  | _ => cases h

theorem readItems_eq_readEntries (distinct : (layout.map Prod.fst).Nodup) (items : List Value)
    (start : α) :
    readItems layout items start =
      readEntries layout ((layout.map Prod.fst).zip items) start := by
  rw [readItems, readEntries, List.zip_map_left, List.foldlM_map, List.foldlM_eq_foldl,
    List.foldlM_eq_foldl]
  refine List.foldl_ext _ _ _ fun read ((key, field), value) member => ?_
  have isKnown := (Toml.lookup_eq_some_iff_mem distinct).2 (List.of_mem_zip member).1
  simp [isKnown]

theorem toOption_readRecord (isOrderly : IsOrderly layout) {value : Value} (isTidy : value.IsTidy)
    (name : String) (start : α) :
    (readRecord name layout value start).toOption =
      (rowsOf? (layout.map Prod.fst) value).bind fun rows =>
        layout.foldlM (override? rows) start := by
  cases isTidy with
  | table nodup all => exact toOption_readEntries isOrderly nodup start
  | dateTime text =>
    have nodup : (([] : List (String × Value)).map Prod.fst).Nodup := List.nodup_nil
    exact toOption_readEntries isOrderly nodup start
  | array all =>
    rw [readRecord, readItems_eq_readEntries isOrderly.distinct]
    exact toOption_readEntries isOrderly (nodup_keys_zip isOrderly.distinct _) start
  | _ => rfl

theorem filesLayout_isOrderly : IsOrderly filesLayout := by
  refine ⟨by decide, ?_⟩
  simp only [filesLayout, List.pairwise_cons, List.forall_mem_cons, List.not_mem_nil,
    false_imp_iff, implies_true, and_true, List.Pairwise.nil]
  and_intros <;> exact commute_of_sets fun _ _ _ => rfl

theorem policyLayout_isOrderly : IsOrderly policyLayout := by
  refine ⟨by decide, ?_⟩
  simp only [policyLayout, List.pairwise_cons, List.forall_mem_cons, List.not_mem_nil,
    false_imp_iff, implies_true, and_true, List.Pairwise.nil]
  and_intros <;> exact commute_of_sets fun _ _ _ => rfl

theorem templatesLayout_isOrderly : IsOrderly templatesLayout := by
  refine ⟨by decide, ?_⟩
  simp only [templatesLayout, List.pairwise_cons, List.forall_mem_cons, List.not_mem_nil,
    false_imp_iff, implies_true, and_true, List.Pairwise.nil]
  exact commute_of_sets fun _ _ _ => rfl

theorem settingsLayout_isOrderly : IsOrderly settingsLayout := by
  refine ⟨by decide, ?_⟩
  simp only [settingsLayout, List.pairwise_cons, List.forall_mem_cons, List.not_mem_nil,
    false_imp_iff, implies_true, and_true, List.Pairwise.nil]
  and_intros <;> exact commute_of_sets fun _ _ _ => rfl

end VpnAuthority.Settings
