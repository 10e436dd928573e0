import VpnAuthority.Toml.Document
import VpnAuthority.Proofs.Toml.Statement

/-! No table of a document has a key twice: each change that a section makes to the tables
keeps their keys distinct. -/
namespace VpnAuthority.Toml

namespace Distinct

variable {α : Type} {P : α → Prop} {entries : List (String × α)} {key : String} {a : α}

theorem nil : Distinct P [] := ⟨List.nodup_nil, List.forall_mem_nil _⟩

theorem of_lookup (distinct : Distinct P entries) (h : entries.lookup key = some a) : P a :=
  distinct.all _ (mem_of_lookup h)

theorem concat (distinct : Distinct P entries) (isNew : entries.lookup key = none) (isP : P a) :
    Distinct P (entries ++ [(key, a)]) := by
  constructor
  · rw [List.map_append, List.nodup_append]
    refine ⟨distinct.nodup, List.nodup_singleton key, fun other member k isKey same => ?_⟩
    obtain rfl : other = key := same.trans (List.mem_singleton.1 isKey)
    exact lookup_eq_none_iff_not_mem.1 isNew member
  · rw [List.forall_mem_append]
    exact ⟨distinct.all, List.forall_mem_singleton.2 isP⟩

theorem filter (distinct : Distinct P entries) (keep : String × α → Bool) :
    Distinct P (entries.filter keep) :=
  ⟨distinct.nodup.sublist (List.filter_sublist.map Prod.fst),
    fun entry member => distinct.all entry (List.mem_filter.1 member).1⟩

end Distinct

/-- A node in which no table, also deep inside, has a key twice. -/
inductive Node.IsTidy : Node → Prop
  | value {inner : Value} (isTidy : inner.IsTidy) : IsTidy (.value inner)
  | table {origin : Origin} {entries : List (String × Node)} (nodup : (entries.map Prod.fst).Nodup)
      (all : ∀ entry ∈ entries, IsTidy entry.2) : IsTidy (.table origin entries)
  | tables {all : List (List (String × Node))}
      (nodup : ∀ entries ∈ all, (entries.map Prod.fst).Nodup)
      (isTidy : ∀ entries ∈ all, ∀ entry ∈ entries, IsTidy entry.2) : IsTidy (.tables all)

abbrev Entries.IsTidy (entries : Entries) : Prop := Distinct Node.IsTidy entries

namespace Node.IsTidy

variable {origin : Origin} {entries : Entries}

theorem table_iff : IsTidy (.table origin entries) ↔ entries.IsTidy :=
  ⟨fun | .table nodup all => ⟨nodup, all⟩, fun h => .table h.nodup h.all⟩

theorem tables_iff {all : List Entries} :
    IsTidy (.tables all) ↔ ∀ entries ∈ all, entries.IsTidy :=
  ⟨fun | .tables nodup tidy => fun entries member => ⟨nodup entries member, tidy entries member⟩,
    fun h => .tables (fun entries member => (h entries member).nodup)
      fun entries member => (h entries member).all⟩

end Node.IsTidy

namespace Entries

open Node.IsTidy (table_iff tables_iff)

variable {entries after : Entries} {key : String} {node : Node} {path : KeyPath}

theorem IsTidy.put (isTidy : entries.IsTidy) (isNode : node.IsTidy) :
    (entries.put key node).IsTidy := by
  constructor
  · have same : (entries.put key node).map Prod.fst = entries.map Prod.fst := by
      rw [Entries.put, List.map_map]
      refine List.map_congr_left fun entry _ => ?_
      by_cases h : entry.1 = key <;> simp [h]
    rw [same]
    exact isTidy.nodup
  · intro entry member
    obtain ⟨old, isOld, rfl⟩ := List.mem_map.1 member
    by_cases h : old.1 = key
    · simpa only [h, if_true] using isNode
    · simpa only [h, if_false] using isTidy.all old isOld

section Found

variable {origin : Origin} {inner changed latest : Entries} {earlier : List Entries}

theorem IsTidy.of_table (isTidy : entries.IsTidy)
    (found : entries.lookup key = some (.table origin inner)) : inner.IsTidy :=
  table_iff.1 (isTidy.of_lookup found)

theorem IsTidy.of_tables (isTidy : entries.IsTidy)
    (found : entries.lookup key = some (.tables (latest :: earlier))) : latest.IsTidy :=
  (List.forall_mem_cons.1 (tables_iff.1 (isTidy.of_lookup found))).1

theorem IsTidy.put_latest (isTidy : entries.IsTidy)
    (found : entries.lookup key = some (.tables (latest :: earlier))) (isChanged : changed.IsTidy) :
    (entries.put key (.tables (changed :: earlier))).IsTidy :=
  isTidy.put (tables_iff.2 (List.forall_mem_cons.2
    ⟨isChanged, (List.forall_mem_cons.1 (tables_iff.1 (isTidy.of_lookup found))).2⟩))

end Found

theorem isTidy_of_under {change : Entries → Option Entries}
    (hchange : ∀ {entries after : Entries}, entries.IsTidy → change entries = some after →
      after.IsTidy)
    (isTidy : entries.IsTidy) (h : entries.under change path = some after) : after.IsTidy := by
  -- by induction on the path: tables on the way are changed in their place or implied
  induction path generalizing entries after with
  | nil => exact hchange isTidy h
  | cons key path ih =>
    rw [under] at h
    split at h
    · next isNew =>
      obtain ⟨inner, changed, same⟩ := Option.bind_eq_some_iff.1 h
      cases same
      exact isTidy.concat isNew (table_iff.2 (ih .nil changed))
    · next origin inner found =>
      obtain ⟨inner', changed, same⟩ := Option.bind_eq_some_iff.1 h
      cases same
      exact isTidy.put (table_iff.2 (ih (isTidy.of_table found) changed))
    · next latest earlier found =>
      obtain ⟨latest', changed, same⟩ := Option.bind_eq_some_iff.1 h
      cases same
      exact isTidy.put_latest found (ih (isTidy.of_tables found) changed)
    · cases h

theorem isTidy_of_define (isNode : node.IsTidy) (isTidy : entries.IsTidy)
    (h : entries.define node path = some after) : after.IsTidy := by
  -- by induction on the path, as for headers; the last key is new in its table
  induction path generalizing entries after with
  | nil => cases h
  | cons key path ih =>
    cases path with
    | nil =>
      rw [define] at h
      split at h
      · cases h
      · next isNew =>
        cases h
        exact isTidy.concat (Option.not_isSome_iff_eq_none.1 isNew) isNode
    | cons next path =>
      rw [define] at h
      split at h
      · next isNew =>
        obtain ⟨inner, defined, same⟩ := Option.bind_eq_some_iff.1 h
        cases same
        exact isTidy.concat isNew (table_iff.2 (ih .nil defined))
      · cases h
      · next origin inner _ found =>
        split at h
        · cases h
        · obtain ⟨inner', defined, same⟩ := Option.bind_eq_some_iff.1 h
          cases same
          exact isTidy.put (table_iff.2 (ih (isTidy.of_table found) defined))
      · next latest earlier found =>
        split at h
        · cases h
        · obtain ⟨latest', defined, same⟩ := Option.bind_eq_some_iff.1 h
          cases same
          exact isTidy.put_latest found (ih (isTidy.of_tables found) defined)
      · cases h

end Entries

theorem Node.keys_entryValues (entries : List (String × Node)) :
    (Node.entryValues entries).map Prod.fst = entries.map Prod.fst := by
  induction entries with
  | nil => rfl
  | cons entry rest ih => rw [Node.entryValues, List.map_cons, List.map_cons, ih]

mutual

theorem Node.isTidy_toValue : (node : Node) → node.IsTidy → node.toValue.IsTidy
  | .value _, .value isTidy => isTidy
  | .table _ entries, .table nodup all =>
    .table (Node.keys_entryValues entries ▸ nodup) (Node.isTidy_entryValues entries all)
  | .tables all, .tables nodup isTidy =>
    .array fun value member =>
      Node.isTidy_tableValues all nodup isTidy value (List.mem_reverse.1 member)

theorem Node.isTidy_entryValues : (entries : List (String × Node)) →
    (∀ entry ∈ entries, entry.2.IsTidy) → ∀ entry ∈ Node.entryValues entries, entry.2.IsTidy
  | [], _ => List.forall_mem_nil _
  | (_, node) :: rest, all => by
    obtain ⟨first, others⟩ := List.forall_mem_cons.1 all
    exact List.forall_mem_cons.2 ⟨Node.isTidy_toValue node first,
      Node.isTidy_entryValues rest others⟩

theorem Node.isTidy_tableValues : (all : List (List (String × Node))) →
    (∀ entries ∈ all, (entries.map Prod.fst).Nodup) →
    (∀ entries ∈ all, ∀ entry ∈ entries, entry.2.IsTidy) →
    ∀ value ∈ Node.tableValues all, value.IsTidy
  | [], _, _ => List.forall_mem_nil _
  | entries :: rest, nodup, isTidy => by
    obtain ⟨first, others⟩ := List.forall_mem_cons.1 isTidy
    obtain ⟨firstNodup, othersNodup⟩ := List.forall_mem_cons.1 nodup
    exact List.forall_mem_cons.2
      ⟨.table (Node.keys_entryValues entries ▸ firstNodup) (Node.isTidy_entryValues entries first),
        Node.isTidy_tableValues rest othersNodup others⟩

end

theorem Node.distinct_entryValues {entries : Entries} (isTidy : entries.IsTidy) :
    Distinct Value.IsTidy (Node.entryValues entries) :=
  ⟨Node.keys_entryValues entries ▸ isTidy.nodup, Node.isTidy_entryValues entries isTidy.all⟩

mutual

theorem Written.isTidy_of_toValue? : (written : Written) → written.IsTidy →
    {value : Value} → written.toValue? = some value → value.IsTidy
  | .scalar _, .scalar isTidy, _, h => by
    cases h
    exact isTidy
  | .array items, .array all, _, h => by
    obtain ⟨values, read, rfl⟩ := Option.map_eq_some_iff.1 h
    exact .array (Written.isTidy_of_itemValues? items all read)
  | .inlineTable entries, .inlineTable all, _, h => by
    obtain ⟨inner, read, rfl⟩ := Option.map_eq_some_iff.1 h
    exact Node.isTidy_toValue _ (Node.IsTidy.table_iff.2
      (Written.isTidy_of_entryValues? entries all .nil read))

theorem Written.isTidy_of_itemValues? : (items : List Written) → (∀ item ∈ items, item.IsTidy) →
    {values : List Value} → Written.itemValues? items = some values → ∀ value ∈ values, value.IsTidy
  | [], _, _, h => by
    cases h
    exact List.forall_mem_nil _
  | item :: rest, all, _, h => by
    obtain ⟨first, others⟩ := List.forall_mem_cons.1 all
    obtain ⟨value, read, h⟩ := Option.bind_eq_some_iff.1 h
    obtain ⟨values, readOthers, same⟩ := Option.bind_eq_some_iff.1 h
    cases same
    exact List.forall_mem_cons.2 ⟨Written.isTidy_of_toValue? item first read,
      Written.isTidy_of_itemValues? rest others readOthers⟩

theorem Written.isTidy_of_entryValues? : (written : List (KeyPath × Written)) →
    (∀ entry ∈ written, entry.2.IsTidy) → {entries after : Entries} → entries.IsTidy →
    Written.entryValues? written entries = some after → after.IsTidy
  | [], _, _, _, isTidy, h => by
    cases h
    exact isTidy
  | (path, item) :: rest, all, _, _, isTidy, h => by
    obtain ⟨first, others⟩ := List.forall_mem_cons.1 all
    obtain ⟨value, read, h⟩ := Option.bind_eq_some_iff.1 h
    obtain ⟨next, defined, h⟩ := Option.bind_eq_some_iff.1 h
    have isValue := Node.IsTidy.value (Written.isTidy_of_toValue? item first read)
    exact Written.isTidy_of_entryValues? rest others
      (Entries.isTidy_of_define isValue isTidy defined) h

end

def Section.IsTidy (part : Section) : Prop := ∀ entry ∈ part.assignments, entry.2.IsTidy

theorem isTidy_of_sections {statements : List Statement}
    (h : ∀ statement ∈ statements, statement.IsTidy) :
    ∀ part ∈ (sections statements).1 :: (sections statements).2, part.IsTidy := by
  induction statements with
  | nil => exact List.forall_mem_singleton.2 (List.forall_mem_nil _)
  | cons statement rest ih =>
    obtain ⟨first, others⟩ := List.forall_mem_cons.1 h
    obtain ⟨isHead, isOthers⟩ := List.forall_mem_cons.1 (ih others)
    cases statement with
    | assignment path value =>
      exact List.forall_mem_cons.2 ⟨List.forall_mem_cons.2 ⟨first, isHead⟩, isOthers⟩
    | header path =>
      exact List.forall_mem_cons.2
        ⟨List.forall_mem_nil _, List.forall_mem_cons.2 ⟨isHead, isOthers⟩⟩
    | arrayHeader path =>
      exact List.forall_mem_cons.2
        ⟨List.forall_mem_nil _, List.forall_mem_cons.2 ⟨isHead, isOthers⟩⟩

theorem Entries.isTidy_of_addSection {entries after : Entries} {part : Section}
    (isPart : part.IsTidy) (isTidy : entries.IsTidy) (h : entries.addSection part = some after) :
    after.IsTidy := by
  unfold addSection at h
  split at h
  · exact Written.isTidy_of_entryValues? _ isPart isTidy h
  · next path inArray _ =>
    split at h
    · cases h
    · next key _ =>
      refine isTidy_of_under (fun {parent after} isParent changed => ?_) isTidy h
      clear h
      have assigned {start inner : Entries} (isStart : start.IsTidy)
          (h : start.assign part.assignments = some inner) : inner.IsTidy :=
        Written.isTidy_of_entryValues? _ isPart isStart h
      split at changed
      · next isNew _ =>
        obtain ⟨inner, read, same⟩ := Option.bind_eq_some_iff.1 changed
        cases same
        exact isParent.concat isNew (.table_iff.2 (assigned .nil read))
      · next implied found _ =>
        obtain ⟨inner, read, same⟩ := Option.bind_eq_some_iff.1 changed
        cases same
        have isInner := assigned (isParent.of_table found) read
        refine (isParent.filter _).concat ?_ (Node.IsTidy.table_iff.2 isInner)
        rw [lookup_eq_none_iff_not_mem, List.mem_map]
        rintro ⟨entry, member, same⟩
        simpa [same] using (List.mem_filter.1 member).2
      · next isNew _ =>
        obtain ⟨inner, read, same⟩ := Option.bind_eq_some_iff.1 changed
        cases same
        exact isParent.concat isNew
          (.tables_iff.2 (List.forall_mem_singleton.2 (assigned .nil read)))
      · next all found _ =>
        obtain ⟨inner, read, same⟩ := Option.bind_eq_some_iff.1 changed
        cases same
        exact isParent.put (.tables_iff.2 (List.forall_mem_cons.2
          ⟨assigned .nil read, Node.IsTidy.tables_iff.1 (isParent.of_lookup found)⟩))
      · cases changed

theorem Entries.isTidy_of_foldlM_addSection {parts : List Section}
    (h : ∀ part ∈ parts, part.IsTidy) {entries after : Entries} (isTidy : entries.IsTidy)
    (added : parts.foldlM Entries.addSection entries = some after) : after.IsTidy := by
  induction parts generalizing entries with
  | nil =>
    cases added
    exact isTidy
  | cons part rest ih =>
    obtain ⟨first, others⟩ := List.forall_mem_cons.1 h
    rw [List.foldlM_cons] at added
    obtain ⟨next, add, added⟩ := Option.bind_eq_some_iff.1 added
    exact ih others (isTidy_of_addSection first isTidy add) added

theorem distinct_of_parse? {text : String} {entries : List (String × Value)}
    (h : parse? text = some entries) : Distinct Value.IsTidy entries := by
  obtain ⟨statements, read, h⟩ := Option.bind_eq_some_iff.1 h
  obtain ⟨after, added, same⟩ := Option.bind_eq_some_iff.1 h
  cases same
  have parts := isTidy_of_sections (Statement.isTidy_of_ofText? read)
  exact Node.distinct_entryValues (Entries.isTidy_of_foldlM_addSection parts .nil added)

end VpnAuthority.Toml
