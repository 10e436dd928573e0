import Mathlib.Data.List.Nodup
import VpnAuthority.Toml.Statement

/-! What the readers of a settings document hand on. A scalar is no table, so that tables
come from headers, braces and dotted keys alone. -/
namespace VpnAuthority.Toml

variable {α : Type}

theorem continueWith_eq_some_iff {whole rest : List α} {β : Type}
    {next : (r : List α) → r.length < whole.length → Option β} {b : β} :
    continueWith whole rest next = some b ↔ ∃ shorter, next rest shorter = some b := by
  unfold continueWith
  split
  · next shorter => simp [shorter]
  · next h => simp [h]

/-- Entries no two of which have one key, and whose contents have a property. -/
structure Distinct (P : α → Prop) (entries : List (String × α)) : Prop where
  nodup : (entries.map Prod.fst).Nodup
  all : ∀ entry ∈ entries, P entry.2

theorem mem_of_lookup {entries : List (String × α)} {key : String} {a : α}
    (h : entries.lookup key = some a) : (key, a) ∈ entries := by
  obtain ⟨before, behind, rfl, -⟩ := List.lookup_eq_some_iff.1 h
  exact List.mem_append_right _ List.mem_cons_self

theorem lookup_eq_some_iff_mem {entries : List (String × α)} (nodup : (entries.map Prod.fst).Nodup)
    {key : String} {a : α} : entries.lookup key = some a ↔ (key, a) ∈ entries := by
  refine ⟨mem_of_lookup, fun member => ?_⟩
  obtain ⟨b, found⟩ := Option.isSome_iff_exists.1
    (List.lookup_isSome_iff.2 ⟨(key, a), member, beq_self_eq_true key⟩)
  cases List.inj_on_of_nodup_map nodup member (mem_of_lookup found) rfl
  exact found

theorem lookup_eq_none_iff_not_mem {entries : List (String × α)} {key : String} :
    entries.lookup key = none ↔ key ∉ entries.map Prod.fst := by
  rw [List.lookup_eq_none_iff, List.mem_map]
  simp only [bne_iff_ne, ne_eq, not_exists, not_and]
  exact ⟨fun h entry member same => h entry member same.symm,
    fun h entry member same => h entry member same.symm⟩

inductive Value.IsTidy : Value → Prop
  | string (text : String) : IsTidy (.string text)
  | integer (value : Int) : IsTidy (.integer value)
  | float (value : Binary64) : IsTidy (.float value)
  | boolean (value : Bool) : IsTidy (.boolean value)
  | dateTime (text : String) : IsTidy (.dateTime text)
  | array {items : List Value} (all : ∀ item ∈ items, IsTidy item) : IsTidy (.array items)
  | table {entries : List (String × Value)} (nodup : (entries.map Prod.fst).Nodup)
      (all : ∀ entry ∈ entries, IsTidy entry.2) : IsTidy (.table entries)

inductive Written.IsTidy : Written → Prop
  | scalar {value : Value} (isTidy : value.IsTidy) : IsTidy (.scalar value)
  | array {items : List Written} (all : ∀ item ∈ items, IsTidy item) : IsTidy (.array items)
  | inlineTable {entries : List (KeyPath × Written)} (all : ∀ entry ∈ entries, IsTidy entry.2) :
      IsTidy (.inlineTable entries)

theorem isTidy_of_readBased {base : Nat} {cs rest : List Char} {value : Value}
    (h : readBased base cs = some (value, rest)) : value.IsTidy := by
  simp only [readBased, Option.bind_eq_bind, Option.bind_eq_some_iff] at h
  obtain ⟨_, -, n, -, h⟩ := h
  split at h
  · cases h
    exact .integer n
  · cases h

theorem isTidy_of_readUnsigned {negative : Bool} {cs rest : List Char} {value : Value}
    (h : readUnsigned negative cs = some (value, rest)) : value.IsTidy := by
  simp only [readUnsigned, Option.bind_eq_bind] at h
  split at h
  all_goals
    simp only [Option.bind_eq_some_iff] at h
    obtain ⟨_, -, fraction, -, exponent, -, h⟩ := h
    split at h
    · obtain ⟨n, -, h⟩ := Option.bind_eq_some_iff.1 h
      split at h
      · cases h
        exact .integer _
      · split at h
        · cases h
          exact .integer n
        · cases h
    · obtain ⟨digits, -, h⟩ := Option.bind_eq_some_iff.1 h
      split at h
      · cases h
      · cases h
        exact .float _

theorem isTidy_of_readSigned {negative : Bool} {cs rest : List Char} {value : Value}
    (h : readSigned negative cs = some (value, rest)) : value.IsTidy := by
  unfold readSigned at h
  split at h
  · cases h
    exact .float _
  · cases h
    exact .float .nan
  · exact isTidy_of_readUnsigned h

theorem isTidy_of_readNumber {cs rest : List Char} {value : Value}
    (h : readNumber cs = some (value, rest)) : value.IsTidy := by
  unfold readNumber at h
  split at h
  any_goals exact isTidy_of_readSigned h
  all_goals exact isTidy_of_readBased h

theorem isTidy_of_readScalar {cs rest : List Char} {value : Value}
    (h : readScalar cs = some (value, rest)) : value.IsTidy := by
  unfold readScalar at h
  split at h
  any_goals
    obtain ⟨text, -, same⟩ := Option.map_eq_some_iff.1 h
    cases same
    exact .string _
  any_goals
    cases h
    exact .boolean _
  · split at h
    · obtain ⟨rest, -, same⟩ := Option.bind_eq_some_iff.1 h
      cases same
      exact .dateTime _
    · exact isTidy_of_readNumber h

variable {item : Reader α} {P : α → Prop}

theorem forall_of_readItems (hitem : ∀ cs a rest, item cs = some (a, rest) → P a)
    {cs rest : List Char} {items : List α} (h : readItems item cs = some (items, rest)) :
    ∀ a ∈ items, P a := by
  induction cs using readItems.induct generalizing items rest with
  | case1 cs behind isEnd =>
    rw [readItems.eq_def, isEnd] at h
    cases h
    exact List.forall_mem_nil P
  | case2 cs isOpen ih =>
    rw [readItems.eq_def] at h
    split at h
    · next isEnd => exact absurd isEnd (isOpen _)
    simp only [Option.bind_eq_bind, Option.bind_eq_some_iff, Prod.exists] at h
    obtain ⟨first, more, read, h⟩ := h
    have isP : P first := hitem _ _ _ read
    split at h
    · cases h
      exact List.forall_mem_singleton.2 isP
    · obtain ⟨shorter, h⟩ := continueWith_eq_some_iff.1 h
      simp only [Option.bind_eq_some_iff, Prod.exists] at h
      obtain ⟨others, end', readOthers, same⟩ := h
      cases same
      exact List.forall_mem_cons.2 ⟨isP, ih _ shorter readOthers⟩
    · cases h

theorem forall_of_readEntries (hitem : ∀ cs a rest, item cs = some (a, rest) → P a)
    {cs rest : List Char} {entries : List (KeyPath × α)}
    (h : readEntries item cs = some (entries, rest)) : ∀ entry ∈ entries, P entry.2 := by
  induction cs using readEntries.induct generalizing entries rest with
  | case1 cs ih =>
    rw [readEntries.eq_def] at h
    simp only [Option.bind_eq_bind, Option.bind_eq_some_iff, Prod.exists] at h
    obtain ⟨path, behind, -, next, -, value, more, read, h⟩ := h
    have isP : P value := hitem _ _ _ read
    split at h
    · cases h
      exact List.forall_mem_singleton.2 isP
    · obtain ⟨shorter, h⟩ := continueWith_eq_some_iff.1 h
      simp only [Option.bind_eq_some_iff, Prod.exists] at h
      obtain ⟨others, end', readOthers, same⟩ := h
      cases same
      exact List.forall_mem_cons.2 ⟨isP, ih _ shorter readOthers⟩
    · cases h

theorem isTidy_of_readValue {depth : Nat} {cs rest : List Char} {written : Written}
    (h : readValue depth cs = some (written, rest)) : written.IsTidy := by
  -- by induction on the depth: what a bracket or a brace opens is read one level below
  induction depth generalizing cs rest written with
  | zero =>
    rw [readValue.eq_def] at h
    simp only at h
    obtain ⟨⟨value, more⟩, read, same⟩ := Option.map_eq_some_iff.1 h
    cases same
    exact .scalar (isTidy_of_readScalar read)
  | succ depth ih =>
    rw [readValue.eq_def] at h
    split at h
    · next same =>
      cases same
      obtain ⟨⟨items, more⟩, read, same⟩ := Option.map_eq_some_iff.1 h
      cases same
      exact .array (forall_of_readItems (fun _ _ _ => ih) read)
    · next same =>
      cases same
      split at h
      · cases h
        exact .inlineTable (List.forall_mem_nil _)
      · obtain ⟨⟨entries, more⟩, read, same⟩ := Option.map_eq_some_iff.1 h
        cases same
        exact .inlineTable (forall_of_readEntries (fun _ _ _ => ih) read)
    · obtain ⟨⟨value, more⟩, read, same⟩ := Option.map_eq_some_iff.1 h
      cases same
      exact .scalar (isTidy_of_readScalar read)

def Statement.IsTidy : Statement → Prop
  | .header _ | .arrayHeader _ => True
  | .assignment _ written => written.IsTidy

theorem isTidy_of_readHeader {closing cs rest : List Char} (make : KeyPath → Statement)
    {statement : Statement} (hmake : ∀ path, (make path).IsTidy)
    (h : readHeader closing make cs = some (statement, rest)) : statement.IsTidy := by
  simp only [readHeader, Option.bind_eq_bind, Option.bind_eq_some_iff, Prod.exists] at h
  obtain ⟨path, _, -, _, -, _, -, same⟩ := h
  cases same
  exact hmake path

theorem isTidy_of_readStatement {cs rest : List Char} {statement : Statement}
    (h : readStatement cs = some (statement, rest)) : statement.IsTidy := by
  unfold readStatement at h
  split at h
  · exact isTidy_of_readHeader .arrayHeader (fun _ => trivial) h
  · exact isTidy_of_readHeader .header (fun _ => trivial) h
  · simp only [Option.bind_eq_bind, Option.bind_eq_some_iff, Prod.exists] at h
    obtain ⟨path, _, -, _, -, written, _, read, _, -, same⟩ := h
    cases same
    exact isTidy_of_readValue read

theorem isTidy_of_readStatements {cs : List Char} {statements : List Statement}
    (h : readStatements cs = some statements) : ∀ statement ∈ statements, statement.IsTidy := by
  induction cs using readStatements.induct generalizing statements with
  | case1 cs isEnd =>
    rw [readStatements.eq_def, isEnd] at h
    cases h
    exact List.forall_mem_nil _
  | case2 cs rest isComment ih =>
    rw [readStatements.eq_def, isComment] at h
    obtain ⟨rest, -, h⟩ := Option.bind_eq_some_iff.1 h
    obtain ⟨shorter, h⟩ := continueWith_eq_some_iff.1 h
    exact ih _ shorter h
  | case3 cs rest isSome isPlain isEmpty ih =>
    rw [readStatements.eq_def] at h
    split at h
    · next isEnd => exact absurd isEnd isSome
    · next isComment => exact absurd isComment (isPlain _)
    · rw [isEmpty] at h
      obtain ⟨shorter, h⟩ := continueWith_eq_some_iff.1 h
      exact ih _ shorter h
  | case4 cs isSome isPlain isFull ih =>
    rw [readStatements.eq_def] at h
    split at h
    · next isEnd => exact absurd isEnd isSome
    · next isComment => exact absurd isComment (isPlain _)
    · rw [isFull] at h
      simp only [Option.bind_eq_bind, Option.bind_eq_some_iff, Prod.exists] at h
      obtain ⟨statement, rest, read, h⟩ := h
      obtain ⟨shorter, h⟩ := continueWith_eq_some_iff.1 h
      obtain ⟨others, readOthers, rfl⟩ := Option.map_eq_some_iff.1 h
      exact List.forall_mem_cons.2 ⟨isTidy_of_readStatement read, ih _ shorter readOthers⟩

theorem Statement.isTidy_of_ofText? {text : String} {statements : List Statement}
    (h : Statement.ofText? text = some statements) :
    ∀ statement ∈ statements, statement.IsTidy := by
  unfold Statement.ofText? at h
  split at h <;> exact isTidy_of_readStatements h

end VpnAuthority.Toml
