import VpnAuthority.Authority
import VpnAuthority.Proofs.Settings.Layout
import VpnAuthority.Proofs.Toml.Document

/-! Settings read from a document are the defaults, overridden by what the document has for
the keys that are known. -/
namespace VpnAuthority.Settings

open Toml (Value)

def text? : Value → Option String
  | .string text => some text
  | _ => none

def word? : Value → Option Nat
  | .integer value => if 0 ≤ value ∧ value < 4294967296 then some value.toNat else none
  | _ => none

def valueOr? (read : Value → Option β) (rows : List (String × Value)) (key : String)
    (default : β) : Option β :=
  match rows.lookup key with
  | none => some default
  | some value => read value

theorem toOption_text (value : Value) : (text value).toOption = text? value := by
  cases value <;> rfl

theorem toOption_path (value : Value) : (path value).toOption = text? value := by
  cases value <;> rfl

theorem toOption_readWord (value : Value) : (readWord value).toOption = word? value := by
  cases value with
  | integer value =>
    have inRange : 0 ≤ value ∧ value ≤ maxWord ↔ 0 ≤ value ∧ value < 4294967296 := by
      unfold maxWord
      omega
    rw [readWord, word?, if_congr inRange rfl rfl]
    by_cases h : 0 ≤ value ∧ value < 4294967296
    · rw [if_pos h, if_pos h]
      rfl
    · rw [if_neg h, if_neg h]
      rfl
  | _ => rfl

def filesKeys : List String := ["key_path", "cert_path", "key_password"]

def policyKeys : List String :=
  ["key_size", "ca_expire_days", "key_expire_days", "country", "province", "city",
    "organization", "organizational_unit", "name", "email"]

def templatesKeys : List String := ["client_config_path", "server_config_path"]

def files? (rows : List (String × Value)) : Option AuthorityFiles := do
  let keyPath ← valueOr? text? rows "key_path" defaultKeyPath
  let certificatePath ← valueOr? text? rows "cert_path" defaultCertificatePath
  let passphrase ← (rows.lookup "key_password").bind text?
  some { keyPath, certificatePath, passphrase := ⟨passphrase⟩ }

def policy? (rows : List (String × Value)) : Option Policy := do
  let keySize ← valueOr? word? rows "key_size" Policy.default.keySize
  let authorityDays ← valueOr? word? rows "ca_expire_days" Policy.default.authorityDays
  let leafDays ← valueOr? word? rows "key_expire_days" Policy.default.leafDays
  let country ← valueOr? text? rows "country" Policy.default.country
  let province ← valueOr? text? rows "province" Policy.default.province
  let city ← valueOr? text? rows "city" Policy.default.city
  let organization ← valueOr? text? rows "organization" Policy.default.organization
  let unit ← valueOr? text? rows "organizational_unit" Policy.default.unit
  let name ← valueOr? text? rows "name" Policy.default.name
  let email ← valueOr? text? rows "email" Policy.default.email
  some {
    keySize, authorityDays, leafDays, country, province, city, organization, unit, name, email }

def templates? (rows : List (String × Value)) : Option TemplateFiles := do
  let client ← valueOr? text? rows "client_config_path" TemplateFiles.default.client
  let server ← valueOr? text? rows "server_config_path" TemplateFiles.default.server
  some { client, server }

/-- The rows of the record that a document has under a name; one that is missing has none. -/
def rows? (document : List (String × Value)) (name : String) (keys : List String) :
    Option (List (String × Value)) :=
  rowsOf? keys ((document.lookup name).getD (.table []))

/-- The defaults with what a document has for the keys that are known. -/
def described? (document : List (String × Value)) : Option Settings := do
  let authority ← (rows? document "ca" filesKeys).bind files?
  let policy ← (rows? document "keygen" policyKeys).bind policy?
  let templates ← (rows? document "templates" templatesKeys).bind templates?
  some { authority, policy, templates }

section Fields

variable {α β γ : Type} {rows : List (String × Value)} {layout : Layout α}

theorem foldlM_override_cons {key : String} {field : Value → α → Parsed α}
    {read : Value → Option β} {set : β → α → α} {a : α} {default : β} {next : β → Option α}
    (reads : ∀ value a, (field value a).toOption = (read value).map (set · a))
    (same : set default a = a)
    (others : ∀ b, layout.foldlM (override? rows) (set b a) = next b) :
    ((key, field) :: layout).foldlM (override? rows) a =
      (valueOr? read rows key default).bind next := by
  obtain rfl : (fun b => layout.foldlM (override? rows) (set b a)) = next := funext others
  rw [List.foldlM_cons, override?, valueOr?]
  cases rows.lookup key with
  | none => simp [same]
  | some value =>
    dsimp only
    rw [reads, Option.bind_eq_bind, Option.bind_map]
    rfl

theorem bind_foldlM_override_cons {key : String} {field : Value → α → Parsed α}
    {read : Value → Option β} {set : β → α → α} {a : α} {default : β} {finish : α → Option γ}
    {next : β → Option γ}
    (reads : ∀ value a, (field value a).toOption = (read value).map (set · a))
    (same : set default a = a)
    (others : ∀ b, (layout.foldlM (override? rows) (set b a)).bind finish = next b) :
    (((key, field) :: layout).foldlM (override? rows) a).bind finish =
      (valueOr? read rows key default).bind next := by
  rw [foldlM_override_cons reads same fun _ => rfl, Option.bind_assoc]
  exact Option.bind_congr fun b _ => others b

theorem toOption_set_text (set : String → α → α) (value : Value) (a : α) :
    (do .ok (set (← text value) a) : Parsed α).toOption = (text? value).map (set · a) := by
  rw [toOption_set, toOption_text]

theorem toOption_set_path (set : String → α → α) (value : Value) (a : α) :
    (do .ok (set (← path value) a) : Parsed α).toOption = (text? value).map (set · a) := by
  rw [toOption_set, toOption_path]

theorem toOption_set_word (set : Nat → α → α) (value : Value) (a : α) :
    (do .ok (set (← readWord value) a) : Parsed α).toOption = (word? value).map (set · a) := by
  rw [toOption_set, toOption_readWord]

end Fields

theorem foldlM_policyLayout (rows : List (String × Value)) :
    policyLayout.foldlM (override? rows) Policy.default = policy? rows := by
  -- one step for each key, in the order of the layout
  refine foldlM_override_cons (toOption_set_word _) rfl fun keySize => ?_
  refine foldlM_override_cons (toOption_set_word _) rfl fun authorityDays => ?_
  refine foldlM_override_cons (toOption_set_word _) rfl fun leafDays => ?_
  refine foldlM_override_cons (toOption_set_text _) rfl fun country => ?_
  refine foldlM_override_cons (toOption_set_text _) rfl fun province => ?_
  refine foldlM_override_cons (toOption_set_text _) rfl fun city => ?_
  refine foldlM_override_cons (toOption_set_text _) rfl fun organization => ?_
  refine foldlM_override_cons (toOption_set_text _) rfl fun unit => ?_
  refine foldlM_override_cons (toOption_set_text _) rfl fun name => ?_
  refine foldlM_override_cons (toOption_set_text _) rfl fun email => ?_
  rfl

theorem foldlM_templatesLayout (rows : List (String × Value)) :
    templatesLayout.foldlM (override? rows) TemplateFiles.default = templates? rows := by
  refine foldlM_override_cons (toOption_set_path _) rfl fun client => ?_
  refine foldlM_override_cons (toOption_set_path _) rfl fun server => ?_
  rfl

def PartialFiles.finish? (files : PartialFiles) : Option AuthorityFiles :=
  files.passphrase.map fun passphrase => ⟨files.keyPath, files.certificatePath, passphrase⟩

theorem bind_foldlM_filesLayout (rows : List (String × Value)) :
    (filesLayout.foldlM (override? rows) {}).bind PartialFiles.finish? = files? rows := by
  refine bind_foldlM_override_cons (toOption_set_path _) rfl fun keyPath => ?_
  refine bind_foldlM_override_cons (toOption_set_path _) rfl fun certificatePath => ?_
  rw [List.foldlM_cons, override?]
  cases rows.lookup "key_password" with
  | none => rfl
  | some value => cases value <;> rfl

theorem toOption_readFiles {value : Value} (isTidy : value.IsTidy) :
    (readFiles value).toOption = (rowsOf? filesKeys value).bind files? := by
  have finished : (readFiles value).toOption =
      (readRecord "CaPaths" filesLayout value {}).toOption.bind PartialFiles.finish? := by
    rw [readFiles, toOption_bind]
    refine Option.bind_congr fun files _ => ?_
    rw [PartialFiles.finish?]
    cases files.passphrase with
    | none => cases value <;> rfl
    | some passphrase => rfl
  rw [finished, toOption_readRecord filesLayout_isOrderly isTidy, Option.bind_assoc]
  exact Option.bind_congr fun rows _ => bind_foldlM_filesLayout rows

theorem toOption_readPolicy {value : Value} (isTidy : value.IsTidy) :
    (readRecord "KeygenConfig" policyLayout value Policy.default).toOption =
      (rowsOf? policyKeys value).bind policy? := by
  rw [toOption_readRecord policyLayout_isOrderly isTidy]
  exact Option.bind_congr fun rows _ => foldlM_policyLayout rows

theorem toOption_readTemplates {value : Value} (isTidy : value.IsTidy) :
    (readRecord "TemplatePaths" templatesLayout value TemplateFiles.default).toOption =
      (rowsOf? templatesKeys value).bind templates? := by
  rw [toOption_readRecord templatesLayout_isOrderly isTidy]
  exact Option.bind_congr fun rows _ => foldlM_templatesLayout rows

theorem override?_record {α β : Type} {document : List (String × Value)}
    (distinct : Toml.Distinct Value.IsTidy document) {name : String} {keys : List String}
    {read : Value → Parsed β} {record? : List (String × Value) → Option β} {set : β → α → α}
    {default : β} {a : α}
    (reads : ∀ {value}, value.IsTidy → (read value).toOption = (rowsOf? keys value).bind record?)
    (empty : record? [] = some default) (same : set default a = a) :
    override? document a (name, fun value a => do .ok (set (← read value) a)) =
      ((rows? document name keys).bind record?).map (set · a) := by
  rw [override?, rows?]
  cases found : document.lookup name with
  | none =>
    rw [Option.getD_none, rowsOf?, Option.bind_some, empty, Option.map_some, same]
  | some value =>
    rw [Option.getD_some, ← reads (distinct.of_lookup found)]
    exact toOption_set read set value a

def PartialSettings.finish? (read : PartialSettings) : Option Settings :=
  read.authority.map fun authority => ⟨authority, read.policy, read.templates⟩

theorem bind_foldlM_settingsLayout {document : List (String × Value)}
    (distinct : Toml.Distinct Value.IsTidy document) (authority : Option AuthorityFiles) :
    ((settingsLayout.drop 1).foldlM (override? document) { authority }).bind
        PartialSettings.finish? =
      ((rows? document "keygen" policyKeys).bind policy?).bind fun policy =>
        ((rows? document "templates" templatesKeys).bind templates?).bind fun templates =>
          authority.map (⟨·, policy, templates⟩) := by
  rw [settingsLayout, List.drop_one, List.tail_cons, List.foldlM_cons,
    override?_record distinct toOption_readPolicy rfl rfl, Option.bind_eq_bind, Option.bind_assoc,
    Option.bind_map]
  refine Option.bind_congr fun policy _ => ?_
  rw [Function.comp_apply, List.foldlM_cons,
    override?_record distinct toOption_readTemplates rfl rfl, Option.bind_eq_bind,
    Option.bind_assoc, Option.bind_map]
  exact Option.bind_congr fun templates _ => rfl

theorem toOption_ofEntries {document : List (String × Value)}
    (distinct : Toml.Distinct Value.IsTidy document) :
    (ofEntries document).toOption = described? document := by
  have finished : (ofEntries document).toOption =
      (settingsLayout.foldlM (override? document) {}).bind PartialSettings.finish? := by
    rw [ofEntries, toOption_bind, toOption_readEntries settingsLayout_isOrderly distinct.nodup]
    refine Option.bind_congr fun read _ => ?_
    rw [PartialSettings.finish?]
    cases read.authority <;> rfl
  rw [finished, described?, rows?, settingsLayout, List.foldlM_cons, override?]
  cases found : document.lookup "ca" with
  | none =>
    refine (bind_foldlM_settingsLayout distinct none).trans ?_
    simp only [Option.map_none, Option.bind_fun_none]
    rfl
  | some value =>
    rw [Option.getD_some, ← toOption_readFiles (distinct.of_lookup found)]
    dsimp only
    cases readFiles value with
    | error cause => rfl
    | ok files => exact bind_foldlM_settingsLayout distinct (some files)

def records : List (String × List String) :=
  [("ca", filesKeys), ("keygen", policyKeys), ("templates", templatesKeys)]

def Gives (document : List (String × Value)) (name : String) (keys : List String) (key : String)
    (value : Value) : Prop :=
  ∃ record rows, (name, record) ∈ document ∧ rowsOf? keys record = some rows ∧ (key, value) ∈ rows

def IsMisused (document : List (String × Value)) (name : String) (keys : List String) : Prop :=
  ∃ record, (name, record) ∈ document ∧ rowsOf? keys record = none

/-- Two documents that have the same for the keys that are known, in whatever order, and
whatever else they have. -/
def Agree (document other : List (String × Value)) : Prop :=
  ∀ record ∈ records,
    (IsMisused document record.1 record.2 ↔ IsMisused other record.1 record.2) ∧
    ∀ key ∈ record.2, ∀ value,
      Gives document record.1 record.2 key value ↔ Gives other record.1 record.2 key value

section Agreement

variable {document other rows rows' : List (String × Value)} {name : String} {keys : List String}

theorem rows?_eq_none_iff (nodup : (document.map Prod.fst).Nodup) :
    rows? document name keys = none ↔ IsMisused document name keys := by
  rw [rows?]
  constructor
  · intro h
    cases found : document.lookup name with
    | none => simp [found, rowsOf?] at h
    | some record =>
      rw [found, Option.getD_some] at h
      exact ⟨record, Toml.mem_of_lookup found, h⟩
  · rintro ⟨record, member, h⟩
    rwa [(Toml.lookup_eq_some_iff_mem nodup).2 member, Option.getD_some]

theorem mem_iff_of_rows? (nodup : (document.map Prod.fst).Nodup)
    (h : rows? document name keys = some rows) {key : String} {value : Value} :
    (key, value) ∈ rows ↔ Gives document name keys key value := by
  rw [rows?] at h
  constructor
  · intro member
    cases found : document.lookup name with
    | none =>
      rw [found, Option.getD_none, rowsOf?] at h
      cases h
      cases member
    | some record =>
      rw [found, Option.getD_some] at h
      exact ⟨record, rows, Toml.mem_of_lookup found, h, member⟩
  · rintro ⟨record, given, isRecord, isGiven, member⟩
    rw [(Toml.lookup_eq_some_iff_mem nodup).2 isRecord, Option.getD_some, isGiven] at h
    cases h
    exact member

theorem nodup_of_rows? (distinct : Toml.Distinct Value.IsTidy document) (nodup : keys.Nodup)
    (h : rows? document name keys = some rows) : (rows.map Prod.fst).Nodup := by
  refine nodup_of_rowsOf? nodup ?_ h
  cases found : document.lookup name with
  | none => exact .table List.nodup_nil (List.forall_mem_nil _)
  | some record => exact distinct.of_lookup found

theorem Agree.bind_rows? {α : Type} (agree : Agree document other)
    (distinct : Toml.Distinct Value.IsTidy document)
    (distinct' : Toml.Distinct Value.IsTidy other) (isRecord : (name, keys) ∈ records)
    {read : List (String × Value) → Option α}
    (congr : ∀ {rows rows' : List (String × Value)},
      (∀ key ∈ keys, rows.lookup key = rows'.lookup key) → read rows = read rows') :
    (rows? document name keys).bind read = (rows? other name keys).bind read := by
  obtain ⟨misused, gives⟩ := agree _ isRecord
  have nodup : keys.Nodup := (by decide : ∀ record ∈ records, record.2.Nodup) _ isRecord
  rw [← rows?_eq_none_iff distinct.nodup, ← rows?_eq_none_iff distinct'.nodup] at misused
  cases found : rows? document name keys with
  | none => rw [misused.1 found]
  | some rows =>
    cases found' : rows? other name keys with
    | none =>
      rw [misused.2 found'] at found
      cases found
    | some rows' =>
      refine congr fun key isKey => Option.ext fun value => ?_
      rw [Toml.lookup_eq_some_iff_mem (nodup_of_rows? distinct nodup found),
        Toml.lookup_eq_some_iff_mem (nodup_of_rows? distinct' nodup found'),
        mem_iff_of_rows? distinct.nodup found, mem_iff_of_rows? distinct'.nodup found']
      exact gives key isKey value

theorem files?_congr (h : ∀ key ∈ filesKeys, rows.lookup key = rows'.lookup key) :
    files? rows = files? rows' := by
  simp only [filesKeys, List.forall_mem_cons] at h
  simp only [files?, valueOr?, h]

theorem policy?_congr (h : ∀ key ∈ policyKeys, rows.lookup key = rows'.lookup key) :
    policy? rows = policy? rows' := by
  simp only [policyKeys, List.forall_mem_cons] at h
  simp only [policy?, valueOr?, h]

theorem templates?_congr (h : ∀ key ∈ templatesKeys, rows.lookup key = rows'.lookup key) :
    templates? rows = templates? rows' := by
  simp only [templatesKeys, List.forall_mem_cons] at h
  simp only [templates?, valueOr?, h]

theorem described?_congr (distinct : Toml.Distinct Value.IsTidy document)
    (distinct' : Toml.Distinct Value.IsTidy other) (agree : Agree document other) :
    described? document = described? other := by
  have same {α : Type} {name : String} {keys : List String} (isRecord : (name, keys) ∈ records)
      {read : List (String × Value) → Option α}
      (congr : ∀ {rows rows' : List (String × Value)},
        (∀ key ∈ keys, rows.lookup key = rows'.lookup key) → read rows = read rows') :=
    agree.bind_rows? distinct distinct' isRecord congr
  rw [described?, described?, same (by decide) files?_congr, same (by decide) policy?_congr,
    same (by decide) templates?_congr]

end Agreement

section Texts

variable {text : String} {document : List (String × Value)} {settings : Settings}

theorem ofText_outcomes (parsed : Toml.parse? text = some document) :
    (described? document = none ∧ ∃ cause, ofText text = .error (.mismatch cause)) ∨
    ∃ settings, described? document = some settings ∧
      (settings.check = .ok () ∧ ofText text = .ok settings ∨
        ∃ fault, settings.check = .error fault ∧ ofText text = .error (.rejected fault)) := by
  have same := toOption_ofEntries (Toml.distinct_of_parse? parsed)
  unfold ofText
  rw [parsed]
  cases read : ofEntries document with
  | error cause =>
    rw [read] at same
    exact .inl ⟨same.symm, cause, by simp only [read]⟩
  | ok settings =>
    rw [read] at same
    refine .inr ⟨settings, same.symm, ?_⟩
    cases checked : settings.check with
    | ok accepted => exact .inl ⟨rfl, by simp only [read, checked]⟩
    | error fault => exact .inr ⟨fault, rfl, by simp only [read, checked]⟩

theorem ofText_eq_ok_iff (parsed : Toml.parse? text = some document) :
    ofText text = .ok settings ↔ described? document = some settings ∧ settings.check = .ok () := by
  obtain ⟨isNone, cause, refused⟩ | ⟨_, isSome, ⟨checked, read⟩ | ⟨fault, checked, refused⟩⟩ :=
    ofText_outcomes parsed
  · simp [isNone, refused]
  · rw [isSome, read]
    constructor
    · intro h
      cases h
      exact ⟨rfl, checked⟩
    · rintro ⟨h, -⟩
      cases h
      rfl
  · rw [isSome, refused]
    refine ⟨fun h => (by cases h), ?_⟩
    rintro ⟨h, accepted⟩
    cases h
    cases checked.symm.trans accepted

theorem ofText_eq_rejected_iff (parsed : Toml.parse? text = some document) {fault : Fault} :
    ofText text = .error (.rejected fault) ↔
      ∃ settings, described? document = some settings ∧ settings.check = .error fault := by
  obtain ⟨isNone, cause, refused⟩ | ⟨settings, isSome, ⟨checked, read⟩ | ⟨_, checked, refused⟩⟩ :=
    ofText_outcomes parsed
  · simp [isNone, refused]
  · simp [isSome, read, checked]
  · simp [isSome, refused, checked]

theorem ofText_eq_mismatch_iff (parsed : Toml.parse? text = some document) :
    (∃ cause, ofText text = .error (.mismatch cause)) ↔ described? document = none := by
  obtain ⟨isNone, cause, refused⟩ | ⟨settings, isSome, ⟨checked, read⟩ | ⟨_, checked, refused⟩⟩ :=
    ofText_outcomes parsed
  · simp [isNone, refused]
  · simp [isSome, read]
  · simp [isSome, refused]

theorem described?_eq_none (distinct : Toml.Distinct Value.IsTidy document)
    (h : ∀ value, ¬Gives document "ca" filesKeys "key_password" value) :
    described? document = none := by
  have isNone : (rows? document "ca" filesKeys).bind files? = none := by
    cases found : rows? document "ca" filesKeys with
    | none => rfl
    | some rows =>
      have isMissing : rows.lookup "key_password" = none :=
        Option.eq_none_iff_forall_ne_some.2 fun value isRow =>
          h value ((mem_iff_of_rows? distinct.nodup found).1 (Toml.mem_of_lookup isRow))
      simp [files?, isMissing]
  rw [described?, isNone]
  rfl

theorem ofSettings_of_check (accepted : settings.check = .ok ()) :
    Authority.ofSettings settings = .ok ⟨settings, accepted⟩ := by
  unfold Authority.ofSettings
  split
  · rfl
  · next refused => cases refused.symm.trans accepted

end Texts

/-- A document gives the defaults, overridden by what it has for the keys of its records, if
these have what the keys ask for and the whole is in order, which an authority then takes as it
is. Files without a passphrase are never read. Neither the order of records and keys nor any
other key matters, and a record without keys is as good as none. -/
theorem settings_of_document {text : String} {document : List (String × Value)}
    (parsed : Toml.parse? text = some document) :
    (∀ settings, ofText text = .ok settings ↔
      described? document = some settings ∧ settings.check = .ok ()) ∧
    (∀ fault, ofText text = .error (.rejected fault) ↔
      ∃ settings, described? document = some settings ∧ settings.check = .error fault) ∧
    ((∃ cause, ofText text = .error (.mismatch cause)) ↔ described? document = none) ∧
    ((∀ value, ¬Gives document "ca" filesKeys "key_password" value) →
      ∃ cause, ofText text = .error (.mismatch cause)) ∧
    (∀ settings, ofText text = .ok settings →
      ∃ accepted, Authority.ofSettings settings = .ok ⟨settings, accepted⟩) ∧
    ∀ other document', Toml.parse? other = some document' → Agree document document' →
      (∀ settings, ofText other = .ok settings ↔ ofText text = .ok settings) ∧
      ∀ fault,
        ofText other = .error (.rejected fault) ↔ ofText text = .error (.rejected fault) := by
  have distinct := Toml.distinct_of_parse? parsed
  refine ⟨fun settings => ofText_eq_ok_iff parsed, fun fault => ofText_eq_rejected_iff parsed,
    ofText_eq_mismatch_iff parsed,
    fun h => (ofText_eq_mismatch_iff parsed).2 (described?_eq_none distinct h),
    fun settings read => ?_, fun other document' parsed' agree => ?_⟩
  · have accepted := ((ofText_eq_ok_iff parsed).1 read).2
    exact ⟨accepted, ofSettings_of_check accepted⟩
  · have same := described?_congr distinct (Toml.distinct_of_parse? parsed') agree
    refine ⟨fun settings => ?_, fun fault => ?_⟩
    · rw [ofText_eq_ok_iff parsed, ofText_eq_ok_iff parsed', same]
    · rw [ofText_eq_rejected_iff parsed, ofText_eq_rejected_iff parsed', same]

theorem settings_of_document_mixed :
    let plain := "[ca]\nkey_password = \"pw\"\n[keygen]\nkey_expire_days = 365"
    let mixed :=
      "[keygen]\nsize = 1\nkey_expire_days = 365\n[templates]\n[ca]\nkey_password = \"pw\""
    let settings : Settings := ⟨⟨defaultKeyPath, defaultCertificatePath, ⟨"pw"⟩⟩,
      { Policy.default with leafDays := 365 }, TemplateFiles.default⟩
    Toml.parse? plain = some [("ca", .table [("key_password", .string "pw")]),
      ("keygen", .table [("key_expire_days", .integer 365)])] ∧
    ofText plain = .ok settings ∧ ofText mixed = .ok settings ∧
    (∃ accepted, Authority.ofSettings settings = .ok ⟨settings, accepted⟩) ∧
    ofText "[ca]\nkey_password = \"pw\"\n[keygen]\nca_expire_days = 365" =
      .error (.rejected (.validity 1095 365)) ∧
    ∃ cause, ofText "[ca]\nkey_path = \"key.pem\"" = .error (.mismatch cause) := by
  intro plain mixed settings
  have parsed : Toml.parse? "[ca]\nkey_password = \"pw\"\n[keygen]\nkey_expire_days = 365" = some [
      ("ca", .table [("key_password", .string "pw")]),
      ("keygen", .table [("key_expire_days", .integer 365)])] := by decide +kernel
  have parsedMixed : Toml.parse?
      "[keygen]\nsize = 1\nkey_expire_days = 365\n[templates]\n[ca]\nkey_password = \"pw\"" = some [
      ("keygen", .table [("size", .integer 1), ("key_expire_days", .integer 365)]),
      ("templates", .table []), ("ca", .table [("key_password", .string "pw")])] := by decide +kernel
  obtain ⟨isOk, -, -, -, isAccepted, same⟩ := settings_of_document parsed
  have read : ofText plain = .ok settings := (isOk settings).2 ⟨by decide, by decide⟩
  refine ⟨parsed, read, ?_, isAccepted settings read, ?_, ?_⟩
  · refine ((same mixed _ parsedMixed ?_).1 settings).2 read
    simp [Agree, records, IsMisused, Gives, rowsOf?, filesKeys, policyKeys, templatesKeys]
  · have parsedShort : Toml.parse? "[ca]\nkey_password = \"pw\"\n[keygen]\nca_expire_days = 365" =
        some [("ca", .table [("key_password", .string "pw")]),
          ("keygen", .table [("ca_expire_days", .integer 365)])] := by decide +kernel
    exact ((settings_of_document parsedShort).2.1 _).2 ⟨⟨settings.authority,
      { Policy.default with authorityDays := 365 }, TemplateFiles.default⟩, by decide, rfl⟩
  · have parsedOpen : Toml.parse? "[ca]\nkey_path = \"key.pem\"" =
        some [("ca", .table [("key_path", .string "key.pem")])] := by decide +kernel
    refine (settings_of_document parsedOpen).2.2.2.1 fun value => ?_
    simp [Gives, rowsOf?]

/-- An array gives the passphrase by its place, so that no table has a key for it. -/
theorem not_refused_without_key :
    ¬∀ text document settings, Toml.parse? text = some document → ofText text = .ok settings →
      ∃ entries value, ("ca", Value.table entries) ∈ document ∧
        ("key_password", value) ∈ entries := by
  intro claim
  have parsed : Toml.parse? "ca = [\"k.pem\", \"c.pem\", \"pw\"]" =
      some [("ca", .array [.string "k.pem", .string "c.pem", .string "pw"])] := by decide +kernel
  have read := (ofText_eq_ok_iff parsed).2 ⟨(by decide : _ = some (⟨⟨"k.pem", "c.pem", ⟨"pw"⟩⟩,
    Policy.default, TemplateFiles.default⟩ : Settings)), rfl⟩
  obtain ⟨entries, value, isTable, -⟩ := claim _ _ _ parsed read
  simp at isTable

end VpnAuthority.Settings
