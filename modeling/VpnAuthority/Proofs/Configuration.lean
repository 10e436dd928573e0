import VpnAuthority.Configuration.Shipped
import VpnAuthority.Proofs.Template.Dependence

/-! Configurations for both ends of a tunnel. Whether a template can be filled in is decided by the
template alone, and what it does not ask for, such as a secret key, leaves no trace. -/
namespace VpnAuthority

namespace Template

/-- Whether a template is well formed and asks for no names but the given ones. -/
def Fits (names : List String) (template : List Char) : Prop :=
  (∃ tokens, Scans template tokens []) ∧ ∀ name, AsksFor template name → name ∈ names

def Values.Supplies (values : Values) (names : List String) : Prop :=
  ∀ name, (values.get? name).isSome ↔ name ∈ names

theorem Values.supplies_setAll_empty (settings : List (String × String)) :
    (empty.setAll settings).Supplies (settings.map Prod.fst) := fun name => by
  rw [get?_setAll_empty, isSome_last?_iff]

section
variable {template : String} {values : Values} {names : List String} {tokens : List Token}

theorem Scans.render_of_supplies (scans : Scans template.toList tokens [])
    (asks : ∀ name, AsksFor template.toList name → name ∈ names)
    (supplies : values.Supplies names) :
    render template values = .ok (String.ofList (tokens.flatMap (Token.value values))) := by
  have supplied : ∀ token ∈ tokens, token.IsSupplied values := fun token ht name hn =>
    (supplies name).2 (asks name (scans.asksFor_iff.2 ⟨token, ht, hn⟩))
  exact scans.render_of_supplied supplied

theorem render_ok_iff_fits (supplies : values.Supplies names) :
    (∃ text, render template values = .ok text) ↔ Fits names template.toList := by
  constructor
  · rintro ⟨text, rendered⟩
    refine ⟨?_, fun name asks => (supplies name).1 (isSome_get?_of_render rendered asks)⟩
    obtain ⟨tokens, left, scans, -⟩ := exists_scans template.toList
    rw [scans.render_eq, map_eq_ok] at rendered
    obtain ⟨content, filled, -⟩ := rendered
    obtain ⟨rfl, -, -⟩ := fill_eq_ok_iff.1 filled
    exact ⟨tokens, scans⟩
  · rintro ⟨⟨tokens, scans⟩, asks⟩
    exact ⟨_, scans.render_of_supplies asks supplies⟩

theorem exists_fault_of_not_fits (misfit : ¬Fits names template.toList) :
    ∃ fault, ∀ values : Values, values.Supplies names →
      render template values = .error fault := by
  let blank := Values.empty.setAll (names.map fun name => (name, ""))
  have isBlank : blank.Supplies names := by
    have := Values.supplies_setAll_empty (names.map fun name => (name, ""))
    rwa [List.map_map, show Prod.fst ∘ (fun name : String => (name, "")) = id from rfl,
      List.map_id] at this
  cases rendered : render template blank with
  | ok text => exact absurd ((render_ok_iff_fits isBlank).1 ⟨text, rendered⟩) misfit
  | error fault =>
    refine ⟨fault, fun values supplies => ?_⟩
    have sameNames : ∀ name, ((blank.get? name).isSome ↔ (values.get? name).isSome) :=
      fun name => (isBlank name).trans (supplies name).symm
    obtain ⟨text, -, isText, -⟩ | ⟨fault', first, second⟩ :=
      render_outcome_congr template fun name _ => sameNames name
    · rw [rendered] at isText
      cases isText
    · rw [rendered] at first
      cases first
      exact second

end

/-- A token of which no dollar sign comes: a text, or a name, whose value may have some. -/
def Token.IsBare (names : List String) (token : Token) : Prop :=
  (∃ content, token = .text content ∧ '$' ∉ content) ∨ ∃ name ∈ names, name ∈ token.name?

theorem Scans.exists_starts {template left : List Char} {tokens : List Token}
    (h : Scans template tokens left) :
    ∀ token ∈ tokens, ∃ text rest, text <:+ template ∧ Starts text token rest := by
  induction h with
  | finished | stuck => simp
  | @token text rest _ token tokens first more ih =>
    refine List.forall_mem_cons.2 ⟨⟨text, rest, List.suffix_rfl, first⟩, fun other ho => ?_⟩
    obtain ⟨text', rest', isLast, starts⟩ := ih other ho
    have isBehind : rest <:+ text := ⟨_, (Token.written_append_of_starts first).symm⟩
    exact ⟨text', rest', isLast.trans isBehind, starts⟩

theorem Fits.exists_bare {names : List String} {template : List Char}
    (fits : Fits names template) (apart : ¬['$', '$'] <:+: template) :
    ∃ tokens, Scans template tokens [] ∧ ∀ token ∈ tokens, token.IsBare names := by
  obtain ⟨⟨tokens, scans⟩, asks⟩ := fits
  refine ⟨tokens, scans, fun token ht => ?_⟩
  have isAsked : ∀ name ∈ token.name?, name ∈ names := fun name hn =>
    asks name (scans.asksFor_iff.2 ⟨token, ht, hn⟩)
  obtain ⟨text, rest, isLast, starts⟩ := scans.exists_starts token ht
  cases starts with
  | text _ isPlain => exact .inl ⟨_, rfl, isPlain⟩
  | dollar =>
    have isFront : ['$', '$'] <+: '$' :: '$' :: rest := ⟨rest, rfl⟩
    exact absurd (isFront.isInfix.trans isLast.isInfix) apart
  | plain | braced => exact .inr ⟨_, isAsked _ rfl, rfl⟩

end Template

open Template

def clientNames : List String := ["ServerIP", "ServerPort", "CACert", "ClientCert", "ClientKey"]

def serverNames : List String :=
  ["AS", "ServerIP", "ServerPort", "Netmask", "Subnet", "CACert", "ServerCert", "ServerKey"]

theorem ClientParameters.supplies_values (parameters : ClientParameters) (authorityPem : String) :
    (parameters.values authorityPem).Supplies clientNames :=
  Values.supplies_setAll_empty [("ServerIP", parameters.serverAddress.text),
    ("ServerPort", toString parameters.serverPort.toNat), ("CACert", authorityPem),
    ("ClientCert", parameters.certificatePem), ("ClientKey", parameters.keyPem)]

theorem ServerParameters.supplies_values (parameters : ServerParameters) (authorityPem : String) :
    (parameters.values authorityPem).Supplies serverNames :=
  Values.supplies_setAll_empty [("AS", parameters.networkPath),
    ("ServerIP", parameters.address.text), ("ServerPort", toString parameters.port.toNat),
    ("Netmask", parameters.subnet.netmask.text), ("Subnet", parameters.subnet.network.text),
    ("CACert", authorityPem), ("ServerCert", parameters.certificatePem),
    ("ServerKey", parameters.keyPem)]

instance : Nonempty ClientParameters := ⟨⟨.v4 0, 0, "", ""⟩⟩

instance : Nonempty ServerParameters := ⟨⟨"", .v4 0, 0, .v4 0 0, "", ""⟩⟩

section
variable {π : Type} {names : List String} {values : π → String → Values}

/-- Whether a renderer fills in a template or refuses it, whatever the parameters are, is decided
by the names that the template asks for. -/
structure IsDecidedByTemplate (names : List String)
    (renderer : String → String → π → Except Failure String) : Prop where
  renders_iff : ∀ template, (∀ authorityPem parameters,
    ∃ text, renderer template authorityPem parameters = .ok text) ↔ Fits names template.toList
  exists_failure : ∀ template, ¬Fits names template.toList →
    ∃ failure, ∀ authorityPem parameters,
      renderer template authorityPem parameters = .error failure

/-- Whether a template is rendered for all parameters to texts of its own, without a dollar sign,
and values. -/
def TakesDollarsFromValues (names : List String)
    (renderer : String → String → π → Except Failure String) (values : π → String → Values)
    (template : String) : Prop :=
  ∃ tokens, Scans template.toList tokens [] ∧ (∀ token ∈ tokens, token.IsBare names) ∧
    ∀ authorityPem parameters, renderer template authorityPem parameters =
      .ok (String.ofList (tokens.flatMap (Token.value (values parameters authorityPem))))

theorem isDecidedByTemplate [Nonempty π]
    (supplies : ∀ parameters authorityPem, (values parameters authorityPem).Supplies names) :
    IsDecidedByTemplate names fun template authorityPem (parameters : π) =>
      (render template (values parameters authorityPem)).mapError .template where
  renders_iff template := by
    simp only [mapError_eq_ok]
    constructor
    · intro renders
      obtain ⟨parameters⟩ := ‹Nonempty π›
      exact (render_ok_iff_fits (supplies parameters "")).1 (renders "" parameters)
    · intro fits authorityPem parameters
      exact (render_ok_iff_fits (supplies parameters authorityPem)).2 fits
  exists_failure template misfit := by
    obtain ⟨fault, refused⟩ := exists_fault_of_not_fits misfit
    refine ⟨.template fault, fun authorityPem parameters => ?_⟩
    rw [refused _ (supplies parameters authorityPem), mapError_error]

theorem takesDollarsFromValues {template : String}
    (supplies : ∀ parameters authorityPem, (values parameters authorityPem).Supplies names)
    (fits : Fits names template.toList) (apart : ¬['$', '$'] <:+: template.toList) :
    TakesDollarsFromValues names (fun template authorityPem (parameters : π) =>
      (render template (values parameters authorityPem)).mapError .template) values template := by
  obtain ⟨tokens, scans, bare⟩ := fits.exists_bare apart
  refine ⟨tokens, scans, bare, fun authorityPem parameters => ?_⟩
  dsimp only
  rw [scans.render_of_supplies fits.2 (supplies parameters authorityPem), mapError_ok]

end

theorem toList_ofLines (lines : List String) :
    (ofLines lines).toList = lines.flatMap fun line => line.toList ++ ['\n'] := by
  rw [ofLines, String.toList_join, List.flatMap_map]
  simp

theorem shippedClientTemplate_fits : Fits clientNames shippedClientTemplate.toList := by
  have supplies := ClientParameters.supplies_values ⟨.v4 0, 0, "", ""⟩ ""
  refine (render_ok_iff_fits supplies).1 (isOk_iff.1 ?_)
  rw [render, shippedClientTemplate, toList_ofLines]
  decide +kernel

theorem shippedServerTemplate_fits : Fits serverNames shippedServerTemplate.toList := by
  have supplies := ServerParameters.supplies_values ⟨"", .v4 0, 0, .v4 0 0, "", ""⟩ ""
  refine (render_ok_iff_fits supplies).1 (isOk_iff.1 ?_)
  rw [render, shippedServerTemplate, toList_ofLines]
  decide +kernel

/-- Whether a template is rendered, and of what it fails otherwise, does not depend on the
parameters. A key that it does not ask for makes no difference. The shipped templates are always
rendered, and their dollar signs are all replaced. -/
theorem rendering_by_template :
    IsDecidedByTemplate clientNames renderClient ∧
    IsDecidedByTemplate serverNames renderServer ∧
    (∀ template authorityPem parameters keyPem, ¬AsksFor template.toList "ClientKey" →
      renderClient template authorityPem { parameters with keyPem } =
        renderClient template authorityPem parameters) ∧
    (∀ template authorityPem parameters keyPem, ¬AsksFor template.toList "ServerKey" →
      renderServer template authorityPem { parameters with keyPem } =
        renderServer template authorityPem parameters) ∧
    TakesDollarsFromValues clientNames renderClient ClientParameters.values
      shippedClientTemplate ∧
    TakesDollarsFromValues serverNames renderServer ServerParameters.values
      shippedServerTemplate := by
  refine ⟨isDecidedByTemplate ClientParameters.supplies_values,
    isDecidedByTemplate ServerParameters.supplies_values,
    fun template authorityPem parameters keyPem keyless => ?_,
    fun template authorityPem parameters keyPem keyless => ?_,
    takesDollarsFromValues ClientParameters.supplies_values shippedClientTemplate_fits ?_,
    takesDollarsFromValues ServerParameters.supplies_values shippedServerTemplate_fits ?_⟩
  · exact congrArg (Except.mapError Failure.template)
      (render_set_congr keyless keyPem parameters.keyPem)
  · exact congrArg (Except.mapError Failure.template)
      (render_set_congr keyless keyPem parameters.keyPem)
  · rw [shippedClientTemplate, toList_ofLines]
    decide +kernel
  · rw [shippedServerTemplate, toList_ofLines]
    decide +kernel

theorem rendering_by_template_unkeyed :
    ¬AsksFor "$ServerIP$$ClientKey".toList "ClientKey" ∧
      (∀ authorityPem parameters keyPem,
        renderClient "$ServerIP$$ClientKey" authorityPem { parameters with keyPem } =
          renderClient "$ServerIP$$ClientKey" authorityPem parameters) ∧
      ¬Fits clientNames "remote $ServerHost".toList ∧
      ∃ failure, ∀ authorityPem parameters,
        renderClient "remote $ServerHost" authorityPem parameters = .error failure := by
  have scans : Scans "$ServerIP$$ClientKey".toList [.reference (.plain "ServerIP".toList),
      .reference .dollar, .text "ClientKey".toList] [] :=
    have name : IsIdentifier "ServerIP".toList := (isName_iff _).1 (by decide)
    have text : Starts "ClientKey".toList (.text "ClientKey".toList) [] :=
      @Starts.text "ClientKey".toList [] (by decide) (by decide) (by simp)
    .token (.plain name fun c hc => not_continuesName_of_eq (.inl (Option.some.inj hc).symm))
      (.token .dollar (.token text .finished))
  have keyless : ¬AsksFor "$ServerIP$$ClientKey".toList "ClientKey" := by
    rw [scans.asksFor_iff]
    decide
  have misfit : ¬Fits clientNames "remote $ServerHost".toList := by
    intro fits
    obtain ⟨text, rendered⟩ :=
      (rendering_by_template.1.renders_iff "remote $ServerHost").2 fits "" ⟨.v4 0, 0, "", ""⟩
    have refused : renderClient "remote $ServerHost" "" ⟨.v4 0, 0, "", ""⟩ =
        .error (.template (.missing "ServerHost")) := by
      decide +kernel
    rw [refused] at rendered
    cases rendered
  exact ⟨keyless, fun authorityPem parameters keyPem =>
      rendering_by_template.2.2.1 _ authorityPem parameters keyPem keyless,
    misfit, rendering_by_template.1.exists_failure _ misfit⟩

end VpnAuthority
