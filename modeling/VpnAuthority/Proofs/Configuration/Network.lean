import VpnAuthority.Proofs.Address.Subnet
import VpnAuthority.Proofs.Configuration
import VpnAuthority.Proofs.Template.Writing

/-! The network in the configuration of a server. A subnet enters into it with its network and
its mask only, in texts from which both can be read back. -/
namespace VpnAuthority

open Template

theorem Template.render_name {values : Values} {name text : String}
    (isName : IsIdentifier name.toList) (isSet : values.get? name = some text) :
    render ("$" ++ name) values = .ok text := by
  have supplied : ∀ piece ∈ [Piece.value name], piece.IsSupplied values := by
    intro piece hp
    rw [List.mem_singleton.1 hp]
    exact ⟨isName, by rw [isSet]; rfl⟩
  have spells : Spells [.value name] ("$" ++ name).toList := by
    have whole : ("$" ++ name).toList = '$' :: (name.toList ++ []) := by
      rw [String.toList_append, List.append_nil]
      rfl
    rw [whole]
    exact .plain (by simp) .nil
  rw [render, renderFrom_of_spells spells supplied]
  simp [Piece.text, isSet, Except.map]

/-- The address of a subnet plays no part in the configuration of a server beyond its bits under
the mask. The mask is written as the address with as many leading bits set as the subnet's length
says, and the network as a subnet of the same length whose address has the bits under the mask and
zeros behind them; either is what is read back from its text. -/
theorem renderServer_of_subnet (template authorityPem : String) (parameters : ServerParameters) :
    (∀ other, parameters.subnet.SharesNetwork other →
      renderServer template authorityPem { parameters with subnet := other } =
        renderServer template authorityPem parameters) ∧
    ∃ maskText networkText mask network,
      renderServer "$Netmask" authorityPem parameters = .ok maskText ∧
      (parameters.values authorityPem).get? "Netmask" = some maskText ∧
      Address.ofText? maskText = some mask ∧
      mask.width = parameters.subnet.address.width ∧
      (∀ i, mask.bit i = decide (i < parameters.subnet.length)) ∧
      renderServer "$Subnet" authorityPem parameters = .ok networkText ∧
      (parameters.values authorityPem).get? "Subnet" = some networkText ∧
      Subnet.ofText? networkText = some network ∧
      network.length = parameters.subnet.length ∧
      network.address.width = parameters.subnet.address.width ∧
      (∀ i, parameters.subnet.length ≤ i → network.address.bit i = false) ∧
      ∀ i, network.address.bit i = (parameters.subnet.address.bit i && mask.bit i) := by
  have maskIsSet : (parameters.values authorityPem).get? "Netmask" =
      some parameters.subnet.netmask.text := rfl
  have networkIsSet : (parameters.values authorityPem).get? "Subnet" =
      some parameters.subnet.network.text := rfl
  have maskIsShown := render_name ((isName_iff _).1 (by decide)) maskIsSet
  have networkIsShown := render_name ((isName_iff _).1 (by decide)) networkIsSet
  refine ⟨fun other shares => ?_, _, _, _, _,
    congrArg (Except.mapError Failure.template) maskIsShown, maskIsSet, Address.ofText?_text _,
    parameters.subnet.width_netmask, parameters.subnet.bit_netmask,
    congrArg (Except.mapError Failure.template) networkIsShown, networkIsSet,
    Subnet.ofText?_text _, parameters.subnet.length_network, parameters.subnet.width_network,
    fun i behind => ?_, parameters.subnet.bit_network⟩
  · simp only [renderServer, ServerParameters.values, shares.netmask_eq, shares.network_eq]
  · rw [parameters.subnet.bit_network, parameters.subnet.bit_netmask,
      decide_eq_false (Nat.not_lt.2 behind), Bool.and_false]

theorem renderServer_of_subnet_unaligned :
    let address : Address := .v4 0x0a000801
    let subnet : Subnet := .v6 0x20010db880ff00000000000000000001 33
    let other : Subnet := .v6 0x20010db8ffffffffffffffffffffffff 33
    let parameters : ServerParameters := ⟨"1-ff00:0:110", address, 1194, subnet, "", ""⟩
    subnet.SharesNetwork other ∧
      renderServer "$Subnet $Netmask" "" { parameters with subnet := other } =
        .ok "2001:db8:8000::/33 ffff:ffff:8000::" := by
  intro address subnet other parameters
  have shares : subnet.SharesNetwork other := by
    refine ⟨rfl, rfl, fun i under => ?_⟩
    rw [subnet.bit_netmask, decide_eq_true_eq] at under
    exact (by decide : ∀ i < 33, subnet.address.bit i = other.address.bit i) i under
  have rendered : renderServer "$Subnet $Netmask" "" parameters =
      .ok "2001:db8:8000::/33 ffff:ffff:8000::" := by
    decide +kernel
  exact ⟨shares, ((renderServer_of_subnet _ _ parameters).1 other shares).trans rendered⟩

end VpnAuthority
