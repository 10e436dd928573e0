import VpnAuthority.Configuration

/-! The templates that the library comes with. -/
namespace VpnAuthority

def ofLines (lines : List String) : String := String.join (lines.map (· ++ "\n"))

def shippedClientTemplate : String :=
  ofLines [
    "client", "dev tun", "proto udp", "remote $ServerIP $ServerPort", "resolv-retry infinite",
    "nobind", "persist-key", "persist-tun", "remote-cert-tls server", "cipher AES-256-GCM",
    "verb 3", "", "<ca>", "$CACert", "</ca>", "", "<cert>", "$ClientCert", "</cert>", "",
    "<key>", "$ClientKey", "</key>"]

def shippedServerTemplate : String :=
  ofLines [
    "# VPN server of $AS, serving $Subnet", "mode server", "tls-server", "port $ServerPort",
    "proto udp", "dev tun", "topology subnet", "ifconfig $ServerIP $Netmask",
    "push \"topology subnet\"", "push \"route-gateway $ServerIP\"", "",
    "client-config-dir /etc/openvpn/ccd", "ccd-exclusive", "keepalive 10 60", "persist-key",
    "persist-tun", "remote-cert-tls client", "cipher AES-256-GCM",
    "status /var/log/openvpn/$AS-status.log", "verb 3", "", "dh none", "", "<ca>", "$CACert",
    "</ca>", "", "<cert>", "$ServerCert", "</cert>", "", "<key>", "$ServerKey", "</key>"]

end VpnAuthority
