import VpnAuthority.Address.Subnet
import VpnAuthority.Failure

/-! The configuration texts of both ends of a tunnel, and the entry that pins a
client's address on the server. -/
namespace VpnAuthority

structure ClientParameters where
  serverAddress : Address
  serverPort : UInt16
  certificatePem : String
  keyPem : String

structure ServerParameters where
  networkPath : String
  address : Address
  port : UInt16
  subnet : Subnet
  certificatePem : String
  keyPem : String

def ClientParameters.values (parameters : ClientParameters) (authorityPem : String) :
    Template.Values :=
  Template.Values.empty
    |>.set "ServerIP" parameters.serverAddress.text
    |>.set "ServerPort" (toString parameters.serverPort.toNat)
    |>.set "CACert" authorityPem
    |>.set "ClientCert" parameters.certificatePem
    |>.set "ClientKey" parameters.keyPem

def ServerParameters.values (parameters : ServerParameters) (authorityPem : String) :
    Template.Values :=
  Template.Values.empty
    |>.set "AS" parameters.networkPath
    |>.set "ServerIP" parameters.address.text
    |>.set "ServerPort" (toString parameters.port.toNat)
    |>.set "Netmask" parameters.subnet.netmask.text
    |>.set "Subnet" parameters.subnet.network.text
    |>.set "CACert" authorityPem
    |>.set "ServerCert" parameters.certificatePem
    |>.set "ServerKey" parameters.keyPem

def renderClient (template authorityPem : String) (parameters : ClientParameters) :
    Except Failure String :=
  (Template.render template (parameters.values authorityPem)).mapError .template

def renderServer (template authorityPem : String) (parameters : ServerParameters) :
    Except Failure String :=
  (Template.render template (parameters.values authorityPem)).mapError .template

def extractCommonName (pem : Bytes) : Except Failure String :=
  (Certificate.commonNameOfPem pem).mapError Failure.ofCommonNameFault

/-- A client's entry on the server: the common name under which it is found, and the
line that gives it its address. -/
def renderClientEntry (certificatePem : String) (address netmask : Address) :
    Except Failure (String × String) := do
  let commonName ← extractCommonName (Utf8.encode certificatePem)
  .ok (commonName, "ifconfig-push " ++ address.text ++ " " ++ netmask.text)

end VpnAuthority
