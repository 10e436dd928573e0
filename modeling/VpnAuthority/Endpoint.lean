/-! The ends of a tunnel. The subject written for an endpoint is the key under
which a server finds its client entry, so it follows from the endpoint alone. -/
namespace VpnAuthority

structure Server where
  networkPath : String
  publicAddress : String
  deriving DecidableEq, Repr

inductive Owner where
  | infrastructure (hostId : String)
  | user (email : String)
  deriving DecidableEq, Repr

structure Client where
  networkPath : String
  owner : Owner
  deriving DecidableEq, Repr

/-- `<network path>__<public address>`, the address with underscores for colons. -/
def Server.subject (server : Server) : String :=
  server.networkPath ++ "__" ++
    String.ofList (server.publicAddress.toList.map fun c => if c = ':' then '_' else c)

/-- `<network path>_<host>` for a machine of the infrastructure,
`<email>_<network path>` for the one client of a user's network. -/
def Client.subject (client : Client) : String :=
  match client.owner with
  | .infrastructure hostId => client.networkPath ++ "_" ++ hostId
  | .user email => email ++ "_" ++ client.networkPath

end VpnAuthority
