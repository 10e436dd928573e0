import VpnAuthority.Authority.Issuance
import VpnAuthority.Authority.Rendering
import VpnAuthority.Configuration.Shipped
import VpnAuthority.FileSystem.Administration
import VpnAuthority.Settings.File
import VpnAuthority.Proofs.Authority.ClientEntries
import VpnAuthority.Proofs.Authority.Credentials
import VpnAuthority.Proofs.Authority.Restart
import VpnAuthority.Proofs.Authority.Trust
import VpnAuthority.Proofs.Template.Rendering
import VpnAuthority.Proofs.Certificate.Leaf
import VpnAuthority.Proofs.Authority.Failures
import VpnAuthority.Proofs.Authority.Naming
import VpnAuthority.Proofs.Authority.Growth
import VpnAuthority.Proofs.FileSystem.Tree
import VpnAuthority.Proofs.Authority.Operations
import VpnAuthority.Proofs.Authority.Upkeep
import VpnAuthority.Proofs.Authority.Impartiality
import VpnAuthority.Proofs.Authority.Identity
import VpnAuthority.Proofs.Certificate.Reencoding
import VpnAuthority.Proofs.Authority.Publication
import VpnAuthority.Proofs.FileSystem.Removal
import VpnAuthority.Proofs.Authority.Renewal
import VpnAuthority.Proofs.Template.Composition
import VpnAuthority.Proofs.Template.Writing
import VpnAuthority.Proofs.Asn1.CharacterString
import VpnAuthority.Proofs.Certificate.Extraction
import VpnAuthority.Proofs.Template.Location
import VpnAuthority.Proofs.Configuration.Network
import VpnAuthority.Proofs.Authority.Resumption
import VpnAuthority.Proofs.Authority.KeyFaults
import VpnAuthority.Proofs.Authority.Keyless
import VpnAuthority.Proofs.Settings.Document
import VpnAuthority.Proofs.Authority.OwnCertificate
import VpnAuthority.Proofs.Authority.Discretion
import VpnAuthority.Proofs.Authority.Log
import VpnAuthority.Proofs.Authority.SerialNumber
