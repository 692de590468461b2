import PgCluster.Foundation.Directory
import PgCluster.Foundation.Filters
import Mathlib.Data.List.MinMax

/-! The certificates role over the files of its pki directory.
A key is known by a number; a request holds a public key, and a certificate also the key
that signed it. Reading a file of the wrong kind stops the run.
-/

namespace PgCluster.Certificates

open Foundation

abbrev Key := Nat

inductive Content where
  | key (secret : Key)
  | csr (pub : Key)
  | cert (pub signer : Key)
deriving DecidableEq, Repr

/-- The keys that a content mentions. -/
def Content.keys : Content → List Key
  | .key secret => [secret]
  | .csr pub => [pub]
  | .cert pub signer => [pub, signer]

abbrev PkiDir := Directory String Content

def certFile (name : String) : String := name ++ ".pem"

def keyFile (name : String) : String := name ++ "-key.pem"

def csrFile (name : String) : String := name ++ ".csr"

/-- A key that no file of the directory mentions. -/
def freshKey (dir : PkiDir) : Key :=
  (dir.entries.flatMap (fun entry => entry.2.keys)).foldr max 0 + 1

/-- Keeps an existing key, and generates one over anything else. -/
def opensslPrivatekey (dir : PkiDir) (path : String) : PkiDir :=
  match dir.file path with
  | some (.key _) => dir
  | _ => dir.put path (.key (freshKey dir))

/-- Writes a request for the key of a file. -/
def opensslCsr (dir : PkiDir) (path privatekeyPath : String) : Option PkiDir :=
  match dir.file privatekeyPath with
  | some (.key secret) => some (dir.put path (.csr secret))
  | _ => none

/-- Keeps a certificate of the requested public key, and rewrites anything else. -/
def writeCertificate (dir : PkiDir) (path : String) (pub signer : Key) : PkiDir :=
  match dir.file path with
  | some (.cert old _) => if old = pub then dir else dir.put path (.cert pub signer)
  | _ => dir.put path (.cert pub signer)

/-- `x509_certificate` with the provider `selfsigned`. -/
def x509Selfsigned (dir : PkiDir) (path csrPath privatekeyPath : String) : Option PkiDir :=
  match dir.file csrPath, dir.file privatekeyPath with
  | some (.csr pub), some (.key signer) => some (writeCertificate dir path pub signer)
  | _, _ => none

/-- `x509_certificate` with the provider `ownca`, which also reads the CA certificate. -/
def x509Ownca (dir : PkiDir) (path csrPath owncaPath owncaPrivatekeyPath : String)
    : Option PkiDir :=
  match dir.file csrPath, dir.file owncaPath, dir.file owncaPrivatekeyPath with
  | some (.csr pub), some (.cert _ _), some (.key signer) =>
      some (writeCertificate dir path pub signer)
  | _, _, _ => none

/-- Generates the CA key when its file is missing. -/
def generateCaKey (dir : PkiDir) : PkiDir :=
  if (dir.file (keyFile "ca")).isSome then dir else opensslPrivatekey dir (keyFile "ca")

/-- Requests and self-signs the CA certificate, and deletes the request. -/
def generateCaCertificate (dir : PkiDir) : Option PkiDir := do
  let dir ← opensslCsr dir (csrFile "ca") (keyFile "ca")
  let dir ← x509Selfsigned dir (certFile "ca") (csrFile "ca") (keyFile "ca")
  return dir.remove (csrFile "ca")

/-- The CA tasks: each file is generated if it is missing by itself. -/
def generateCa (dir : PkiDir) : Option PkiDir :=
  if (dir.file (certFile "ca")).isSome then some (generateCaKey dir)
  else generateCaCertificate (generateCaKey dir)

/-- `certificates_missing_cert_nodes`: nodes without a certificate, then without a key. The
filter `unique` compares texts by `str.lower`.
-/
def missingCertNodes (lower : String → String) (dir : PkiDir) (allNodes : List String)
    : List String :=
  uniqueBy lower
    (allNodes.filter (fun item => (dir.file (certFile item)).isNone)
      ++ allNodes.filter (fun item => (dir.file (keyFile item)).isNone))

/-- The four loops over the missing nodes: keys, requests, certificates and clean-up. -/
def generateNodes (lower : String → String) (dir : PkiDir) (allNodes : List String)
    : Option PkiDir := do
  let missing := missingCertNodes lower dir allNodes
  let dir ← dir.forEach (fun dir item => some (opensslPrivatekey dir (keyFile item))) missing
  let dir ← dir.forEach (fun dir item => opensslCsr dir (csrFile item) (keyFile item)) missing
  let dir ← dir.forEach (fun dir item =>
    x509Ownca dir (certFile item) (csrFile item) (certFile "ca") (keyFile "ca")) missing
  dir.forEach (fun dir item => some (dir.remove (csrFile item))) missing

/-- A run of the role, absent when one of its tasks fails. -/
def certificatesRun (lower : String → String) (dir : PkiDir) (allNodes : List String)
    : Option PkiDir := do
  let dir ← generateCa dir
  generateNodes lower dir allNodes

/-- The CA certificate belongs to the CA key, and every node has a certificate for its key
that the CA in `ca.pem` signed.
-/
structure Consistent (dir : PkiDir) (allNodes : List String) : Prop where
  ca
    : ∃ pub signer,
        dir.file (certFile "ca") = some (.cert pub signer)
        ∧ dir.file (keyFile "ca") = some (.key pub)
  nodes
    : ∀ node ∈ allNodes,
        ∃ pub caPub caSigner,
          dir.file (certFile node) = some (.cert pub caPub)
          ∧ dir.file (keyFile node) = some (.key pub)
          ∧ dir.file (certFile "ca") = some (.cert caPub caSigner)

/-- `str.lower` on texts of ASCII letters. -/
def asciiLower (text : String) : String := String.ofList (text.toList.map Char.toLower)

-- of two hosts that differ in case only the second stays without a certificate
example
    : (certificatesRun asciiLower .empty ["Node1", "node1"]).map
        (fun dir => (dir.file "Node1.pem", dir.file "node1.pem"))
      = some (some (.cert 2 1), none) := by
  decide

end PgCluster.Certificates
