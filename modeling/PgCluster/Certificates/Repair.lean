import PgCluster.Certificates.Role

/-! What a finished run of the certificates role leaves in its directory.
A node with a missing file gets a new pair under the present CA; every other file stays, so
it depends on the CA stage and on the old pairs whether the result fits together.
-/

namespace PgCluster.Certificates

open Foundation

-----------------------------------------------------------------------------------------
-- File names
-----------------------------------------------------------------------------------------

@[simp] theorem certFile_inj {left right : String}
    : certFile left = certFile right ↔ left = right := by
  simp [certFile]

@[simp] theorem keyFile_inj {left right : String}
    : keyFile left = keyFile right ↔ left = right := by
  simp [keyFile]

@[simp] theorem csrFile_inj {left right : String}
    : csrFile left = csrFile right ↔ left = right := by
  simp [csrFile]

/-- A key file is the certificate of the node that is called like it. -/
theorem keyFile_eq_certFile_iff {left right : String}
    : keyFile left = certFile right ↔ right = left ++ "-key" := by
  have longer : keyFile left = certFile (left ++ "-key") := by
    simp [keyFile, certFile, String.append_assoc]
  rw [longer, certFile_inj, eq_comm]

/-- The last letters tell a request from a certificate. -/
theorem csrFile_ne_certFile (left right : String) : csrFile left ≠ certFile right := by
  intro same
  have letters := congrArg (fun text => text.toList.getLast?) same
  simp [csrFile, certFile] at letters

theorem csrFile_ne_keyFile (left right : String) : csrFile left ≠ keyFile right := by
  rw [keyFile_eq_certFile_iff.mpr rfl]
  exact csrFile_ne_certFile _ _

/-- No node is called like the key of another one or of the CA. -/
def NoCollision (allNodes : List String) : Prop :=
  ∀ node ∈ "ca" :: allNodes, node ++ "-key" ∉ allNodes

/-- Without collisions a key file is never a certificate of a node or of the CA. -/
theorem NoCollision.keyFile_ne_certFile {allNodes : List String}
    (apart : NoCollision allNodes) {left right : String} (inLeft : left ∈ "ca" :: allNodes)
    (inRight : right ∈ "ca" :: allNodes)
    : keyFile left ≠ certFile right := by
  intro same
  have named := keyFile_eq_certFile_iff.mp same
  rcases List.mem_cons.mp inRight with ca | inNodes
  · have letters := congrArg (fun text => text.toList.getLast?) (ca.symm.trans named)
    simp at letters
  · exact apart left inLeft (named ▸ inNodes)

theorem certFile_notMem_csrs (name : String) (items : List String)
    : certFile name ∉ items.map csrFile := by
  intro inNames
  obtain ⟨item, _, same⟩ := List.mem_map.mp inNames
  exact csrFile_ne_certFile _ _ same

theorem keyFile_notMem_csrs (name : String) (items : List String)
    : keyFile name ∉ items.map csrFile := by
  intro inNames
  obtain ⟨item, _, same⟩ := List.mem_map.mp inNames
  exact csrFile_ne_keyFile _ _ same

theorem csrFile_notMem_certs (name : String) (items : List String)
    : csrFile name ∉ items.map certFile := by
  intro inNames
  obtain ⟨item, _, same⟩ := List.mem_map.mp inNames
  exact csrFile_ne_certFile _ _ same.symm

/-- Without collisions the keys and the certificates of some nodes have different files. -/
theorem NoCollision.notMem {allNodes items : List String} (apart : NoCollision allNodes)
    (known : ∀ item ∈ items, item ∈ "ca" :: allNodes) {name : String}
    (inNodes : name ∈ "ca" :: allNodes)
    : certFile name ∉ items.map keyFile ∧ keyFile name ∉ items.map certFile := by
  refine ⟨?_, ?_⟩
  · intro inKeys
    obtain ⟨item, member, same⟩ := List.mem_map.mp inKeys
    exact apart.keyFile_ne_certFile (known item member) inNodes same
  · intro inCerts
    obtain ⟨item, member, same⟩ := List.mem_map.mp inCerts
    exact apart.keyFile_ne_certFile inNodes (known item member) same.symm

-----------------------------------------------------------------------------------------
-- What the modules write
-----------------------------------------------------------------------------------------

/-- A fresh key occurs in no file. -/
theorem freshKey_notMem {dir : PkiDir} {name : String} {content : Content}
    (found : dir.file name = some content)
    : freshKey dir ∉ content.keys := by
  intro used
  have listed : freshKey dir ∈ dir.entries.flatMap (fun entry => entry.2.keys) :=
    List.mem_flatMap.mpr ⟨_, Directory.mem_entries found, used⟩
  have bounded := List.le_max_of_le' 0 listed (Nat.le_refl _)
  exact absurd bounded (Nat.not_succ_le_self _)

/-- The path holds a key afterwards: the one it held, or one that no file mentioned. -/
theorem opensslPrivatekey_path (dir : PkiDir) (path : String)
    : ∃ secret,
        (opensslPrivatekey dir path).file path = some (.key secret)
        ∧ (dir.file path = some (.key secret)
          ∨ ∀ name content, dir.file name = some content → secret ∉ content.keys) := by
  unfold opensslPrivatekey
  split
  · rename_i secret held
    exact ⟨secret, held, Or.inl held⟩
  · exact ⟨freshKey dir, by simp, Or.inr (fun _ _ found => freshKey_notMem found)⟩

theorem opensslPrivatekey_other {dir : PkiDir} {path name : String} (other : name ≠ path)
    : (opensslPrivatekey dir path).file name = dir.file name := by
  unfold opensslPrivatekey
  split
  · rfl
  · simp [other]

/-- A successful request is for a key that the named file held. -/
theorem opensslCsr_some {dir next : PkiDir} {path privatekeyPath : String}
    (written : opensslCsr dir path privatekeyPath = some next)
    : ∃ secret,
        dir.file privatekeyPath = some (.key secret) ∧ next = dir.put path (.csr secret) := by
  unfold opensslCsr at written
  split at written
  · rename_i secret held
    exact ⟨secret, held, (Option.some.inj written).symm⟩
  · cases written

/-- The path holds a certificate of the public key, by the given signer if it is new. -/
theorem writeCertificate_path (dir : PkiDir) (path : String) (pub signer : Key)
    : ∃ actual,
        (writeCertificate dir path pub signer).file path = some (.cert pub actual)
        ∧ (actual = signer ∨ dir.file path = some (.cert pub actual)) := by
  unfold writeCertificate
  split
  · rename_i old actual held
    by_cases same : old = pub
    · rw [if_pos same]
      exact ⟨actual, same ▸ held, Or.inr (same ▸ held)⟩
    · rw [if_neg same]
      exact ⟨signer, by simp, Or.inl rfl⟩
  · exact ⟨signer, by simp, Or.inl rfl⟩

theorem writeCertificate_other {dir : PkiDir} {path name : String} {pub signer : Key}
    (other : name ≠ path)
    : (writeCertificate dir path pub signer).file name = dir.file name := by
  unfold writeCertificate
  split
  · split
    · rfl
    · simp [other]
  · simp [other]

/-- A successful `ownca` certificate is for a request, and the CA key is at hand. -/
theorem x509Ownca_some {dir next : PkiDir} {path csrPath owncaPath owncaKeyPath : String}
    (written : x509Ownca dir path csrPath owncaPath owncaKeyPath = some next)
    : ∃ pub signer,
        dir.file csrPath = some (.csr pub)
        ∧ dir.file owncaKeyPath = some (.key signer)
        ∧ next = writeCertificate dir path pub signer := by
  unfold x509Ownca at written
  split at written
  · rename_i pub _ _ signer request _ caKey
    exact ⟨pub, signer, request, caKey, (Option.some.inj written).symm⟩
  · cases written

-----------------------------------------------------------------------------------------
-- The CA stage
-----------------------------------------------------------------------------------------

/-- What the CA stage leaves: both files, the old ones where they existed, a fresh key for a
missing one, and a self-signed certificate for a missing one.
-/
structure CaGenerated (dir next : PkiDir) : Prop where
  others
    : ∀ name,
        name ≠ certFile "ca" → name ≠ keyFile "ca" → name ≠ csrFile "ca"
        → next.file name = dir.file name
  certKept : dir.file (certFile "ca") ≠ none
    → next.file (certFile "ca") = dir.file (certFile "ca")
  keyKept : dir.file (keyFile "ca") ≠ none
    → next.file (keyFile "ca") = dir.file (keyFile "ca")
  keyFresh
    : dir.file (keyFile "ca") = none
      → ∃ secret,
          next.file (keyFile "ca") = some (.key secret)
          ∧ ∀ name content, dir.file name = some content → secret ∉ content.keys
  certSelfsigned
    : dir.file (certFile "ca") = none
      → ∃ secret,
          next.file (certFile "ca") = some (.cert secret secret)
          ∧ next.file (keyFile "ca") = some (.key secret)

theorem generateCaKey_other {dir : PkiDir} {name : String} (other : name ≠ keyFile "ca")
    : (generateCaKey dir).file name = dir.file name := by
  unfold generateCaKey
  split
  · rfl
  · exact opensslPrivatekey_other other

theorem generateCaKey_kept {dir : PkiDir} (held : dir.file (keyFile "ca") ≠ none)
    : generateCaKey dir = dir := by
  simp [generateCaKey, Option.isSome_iff_ne_none, held]

/-- A missing CA key is replaced by one that no file mentioned. -/
theorem generateCaKey_fresh {dir : PkiDir} (missing : dir.file (keyFile "ca") = none)
    : ∃ secret,
        (generateCaKey dir).file (keyFile "ca") = some (.key secret)
        ∧ ∀ name content, dir.file name = some content → secret ∉ content.keys := by
  obtain ⟨secret, held, old | fresh⟩ := opensslPrivatekey_path dir (keyFile "ca")
  · simp [missing] at old
  · exact ⟨secret, by simpa [generateCaKey, missing] using held, fresh⟩

/-- A missing CA certificate is signed by the CA key that is there. -/
theorem generateCaCertificate_some {dir next : PkiDir}
    (missing : dir.file (certFile "ca") = none)
    (generated : generateCaCertificate dir = some next)
    : (∃ secret,
          dir.file (keyFile "ca") = some (.key secret)
          ∧ next.file (certFile "ca") = some (.cert secret secret))
      ∧ ∀ name, name ≠ certFile "ca" → name ≠ csrFile "ca"
        → next.file name = dir.file name := by
  obtain ⟨requested, first, rest⟩ := Option.bind_eq_some_iff.mp generated
  obtain ⟨signed, second, last⟩ := Option.bind_eq_some_iff.mp rest
  obtain ⟨secret, held, rfl⟩ := opensslCsr_some first
  obtain rfl : signed.remove (csrFile "ca") = next := Option.some.inj last
  have keyNotCsr := (csrFile_ne_keyFile "ca" "ca").symm
  have certNotCsr := (csrFile_ne_certFile "ca" "ca").symm
  have request : x509Selfsigned (dir.put (csrFile "ca") (.csr secret)) (certFile "ca")
      (csrFile "ca") (keyFile "ca")
      = some (writeCertificate (dir.put (csrFile "ca") (.csr secret)) (certFile "ca")
          secret secret) := by
    simp [x509Selfsigned, keyNotCsr, held]
  obtain rfl := Option.some.inj (request.symm.trans second)
  refine ⟨⟨secret, held, ?_⟩, ?_⟩
  · obtain ⟨actual, written, new | old⟩ := writeCertificate_path
      (dir.put (csrFile "ca") (.csr secret)) (certFile "ca") secret secret
    · simp [certNotCsr, written, new]
    · simp [certNotCsr, missing] at old
  · intro name notCert notCsr
    simp [notCsr, writeCertificate_other notCert]

/-- The CA stage leaves that, by cases on the certificate that it found. -/
theorem generateCa_some {dir next : PkiDir} (generated : generateCa dir = some next)
    : CaGenerated dir next := by
  have apart : certFile "ca" ≠ keyFile "ca" := by decide
  have certSame : (generateCaKey dir).file (certFile "ca") = dir.file (certFile "ca") :=
    generateCaKey_other apart
  unfold generateCa at generated
  split at generated
  · rename_i present
    obtain rfl := Option.some.inj generated
    exact {
      others := fun name _ notKey _ => generateCaKey_other notKey
      certKept := fun _ => certSame
      keyKept := fun held => by rw [generateCaKey_kept held]
      keyFresh := generateCaKey_fresh
      certSelfsigned := fun missing => by simp [missing] at present
    }
  · rename_i absent
    have missing : dir.file (certFile "ca") = none := by simpa using absent
    obtain ⟨⟨secret, held, signed⟩, frame⟩ :=
      generateCaCertificate_some (certSame.trans missing) generated
    have keySame := frame (keyFile "ca") apart.symm (csrFile_ne_keyFile "ca" "ca").symm
    exact {
      others := fun name notCert notKey notCsr => by
        rw [frame name notCert notCsr, generateCaKey_other notKey]
      certKept := fun present => absurd missing present
      keyKept := fun present => by rw [keySame, generateCaKey_kept present]
      keyFresh := fun lost => by
        rw [keySame]
        exact generateCaKey_fresh lost
      certSelfsigned := fun _ => ⟨secret, signed, keySame.trans held⟩
    }

-----------------------------------------------------------------------------------------
-- The node stage
-----------------------------------------------------------------------------------------

/-- A node without a certificate or without a key. -/
def Incomplete (dir : PkiDir) (node : String) : Prop :=
  dir.file (certFile node) = none ∨ dir.file (keyFile node) = none

instance (dir : PkiDir) (node : String) : Decidable (Incomplete dir node) :=
  inferInstanceAs (Decidable (_ ∨ _))

/-- What the node stage leaves under a CA whose two files exist: the CA and the unlisted
nodes as they were, and for every listed one a matching pair signed by the CA key.
-/
structure NodesGenerated (dir next : PkiDir) (allNodes missing : List String) : Prop where
  ca
    : next.file (certFile "ca") = dir.file (certFile "ca")
      ∧ next.file (keyFile "ca") = dir.file (keyFile "ca")
  kept
    : ∀ node ∈ allNodes,
        node ∉ missing
        → next.file (certFile node) = dir.file (certFile node)
          ∧ next.file (keyFile node) = dir.file (keyFile node)
  repaired
    : ∀ node ∈ missing,
        ∃ pub signer,
          dir.file (keyFile "ca") = some (.key signer)
          ∧ next.file (certFile node) = some (.cert pub signer)
          ∧ next.file (keyFile node) = some (.key pub)

/-- The nodes that the two loops over the file checks collect. -/
theorem mem_incompleteNodes {dir : PkiDir} {allNodes : List String} {node : String}
    : node ∈ allNodes.filter (fun item => (dir.file (certFile item)).isNone)
        ++ allNodes.filter (fun item => (dir.file (keyFile item)).isNone)
      ↔ node ∈ allNodes ∧ Incomplete dir node := by
  simp [Incomplete, ← and_or_left]

/-- Only incomplete nodes are listed. -/
theorem missingCertNodes_incomplete {lower : String → String} {dir : PkiDir}
    {allNodes : List String} {node : String}
    (listed : node ∈ missingCertNodes lower dir allNodes)
    : node ∈ allNodes ∧ Incomplete dir node :=
  mem_incompleteNodes.mp (uniqueBy_subset lower _ listed)

/-- All incomplete nodes are listed exactly when no two of them differ in case only. -/
theorem incomplete_listed_iff (lower : String → String) (dir : PkiDir)
    (allNodes : List String)
    : (∀ node ∈ allNodes, Incomplete dir node → node ∈ missingCertNodes lower dir allNodes)
      ↔ ∀ left ∈ allNodes,
          ∀ right ∈ allNodes,
            Incomplete dir left → Incomplete dir right → lower left = lower right
            → left = right := by
  have general := subset_uniqueBy_iff lower
    (allNodes.filter (fun item => (dir.file (certFile item)).isNone)
      ++ allNodes.filter (fun item => (dir.file (keyFile item)).isNone))
  simp only [List.subset_def, mem_incompleteNodes, and_imp] at general
  refine general.trans ⟨?_, ?_⟩
  · intro apart left inLeft right inRight leftLost rightLost
    exact apart left inLeft leftLost right inRight rightLost
  · intro apart left inLeft leftLost right inRight rightLost
    exact apart left inLeft right inRight leftLost rightLost

section Loops

variable {dir next : PkiDir} {missing : List String}

/-- After the first loop every item has its old key or one that no other file mentions. -/
theorem keyLoop_some (distinct : missing.Nodup)
    (completed
      : dir.forEach (fun dir item => some (opensslPrivatekey dir (keyFile item))) missing
        = some next)
    : (∀ name, name ∉ missing.map keyFile → next.file name = dir.file name)
      ∧ ∀ item ∈ missing,
          ∃ secret,
            next.file (keyFile item) = some (.key secret)
            ∧ (dir.file (keyFile item) = some (.key secret)
              ∨ ∀ name, name ∉ missing.map keyFile
                → ∀ content, dir.file name = some content → secret ∉ content.keys) := by
  have targets := distinct.map (fun _ _ same => keyFile_inj.mp same)
  obtain ⟨frame, each⟩ := Directory.forEach_targets
    (fun _ _ _ run _ other => Option.some.inj run ▸ opensslPrivatekey_other other)
    targets completed
  refine ⟨frame, ?_⟩
  intro item member
  obtain ⟨before, after, run, result, own, untouched⟩ := each item member
  obtain rfl := Option.some.inj run
  obtain ⟨secret, held, old | fresh⟩ := opensslPrivatekey_path before (keyFile item)
  · exact ⟨secret, result.trans held, Or.inl (own ▸ old)⟩
  · refine ⟨secret, result.trans held, Or.inr ?_⟩
    intro name outside content found
    exact fresh name content ((untouched name outside).trans found)

/-- After the second loop every item has a request for its key. -/
theorem csrLoop_some (distinct : missing.Nodup)
    (completed
      : dir.forEach (fun dir item => opensslCsr dir (csrFile item) (keyFile item)) missing
        = some next)
    : (∀ name, name ∉ missing.map csrFile → next.file name = dir.file name)
      ∧ ∀ item ∈ missing,
          ∃ secret,
            dir.file (keyFile item) = some (.key secret)
            ∧ next.file (csrFile item) = some (.csr secret) := by
  have targets := distinct.map (fun _ _ same => csrFile_inj.mp same)
  obtain ⟨frame, each⟩ := Directory.forEach_targets
    (fun _ _ _ run _ other => by
      obtain ⟨_, _, rfl⟩ := opensslCsr_some run
      simp [other])
    targets completed
  refine ⟨frame, ?_⟩
  intro item member
  obtain ⟨before, after, run, result, _, untouched⟩ := each item member
  obtain ⟨secret, held, rfl⟩ := opensslCsr_some run
  rw [untouched _ (keyFile_notMem_csrs item missing)] at held
  exact ⟨secret, held, by simpa using result⟩

/-- After the third loop every item has a certificate for its request, signed by the CA key
unless an old certificate was for the same public key.
-/
theorem certLoop_some (distinct : missing.Nodup)
    (caKey : keyFile "ca" ∉ missing.map certFile)
    (completed
      : dir.forEach (fun dir item =>
            x509Ownca dir (certFile item) (csrFile item) (certFile "ca") (keyFile "ca"))
          missing
        = some next)
    : (∀ name, name ∉ missing.map certFile → next.file name = dir.file name)
      ∧ ∀ item ∈ missing,
          ∃ pub signer actual,
            dir.file (csrFile item) = some (.csr pub)
            ∧ dir.file (keyFile "ca") = some (.key signer)
            ∧ next.file (certFile item) = some (.cert pub actual)
            ∧ (actual = signer ∨ dir.file (certFile item) = some (.cert pub actual)) := by
  have targets := distinct.map (fun _ _ same => certFile_inj.mp same)
  obtain ⟨frame, each⟩ := Directory.forEach_targets
    (fun _ _ _ run _ other => by
      obtain ⟨_, _, _, _, rfl⟩ := x509Ownca_some run
      exact writeCertificate_other other)
    targets completed
  refine ⟨frame, ?_⟩
  intro item member
  obtain ⟨before, after, run, result, own, untouched⟩ := each item member
  obtain ⟨pub, signer, request, key, rfl⟩ := x509Ownca_some run
  rw [untouched _ (csrFile_notMem_certs item missing)] at request
  rw [untouched _ caKey] at key
  obtain ⟨actual, written, signed⟩ := writeCertificate_path before (certFile item) pub signer
  exact ⟨pub, signer, actual, request, key, result.trans written, own ▸ signed⟩

/-- The last loop touches requests only. -/
theorem cleanLoop_some (distinct : missing.Nodup)
    (completed
      : dir.forEach (fun dir item => some (dir.remove (csrFile item))) missing = some next)
    : ∀ name, name ∉ missing.map csrFile → next.file name = dir.file name := by
  have targets := distinct.map (fun _ _ same => csrFile_inj.mp same)
  exact (Directory.forEach_targets
    (fun _ _ _ run _ other => by
      obtain rfl := Option.some.inj run
      simp [other])
    targets completed).1

end Loops

/-- The node stage leaves that when no names collide. Witness: the four loops write keys,
requests, certificates and nothing of each other.
-/
theorem generateNodes_some {lower : String → String} {dir next : PkiDir}
    {allNodes : List String} (apart : NoCollision allNodes)
    (caCert : dir.file (certFile "ca") ≠ none) (caKey : dir.file (keyFile "ca") ≠ none)
    (generated : generateNodes lower dir allNodes = some next)
    : NodesGenerated dir next allNodes (missingCertNodes lower dir allNodes) := by
  obtain ⟨keyed, keys, rest⟩ := Option.bind_eq_some_iff.mp generated
  obtain ⟨requested, csrs, rest⟩ := Option.bind_eq_some_iff.mp rest
  obtain ⟨signed, certs, cleaned⟩ := Option.bind_eq_some_iff.mp rest
  have distinct : (missingCertNodes lower dir allNodes).Nodup := nodup_uniqueBy lower _
  have known : ∀ item ∈ missingCertNodes lower dir allNodes, item ∈ "ca" :: allNodes :=
    fun item member => List.mem_cons_of_mem _ (missingCertNodes_incomplete member).1
  have certNotKeyed : ∀ name ∈ "ca" :: allNodes,
      certFile name ∉ (missingCertNodes lower dir allNodes).map keyFile :=
    fun _ inNodes => (apart.notMem known inNodes).1
  have keyNotSigned : ∀ name ∈ "ca" :: allNodes,
      keyFile name ∉ (missingCertNodes lower dir allNodes).map certFile :=
    fun _ inNodes => (apart.notMem known inNodes).2
  have certNotCsr := fun name => certFile_notMem_csrs name (missingCertNodes lower dir allNodes)
  have keyNotCsr := fun name => keyFile_notMem_csrs name (missingCertNodes lower dir allNodes)
  have caComplete : "ca" ∉ missingCertNodes lower dir allNodes := by
    intro member
    exact (missingCertNodes_incomplete member).2.elim caCert caKey
  obtain ⟨keyFrame, keyEach⟩ := keyLoop_some distinct keys
  obtain ⟨csrFrame, csrEach⟩ := csrLoop_some distinct csrs
  obtain ⟨certFrame, certEach⟩ := certLoop_some distinct (keyNotSigned "ca" (by simp)) certs
  have cleanFrame := cleanLoop_some distinct cleaned
  have keyLast : ∀ name ∈ "ca" :: allNodes,
      next.file (keyFile name) = keyed.file (keyFile name) := by
    intro name inNodes
    rw [cleanFrame _ (keyNotCsr name), certFrame _ (keyNotSigned name inNodes),
      csrFrame _ (keyNotCsr name)]
  have certFirst : ∀ name ∈ "ca" :: allNodes,
      requested.file (certFile name) = dir.file (certFile name) := by
    intro name inNodes
    rw [csrFrame _ (certNotCsr name), keyFrame _ (certNotKeyed name inNodes)]
  have kept : ∀ name ∈ "ca" :: allNodes, name ∉ missingCertNodes lower dir allNodes
      → next.file (certFile name) = dir.file (certFile name)
        ∧ next.file (keyFile name) = dir.file (keyFile name) := by
    intro name inNodes notMissing
    refine ⟨?_, ?_⟩
    · rw [cleanFrame _ (certNotCsr name), certFrame _ (by simpa using notMissing),
        certFirst name inNodes]
    · rw [keyLast name inNodes, keyFrame _ (by simpa using notMissing)]
  refine ⟨kept "ca" (by simp) caComplete,
    fun node inNodes => kept node (List.mem_cons_of_mem _ inNodes), ?_⟩
  · intro node member
    have lost := (missingCertNodes_incomplete member).2
    have inAll := known node member
    obtain ⟨secret, held, origin⟩ := keyEach node member
    obtain ⟨requestedKey, fromKey, request⟩ := csrEach node member
    obtain ⟨pub, signer, actual, fromCsr, fromCa, written, signedBy⟩ := certEach node member
    obtain rfl : secret = requestedKey := by simpa [held] using fromKey
    obtain rfl : secret = pub := by simpa [request] using fromCsr
    rw [csrFrame _ (keyNotCsr "ca"), ← keyLast "ca" (by simp),
      (kept "ca" (by simp) caComplete).2] at fromCa
    refine ⟨secret, signer, fromCa, ?_, (keyLast node inAll).trans held⟩
    rw [cleanFrame _ (certNotCsr node), written]
    rcases signedBy with rfl | old
    · rfl
    · -- an old certificate has lost its key, and the new key is fresh
      rw [certFirst node inAll] at old
      rcases lost with noCert | noKey
      · simp [noCert] at old
      · rcases origin with oldKey | fresh
        · simp [noKey] at oldKey
        · exact absurd (by simp [Content.keys])
            (fresh _ (certNotKeyed node inAll) _ old)

-----------------------------------------------------------------------------------------
-- Whole runs
-----------------------------------------------------------------------------------------

/-- The CA stage leaves the files of all other nodes alone. -/
theorem CaGenerated.node {dir next : PkiDir} {allNodes : List String}
    (generated : CaGenerated dir next) (apart : NoCollision allNodes) {node : String}
    (inNodes : node ∈ allNodes) (other : node ≠ "ca")
    : next.file (certFile node) = dir.file (certFile node)
      ∧ next.file (keyFile node) = dir.file (keyFile node) := by
  have inAll := List.mem_cons_of_mem "ca" inNodes
  refine ⟨?_, ?_⟩
  · exact generated.others _ (by simpa using other)
      (apart.keyFile_ne_certFile (by simp) inAll).symm (csrFile_ne_certFile _ _).symm
  · exact generated.others _ (apart.keyFile_ne_certFile inAll (by simp))
      (by simpa using other) (csrFile_ne_keyFile _ _).symm

/-- Both CA files exist after the CA stage. -/
theorem CaGenerated.both {dir next : PkiDir} (generated : CaGenerated dir next)
    : next.file (certFile "ca") ≠ none ∧ next.file (keyFile "ca") ≠ none := by
  refine ⟨?_, ?_⟩
  · cases found : dir.file (certFile "ca") with
    | none =>
        obtain ⟨secret, signed, _⟩ := generated.certSelfsigned found
        simp [signed]
    | some content => simp [generated.certKept (by simp [found]), found]
  · cases found : dir.file (keyFile "ca") with
    | none =>
        obtain ⟨secret, held, _⟩ := generated.keyFresh found
        simp [held]
    | some content => simp [generated.keyKept (by simp [found]), found]

/-- The files of a complete node survive the CA stage. -/
theorem CaGenerated.complete {dir next : PkiDir} {allNodes : List String}
    (generated : CaGenerated dir next) (apart : NoCollision allNodes) {node : String}
    (inNodes : node ∈ allNodes) (hasCert : dir.file (certFile node) ≠ none)
    (hasKey : dir.file (keyFile node) ≠ none)
    : next.file (certFile node) = dir.file (certFile node)
      ∧ next.file (keyFile node) = dir.file (keyFile node) := by
  by_cases ca : node = "ca"
  · subst ca
    exact ⟨generated.certKept hasCert, generated.keyKept hasKey⟩
  · exact generated.node apart inNodes ca

/-- The incomplete nodes after the CA stage are those before it; the CA itself is complete. -/
theorem CaGenerated.incomplete_iff {dir next : PkiDir} {allNodes : List String}
    (generated : CaGenerated dir next) (apart : NoCollision allNodes) {node : String}
    (inNodes : node ∈ allNodes)
    : Incomplete next node ↔ node ≠ "ca" ∧ Incomplete dir node := by
  by_cases ca : node = "ca"
  · subst ca
    simp [Incomplete, generated.both.1, generated.both.2]
  · have same := generated.node apart inNodes ca
    simp [Incomplete, ca, same.1, same.2]

/-- A complete node is not listed, so its files stay. -/
theorem NodesGenerated.complete {lower : String → String} {dir next : PkiDir}
    {allNodes : List String}
    (generated : NodesGenerated dir next allNodes (missingCertNodes lower dir allNodes))
    {node : String} (inNodes : node ∈ allNodes) (complete : ¬ Incomplete dir node)
    : next.file (certFile node) = dir.file (certFile node)
      ∧ next.file (keyFile node) = dir.file (keyFile node) :=
  generated.kept node inNodes
    (fun listed => complete (missingCertNodes_incomplete listed).2)

/-- A directory that one run makes consistent: no names collide, no two incomplete nodes
differ in case only, an existing CA certificate belongs to the existing CA key, and so does
the signature of every complete matching pair.
-/
structure Repairable (lower : String → String) (dir : PkiDir) (allNodes : List String)
    : Prop where
  apart : NoCollision allNodes
  distinct
    : ∀ left ∈ allNodes,
        ∀ right ∈ allNodes,
          left ≠ "ca" ∧ Incomplete dir left → right ≠ "ca" ∧ Incomplete dir right
          → lower left = lower right
          → left = right
  ca
    : dir.file (certFile "ca") = none
      ∨ ∃ pub signer,
          dir.file (certFile "ca") = some (.cert pub signer)
          ∧ dir.file (keyFile "ca") = some (.key pub)
  pairs
    : ∀ node ∈ allNodes,
        dir.file (certFile node) ≠ none
        → dir.file (keyFile node) ≠ none
        → ∃ pub caKey,
            dir.file (certFile node) = some (.cert pub caKey)
            ∧ dir.file (keyFile node) = some (.key pub)
            ∧ dir.file (keyFile "ca") = some (.key caKey)

/-- No file is a certificate and a key at once. -/
theorem Consistent.noCollision {dir : PkiDir} {allNodes : List String}
    (consistent : Consistent dir allNodes)
    : NoCollision allNodes := by
  intro node inAll collides
  obtain ⟨_, _, _, cert, _, _⟩ := consistent.nodes _ collides
  rw [← keyFile_eq_certFile_iff.mpr rfl] at cert
  rcases List.mem_cons.mp inAll with rfl | inNodes
  · obtain ⟨_, _, _, key⟩ := consistent.ca
    simp [cert] at key
  · obtain ⟨_, _, _, _, key, _⟩ := consistent.nodes node inNodes
    simp [cert] at key

variable {lower : String → String} {dir final : PkiDir} {allNodes : List String}

/-- A consistent result shows that the directory was repairable: a CA key generated beside
an old certificate is fresh, and complete pairs and unlisted nodes are left as they were.
-/
theorem Consistent.repairable {middle : PkiDir} (consistent : Consistent final allNodes)
    (generated : CaGenerated dir middle)
    (repaired
      : NodesGenerated middle final allNodes (missingCertNodes lower middle allNodes))
    : Repairable lower dir allNodes := by
  have apart := consistent.noCollision
  obtain ⟨caPub, caSigner, caCert, caKey⟩ := consistent.ca
  rw [repaired.ca.2] at caKey
  -- a key that some old file mentions was not generated by this run
  have oldKey : ∀ name content, dir.file name = some content → caPub ∈ content.keys
      → dir.file (keyFile "ca") = some (.key caPub) := by
    intro name content found mentioned
    cases held : dir.file (keyFile "ca") with
    | none =>
        obtain ⟨secret, written, fresh⟩ := generated.keyFresh held
        obtain rfl : caPub = secret := by simpa [caKey] using written
        exact absurd mentioned (fresh name content found)
    | some content =>
        rw [← held, ← generated.keyKept (by simp [held])]
        exact caKey
  refine ⟨apart, ?_, ?_, ?_⟩
  · have listed : ∀ node ∈ allNodes,
        Incomplete middle node → node ∈ missingCertNodes lower middle allNodes := by
      intro node inNodes lost
      by_contra unlisted
      obtain ⟨certLast, keyLast⟩ := repaired.kept node inNodes unlisted
      obtain ⟨_, _, _, cert, key, _⟩ := consistent.nodes node inNodes
      rcases lost with noCert | noKey
      · simp [certLast, noCert] at cert
      · simp [keyLast, noKey] at key
    intro left inLeft right inRight leftLost rightLost
    exact (incomplete_listed_iff lower middle allNodes).mp listed left inLeft right inRight
      ((generated.incomplete_iff apart inLeft).mpr leftLost)
      ((generated.incomplete_iff apart inRight).mpr rightLost)
  · cases found : dir.file (certFile "ca") with
    | none => exact Or.inl rfl
    | some content =>
        have kept := generated.certKept (by simp [found])
        rw [repaired.ca.1, kept] at caCert
        exact Or.inr ⟨caPub, caSigner, found ▸ caCert, oldKey _ _ caCert (by simp [Content.keys])⟩
  · intro node inNodes hasCert hasKey
    obtain ⟨certSame, keySame⟩ := generated.complete apart inNodes hasCert hasKey
    obtain ⟨certLast, keyLast⟩ := repaired.complete inNodes
      (not_or.mpr ⟨certSame ▸ hasCert, keySame ▸ hasKey⟩)
    obtain ⟨pub, signer, _, cert, key, caAgain⟩ := consistent.nodes node inNodes
    obtain rfl : caPub = signer := by
      have same := caCert.symm.trans caAgain
      simp at same
      exact same.1
    rw [certLast, certSame] at cert
    rw [keyLast, keySame] at key
    exact ⟨pub, caPub, cert, key, oldKey _ _ cert (by simp [Content.keys])⟩

/-- A repairable directory becomes consistent: its CA fits together after the first stage,
and every node has an old pair of that CA or gets a new one.
-/
theorem Repairable.consistent {middle : PkiDir} (repairable : Repairable lower dir allNodes)
    (generated : CaGenerated dir middle)
    (repaired
      : NodesGenerated middle final allNodes (missingCertNodes lower middle allNodes))
    : Consistent final allNodes := by
  have caFits : ∃ pub signer,
      middle.file (certFile "ca") = some (.cert pub signer)
      ∧ middle.file (keyFile "ca") = some (.key pub) := by
    rcases repairable.ca with missing | ⟨pub, signer, cert, key⟩
    · obtain ⟨secret, signed, held⟩ := generated.certSelfsigned missing
      exact ⟨secret, secret, signed, held⟩
    · refine ⟨pub, signer, ?_, ?_⟩
      · rw [generated.certKept (by simp [cert]), cert]
      · rw [generated.keyKept (by simp [key]), key]
  obtain ⟨caPub, caSigner, caCert, caKey⟩ := caFits
  refine ⟨⟨caPub, caSigner, repaired.ca.1.trans caCert, repaired.ca.2.trans caKey⟩, ?_⟩
  have listed := (incomplete_listed_iff lower middle allNodes).mpr
    (fun left inLeft right inRight leftLost rightLost =>
      repairable.distinct left inLeft right inRight
        ((generated.incomplete_iff repairable.apart inLeft).mp leftLost)
        ((generated.incomplete_iff repairable.apart inRight).mp rightLost))
  intro node inNodes
  by_cases lost : Incomplete middle node
  · obtain ⟨pub, signer, signedBy, cert, key⟩ :=
      repaired.repaired node (listed node inNodes lost)
    obtain rfl : caPub = signer := by simpa [caKey] using signedBy
    exact ⟨pub, caPub, caSigner, cert, key, repaired.ca.1.trans caCert⟩
  · obtain ⟨hasCert, hasKey⟩ := not_or.mp lost
    obtain ⟨certLast, keyLast⟩ := repaired.complete inNodes lost
    by_cases old : dir.file (certFile node) ≠ none ∧ dir.file (keyFile node) ≠ none
    · obtain ⟨pub, signer, cert, key, signedBy⟩ :=
        repairable.pairs node inNodes old.1 old.2
      obtain ⟨certSame, keySame⟩ :=
        generated.complete repairable.apart inNodes old.1 old.2
      rw [generated.keyKept (by simp [signedBy]), signedBy] at caKey
      obtain rfl : signer = caPub := by simpa using caKey
      refine ⟨pub, signer, caSigner, ?_, ?_, repaired.ca.1.trans caCert⟩
      · rw [certLast, certSame, cert]
      · rw [keyLast, keySame, key]
    · -- only the CA stage creates files before the node stage looks for them
      have ca : node = "ca" := by
        by_contra other
        obtain ⟨certSame, keySame⟩ := generated.node repairable.apart inNodes other
        exact old ⟨certSame ▸ hasCert, keySame ▸ hasKey⟩
      subst ca
      rcases repairable.ca with missing | ⟨pub, signer, cert, key⟩
      · obtain ⟨secret, signed, held⟩ := generated.certSelfsigned missing
        exact ⟨secret, secret, secret, certLast.trans signed, keyLast.trans held,
          certLast.trans signed⟩
      · exact absurd ⟨by simp [cert], by simp [key]⟩ old

/-- A finished run leaves a consistent directory if and only if it was repairable.
Witness: the CA stage fits together exactly when no CA key had to be replaced beside an old
certificate, and the node stage replaces whole pairs, of all incomplete nodes exactly when
no two of them differ in case only.
-/
theorem certificatesRun_consistent_iff (lower : String → String) (dir final : PkiDir)
    (allNodes : List String) (finished : certificatesRun lower dir allNodes = some final)
    : Consistent final allNodes ↔ Repairable lower dir allNodes := by
  obtain ⟨middle, first, second⟩ := Option.bind_eq_some_iff.mp finished
  have generated := generateCa_some first
  refine ⟨?_, ?_⟩
  · intro consistent
    have repaired := generateNodes_some consistent.noCollision generated.both.1
      generated.both.2 second
    exact consistent.repairable generated repaired
  · intro repairable
    have repaired := generateNodes_some repairable.apart generated.both.1 generated.both.2
      second
    exact repairable.consistent generated repaired

/-- A first run for two nodes leaves a consistent directory. -/
theorem certificatesRun_consistent_first
    : ∃ final,
        certificatesRun asciiLower .empty ["node1", "node2"] = some final
        ∧ Consistent final ["node1", "node2"] := by
  refine ⟨_, rfl,
    (certificatesRun_consistent_iff asciiLower .empty _ ["node1", "node2"] rfl).mpr ?_⟩
  refine ⟨by unfold NoCollision; decide, by decide, Or.inl (by decide), ?_⟩
  simp [Directory.empty, Directory.file]

/-- After the loss of the CA key alone a run finishes with a key of another CA. -/
theorem certificatesRun_fails_lostCaKey
    : ¬ (∀ (earlier allNodes lost : List String) (before final : PkiDir),
          allNodes.Nodup
          → earlier ⊆ allNodes
          → certificatesRun asciiLower .empty earlier = some before
          → certificatesRun asciiLower (lost.foldl Directory.remove before) allNodes
            = some final
          → Consistent final allNodes) := by
  intro always
  let before := (certificatesRun asciiLower .empty ["node1"]).getD .empty
  let final := (certificatesRun asciiLower (before.remove "ca-key.pem") ["node1"]).getD
    .empty
  have consistent := always ["node1"] ["node1"] ["ca-key.pem"] before final (by decide)
    (List.Subset.refl _) (by decide) (by decide)
  obtain ⟨pub, signer, cert, key⟩ := consistent.ca
  have oldCert : final.file (certFile "ca") = some (.cert 1 1) := by decide
  have newKey : final.file (keyFile "ca") = some (.key 3) := by decide
  have samePub : 1 = pub ∧ 1 = signer := by simpa [oldCert] using cert
  have sameKey : 3 = pub := by simpa [newKey] using key
  exact absurd (samePub.1.trans sameKey.symm) (by decide)

end PgCluster.Certificates
