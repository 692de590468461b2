import Mathlib.Data.List.TakeWhile

/-! Inventory hosts, the facts gathered on them, and the unified host name.
`unified_hostname` is first set by `prepare_nodes` and repaired by the etcd role.
-/

namespace PgCluster

/-- The gathered facts read by the roles. `interfaces` maps an interface fact to the
`ipv4.address` below it.
-/
structure Facts where
  fqdn : String
  defaultIpv4 : String
  interfaces : List (String × String)
deriving DecidableEq, Repr

def Facts.ipv4? (facts : Facts) (interface : String) : Option String :=
  facts.interfaces.lookup interface

/-- A host of the inventory. `unifiedBefore` is the value of `unified_hostname` when the
etcd role starts: absent, or left by `prepare_nodes`, a fact cache or the inventory.
-/
structure Host where
  inventoryHostname : String
  facts : Facts
  unifiedBefore : Option String
deriving DecidableEq, Repr

/-- A host whose FQDN is its inventory name, with one address and no interface facts. -/
def Host.withAddress (name address : String) : Host := ⟨name, ⟨name, address, []⟩, none⟩

/-- `'.' in inventory_hostname`. -/
def Host.hasDomain (host : Host) : Bool := host.inventoryHostname.toList.contains '.'

/-- `inventory_hostname.split('.')[0]`. -/
def Host.shortName (host : Host) : String :=
  String.ofList (host.inventoryHostname.toList.takeWhile (· ≠ '.'))

/-- The value that `prepare_nodes` gives to `unified_hostname`. -/
def Host.prepareNodesUnifiedHostname (host : Host) : String :=
  if host.hasDomain then host.facts.fqdn else host.inventoryHostname

/-- `unified_hostname` after the fallback block of the etcd role.
The domain flag stays unset, hence false, when its own task is skipped.
-/
def Host.unifiedHostname (host : Host) : String :=
  let outdated := host.unifiedBefore ≠ some host.shortName
  let etcdHasDomain := outdated && host.hasDomain
  let fromFqdn :=
    if outdated && etcdHasDomain then some host.facts.fqdn else host.unifiedBefore
  if fromFqdn ≠ some host.inventoryHostname && !etcdHasDomain then host.inventoryHostname
  else fromFqdn.getD host.inventoryHostname

/-- The fallback keeps the FQDN only for dotted inventory names, and not when the short
name was already set. Witness: the four combinations of its two guards.
-/
theorem Host.unifiedHostname_eq (host : Host)
    : host.unifiedHostname
      = if host.hasDomain ∧ host.unifiedBefore ≠ some host.shortName then host.facts.fqdn
        else host.inventoryHostname := by
  by_cases domain : host.hasDomain = true
  · by_cases short : host.unifiedBefore = some host.shortName
    · by_cases same : host.shortName = host.inventoryHostname
      · simp [Host.unifiedHostname, short, same]
      · simp [Host.unifiedHostname, short, same]
    · simp [Host.unifiedHostname, domain, short]
  · by_cases same : host.unifiedBefore = some host.inventoryHostname
    · simp [Host.unifiedHostname, domain, same]
    · simp [Host.unifiedHostname, domain, same]

/-- The unified name of a host is its inventory name: it has no domain, was shortened
before the role, or its FQDN is that name.
-/
def Host.keepsInventoryName (host : Host) : Prop :=
  host.hasDomain = false
  ∨ host.unifiedBefore = some host.shortName
  ∨ host.facts.fqdn = host.inventoryHostname

/-- The inventory name survives exactly in those cases, by the fallback rule. -/
theorem Host.unifiedHostname_eq_inventory_iff (host : Host)
    : host.unifiedHostname = host.inventoryHostname ↔ host.keepsInventoryName := by
  rw [host.unifiedHostname_eq]
  unfold Host.keepsInventoryName
  split
  · rename_i guards
    simp [guards.1, guards.2]
  · rename_i guards
    simp only [not_and_or, Bool.not_eq_true, not_not] at guards
    rcases guards with plain | short
    · simp [plain]
    · simp [short]

/-- No dot survives in the short name. -/
theorem Host.shortName_ne_of_domain {host : Host} (domain : host.hasDomain = true)
    : host.shortName ≠ host.inventoryHostname := by
  intro same
  have dot : '.' ∈ host.shortName.toList := by
    rw [same]
    simpa [Host.hasDomain] using domain
  have kept : '.' ∈ host.inventoryHostname.toList.takeWhile (· ≠ '.') := by
    simpa [Host.shortName] using dot
  simpa using List.mem_takeWhile_imp kept

/-- The role keeps the name that `prepare_nodes` set, unless a dotted inventory name comes
with an FQDN that is already its short name.
-/
theorem Host.unifiedHostname_prepared_iff {host : Host}
    (prepared : host.unifiedBefore = some host.prepareNodesUnifiedHostname)
    : host.unifiedHostname = host.prepareNodesUnifiedHostname
      ↔ ¬ (host.hasDomain = true ∧ host.facts.fqdn = host.shortName) := by
  rw [host.unifiedHostname_eq, prepared]
  unfold Host.prepareNodesUnifiedHostname
  by_cases domain : host.hasDomain = true
  · by_cases short : host.facts.fqdn = host.shortName
    · simpa [domain, short] using (Host.shortName_ne_of_domain domain).symm
    · simp [domain, short]
  · simp [domain]

end PgCluster
