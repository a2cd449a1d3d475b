import GraphInspector.Storage.Impl.Rebuild

/-!
Materialization while the caches drop entries. Every lookup of an identity and every lookup of a cached
block may find that its entry is gone.
-/

namespace Kgi

open Data

structure LookupEvictions where
  beforeIdentity : Eviction
  beforeBlock : Eviction
  deriving DecidableEq, Repr

def storedIdentityDuring (first second : ProcessingCacheDomains) (hash : BlockHash) :
    Option StoredIdentity :=
  match first.identities[hash]? with
  | none => none
  | some identity =>
    if identity.materialized then
      (second.materializedBlocks[identity.id]?).map fun block => ⟨identity.id, some block⟩
    else
      some ⟨identity.id, none⟩

def lookupsDuring (evictions : BlockHash → LookupEvictions) (caches : ProcessingCacheDomains) :
    List BlockHash → List (BlockHash × Option StoredIdentity) × ProcessingCacheDomains
  | [] => ([], caches)
  | hash :: hashes =>
    let first := caches.evict (evictions hash).beforeIdentity
    let second := first.evict (evictions hash).beforeBlock
    let rest := lookupsDuring evictions second hashes
    ((hash, storedIdentityDuring first second hash) :: rest.1, rest.2)

def loadIdentitiesDuring (database : Database) (lookups : List (BlockHash × Option StoredIdentity)) :
    LoadedIdentities :=
  let cacheMisses := (lookups.filter fun lookup => lookup.2.isNone).map Prod.fst
  { values := cacheMisses.foldl
      (fun values hash => Map.insertSome values hash (database.storedIdentity hash))
      (lookups.foldl (fun values lookup => Map.insertSome values lookup.1 lookup.2) ∅)
    cacheMisses := cacheMisses }

def StoredIdentity.presence (identity : StoredIdentity) : BlockPresence :=
  match identity.block with
  | none => .boundaryIdentity identity.id
  | some block => .materialized identity.id block.coordinate

def Storage.blockPresenceDuring (storage : Storage) (evictions : LookupEvictions) (hash : BlockHash) :
    Storage × BlockPresence :=
  let first := storage.caches.evict evictions.beforeIdentity
  let second := first.evict evictions.beforeBlock
  match storedIdentityDuring first second hash with
  | some identity => (⟨storage.database, second⟩, identity.presence)
  | none =>
    match storage.database.storedIdentity hash with
    | none => (⟨storage.database, second⟩, .absent)
    | some identity =>
      (⟨storage.database, second.publishStoredIdentity (hash, identity)⟩, identity.presence)

def Storage.materializeBlockDuring (storage : Storage) (evictions : BlockHash → LookupEvictions)
    (block : ValidatedNodeBlock) (policy : ReferencePolicy) :
    Except (TransactionAttemptError MaterializeSemanticError) (Storage × MaterializeBlockOutcome) := do
  let prepared ← PreparedBlock.new block
  let daaScore ← daaScoreToSql block.daaScore
  let lookups := lookupsDuring evictions storage.caches prepared.universal
  let (database, success) ←
    materializeLoaded storage.database (loadIdentitiesDuring storage.database lookups.1) prepared daaScore
      policy
  pure (⟨database, lookups.2.publishMaterialization success⟩, success.outcome)

def Storage.stepDuring (storage : Storage) (event : (BlockHash → LookupEvictions) × StorageEvent) :
    Option Storage :=
  match event.2 with
  | .materialize block policy =>
    match storage.materializeBlockDuring event.1 block policy with
    | .ok (storage, _) => some storage
    | .error _ => some storage
  | other => some (storage.step other)

end Kgi
