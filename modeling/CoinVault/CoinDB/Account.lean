import CoinVault.CoinDB.AccountBin
import Mathlib.Data.List.Sort
import Mathlib.Data.String.Basic

/-!
# Accounts

An `Account` owns its bins and shares its keychains. Exporting writes the
account's members, its keychains and then each bin; importing reads them back
into fresh objects, points every bin at the account and recomputes the
account's hash.
-/

set_option autoImplicit false

namespace CoinVault.CoinDB

open CoinVault.Archive

structure Account where
  id : Nat
  name : String
  minsigs : UInt32
  keychains : List Keychain
  /-- How many unused scripts the lookahead keeps. -/
  unusedPoolSize : UInt32
  timeCreated : UInt32
  /-- `ripemd160(sha256(minsigs byte ++ sorted keychain hashes))`. -/
  hash : Bytes
  bins : List AccountBin
  deriving DecidableEq, Repr

namespace Account

/-- `BOOST_CLASS_VERSION(CoinDB::Account, 1)`. -/
def classVersion : Nat := 1

/-- `Account()`. Members it leaves uninitialised are written as zero. -/
def new : Account where
  id := 0
  name := ""
  minsigs := 0
  keychains := []
  unusedPoolSize := 0
  timeCreated := 0
  hash := []
  bins := []

/-- The keychain hashes in ascending lexical order. -/
def sortedKeychainHashes (keychains : List Keychain) : List Bytes :=
  (keychains.map Keychain.hash).mergeSort fun left right => decide (left ≤ right)

/-- Modelled from the spec: `Account::updateHash`, declared in the schema with
its body outside it. Its member comment and the spec give
`hash = ripemd160(sha256(byte(minsigs) ++ sorted keychain hashes))`; the digest
is a parameter. -/
def updateHash (hash160 : Bytes → Bytes) (account : Account) : Account :=
  { account with
    hash := hash160 (account.minsigs.toUInt8 :: (sortedKeychainHashes account.keychains).flatten) }

def binCount (account : Account) : UInt32 := UInt32.ofNat account.bins.length

/-! ## Serialization -/

def save (account : Account) : List Token :=
  [.str account.name, .u32 account.minsigs, .u32 (UInt32.ofNat account.keychains.length)] ++
    account.keychains.flatMap (fun keychain =>
      saveObject Keychain.classVersion keychain.serializeSave) ++
    [.u32 account.unusedPoolSize, .u32 account.timeCreated,
      .u32 (UInt32.ofNat account.bins.length)] ++
    account.bins.flatMap fun bin => saveObject AccountBin.classVersion bin.save

/-- An account's keychains are loaded visible. -/
def loadKeychain : Load Keychain :=
  loadObject Keychain.classVersion fun _ => (Keychain.new false).serializeLoad

def loadBin : Load AccountBin :=
  loadObject AccountBin.classVersion fun _ => AccountBin.new.load

/-- `load`. As for bins, the loaded `KeychainSet` is listed in archive order,
which the pointer-ordered `std::set` does not keep. -/
def load (hash160 : Bytes → Bytes) (account : Account) : Load Account := do
  let name ← loadStr
  let minsigs ← loadU32
  let n ← loadU32
  let keychains ← loadSeq loadKeychain n.toNat
  let unusedPoolSize ← loadU32
  let timeCreated ← loadU32
  let n ← loadU32
  let bins ← loadSeq loadBin n.toNat
  let bins := bins.map fun bin => bin.setAccount account.id
  pure (updateHash hash160 { account with
    name, minsigs, keychains, unusedPoolSize, timeCreated, bins })

/-- The account that reading `source`'s archive into `target` leaves. -/
def imported (hash160 : Bytes → Bytes) (target source : Account) : Account :=
  let bins := source.bins.map AccountBin.new.imported
  updateHash hash160 { target with
    name := source.name, minsigs := source.minsigs,
    keychains := source.keychains.map (Keychain.imported false),
    unusedPoolSize := source.unusedPoolSize, timeCreated := source.timeCreated,
    bins := bins.map fun bin => bin.setAccount target.id }

/-- Every set the archive counts with a `uint32_t` has fewer than
`UInt32.size = 2 ^ 32` members. -/
structure Countable (account : Account) : Prop where
  keychains : account.keychains.length < UInt32.size
  bins : account.bins.length < UInt32.size
  binKeychains : ∀ bin ∈ account.bins, bin.keychains.length < UInt32.size

theorem loadKeychain_reads (keychain : Keychain) :
    ReadsExactly loadKeychain (saveObject Keychain.classVersion keychain.serializeSave)
      (Keychain.imported false keychain) :=
  Keychain.loadObject_new_reads false keychain

theorem loadBin_reads (bin : AccountBin) (bounded : bin.keychains.length < UInt32.size) :
    ReadsExactly loadBin (saveObject AccountBin.classVersion bin.save) (AccountBin.new.imported bin) :=
  .loadObject (AccountBin.load_reads _ _ bounded)

/-- An account whose sets the archive can count is read exactly from its own
archive. -/
theorem load_reads (hash160 : Bytes → Bytes) (target source : Account)
    (countable : source.Countable) :
    ReadsExactly (target.load hash160) source.save (imported hash160 target source) := by
  simp only [save, List.append_assoc, List.cons_append, List.nil_append]
  exact .cons (.str _) <| .cons (.u32 _) <| .cons (.u32 _) <|
    .bind (.loadSeq (fun keychain _ => loadKeychain_reads keychain)
      (UInt32.toNat_ofNat_of_lt countable.keychains)) <|
    .cons (.u32 _) <| .cons (.u32 _) <| .cons (.u32 _) <|
    (ReadsExactly.loadSeq (fun bin member => loadBin_reads bin (countable.binKeychains bin member))
      (UInt32.toNat_ofNat_of_lt countable.bins)).map _

theorem load_save (hash160 : Bytes → Bytes) (target source : Account) (rest : List Token)
    (countable : source.Countable) :
    target.load hash160 (source.save ++ rest) = .ok (imported hash160 target source, rest) :=
  (load_reads hash160 target source countable).complete rest

/-- `other` is `account` with its keychain set, and each bin's, listed in
another order. -/
structure Reordered (account other : Account) : Prop where
  keychains : other.keychains.Perm account.keychains
  bins : List.Forall₂ AccountBin.Reordered account.bins other.bins
  rest : { other with keychains := account.keychains, bins := account.bins } = account

theorem Reordered.refl (account : Account) : account.Reordered account :=
  ⟨.refl _, List.forall₂_same.mpr fun bin _ => .refl bin, rfl⟩

/-- With every keychain set countable, reading an account's archive takes its
first `count % 2 ^ 32` bins and leaves the others unread. -/
theorem load_save_bins_eq (hash160 : Bytes → Bytes) (target source : Account) (rest : List Token)
    (keychainsCountable : source.keychains.length < UInt32.size)
    (binKeychains : ∀ bin ∈ source.bins, bin.keychains.length < UInt32.size) :
    target.load hash160 (source.save ++ rest) =
      .ok (imported hash160 target
          { source with bins := source.bins.take (source.bins.length % UInt32.size) },
        (source.bins.drop (source.bins.length % UInt32.size)).flatMap
          (fun bin => saveObject AccountBin.classVersion bin.save) ++ rest) := by
  have keychainCount : (UInt32.ofNat source.keychains.length).toNat = source.keychains.length :=
    UInt32.toNat_ofNat_of_lt keychainsCountable
  have binCount : (UInt32.ofNat source.bins.length).toNat = source.bins.length % UInt32.size := rfl
  have keychains := (ReadsExactly.loadSeq (fun keychain (_ : keychain ∈ source.keychains) =>
    loadKeychain_reads keychain) rfl).complete
  have bins := loadSeq_flatMap_take loadBin _ _ source.bins
    (fun bin member => (loadBin_reads bin (binKeychains bin member)).complete)
    (source.bins.length % UInt32.size) (Nat.mod_le _ _) rest
  simp only [load, save, List.cons_append, List.nil_append, List.append_assoc, bind, StateT.bind,
    Except.bind, loadStr, loadU32, loadPrimitive, keychainCount, keychains, binCount, bins]
  rfl

/-- An account's bin count is written as a `uint32_t`. With `UInt32.size =
2 ^ 32` bins or more, its keychain sets countable, the import succeeds but keeps
only the first `count % 2 ^ 32` bins and leaves the records of the others, at
least one, unread. -/
theorem load_save_count_overflow (hash160 : Bytes → Bytes) (target source : Account)
    (rest : List Token) (keychainsCountable : source.keychains.length < UInt32.size)
    (binKeychains : ∀ bin ∈ source.bins, bin.keychains.length < UInt32.size)
    (overflowing : UInt32.size ≤ source.bins.length) :
    ∃ loaded unread, target.load hash160 (source.save ++ rest) = .ok (loaded, unread ++ rest) ∧
      loaded.bins.length = source.bins.length % UInt32.size ∧
      loaded.bins.length < source.bins.length ∧
      unread = (source.bins.drop (source.bins.length % UInt32.size)).flatMap
        (fun bin => saveObject AccountBin.classVersion bin.save) ∧
      unread ≠ [] := by
  obtain ⟨kept, fewer, leftover⟩ := count_wraps overflowing
    (fun bin => saveObject AccountBin.classVersion bin.save) fun _ => List.cons_ne_nil _ _
  have loadedCount := ((List.length_map _ (fun bin => bin.setAccount target.id)).trans
    (List.length_map _ AccountBin.new.imported)).trans kept
  exact ⟨_, _, load_save_bins_eq hash160 target source rest keychainsCountable binKeychains,
    loadedCount, loadedCount.trans_lt fewer, rfl, leftover⟩

theorem load_save_count_overflow_replicate :
    let binHeavy := { Account.new with bins := List.replicate UInt32.size AccountBin.new }
    binHeavy.keychains.length < UInt32.size ∧
      (∀ bin ∈ binHeavy.bins, bin.keychains.length < UInt32.size) ∧
      UInt32.size ≤ binHeavy.bins.length ∧
      ∃ loaded unread,
        Account.new.load (fun bytes => bytes) (binHeavy.save ++ []) = .ok (loaded, unread ++ []) ∧
        loaded.bins.length = binHeavy.bins.length % UInt32.size ∧
        loaded.bins.length < binHeavy.bins.length ∧
        unread = (binHeavy.bins.drop (binHeavy.bins.length % UInt32.size)).flatMap
          (fun bin => saveObject AccountBin.classVersion bin.save) ∧
        unread ≠ [] := by
  intro binHeavy
  have keychainsCountable : binHeavy.keychains.length < UInt32.size := by decide
  have binKeychains : ∀ bin ∈ binHeavy.bins, bin.keychains.length < UInt32.size := fun bin member => by
    rw [List.eq_of_mem_replicate member]
    decide
  have binsOverflow : UInt32.size ≤ binHeavy.bins.length := (List.length_replicate _ _).ge
  exact ⟨keychainsCountable, binKeychains, binsOverflow,
    load_save_count_overflow (fun bytes => bytes) Account.new binHeavy [] keychainsCountable
      binKeychains binsOverflow⟩

/-! ## Transient secrets -/

/-- An operation applied to every keychain the account reaches, as locking or
unlocking the shared keychain objects does. -/
def mapKeychains (operation : Keychain → Keychain) (account : Account) : Account :=
  { account with
    keychains := account.keychains.map operation,
    bins := account.bins.map (AccountBin.mapKeychains operation) }

/-- The account with the plaintext slots of every keychain it reaches emptied:
its own keychains and those of each bin. -/
def withoutSecrets (account : Account) : Account :=
  account.mapKeychains Keychain.withoutSecrets

theorem mapKeychains_mapKeychains (outer inner : Keychain → Keychain) (account : Account) :
    (account.mapKeychains inner).mapKeychains outer = account.mapKeychains (outer ∘ inner) := by
  simp [mapKeychains, Function.comp_def, AccountBin.mapKeychains_mapKeychains]

/-- An operation that keeps each keychain's archive keeps the account's. -/
theorem save_mapKeychains {operation : Keychain → Keychain}
    (keeps : ∀ keychain, (operation keychain).serializeSave = keychain.serializeSave)
    (account : Account) : (account.mapKeychains operation).save = account.save := by
  simp [mapKeychains, save, List.flatMap_map, Function.comp_def, keeps,
    AccountBin.save_mapKeychains keeps]

@[simp] theorem save_withoutSecrets (account : Account) :
    account.withoutSecrets.save = account.save :=
  save_mapKeychains Keychain.serializeSave_withoutSecrets account

theorem withoutSecrets_mapKeychains {operation : Keychain → Keychain}
    (touches : Keychain.TouchesOnlySecrets operation) (account : Account) :
    (account.mapKeychains operation).withoutSecrets = account.withoutSecrets := by
  rw [withoutSecrets, withoutSecrets, mapKeychains_mapKeychains]
  exact congrArg (mapKeychains · account) (funext touches)

theorem withoutSecrets_updateHash (hash160 : Bytes → Bytes) {account : Account}
    (free : account.withoutSecrets = account) :
    (account.updateHash hash160).withoutSecrets = account.updateHash hash160 := by
  show { account.withoutSecrets with hash := (account.updateHash hash160).hash } = _
  rw [free]
  rfl

/-! ## What every import leaves -/

/-- `updateHash` reads only the members it hashes, so a second run changes
nothing. -/
@[simp] theorem updateHash_updateHash (hash160 : Bytes → Bytes) (account : Account) :
    (account.updateHash hash160).updateHash hash160 = account.updateHash hash160 := rfl

/-- What an account import leaves, whatever stream it accepted: its own
identity, a hash that agrees with its members, visible keychains, bins that
each satisfy the bin invariant and point back at the account, and no plaintext
secret. -/
structure ImportInvariant (hash160 : Bytes → Bytes) (owner : Nat) (account : Account) : Prop where
  id : account.id = owner
  hash : account.updateHash hash160 = account
  visible : ∀ keychain ∈ account.keychains, keychain.hidden = false
  bins : ∀ bin ∈ account.bins, bin.ImportInvariant ∧ bin.account = some owner
  noPlaintext : account.withoutSecrets = account

theorem load_ensures (hash160 : Bytes → Bytes) (target : Account) :
    Ensures (target.load hash160) (ImportInvariant hash160 target.id) := by
  unfold load
  iterate 3 refine Ensures.bind (Ensures.true _) fun _ _ => ?_
  refine Ensures.bind (Ensures.loadSeq (Ensures.loadObject fun _ =>
    Keychain.serializeLoad_new_ensures false) _) fun keychains fresh => ?_
  iterate 3 refine Ensures.bind (Ensures.true _) fun _ _ => ?_
  refine Ensures.bind (Ensures.loadSeq (Ensures.loadObject fun _ =>
    AccountBin.load_ensures AccountBin.new) _) fun bins binsHold => Ensures.pure ?_
  have pointed : ∀ bin ∈ bins.map fun bin => bin.setAccount target.id,
      bin.ImportInvariant ∧ bin.account = some target.id :=
    List.forall_mem_map.mpr fun bin member => ⟨(binsHold bin member).setAccount target.id, rfl⟩
  have keychainsFree := Keychain.map_withoutSecrets_eq fun keychain member => (fresh keychain member).1
  have binsFree : (bins.map fun bin => bin.setAccount target.id).map
      (AccountBin.mapKeychains Keychain.withoutSecrets) = bins.map fun bin => bin.setAccount target.id :=
    (List.map_congr_left fun bin member => (pointed bin member).1.noPlaintext).trans (List.map_id _)
  refine ⟨rfl, rfl, fun keychain member => (fresh keychain member).2, pointed, ?_⟩
  exact withoutSecrets_updateHash hash160
    (by simp only [withoutSecrets, mapKeychains, keychainsFree, binsFree])

/-- Whatever stream it accepts, an account import holds only unlinked
keychains, its own and those of every bin. -/
theorem load_unlinked (hash160 : Bytes → Bytes) (target : Account) :
    Ensures (target.load hash160) fun account =>
      ∀ keychain ∈ account.keychains ++ account.bins.flatMap AccountBin.keychains,
        keychain.Unlinked := by
  unfold load
  iterate 3 refine Ensures.bind (Ensures.true _) fun _ _ => ?_
  refine Ensures.bind (Ensures.loadSeq (Ensures.loadObject fun _ =>
    Keychain.serializeLoad_new_unlinked false) _) fun _ keychainsUnlinked => ?_
  iterate 3 refine Ensures.bind (Ensures.true _) fun _ _ => ?_
  refine Ensures.bind (Ensures.loadSeq (Ensures.loadObject fun _ =>
    AccountBin.load_unlinked AccountBin.new) _) fun bins binsUnlinked => Ensures.pure ?_
  intro keychain member
  rcases List.mem_append.mp member with own | inBin
  · exact keychainsUnlinked keychain own
  · obtain ⟨bin, binMember, keychainMember⟩ := List.mem_flatMap.mp inBin
    obtain ⟨loaded, loadedMember, rfl⟩ := List.mem_map.mp binMember
    exact binsUnlinked loaded loadedMember keychain keychainMember

end Account

/-! ## Account info -/

/-- `AccountInfo`: an immutable summary of an account, with keychain and bin
names as strings. -/
structure AccountInfo where
  id : Nat
  name : String
  minsigs : UInt32
  keychainNames : List String
  unusedPoolSize : UInt32
  timeCreated : UInt32
  binNames : List String
  deriving DecidableEq, Repr

/-- The constructor, which sorts the keychain names with `std::sort`. -/
def AccountInfo.new (id : Nat) (name : String) (minsigs : UInt32) (keychainNames : List String)
    (unusedPoolSize timeCreated : UInt32) (binNames : List String) : AccountInfo :=
  ⟨id, name, minsigs, keychainNames.mergeSort fun left right => decide (left ≤ right),
    unusedPoolSize, timeCreated, binNames⟩

/-- An account info lists the given keychain names in ascending order, each
as often as given, so the list does not depend on the order they came in. -/
theorem AccountInfo.new_keychainNames (id : Nat) (name : String) (minsigs : UInt32)
    (keychainNames : List String) (unusedPoolSize timeCreated : UInt32) (binNames : List String) :
    (AccountInfo.new id name minsigs keychainNames unusedPoolSize timeCreated
        binNames).keychainNames.Sorted (· ≤ ·) ∧
      (AccountInfo.new id name minsigs keychainNames unusedPoolSize timeCreated
        binNames).keychainNames.Perm keychainNames ∧
      ∀ reordered, reordered.Perm keychainNames →
        (AccountInfo.new id name minsigs reordered unusedPoolSize timeCreated binNames).keychainNames =
          (AccountInfo.new id name minsigs keychainNames unusedPoolSize timeCreated
            binNames).keychainNames :=
  ⟨List.sorted_mergeSort' keychainNames, List.mergeSort_perm _ _, fun reordered same =>
    List.eq_of_perm_of_sorted
      ((List.mergeSort_perm _ _).trans (same.trans (List.mergeSort_perm _ _).symm))
      (List.sorted_mergeSort' reordered) (List.sorted_mergeSort' keychainNames)⟩

end CoinVault.CoinDB
