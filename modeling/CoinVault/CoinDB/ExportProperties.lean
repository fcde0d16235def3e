import CoinVault.CoinDB.Account
import CoinVault.CoinDB.KeychainStore
import Mathlib.Data.List.Forall2

/-!
# Export bundle properties

An exported account or bin imports back losslessly, and what an import accepts
is an export, up to the order of its keychain sets. The bundle carries no
plaintext secret: what is written depends on a keychain only through the
members `Keychain::serialize` archives, which are ciphertexts and public data.
Whatever stream an import accepts, it leaves a well-formed object holding no
plaintext, and keychains that are roots of the keychain forest: the hierarchy
is not exported.
-/

set_option autoImplicit false

namespace CoinVault.CoinDB

open CoinVault.Archive

/-! ## Lossless import -/

/-- What an import of `source` reproduces in `loaded`. Keychain sets are
compared as multisets of their archived members. -/
structure AccountBin.ImportedFrom (loaded source : AccountBin) : Prop where
  name : loaded.name = source.name
  index : loaded.index = source.index
  nextScriptIndex : loaded.nextScriptIndex = source.nextScriptIndex
  minsigs : loaded.minsigs = source.minsigs
  scriptCount : loaded.scriptCount = 0
  transientKeychains : loaded.transientKeychains = loaded.keychains
  keychains : (loaded.keychains.map Keychain.archived).Perm (source.keychains.map Keychain.archived)
  hidden : ∀ keychain ∈ loaded.keychains, keychain.hidden = true

/-- What an import of `source` reproduces in `loaded`: its own members, its
keychains as visible keychains, every bin in order and pointing back at the
account, and the hash the exporting account's members determine. -/
structure Account.ImportedFrom (hash160 : Bytes → Bytes) (loaded source : Account) : Prop where
  name : loaded.name = source.name
  minsigs : loaded.minsigs = source.minsigs
  unusedPoolSize : loaded.unusedPoolSize = source.unusedPoolSize
  timeCreated : loaded.timeCreated = source.timeCreated
  keychains : (loaded.keychains.map Keychain.archived).Perm (source.keychains.map Keychain.archived)
  visible : ∀ keychain ∈ loaded.keychains, keychain.hidden = false
  bins : List.Forall₂ AccountBin.ImportedFrom loaded.bins source.bins
  binAccount : ∀ bin ∈ loaded.bins, bin.account = some loaded.id
  hash : loaded.hash = (source.updateHash hash160).hash

/-- Pointing a bin at its account changes nothing an import reproduces. -/
theorem AccountBin.ImportedFrom.setAccount {loaded source : AccountBin}
    (imported : loaded.ImportedFrom source) (account : Nat) :
    (loaded.setAccount account).ImportedFrom source :=
  ⟨imported.name, imported.index, imported.nextScriptIndex, imported.minsigs,
    imported.scriptCount, imported.transientKeychains, imported.keychains, imported.hidden⟩

theorem Keychain.archived_comp_imported (hidden : Bool) :
    Keychain.archived ∘ Keychain.imported hidden = Keychain.archived := rfl

theorem AccountBin.imported_importedFrom (target source : AccountBin) :
    (target.imported source).ImportedFrom source where
  name := rfl
  index := rfl
  nextScriptIndex := rfl
  minsigs := rfl
  scriptCount := rfl
  transientKeychains := rfl
  keychains := by simp [AccountBin.imported, Keychain.archived_comp_imported]
  hidden := by simp [AccountBin.imported]

theorem Account.imported_importedFrom (hash160 : Bytes → Bytes) (target source : Account) :
    (Account.imported hash160 target source).ImportedFrom hash160 source where
  name := rfl
  minsigs := rfl
  unusedPoolSize := rfl
  timeCreated := rfl
  keychains := by simp [Account.imported, Account.updateHash, Keychain.archived_comp_imported]
  visible := by simp [Account.imported, Account.updateHash]
  bins := by
    simp only [Account.imported, Account.updateHash, List.forall₂_map_left_iff]
    exact List.forall₂_same.mpr fun bin _ =>
      (AccountBin.imported_importedFrom AccountBin.new bin).setAccount target.id
  binAccount := by simp [Account.imported, Account.updateHash, AccountBin.setAccount]
  hash := by
    simp only [Account.imported, Account.updateHash, Account.sortedKeychainHashes, List.map_map]
    rfl

/-- The export codec round-trips: a bin, and an account with all its bins,
read back from their own archive followed by anything consume exactly that
archive and reproduce what they exported. -/
theorem export_round_trip (hash160 : Bytes → Bytes) (binTarget bin : AccountBin)
    (accountTarget account : Account) (rest : List Token)
    (binCountable : bin.keychains.length < UInt32.size)
    (accountCountable : account.Countable) :
    (∃ loaded, binTarget.load (bin.save ++ rest) = .ok (loaded, rest) ∧
        loaded.ImportedFrom bin) ∧
      ∃ loaded, accountTarget.load hash160 (account.save ++ rest) = .ok (loaded, rest) ∧
        loaded.ImportedFrom hash160 account :=
  ⟨⟨_, AccountBin.load_save binTarget bin rest binCountable,
      AccountBin.imported_importedFrom binTarget bin⟩,
    ⟨_, Account.load_save hash160 accountTarget account rest accountCountable,
      Account.imported_importedFrom hash160 accountTarget account⟩⟩

theorem export_round_trip_two_keychains :
    let first := { Keychain.new false with name := "first", pubkey := [2], privkeyCiphertext := [5] }
    let second := { Keychain.new false with name := "second", pubkey := [3], chainCode := [9] }
    let bin := { AccountBin.new.setKeychains [first, second] with
      name := "@default", index := AccountBin.defaultIndex, minsigs := 2 }
    let account := { Account.new with
      name := "vault", minsigs := 2, keychains := [first, second], bins := [bin] }
    bin.keychains.length < UInt32.size ∧ account.Countable ∧
      (∃ loaded, AccountBin.new.load (bin.save ++ []) = .ok (loaded, []) ∧
          loaded.ImportedFrom bin) ∧
        ∃ loaded, Account.new.load id (account.save ++ []) = .ok (loaded, []) ∧
          loaded.ImportedFrom id account := by
  intro first second bin account
  have binCountable : bin.keychains.length < UInt32.size := by decide
  have countable : account.Countable :=
    ⟨by decide, by decide, by simp [account, bin, AccountBin.setKeychains, UInt32.size]⟩
  exact ⟨binCountable, countable,
    export_round_trip id AccountBin.new bin Account.new account [] binCountable countable⟩

/-! ## What an import accepts -/

/-- Exports never read the plaintext slots: two keychains, bins or accounts
that differ only there archive identically, and so does an account before and
after an operation, such as locking or unlocking, that writes only those slots
of its keychains. -/
theorem export_independent_of_plaintext :
    (∀ keychain other : Keychain, keychain.withoutSecrets = other.withoutSecrets →
        keychain.serializeSave = other.serializeSave) ∧
      (∀ bin other : AccountBin, bin.withoutSecrets = other.withoutSecrets →
        bin.save = other.save) ∧
      (∀ account other : Account, account.withoutSecrets = other.withoutSecrets →
        account.save = other.save) ∧
      ∀ (account : Account) (operation : Keychain → Keychain),
        Keychain.TouchesOnlySecrets operation →
          (account.mapKeychains operation).save = account.save := by
  refine ⟨fun keychain other same => ?_, fun bin other same => ?_,
    fun account other same => ?_, fun account operation touches => ?_⟩
  · rw [← keychain.serializeSave_withoutSecrets, same, other.serializeSave_withoutSecrets]
  · rw [← bin.save_withoutSecrets, same, other.save_withoutSecrets]
  · rw [← account.save_withoutSecrets, same, other.save_withoutSecrets]
  · rw [← Account.save_withoutSecrets, Account.withoutSecrets_mapKeychains touches,
      Account.save_withoutSecrets]

theorem export_independent_of_plaintext_unlocked :
    let locked := Keychain.new false
    let unlocked := { locked with chainCode := [9], privkey := [7] }
    let lockedBin := AccountBin.new.setKeychains [locked]
    let unlockedBin := AccountBin.new.setKeychains [unlocked]
    let lockedAccount := { Account.new with keychains := [locked], bins := [lockedBin] }
    let unlockedAccount := { Account.new with keychains := [unlocked], bins := [unlockedBin] }
    (unlocked.withoutSecrets = locked.withoutSecrets ∧
        unlocked.serializeSave = locked.serializeSave) ∧
      (unlockedBin.withoutSecrets = lockedBin.withoutSecrets ∧
        unlockedBin.save = lockedBin.save) ∧
      (unlockedAccount.withoutSecrets = lockedAccount.withoutSecrets ∧
        unlockedAccount.save = lockedAccount.save) ∧
      Keychain.TouchesOnlySecrets Keychain.lockAll ∧
        (unlockedAccount.mapKeychains Keychain.lockAll).save = unlockedAccount.save :=
  ⟨⟨rfl, export_independent_of_plaintext.1 _ _ rfl⟩,
    ⟨rfl, export_independent_of_plaintext.2.1 _ _ rfl⟩,
    ⟨rfl, export_independent_of_plaintext.2.2.1 _ _ rfl⟩,
    Keychain.lockAll_touchesOnlySecrets,
    export_independent_of_plaintext.2.2.2 _ _ Keychain.lockAll_touchesOnlySecrets⟩

/-! ## What every import leaves -/

/-- Whatever stream an import accepts, it leaves a well-formed bin or account:
no script counted yet, keychains of the right visibility, every bin pointing back
at the account, a hash that agrees with the members, and no plaintext secret in
any keychain reached. -/
theorem import_well_formed (hash160 : Bytes → Bytes) (binTarget : AccountBin)
    (accountTarget : Account) :
    (∀ tokens loaded rest, binTarget.load tokens = .ok (loaded, rest) → loaded.ImportInvariant) ∧
      ∀ tokens loaded rest, accountTarget.load hash160 tokens = .ok (loaded, rest) →
        loaded.ImportInvariant hash160 accountTarget.id :=
  ⟨AccountBin.load_ensures binTarget, Account.load_ensures hash160 accountTarget⟩

theorem import_well_formed_unlocked :
    let unlocked := { Keychain.new false with chainCode := [9], privkey := [7] }
    let bin := AccountBin.new.setKeychains [unlocked]
    let account := { Account.new with keychains := [unlocked], bins := [bin] }
    (AccountBin.new.load (bin.save ++ []) = .ok (AccountBin.new.imported bin, []) ∧
        (AccountBin.new.imported bin).ImportInvariant) ∧
      Account.new.load id (account.save ++ []) = .ok (Account.imported id Account.new account, []) ∧
        (Account.imported id Account.new account).ImportInvariant id Account.new.id := by
  intro unlocked bin account
  have binRead := AccountBin.load_save AccountBin.new bin [] (by decide)
  have accountRead := Account.load_save id Account.new account [] ⟨by decide, by decide,
    by simp [account, bin, AccountBin.setKeychains, UInt32.size]⟩
  exact ⟨⟨binRead, (import_well_formed id AccountBin.new Account.new).1 _ _ _ binRead⟩,
    accountRead, (import_well_formed id AccountBin.new Account.new).2 _ _ _ accountRead⟩

/-! ## The keychain forest after an import -/

/-- An unlinked keychain is a root wherever a store holds it. -/
theorem Keychain.root_of_unlinked {keychain : Keychain} (unlinked : keychain.Unlinked)
    {store : KeychainStore} {id : Nat} (found : store id = some keychain) (fuel : Nat) :
    Keychain.root store (fuel + 1) id = some id :=
  Keychain.root_of_isRoot (Keychain.isRoot_of_parent_eq_none found unlinked.1) fuel

/-- An import does not restore the keychain hierarchy. The parent pointer and
the derivation path are not archived, so whatever stream the import of a bin
or of an account accepts, every keychain it holds has neither, and on any store
that holds it, `Keychain::root()` returns that keychain itself at once,
whatever parent the exported keychain had. -/
theorem import_keychains_are_roots (hash160 : Bytes → Bytes) (binTarget : AccountBin)
    (accountTarget : Account) :
    (∀ tokens loaded rest, binTarget.load tokens = .ok (loaded, rest) →
        ∀ keychain ∈ loaded.keychains, keychain.Unlinked ∧
          ∀ (store : KeychainStore) id fuel, store id = some keychain →
            Keychain.root store (fuel + 1) id = some id) ∧
      ∀ tokens loaded rest, accountTarget.load hash160 tokens = .ok (loaded, rest) →
        ∀ keychain ∈ loaded.keychains ++ loaded.bins.flatMap AccountBin.keychains,
          keychain.Unlinked ∧ ∀ (store : KeychainStore) id fuel, store id = some keychain →
            Keychain.root store (fuel + 1) id = some id := by
  refine ⟨fun tokens loaded rest read keychain member => ?_,
    fun tokens loaded rest read keychain member => ?_⟩
  · have unlinked := AccountBin.load_unlinked binTarget tokens loaded rest read keychain member
    exact ⟨unlinked, fun _ _ fuel found => Keychain.root_of_unlinked unlinked found fuel⟩
  · have unlinked := Account.load_unlinked hash160 accountTarget tokens loaded rest read keychain member
    exact ⟨unlinked, fun _ _ fuel found => Keychain.root_of_unlinked unlinked found fuel⟩

theorem import_keychains_are_roots_derived :
    let derived := { Keychain.new false with depth := 1, parent := some 0, derivationPath := [7] }
    let bin := AccountBin.new.setKeychains [derived]
    derived.parent = some 0 ∧
      ∃ loaded, AccountBin.new.load (bin.save ++ []) = .ok (loaded, []) ∧ loaded.keychains ≠ [] ∧
        ∀ keychain ∈ loaded.keychains, keychain.Unlinked ∧
          ∀ (store : KeychainStore) id fuel, store id = some keychain →
            Keychain.root store (fuel + 1) id = some id := by
  intro derived bin
  have read := AccountBin.load_save AccountBin.new bin [] (by decide)
  exact ⟨rfl, _, read, List.cons_ne_nil _ _,
    (import_keychains_are_roots id AccountBin.new Account.new).1 _ _ _ read⟩

end CoinVault.CoinDB
