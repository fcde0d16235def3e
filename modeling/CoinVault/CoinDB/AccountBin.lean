import CoinVault.CoinDB.Keychain

/-!
# Account bins

An `AccountBin` is a derivation branch of an account. Its keychain set is
stored for imported bins and otherwise loaded into a transient copy. A
`std::set` of shared pointers is iterated in pointer order, which the model
takes as the order of its list; only the multiset of keychains is meaningful.
-/

set_option autoImplicit false

namespace CoinVault.CoinDB

open CoinVault.Archive

structure AccountBin where
  /-- The owning account, by identity. -/
  account : Option Nat
  index : UInt32
  name : String
  scriptCount : UInt32
  nextScriptIndex : UInt32
  minsigs : UInt32
  /-- `keychains_`, stored only for imported bins: a `KeychainSet`, listed in
  the order `save` iterates it. -/
  keychains : List Keychain
  /-- `keychains__`, the transient set that `keychains()` returns. -/
  transientKeychains : List Keychain
  /-- `ripemd160(sha256(minsigs byte ++ sorted keychain hashes))`. -/
  hash : Bytes
  deriving DecidableEq, Repr

namespace AccountBin

/-- `BOOST_CLASS_VERSION(CoinDB::AccountBin, 1)`. -/
def classVersion : Nat := 1

def changeIndex : UInt32 := 1

def defaultIndex : UInt32 := 2

/-- `AccountBin()`. Members it leaves uninitialised are written as zero. -/
def new : AccountBin where
  account := none
  index := 0
  name := ""
  scriptCount := 0
  nextScriptIndex := 0
  minsigs := 0
  keychains := []
  transientKeychains := []
  hash := []

/-- `AccountBin(const AccountBin& source)`: as for keychains, `hash_` is not in
the member-initializer list. -/
def copy (source : AccountBin) : AccountBin where
  account := source.account
  index := source.index
  name := source.name
  scriptCount := source.scriptCount
  nextScriptIndex := source.nextScriptIndex
  minsigs := source.minsigs
  keychains := source.keychains
  transientKeychains := source.transientKeychains
  hash := []

/-- The copy agrees with its source on every member but the hash, which is
empty. -/
theorem copy_eq (source : AccountBin) : source.copy = { source with hash := [] } := rfl

/-- A keychain and a bin whose hash has been computed lose it when copied, so
the copied keychain also archives differently. -/
theorem copy_drops_hash :
    (Keychain.copy { Keychain.new false with hash := List.replicate 20 7 }).hash ≠
        List.replicate 20 7 ∧
      (Keychain.copy { Keychain.new false with hash := List.replicate 20 7 }).serializeSave ≠
        Keychain.serializeSave { Keychain.new false with hash := List.replicate 20 7 } ∧
      (copy { AccountBin.new with hash := List.replicate 20 7 }).hash ≠ List.replicate 20 7 := by
  decide

/-- The setter `keychains(const KeychainSet&)`, used for imported bins. -/
def setKeychains (bin : AccountBin) (keychains : List Keychain) : AccountBin :=
  { bin with keychains, transientKeychains := keychains }

/-- The setter `account(std::shared_ptr<Account>)`. -/
def setAccount (bin : AccountBin) (account : Nat) : AccountBin :=
  { bin with account := some account }

def isChange (bin : AccountBin) : Bool := bin.index == changeIndex

def isDefault (bin : AccountBin) : Bool := bin.index == defaultIndex

/-! ## Serialization -/

def save (bin : AccountBin) : List Token :=
  [.str bin.name, .u32 bin.index, .u32 bin.nextScriptIndex, .u32 bin.minsigs,
    .u32 (UInt32.ofNat bin.keychains.length)] ++
    bin.keychains.flatMap fun keychain => saveObject Keychain.classVersion keychain.serializeSave

/-- Loaded keychains are constructed hidden. -/
def loadKeychain : Load Keychain :=
  loadObject Keychain.classVersion fun _ => (Keychain.new true).serializeLoad

/-- `load`. The loaded `KeychainSet` is listed in archive order; the
`std::set<std::shared_ptr<Keychain>>` it fills iterates by pointer address, so
results on the order of a loaded set are stated up to a permutation. -/
def load (bin : AccountBin) : Load AccountBin := do
  let name ← loadStr
  let index ← loadU32
  let nextScriptIndex ← loadU32
  let minsigs ← loadU32
  let n ← loadU32
  let keychains ← loadSeq loadKeychain n.toNat
  pure { bin with
    name, index, nextScriptIndex, minsigs, keychains, transientKeychains := keychains,
    scriptCount := 0 }

/-- The bin that reading `source`'s archive into `target` leaves. -/
def imported (target source : AccountBin) : AccountBin :=
  let keychains := source.keychains.map (Keychain.imported true)
  { target with
    name := source.name, index := source.index, nextScriptIndex := source.nextScriptIndex,
    minsigs := source.minsigs, keychains, transientKeychains := keychains, scriptCount := 0 }

theorem loadKeychain_reads (keychain : Keychain) :
    ReadsExactly loadKeychain (saveObject Keychain.classVersion keychain.serializeSave)
      (Keychain.imported true keychain) :=
  Keychain.loadObject_new_reads true keychain

/-- A bin with fewer than `UInt32.size = 2 ^ 32` keychains is read exactly from
its own archive. -/
theorem load_reads (target source : AccountBin) (bounded : source.keychains.length < UInt32.size) :
    ReadsExactly target.load source.save (target.imported source) :=
  .cons (.str _) <| .cons (.u32 _) <| .cons (.u32 _) <| .cons (.u32 _) <| .cons (.u32 _) <|
    (ReadsExactly.loadSeq (fun keychain _ => loadKeychain_reads keychain)
      (UInt32.toNat_ofNat_of_lt bounded)).map _

theorem load_save (target source : AccountBin) (rest : List Token)
    (bounded : source.keychains.length < UInt32.size) :
    target.load (source.save ++ rest) = .ok (target.imported source, rest) :=
  (load_reads target source bounded).complete rest

/-- The keychain count is written as a `uint32_t`: reading a bin's archive
takes its first `count % 2 ^ 32` keychains and leaves the others unread. -/
theorem load_save_eq (target source : AccountBin) (rest : List Token) :
    target.load (source.save ++ rest) =
      .ok (target.imported
          { source with keychains := source.keychains.take (source.keychains.length % UInt32.size) },
        (source.keychains.drop (source.keychains.length % UInt32.size)).flatMap
          (fun keychain => saveObject Keychain.classVersion keychain.serializeSave) ++ rest) := by
  have count : (UInt32.ofNat source.keychains.length).toNat =
      source.keychains.length % UInt32.size := rfl
  have loop := loadSeq_flatMap_take loadKeychain _ _ source.keychains
    (fun keychain _ => (loadKeychain_reads keychain).complete) (source.keychains.length % UInt32.size)
    (Nat.mod_le _ _) rest
  simp only [load, save, List.cons_append, List.nil_append, List.append_assoc, bind, StateT.bind,
    Except.bind, loadStr, loadU32, loadPrimitive, count, loop]
  rfl

/-- `other` is `bin` with its keychain sets, stored and transient, listed in
another order, as the pointer-ordered `std::set` may iterate them. -/
structure Reordered (bin other : AccountBin) : Prop where
  keychains : other.keychains.Perm bin.keychains
  transientKeychains : other.transientKeychains.Perm bin.transientKeychains
  rest : { other with
    keychains := bin.keychains, transientKeychains := bin.transientKeychains } = bin

theorem Reordered.refl (bin : AccountBin) : bin.Reordered bin := ⟨.refl _, .refl _, rfl⟩

/-- A bin with `2 ^ 32` keychains or more does not survive its own export:
reading the archive back yields only the first `count % 2 ^ 32` keychains
`save` wrote, in some order, and leaves the records of the others, at least
one, unread. -/
theorem load_save_overflow (target source : AccountBin) (rest : List Token)
    (overflowing : UInt32.size ≤ source.keychains.length) :
    ∃ loaded unread, target.load (source.save ++ rest) = .ok (loaded, unread ++ rest) ∧
      loaded.keychains.length = source.keychains.length % UInt32.size ∧
      loaded.keychains.length < source.keychains.length ∧
      (loaded.keychains.map Keychain.archived).Perm
        ((source.keychains.take (source.keychains.length % UInt32.size)).map Keychain.archived) ∧
      unread = (source.keychains.drop (source.keychains.length % UInt32.size)).flatMap
        (fun keychain => saveObject Keychain.classVersion keychain.serializeSave) ∧
      unread ≠ [] := by
  obtain ⟨kept, fewer, leftover⟩ := count_wraps overflowing
    (fun keychain => saveObject Keychain.classVersion keychain.serializeSave)
    fun _ => List.cons_ne_nil _ _
  have loadedCount := (List.length_map _ (Keychain.imported true)).trans kept
  exact ⟨_, _, load_save_eq target source rest, loadedCount, loadedCount.trans_lt fewer,
    by simp [imported, Function.comp_def, List.Perm.refl], rfl, leftover⟩

theorem load_save_overflow_replicate :
    let source := AccountBin.new.setKeychains (List.replicate UInt32.size (Keychain.new false))
    UInt32.size ≤ source.keychains.length ∧
      ∃ loaded unread, AccountBin.new.load (source.save ++ []) = .ok (loaded, unread ++ []) ∧
        loaded.keychains.length = source.keychains.length % UInt32.size ∧
        loaded.keychains.length < source.keychains.length ∧
        (loaded.keychains.map Keychain.archived).Perm
          ((source.keychains.take (source.keychains.length % UInt32.size)).map Keychain.archived) ∧
        unread = (source.keychains.drop (source.keychains.length % UInt32.size)).flatMap
          (fun keychain => saveObject Keychain.classVersion keychain.serializeSave) ∧
        unread ≠ [] :=
  have overflowing : UInt32.size ≤ (List.replicate UInt32.size (Keychain.new false)).length :=
    (List.length_replicate _ _).ge
  ⟨overflowing, load_save_overflow _ _ [] overflowing⟩

/-! ## Transient secrets -/

/-- An operation applied to every keychain the bin holds. -/
def mapKeychains (operation : Keychain → Keychain) (bin : AccountBin) : AccountBin :=
  { bin with
    keychains := bin.keychains.map operation,
    transientKeychains := bin.transientKeychains.map operation }

/-- The bin with the plaintext slots of each of its keychains emptied. -/
def withoutSecrets (bin : AccountBin) : AccountBin :=
  bin.mapKeychains Keychain.withoutSecrets

theorem mapKeychains_mapKeychains (outer inner : Keychain → Keychain) (bin : AccountBin) :
    (bin.mapKeychains inner).mapKeychains outer = bin.mapKeychains (outer ∘ inner) := by
  simp [mapKeychains]

theorem withoutSecrets_setAccount (bin : AccountBin) (account : Nat) :
    (bin.setAccount account).withoutSecrets = bin.withoutSecrets.setAccount account := rfl

/-- An operation that keeps each keychain's archive keeps the bin's. -/
theorem save_mapKeychains {operation : Keychain → Keychain}
    (keeps : ∀ keychain, (operation keychain).serializeSave = keychain.serializeSave)
    (bin : AccountBin) : (bin.mapKeychains operation).save = bin.save := by
  simp [mapKeychains, save, List.flatMap_map, Function.comp_def, keeps]

@[simp] theorem save_withoutSecrets (bin : AccountBin) : bin.withoutSecrets.save = bin.save :=
  save_mapKeychains Keychain.serializeSave_withoutSecrets bin

theorem withoutSecrets_mapKeychains {operation : Keychain → Keychain}
    (touches : Keychain.TouchesOnlySecrets operation) (bin : AccountBin) :
    (bin.mapKeychains operation).withoutSecrets = bin.withoutSecrets := by
  rw [withoutSecrets, withoutSecrets, mapKeychains_mapKeychains]
  exact congrArg (mapKeychains · bin) (funext touches)

/-! ## What every import leaves -/

/-- What a bin import leaves, whatever stream it accepted: no script counted
yet, the transient keychain set equal to the stored one, every keychain hidden,
and no plaintext secret. -/
structure ImportInvariant (bin : AccountBin) : Prop where
  scriptCount : bin.scriptCount = 0
  transientKeychains : bin.transientKeychains = bin.keychains
  hidden : ∀ keychain ∈ bin.keychains, keychain.hidden = true
  noPlaintext : bin.withoutSecrets = bin

theorem ImportInvariant.setAccount {bin : AccountBin} (invariant : bin.ImportInvariant)
    (account : Nat) : (bin.setAccount account).ImportInvariant where
  scriptCount := invariant.scriptCount
  transientKeychains := invariant.transientKeychains
  hidden := invariant.hidden
  noPlaintext := by rw [withoutSecrets_setAccount, invariant.noPlaintext]

theorem load_ensures (target : AccountBin) : Ensures target.load ImportInvariant := by
  unfold load
  iterate 5 refine Ensures.bind (Ensures.true _) fun _ _ => ?_
  refine Ensures.bind (Ensures.loadSeq (Ensures.loadObject fun _ =>
    Keychain.serializeLoad_new_ensures true) _) fun keychains fresh => Ensures.pure ?_
  have free := Keychain.map_withoutSecrets_eq fun keychain member => (fresh keychain member).1
  exact ⟨rfl, rfl, fun keychain member => (fresh keychain member).2, by simp [withoutSecrets, mapKeychains, free]⟩

/-- Whatever stream it accepts, a bin import holds only unlinked keychains. -/
theorem load_unlinked (target : AccountBin) :
    Ensures target.load fun bin => ∀ keychain ∈ bin.keychains, keychain.Unlinked := by
  unfold load
  iterate 5 refine Ensures.bind (Ensures.true _) fun _ _ => ?_
  exact Ensures.bind (Ensures.loadSeq (Ensures.loadObject fun _ =>
    Keychain.serializeLoad_new_unlinked true) _) fun _ unlinked => Ensures.pure unlinked

end AccountBin

end CoinVault.CoinDB
