import CoinVault.Archive

/-!
# Keychains

A `Keychain` node of the schema with the members its constructors, copy
constructor and `serialize` touch. Shared pointers to other keychains are held
by identity. The plaintext chain code and private key are transient slots that
the store never persists; only their ciphertexts and salts are archived.
-/

set_option autoImplicit false

namespace CoinVault.CoinDB

open CoinVault.Archive

structure Keychain where
  name : String
  depth : UInt32
  parentFp : UInt32
  childNum : UInt32
  pubkey : Bytes
  /-- Transient plaintext slot. -/
  chainCode : Bytes
  chainCodeCiphertext : Bytes
  chainCodeSalt : Bytes
  /-- Transient plaintext slot. -/
  privkey : Bytes
  privkeyCiphertext : Bytes
  privkeySalt : Bytes
  /-- The parent keychain, by identity. -/
  parent : Option Nat
  derivationPath : List UInt32
  /-- `ripemd160(sha256(pubkey + chain_code))`. -/
  hash : Bytes
  hidden : Bool
  deriving DecidableEq, Repr

namespace Keychain

/-- `BOOST_CLASS_VERSION(CoinDB::Keychain, 1)`. -/
def classVersion : Nat := 1

/-- `Keychain(bool hidden = false)`. The integer members it leaves
uninitialised are written as zero; every use in the schema overwrites them. -/
def new (hidden : Bool) : Keychain where
  name := ""
  depth := 0
  parentFp := 0
  childNum := 0
  pubkey := []
  chainCode := []
  chainCodeCiphertext := []
  chainCodeSalt := []
  privkey := []
  privkeyCiphertext := []
  privkeySalt := []
  parent := none
  derivationPath := []
  hash := []
  hidden := hidden

/-- `Keychain(const Keychain& source)`: the member-initializer list copies every
member but `hash_`, which is left default-constructed. -/
def copy (source : Keychain) : Keychain where
  name := source.name
  depth := source.depth
  parentFp := source.parentFp
  childNum := source.childNum
  pubkey := source.pubkey
  chainCode := source.chainCode
  chainCodeCiphertext := source.chainCodeCiphertext
  chainCodeSalt := source.chainCodeSalt
  privkey := source.privkey
  privkeyCiphertext := source.privkeyCiphertext
  privkeySalt := source.privkeySalt
  parent := source.parent
  derivationPath := source.derivationPath
  hash := []
  hidden := source.hidden

/-- The copy agrees with its source on every member but the hash, which is
empty. -/
theorem copy_eq (source : Keychain) : source.copy = { source with hash := [] } := rfl

def isPrivate (keychain : Keychain) : Bool :=
  !keychain.privkey.isEmpty || !keychain.privkeyCiphertext.isEmpty

def isEncrypted (keychain : Keychain) : Bool :=
  !keychain.privkeySalt.isEmpty

/-! ## Serialization -/

/-- `serialize` on an output archive. -/
def serializeSave (keychain : Keychain) : List Token :=
  [.str keychain.name, .bytes keychain.hash, .u32 keychain.depth, .u32 keychain.parentFp,
    .u32 keychain.childNum, .bytes keychain.pubkey, .bytes keychain.chainCodeCiphertext,
    .bytes keychain.chainCodeSalt, .bytes keychain.privkeyCiphertext,
    .bytes keychain.privkeySalt]

/-- `serialize` on an input archive, into an existing keychain. -/
def serializeLoad (keychain : Keychain) : Load Keychain := do
  let name ← loadStr
  let hash ← loadBytes
  let depth ← loadU32
  let parentFp ← loadU32
  let childNum ← loadU32
  let pubkey ← loadBytes
  let chainCodeCiphertext ← loadBytes
  let chainCodeSalt ← loadBytes
  let privkeyCiphertext ← loadBytes
  let privkeySalt ← loadBytes
  pure { keychain with
    name, hash, depth, parentFp, childNum, pubkey, chainCodeCiphertext, chainCodeSalt,
    privkeyCiphertext, privkeySalt }

/-- The members `serialize` archives, in its order. -/
structure Archived where
  name : String
  hash : Bytes
  depth : UInt32
  parentFp : UInt32
  childNum : UInt32
  pubkey : Bytes
  chainCodeCiphertext : Bytes
  chainCodeSalt : Bytes
  privkeyCiphertext : Bytes
  privkeySalt : Bytes
  deriving DecidableEq, Repr

def archived (keychain : Keychain) : Archived :=
  ⟨keychain.name, keychain.hash, keychain.depth, keychain.parentFp, keychain.childNum,
    keychain.pubkey, keychain.chainCodeCiphertext, keychain.chainCodeSalt,
    keychain.privkeyCiphertext, keychain.privkeySalt⟩

/-- The keychain that reading `source`'s archive into `target` leaves. -/
def withArchived (target : Keychain) (source : Archived) : Keychain :=
  { target with
    name := source.name, hash := source.hash, depth := source.depth,
    parentFp := source.parentFp, childNum := source.childNum, pubkey := source.pubkey,
    chainCodeCiphertext := source.chainCodeCiphertext, chainCodeSalt := source.chainCodeSalt,
    privkeyCiphertext := source.privkeyCiphertext, privkeySalt := source.privkeySalt }

/-- A keychain as an archive imports it: a fresh keychain of the given
visibility holding the archived members. -/
def imported (hidden : Bool) (keychain : Keychain) : Keychain :=
  (new hidden).withArchived keychain.archived

@[simp] theorem archived_withArchived (target : Keychain) (source : Archived) :
    (target.withArchived source).archived = source := rfl

@[simp] theorem hidden_withArchived (target : Keychain) (source : Archived) :
    (target.withArchived source).hidden = target.hidden := rfl

@[simp] theorem archived_imported (hidden : Bool) (keychain : Keychain) :
    (imported hidden keychain).archived = keychain.archived := rfl

@[simp] theorem hidden_imported (hidden : Bool) (keychain : Keychain) :
    (imported hidden keychain).hidden = hidden := rfl

/-- `serialize` reads exactly a keychain's archive and sets exactly the
archived members of the target. -/
theorem serializeLoad_reads (target source : Keychain) :
    ReadsExactly target.serializeLoad source.serializeSave (target.withArchived source.archived) :=
  .cons (.str _) <| .cons (.bytes _) <| .cons (.u32 _) <| .cons (.u32 _) <| .cons (.u32 _) <|
    .cons (.bytes _) <| .cons (.bytes _) <| .cons (.bytes _) <| .cons (.bytes _) <|
    .cons (.bytes _) <| .pure _

@[simp] theorem serializeLoad_serializeSave (target source : Keychain) (rest : List Token) :
    target.serializeLoad (source.serializeSave ++ rest) =
      .ok (target.withArchived source.archived, rest) :=
  (serializeLoad_reads target source).complete rest

/-- A fresh keychain read as a versioned object. -/
theorem loadObject_new_reads (hidden : Bool) (source : Keychain) :
    ReadsExactly (loadObject classVersion fun _ => (new hidden).serializeLoad)
      (saveObject classVersion source.serializeSave) (imported hidden source) :=
  .loadObject (serializeLoad_reads _ _)

/-- Whatever stream it reads, `serialize` writes only the archived members of
its target. -/
theorem serializeLoad_ensures (target : Keychain) :
    Ensures target.serializeLoad fun keychain => ∃ archived, keychain = target.withArchived archived := by
  unfold serializeLoad
  repeat refine Ensures.bind (Ensures.true _) fun _ _ => ?_
  exact Ensures.pure ⟨⟨_, _, _, _, _, _, _, _, _, _⟩, rfl⟩

/-- A keychain outside any hierarchy: no parent pointer and no derivation path. -/
def Unlinked (keychain : Keychain) : Prop :=
  keychain.parent = none ∧ keychain.derivationPath = []

instance : DecidablePred Unlinked := fun _ => inferInstanceAs (Decidable (_ ∧ _))

/-- Neither the parent pointer nor the derivation path is archived: whatever
stream it reads, `serialize` leaves a fresh keychain unlinked. -/
theorem serializeLoad_new_unlinked (hidden : Bool) : Ensures (new hidden).serializeLoad Unlinked :=
  (serializeLoad_ensures (new hidden)).mono fun _ ⟨_, read⟩ => read ▸ ⟨rfl, rfl⟩

/-! ## Transient secrets -/

/-- The keychain with both transient plaintext slots empty. Two keychains with
the same image differ at most in their plaintext chain code and private key. -/
def withoutSecrets (keychain : Keychain) : Keychain :=
  { keychain with chainCode := [], privkey := [] }

/-- Only the ciphertexts and salts of the secrets reach the archive. -/
@[simp] theorem serializeSave_withoutSecrets (keychain : Keychain) :
    keychain.withoutSecrets.serializeSave = keychain.serializeSave := rfl

/-- A fresh keychain holds no plaintext, and reading an archive into it puts
none there and keeps its visibility. -/
theorem serializeLoad_new_ensures (hidden : Bool) :
    Ensures (new hidden).serializeLoad fun keychain =>
      keychain.withoutSecrets = keychain ∧ keychain.hidden = hidden :=
  (serializeLoad_ensures (new hidden)).mono fun _ ⟨_, read⟩ => read ▸ ⟨rfl, rfl⟩

theorem map_withoutSecrets_eq {keychains : List Keychain}
    (free : ∀ keychain ∈ keychains, keychain.withoutSecrets = keychain) :
    keychains.map withoutSecrets = keychains :=
  (List.map_congr_left free).trans (List.map_id keychains)

/-- The two transient secrets of a keychain, each persisted only as a
ciphertext and a salt. -/
inductive Secret where
  | privateKey
  | chainCode
  deriving DecidableEq, Repr

def Secret.ciphertext : Secret → Keychain → Bytes
  | .privateKey, keychain => keychain.privkeyCiphertext
  | .chainCode, keychain => keychain.chainCodeCiphertext

def Secret.salt : Secret → Keychain → Bytes
  | .privateKey, keychain => keychain.privkeySalt
  | .chainCode, keychain => keychain.chainCodeSalt

/-- The keychain with the secret's transient slot holding `plain`. -/
def Secret.setPlaintext : Secret → Keychain → Bytes → Keychain
  | .privateKey, keychain, plain => { keychain with privkey := plain }
  | .chainCode, keychain, plain => { keychain with chainCode := plain }

/-- Modelled from the spec: `lockX()`, declared in the schema with its body
outside it, "zeroes the transient slot". -/
def lockSlot (secret : Secret) (keychain : Keychain) : Keychain :=
  secret.setPlaintext keychain []

/-- Modelled from the spec: `unlockX(lock_key)` "derives the symmetric key and
decrypts into the transient slot". The cipher, keyed by the lock key and the
salt, is a parameter; a failed decryption leaves the keychain as it was. -/
def unlockSlot (secret : Secret) (decrypt : Bytes → Bytes → Bytes → Option Bytes)
    (lockKey : Bytes) (keychain : Keychain) : Bool × Keychain :=
  match decrypt lockKey (secret.salt keychain) (secret.ciphertext keychain) with
  | some plain => (true, secret.setPlaintext keychain plain)
  | none => (false, keychain)

/-- `Keychain::lockPrivateKey`. -/
def lockPrivateKey (keychain : Keychain) : Keychain := lockSlot .privateKey keychain

/-- `Keychain::lockChainCode`. -/
def lockChainCode (keychain : Keychain) : Keychain := lockSlot .chainCode keychain

/-- Modelled from the spec: `Keychain::lockAll` zeroes both transient slots. -/
def lockAll (keychain : Keychain) : Keychain :=
  keychain.lockPrivateKey.lockChainCode

/-- `Keychain::unlockPrivateKey`. -/
def unlockPrivateKey (decrypt : Bytes → Bytes → Bytes → Option Bytes) (lockKey : Bytes)
    (keychain : Keychain) : Bool × Keychain :=
  unlockSlot .privateKey decrypt lockKey keychain

/-- `Keychain::unlockChainCode`. -/
def unlockChainCode (decrypt : Bytes → Bytes → Bytes → Option Bytes) (lockKey : Bytes)
    (keychain : Keychain) : Bool × Keychain :=
  unlockSlot .chainCode decrypt lockKey keychain

/-- An operation on keychains that writes nothing but the transient slots. -/
def TouchesOnlySecrets (operation : Keychain → Keychain) : Prop :=
  ∀ keychain, (operation keychain).withoutSecrets = keychain.withoutSecrets

@[simp] theorem withoutSecrets_setPlaintext (secret : Secret) (keychain : Keychain) (plain : Bytes) :
    (secret.setPlaintext keychain plain).withoutSecrets = keychain.withoutSecrets := by
  cases secret <;> rfl

theorem lockSlot_touchesOnlySecrets (secret : Secret) : TouchesOnlySecrets (lockSlot secret) :=
  fun keychain => withoutSecrets_setPlaintext secret keychain []

/-- Locking or unlocking either secret, whether the decryption succeeds or not,
writes only that secret's transient slot. -/
theorem unlockSlot_touchesOnlySecrets (secret : Secret)
    (decrypt : Bytes → Bytes → Bytes → Option Bytes) (lockKey : Bytes) :
    TouchesOnlySecrets fun keychain => (unlockSlot secret decrypt lockKey keychain).2 := by
  intro keychain
  dsimp only [unlockSlot]
  split
  · exact withoutSecrets_setPlaintext secret keychain _
  · rfl

theorem lockAll_touchesOnlySecrets : TouchesOnlySecrets lockAll := fun _ => rfl

end Keychain

end CoinVault.CoinDB
