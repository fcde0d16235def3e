import CoinVault.CoinDB.Keychain

/-!
# The keychain store

Keychains are held by identity, as the store's shared pointers hold them, and
form a forest through their parent pointers. `Keychain::root()` follows those
pointers with no bound; the model gives the walk fuel and proves exactly when it
returns, that a parent cycle makes it return nothing at any fuel, and that
parent pointers that decrease the depth make it return within the depth. A
`Key` reads whether it is private from its root keychain, and a row of the
keychain view holds the columns the database computes for a stored keychain.
-/

set_option autoImplicit false

namespace CoinVault.CoinDB

/-- The keychains alive, by identity. -/
abbrev KeychainStore := Nat → Option Keychain

namespace Keychain

/-- The parent pointer of the keychain with identity `id`, when that keychain
exists and has one. -/
def parentOf (store : KeychainStore) (id : Nat) : Option Nat :=
  (store id).bind parent

/-- `Keychain::root()`: the keychain itself when it has no parent, and its
parent's root otherwise. The source recursion is unbounded; `fuel` bounds the
number of keychains it visits. -/
def root (store : KeychainStore) : Nat → Nat → Option Nat
  | 0, _ => none
  | fuel + 1, id =>
    match store id with
    | none => none
    | some keychain =>
      match keychain.parent with
      | none => some id
      | some parent => root store fuel parent

/-- The `steps`-th ancestor along parent pointers. -/
def ancestor (store : KeychainStore) : Nat → Nat → Option Nat
  | 0, id => some id
  | steps + 1, id => (parentOf store id).bind (ancestor store steps)

/-- A keychain that exists and has no parent: where `root` stops. -/
def IsRoot (store : KeychainStore) (id : Nat) : Prop :=
  (store id).isSome ∧ parentOf store id = none

instance (store : KeychainStore) (id : Nat) : Decidable (IsRoot store id) :=
  inferInstanceAs (Decidable (_ ∧ _))

/-! ## One step of the walk -/

section Walk

variable {store : KeychainStore}

theorem parentOf_eq_some {id parent : Nat} :
    parentOf store id = some parent ↔
      ∃ keychain, store id = some keychain ∧ keychain.parent = some parent := by
  simp [parentOf, Option.bind_eq_some]

theorem root_of_isRoot {id : Nat} (isRoot : IsRoot store id) (fuel : Nat) :
    root store (fuel + 1) id = some id := by
  obtain ⟨keychain, found⟩ := Option.isSome_iff_exists.mp isRoot.1
  have noParent : keychain.parent = none := by simpa [parentOf, found] using isRoot.2
  simp [root, found, noParent]

theorem root_of_parentOf {id parent : Nat} (hasParent : parentOf store id = some parent)
    (fuel : Nat) : root store (fuel + 1) id = root store fuel parent := by
  obtain ⟨keychain, found, linked⟩ := parentOf_eq_some.mp hasParent
  simp [root, found, linked]

/-- A stored keychain without a parent pointer is a root. -/
theorem isRoot_of_parent_eq_none {id : Nat} {keychain : Keychain} (found : store id = some keychain)
    (noParent : keychain.parent = none) : IsRoot store id :=
  ⟨by simp [found], by simp [parentOf, found, noParent]⟩

theorem root_of_missing {id : Nat} (missing : store id = none) (fuel : Nat) :
    root store fuel id = none := by
  cases fuel <;> simp [root, missing]

/-- A keychain with no parent pointer that is not a root is missing. -/
theorem missing_of_not_isRoot {id : Nat} (notRoot : ¬IsRoot store id)
    (noParent : parentOf store id = none) : store id = none :=
  Option.not_isSome_iff_eq_none.mp fun present => notRoot ⟨present, noParent⟩

theorem ancestor_succ_of_parentOf {id parent : Nat} (hasParent : parentOf store id = some parent)
    (steps : Nat) : ancestor store (steps + 1) id = ancestor store steps parent := by
  simp [ancestor, hasParent]

/-- Past a root there is no ancestor. -/
theorem ancestor_succ_of_isRoot {id : Nat} (isRoot : IsRoot store id) (steps : Nat) :
    ancestor store (steps + 1) id = none := by
  simp [ancestor, isRoot.2]

/-- Walking `first` steps and then `more` steps walks `first + more` steps. -/
theorem ancestor_add (first more id : Nat) :
    ancestor store (first + more) id = (ancestor store first id).bind (ancestor store more) := by
  induction first generalizing id with
  | zero => simp [ancestor]
  | succ first ih =>
    rw [Nat.succ_add, ancestor, ancestor, Option.bind_assoc]
    simp only [ih]

end Walk

/-! ## What the walk returns -/

section Returns

variable {store : KeychainStore}

theorem root_spec {fuel id rootId : Nat} (returned : root store fuel id = some rootId) :
    ∃ steps < fuel, ancestor store steps id = some rootId ∧ IsRoot store rootId := by
  induction fuel generalizing id with
  | zero => simp [root] at returned
  | succ fuel ih =>
    by_cases isRoot : IsRoot store id
    · rw [root_of_isRoot isRoot] at returned
      cases returned
      exact ⟨0, Nat.succ_pos _, rfl, isRoot⟩
    · cases hasParent : parentOf store id with
      | none => simp [root_of_missing (missing_of_not_isRoot isRoot hasParent)] at returned
      | some parent =>
        rw [root_of_parentOf hasParent] at returned
        obtain ⟨steps, within, reached, rootIsRoot⟩ := ih returned
        exact ⟨steps + 1, Nat.succ_lt_succ within,
          (ancestor_succ_of_parentOf hasParent steps).trans reached, rootIsRoot⟩

theorem root_of_ancestor {steps id rootId : Nat} (reached : ancestor store steps id = some rootId)
    (isRoot : IsRoot store rootId) {fuel : Nat} (within : steps < fuel) :
    root store fuel id = some rootId := by
  induction steps generalizing id fuel with
  | zero =>
    cases reached
    obtain ⟨fuel, rfl⟩ : ∃ rest, fuel = rest + 1 := Nat.exists_eq_succ_of_ne_zero (by omega)
    exact root_of_isRoot isRoot fuel
  | succ steps ih =>
    obtain ⟨fuel, rfl⟩ : ∃ rest, fuel = rest + 1 := Nat.exists_eq_succ_of_ne_zero (by omega)
    cases hasParent : parentOf store id with
    | none => simp [ancestor, hasParent] at reached
    | some parent =>
      rw [ancestor_succ_of_parentOf hasParent] at reached
      rw [root_of_parentOf hasParent]
      exact ih reached (Nat.lt_of_succ_lt_succ within)

/-- `Keychain::root()` returns the first keychain without a parent on the parent
chain: with `fuel`, the walk returns `rootId` exactly when `rootId` is a root
reached in fewer than `fuel` steps; it never returns when no root is ever
reached, as on a parent cycle, where the source recursion does not end; and
every keychain on the way has the same root. -/
theorem root_returns_chain_root (store : KeychainStore) :
    (∀ fuel id rootId, root store fuel id = some rootId ↔
        ∃ steps < fuel, ancestor store steps id = some rootId ∧ IsRoot store rootId) ∧
      (∀ id, (∀ fuel, root store fuel id = none) ↔
        ∀ steps ancestorId, ancestor store steps id = some ancestorId →
          ¬IsRoot store ancestorId) ∧
      ∀ fuel id rootId steps ancestorId, root store fuel id = some rootId →
        ancestor store steps id = some ancestorId → root store fuel ancestorId = some rootId := by
  refine ⟨fun fuel id rootId => ⟨root_spec, fun ⟨_, within, reached, isRoot⟩ =>
    root_of_ancestor reached isRoot within⟩, fun id => ⟨?_, ?_⟩, ?_⟩
  · intro never steps ancestorId reached isRoot
    have returned := root_of_ancestor reached isRoot (Nat.lt_succ_self steps)
    rw [never] at returned
    cases returned
  · intro noRoot fuel
    cases returned : root store fuel id with
    | none => rfl
    | some rootId =>
      obtain ⟨steps, -, reached, isRoot⟩ := root_spec returned
      exact absurd isRoot (noRoot steps rootId reached)
  · intro fuel id rootId steps ancestorId returned reachedAncestor
    obtain ⟨total, within, reached, isRoot⟩ := root_spec returned
    rcases Nat.lt_or_ge total steps with past | upTo
    · obtain ⟨more, rfl⟩ := Nat.exists_eq_add_of_lt past
      rw [Nat.add_assoc, ancestor_add, reached] at reachedAncestor
      simp [ancestor_succ_of_isRoot isRoot] at reachedAncestor
    · obtain ⟨more, rfl⟩ := Nat.exists_eq_add_of_le upTo
      rw [ancestor_add, reachedAncestor] at reached
      exact root_of_ancestor reached isRoot (by omega)

/-- Two keychains that are each other's parent: the walk never returns. -/
example :
    root (fun
      | 0 => some { new false with parent := some 1 }
      | 1 => some { new false with parent := some 0 }
      | _ => none) 10 0 = none := by
  decide

/-- Parent pointers lead to existing keychains of smaller depth, as child
derivation sets them. -/
def DepthRanked (store : KeychainStore) : Prop :=
  ∀ id keychain parent, store id = some keychain → keychain.parent = some parent →
    ∃ parentKeychain, store parent = some parentKeychain ∧ parentKeychain.depth < keychain.depth

theorem root_of_depth_lt (ranked : DepthRanked store) :
    ∀ fuel id (keychain : Keychain), store id = some keychain → keychain.depth.toNat < fuel →
      ∃ rootId, root store fuel id = some rootId ∧ IsRoot store rootId
  | 0, _, _, _, short => absurd short (Nat.not_lt_zero _)
  | fuel + 1, id, keychain, found, short => by
    cases linked : keychain.parent with
    | none =>
      have isRoot := isRoot_of_parent_eq_none found linked
      exact ⟨id, root_of_isRoot isRoot fuel, isRoot⟩
    | some parent =>
      obtain ⟨parentKeychain, parentFound, shallower⟩ := ranked id keychain parent found linked
      have hasParent : parentOf store id = some parent := parentOf_eq_some.mpr ⟨_, found, linked⟩
      rw [root_of_parentOf hasParent]
      have shallowerNat : parentKeychain.depth.toNat < keychain.depth.toNat := shallower
      exact root_of_depth_lt ranked fuel parent parentKeychain parentFound (by omega)

/-- On a store whose parent pointers decrease the depth, `Keychain::root()`
returns from every keychain within one step more than its depth, and what it
returns is a keychain without a parent. -/
theorem root_terminates_of_depthRanked (store : KeychainStore) (ranked : DepthRanked store)
    (id : Nat) (keychain : Keychain) (found : store id = some keychain) :
    ∃ rootId, root store (keychain.depth.toNat + 1) id = some rootId ∧ IsRoot store rootId :=
  root_of_depth_lt ranked _ id keychain found (Nat.lt_succ_self _)

theorem root_terminates_of_depthRanked_grandchild :
    let store : KeychainStore := fun
      | 0 => some (new false)
      | 1 => some { new false with depth := 1, parent := some 0 }
      | 2 => some { new false with depth := 2, parent := some 1 }
      | _ => none
    DepthRanked store ∧ ∃ rootId, root store 3 2 = some rootId ∧ IsRoot store rootId := by
  intro store
  have ranked : DepthRanked store := by
    intro id keychain parent found linked
    rcases id with _ | _ | _ | id <;> simp only [store, Option.some.injEq, reduceCtorEq] at found <;>
      subst found <;> cases linked <;> exact ⟨_, rfl, by decide⟩
  exact ⟨ranked, root_terminates_of_depthRanked store ranked 2 _ rfl⟩

end Returns

end Keychain

/-! ## Keys -/

/-- A key of a signing script: the root keychain it is derived from, by
identity, the derivation path and index below it, and its public key. -/
structure Key where
  rootKeychain : Nat
  derivationPath : List UInt32
  index : UInt32
  pubkey : Bytes
  isPrivate : Bool
  deriving DecidableEq, Repr

/-- `Key::updatePrivate()`: the key is private when its root keychain is. The
root keychain pointer is never null in the source; a store without it gives
nothing. -/
def Key.updatePrivate (store : KeychainStore) (key : Key) : Option Key :=
  (store key.rootKeychain).map fun rootKeychain => { key with isPrivate := rootKeychain.isPrivate }

/-! ## The keychain view -/

/-- A row of `KeychainView`. -/
structure KeychainView where
  id : Nat
  name : String
  depth : UInt32
  parentFp : UInt32
  childNum : UInt32
  pubkey : Bytes
  hash : Bytes
  isPrivate : Bool
  isEncrypted : Bool
  isLocked : Bool
  deriving DecidableEq, Repr

/-- The row the view selects for the stored keychain `id`: the columns of the
`Keychain` table, `is_private` and `is_encrypted` computed by the database as
`length(privkey_ciphertext) != 0` and `length(privkey_salt) != 0`, and
`is_locked`, which is transient and set by `KeychainView()`. -/
def KeychainView.ofKeychain (id : Nat) (keychain : Keychain) : KeychainView where
  id := id
  name := keychain.name
  depth := keychain.depth
  parentFp := keychain.parentFp
  childNum := keychain.childNum
  pubkey := keychain.pubkey
  hash := keychain.hash
  isPrivate := keychain.privkeyCiphertext.length != 0
  isEncrypted := keychain.privkeySalt.length != 0
  isLocked := true

end CoinVault.CoinDB
