import CoinVault.CoinDB.Tx
import Mathlib.Data.String.Basic
import Mathlib.Data.List.Nodup

/-!
# Transaction output views

A `TxOutView` row joins an output to its transaction, block, sending and
receiving accounts, bin and signing script. `updateRole` records which sides
of the transfer the vault takes part in, and `getSplitRoles` splits a row into
one single-role view per side, optionally filtered by account name.
-/

set_option autoImplicit false

namespace CoinVault.CoinDB

open TxOut (RoleT)

namespace SigningScript

inductive StatusT where
  | none
  | unused
  | change
  | issued
  | used
  | all
  deriving DecidableEq, Repr

end SigningScript

/-- `const std::string EMPTY_STRING = ""`. -/
def emptyString : String := ""

/-- A row of the output view. Ids of absent joined objects read as zero. -/
structure TxOutView where
  sendingAccountId : Nat
  sendingAccountName : String
  receivingAccountId : Nat
  receivingAccountName : String
  accountBinId : Nat
  accountBinName : String
  signingscriptId : Nat
  signingscriptLabel : String
  signingscriptStatus : SigningScript.StatusT
  signingscriptTxinscript : Bytes
  script : Bytes
  value : UInt64
  status : TxOut.StatusT
  /-- Transient `int`, set by `updateRole`. -/
  roleFlags : BitVec 32
  sendingLabel : String
  receivingLabel : String
  txId : Nat
  txUnsignedHash : Bytes
  txHash : Bytes
  txTimestamp : UInt32
  txStatus : Tx.StatusT
  txIndex : UInt32
  haveFee : Bool
  fee : UInt64
  height : UInt32
  deriving DecidableEq, Repr

namespace TxOutView

/-- `TxOutView(const TxOutView& source, TxOut::role_t role)`: a copy of the
source with the given role. -/
def withRole (source : TxOutView) (role : RoleT) : TxOutView :=
  { source with roleFlags := role.toInt }

/-- `updateRole(int flags = ROLE_BOTH)`: the role flags become the roles whose
account is known, masked by `flags`. -/
def updateRole (view : TxOutView) (flags : BitVec 32) : TxOutView :=
  let roleFlags := RoleT.roleNone.toInt
  let roleFlags :=
    if view.sendingAccountId ≠ 0 then roleFlags ||| RoleT.roleSender.toInt else roleFlags
  let roleFlags :=
    if view.receivingAccountId ≠ 0 then roleFlags ||| RoleT.roleReceiver.toInt else roleFlags
  { view with roleFlags := roleFlags &&& flags }

def roleAccount (view : TxOutView) : String :=
  if view.roleFlags = RoleT.roleSender.toInt then view.sendingAccountName
  else if view.roleFlags = RoleT.roleReceiver.toInt then view.receivingAccountName
  else emptyString

def roleBin (view : TxOutView) : String :=
  if view.roleFlags = RoleT.roleReceiver.toInt then view.accountBinName else emptyString

def roleLabel (view : TxOutView) : String :=
  if view.roleFlags = RoleT.roleSender.toInt then view.sendingLabel
  else if view.roleFlags = RoleT.roleReceiver.toInt then view.receivingLabel
  else emptyString

/-- The test `getSplitRoles` makes for each role: the role flags have the
role's bit, and the account filter is empty or names the role's account. -/
def splitsRole (view : TxOutView) (role : RoleT) (roleAccountName accountName : String) : Bool :=
  (view.roleFlags &&& role.toInt != 0) && (accountName.isEmpty || accountName == roleAccountName)

/-- `getSplitRoles(first = ROLE_RECEIVER, account_name = "")`. -/
def getSplitRoles (view : TxOutView) (first : RoleT) (accountName : String) :
    List TxOutView :=
  let splitViews : List TxOutView := []
  let splitViews :=
    if view.splitsRole .roleReceiver view.receivingAccountName accountName then
      splitViews ++ [view.withRole .roleReceiver]
    else splitViews
  let splitViews :=
    if view.splitsRole .roleSender view.sendingAccountName accountName then
      splitViews ++ [view.withRole .roleSender]
    else splitViews
  if first = .roleSender then splitViews.reverse else splitViews

/-! ## Sides of a transfer -/

/-- The two single roles a view is split into. -/
inductive Side where
  | receiver
  | sender
  deriving DecidableEq, Repr

def Side.role : Side → RoleT
  | .receiver => .roleReceiver
  | .sender => .roleSender

/-- The position of the side's role bit in a role mask. -/
def Side.bit : Side → Nat
  | .receiver => 1
  | .sender => 0

def accountIdOf (view : TxOutView) : Side → Nat
  | .receiver => view.receivingAccountId
  | .sender => view.sendingAccountId

def accountNameOf (view : TxOutView) : Side → String
  | .receiver => view.receivingAccountName
  | .sender => view.sendingAccountName

def labelOf (view : TxOutView) : Side → String
  | .receiver => view.receivingLabel
  | .sender => view.sendingLabel

/-- A side splits out of a view when the role mask has its bit, the vault's
account on that side is known, and the account filter is empty or names it. -/
def SplitsOut (view : TxOutView) (flags : BitVec 32) (accountName : String) (side : Side) :
    Prop :=
  flags.getLsbD side.bit = true ∧ view.accountIdOf side ≠ 0 ∧
    (accountName = "" ∨ accountName = view.accountNameOf side)

instance (view : TxOutView) (flags : BitVec 32) (accountName : String) :
    DecidablePred (view.SplitsOut flags accountName) :=
  fun _ => inferInstanceAs (Decidable (_ ∧ _ ∧ _))

/-- The sides that split out, the receiver first unless the sender is asked
for first. -/
def splitSides (view : TxOutView) (flags : BitVec 32) (first : RoleT) (accountName : String) :
    List Side :=
  let sides := [Side.receiver, Side.sender].filter fun side => view.SplitsOut flags accountName side
  if first = .roleSender then sides.reverse else sides

/-! ## Splitting -/

theorem Side.toInt_role (side : Side) : side.role.toInt = BitVec.twoPow 32 side.bit := by
  cases side <;> decide

/-- A mask meets a single-bit role exactly when it has that bit. -/
theorem and_twoPow_ne_zero (flags : BitVec 32) {bit : Nat} (inRange : bit < 32) :
    flags &&& BitVec.twoPow 32 bit ≠ 0 ↔ flags.getLsbD bit = true := by
  constructor
  · intro nonzero
    by_contra unset
    refine nonzero (BitVec.eq_of_getLsbD_eq fun position => ?_)
    by_cases same : bit = position
    · subst same
      simpa [BitVec.getLsbD_and] using unset
    · simp [BitVec.getLsbD_and, BitVec.getLsbD_twoPow, same]
  · intro set zero
    have atBit := congrArg (BitVec.getLsbD · bit) zero
    simp [BitVec.getLsbD_and, BitVec.getLsbD_twoPow, inRange, set] at atBit

/-- After `updateRole flags`, the role flags meet a side's role exactly when
the mask has the side's bit and the side's account is known. -/
theorem updateRole_meets (view : TxOutView) (flags : BitVec 32) (side : Side) :
    (view.updateRole flags).roleFlags &&& side.role.toInt ≠ 0 ↔
      flags.getLsbD side.bit = true ∧ view.accountIdOf side ≠ 0 := by
  have bitInRange : side.bit < 32 := by cases side <;> decide
  rw [← and_twoPow_ne_zero flags bitInRange, ← Side.toInt_role]
  simp only [updateRole, ne_eq]
  cases side <;> by_cases sending : view.sendingAccountId = 0 <;>
    by_cases receiving : view.receivingAccountId = 0 <;>
    simp [sending, receiving, accountIdOf, Side.role, RoleT.toInt, BitVec.and_comm _ flags,
      BitVec.and_assoc]

@[simp] theorem withRole_updateRole (view : TxOutView) (flags : BitVec 32) (role : RoleT) :
    (view.updateRole flags).withRole role = view.withRole role := rfl

@[simp] theorem accountNameOf_updateRole (view : TxOutView) (flags : BitVec 32) (side : Side) :
    (view.updateRole flags).accountNameOf side = view.accountNameOf side := by
  cases side <;> rfl

/-- `getSplitRoles` keeps, in order, the sides whose test passes, reversed
when the sender comes first. -/
theorem getSplitRoles_eq (view : TxOutView) (first : RoleT) (accountName : String) :
    view.getSplitRoles first accountName =
      (let sides := [Side.receiver, Side.sender].filter fun side =>
          view.splitsRole side.role (view.accountNameOf side) accountName
        if first = .roleSender then sides.reverse else sides).map
        fun side => view.withRole side.role := by
  simp only [getSplitRoles, List.filter, Side.role, accountNameOf]
  cases view.splitsRole .roleReceiver view.receivingAccountName accountName <;>
    cases view.splitsRole .roleSender view.sendingAccountName accountName <;> split <;> rfl

/-- After `updateRole flags`, a side passes the test exactly when it splits
out. -/
theorem splitsRole_updateRole (view : TxOutView) (flags : BitVec 32) (accountName : String)
    (side : Side) :
    (view.updateRole flags).splitsRole side.role (view.accountNameOf side) accountName =
      decide (view.SplitsOut flags accountName side) := by
  rw [Bool.eq_iff_iff]
  simp only [splitsRole, Bool.and_eq_true, bne_iff_ne, Bool.or_eq_true, String.isEmpty_iff,
    beq_iff_eq, decide_eq_true_eq, updateRole_meets, SplitsOut, and_assoc]

/-- Splitting a view after `updateRole flags` yields one view per side that
splits out, each the view itself with that side's single role. -/
theorem getSplitRoles_updateRole (view : TxOutView) (flags : BitVec 32) (first : RoleT)
    (accountName : String) :
    (view.updateRole flags).getSplitRoles first accountName =
      (view.splitSides flags first accountName).map fun side => view.withRole side.role := by
  simp only [getSplitRoles_eq, accountNameOf_updateRole, withRole_updateRole,
    splitsRole_updateRole, splitSides]

theorem mem_splitSides (view : TxOutView) (flags : BitVec 32) (first : RoleT)
    (accountName : String) (side : Side) :
    side ∈ view.splitSides flags first accountName ↔ view.SplitsOut flags accountName side := by
  unfold splitSides
  split <;> cases side <;> simp

theorem nodup_splitSides (view : TxOutView) (flags : BitVec 32) (first : RoleT)
    (accountName : String) : (view.splitSides flags first accountName).Nodup := by
  have sides : [Side.receiver, Side.sender].Nodup := by decide
  unfold splitSides
  split
  · exact List.nodup_reverse.mpr (sides.filter _)
  · exact sides.filter _

theorem splitSides_of_both (view : TxOutView) (flags : BitVec 32) (first : RoleT)
    (accountName : String) (receiver : view.SplitsOut flags accountName .receiver)
    (sender : view.SplitsOut flags accountName .sender) :
    view.splitSides flags first accountName =
      if first = .roleSender then [.sender, .receiver] else [.receiver, .sender] := by
  simp [splitSides, receiver, sender]

theorem roleAccount_withRole (view : TxOutView) (side : Side) :
    (view.withRole side.role).roleAccount = view.accountNameOf side := by
  cases side <;> simp [roleAccount, withRole, Side.role, RoleT.toInt, accountNameOf]

theorem roleLabel_withRole (view : TxOutView) (side : Side) :
    (view.withRole side.role).roleLabel = view.labelOf side := by
  cases side <;> simp [roleLabel, withRole, Side.role, RoleT.toInt, labelOf]

theorem roleBin_withRole (view : TxOutView) (side : Side) :
    (view.withRole side.role).roleBin = if side = .receiver then view.accountBinName else "" := by
  cases side <;> simp [roleBin, withRole, Side.role, RoleT.toInt, emptyString]

/-- Splitting a view by role neither loses, duplicates nor misattributes a
role. After `updateRole flags`, `getSplitRoles first accountName` holds one view
per side that splits out and no other; each is the view with only its role
flags changed, to that side's role, so its account, label and bin are that
side's; and the receiver comes first unless the sender is asked for first. -/
theorem getSplitRoles_splits_by_role (view : TxOutView) (flags : BitVec 32) (first : RoleT)
    (accountName : String) :
    let sides := view.splitSides flags first accountName
    (view.updateRole flags).getSplitRoles first accountName =
        sides.map (fun side => { view with roleFlags := side.role.toInt }) ∧
      (∀ side, side ∈ sides ↔ view.SplitsOut flags accountName side) ∧ sides.Nodup ∧
      (∀ side ∈ sides,
        (view.withRole side.role).roleAccount = view.accountNameOf side ∧
        (view.withRole side.role).roleLabel = view.labelOf side ∧
        (view.withRole side.role).roleBin = (if side = .receiver then view.accountBinName else "") ∧
        (accountName ≠ "" → (view.withRole side.role).roleAccount = accountName)) ∧
      (view.SplitsOut flags accountName .receiver → view.SplitsOut flags accountName .sender →
        sides = if first = .roleSender then [.sender, .receiver] else [.receiver, .sender]) := by
  refine ⟨getSplitRoles_updateRole view flags first accountName,
    mem_splitSides view flags first accountName, nodup_splitSides view flags first accountName,
    fun side member => ⟨roleAccount_withRole view side, roleLabel_withRole view side,
      roleBin_withRole view side, fun named => ?_⟩,
    splitSides_of_both view flags first accountName⟩
  obtain ⟨-, -, empty | filtered⟩ := (mem_splitSides view flags first accountName side).mp member
  · exact absurd empty named
  · rw [roleAccount_withRole, filtered]

/-! ## Splitting a split view -/

end TxOutView

end CoinVault.CoinDB
