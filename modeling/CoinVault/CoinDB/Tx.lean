import CoinVault.Archive

/-!
# Transactions

`Tx`, `TxIn` and `TxOut` with the members their constructors and `serialize`
touch. A transaction archives its inputs and outputs as vectors of shared
pointers: reading one back constructs a fresh object per element.
-/

set_option autoImplicit false

namespace CoinVault.CoinDB

open CoinVault.Archive

structure TxIn where
  outhash : Bytes
  outindex : UInt32
  script : Bytes
  sequence : UInt32
  deriving DecidableEq, Repr

namespace TxIn

/-- `BOOST_CLASS_VERSION(CoinDB::TxIn, 1)`. -/
def classVersion : Nat := 1

/-- The private `TxIn()` that loading uses; its members are uninitialised,
written here as empty. -/
def empty : TxIn := ⟨[], 0, [], 0⟩

def serializeSave (txin : TxIn) : List Token :=
  [.bytes txin.outhash, .u32 txin.outindex, .bytes txin.script, .u32 txin.sequence]

def serializeLoad (txin : TxIn) : Load TxIn := do
  let outhash ← loadBytes
  let outindex ← loadU32
  let script ← loadBytes
  let sequence ← loadU32
  pure { txin with outhash, outindex, script, sequence }

/-- The members `serialize` archives, in its order. -/
def archived (txin : TxIn) : Bytes × UInt32 × Bytes × UInt32 :=
  (txin.outhash, txin.outindex, txin.script, txin.sequence)

/-- `serialize` reads exactly an input's archive and sets every member. -/
theorem serializeLoad_reads (target source : TxIn) :
    ReadsExactly target.serializeLoad source.serializeSave source :=
  .cons (.bytes _) <| .cons (.u32 _) <| .cons (.bytes _) <| .cons (.u32 _) <| .pure _

/-- An input read back as a fresh object from its own archive. -/
theorem loadObject_empty_reads (source : TxIn) :
    ReadsExactly (loadObject classVersion fun _ => empty.serializeLoad)
      (saveObject classVersion source.serializeSave) source :=
  .loadObject (serializeLoad_reads _ _)

end TxIn

namespace TxOut

inductive StatusT where
  | neither
  | unspent
  | spent
  | both
  deriving DecidableEq, Repr

inductive RoleT where
  | roleNone
  | roleSender
  | roleReceiver
  | roleBoth
  deriving DecidableEq, Repr

/-- The enumerator values: `ROLE_NONE = 0`, `ROLE_SENDER = 1`,
`ROLE_RECEIVER = 1 << 1`, `ROLE_BOTH = (1 << 2) - 1`, as an `int`. -/
def RoleT.toInt : RoleT → BitVec 32
  | .roleNone => 0
  | .roleSender => 1
  | .roleReceiver => 2
  | .roleBoth => 3

end TxOut

structure TxOut where
  value : UInt64
  script : Bytes
  sendingLabel : String
  receivingLabel : String
  /-- `SPENT` exactly when the output has a spending input. -/
  status : TxOut.StatusT
  deriving DecidableEq, Repr

namespace TxOut

/-- `BOOST_CLASS_VERSION(CoinDB::TxOut, 1)`. -/
def classVersion : Nat := 1

/-- `TxOut()`: only the status is initialised. -/
def empty : TxOut := ⟨0, [], "", "", .unspent⟩

/-- `TxOut(uint64_t value, const bytes_t& script)`. -/
def new (value : UInt64) (script : Bytes) : TxOut := ⟨value, script, "", "", .unspent⟩

def serializeSave (txout : TxOut) : List Token :=
  [.u64 txout.value, .bytes txout.script, .str txout.sendingLabel, .str txout.receivingLabel]

def serializeLoad (txout : TxOut) : Load TxOut := do
  let value ← loadU64
  let script ← loadBytes
  let sendingLabel ← loadStr
  let receivingLabel ← loadStr
  pure { txout with value, script, sendingLabel, receivingLabel }

/-- The members `serialize` archives, in its order. -/
def archived (txout : TxOut) : UInt64 × Bytes × String × String :=
  (txout.value, txout.script, txout.sendingLabel, txout.receivingLabel)

/-- An output read back as a fresh object: its archived members, unspent. -/
def imported (source : TxOut) : TxOut :=
  { empty with
    value := source.value, script := source.script, sendingLabel := source.sendingLabel,
    receivingLabel := source.receivingLabel }

@[simp] theorem archived_imported (source : TxOut) : (imported source).archived = source.archived :=
  rfl

theorem serializeLoad_reads (target source : TxOut) :
    ReadsExactly target.serializeLoad source.serializeSave
      { target with
        value := source.value, script := source.script, sendingLabel := source.sendingLabel,
        receivingLabel := source.receivingLabel } :=
  .cons (.u64 _) <| .cons (.bytes _) <| .cons (.str _) <| .cons (.str _) <| .pure _

theorem loadObject_empty_reads (source : TxOut) :
    ReadsExactly (loadObject classVersion fun _ => empty.serializeLoad)
      (saveObject classVersion source.serializeSave) (imported source) :=
  .loadObject (serializeLoad_reads _ _)

/-- Whatever stream it reads, `serialize` into a fresh output leaves it
unspent: the status is not archived. -/
theorem serializeLoad_empty_ensures : Ensures empty.serializeLoad fun txout => txout.status = .unspent := by
  unfold serializeLoad
  repeat refine Ensures.bind (Ensures.true _) fun _ _ => ?_
  exact Ensures.pure rfl

end TxOut

namespace Tx

/-- Ordered so that transitions mostly go from smaller to larger values. -/
inductive StatusT where
  | noStatus
  | unsigned
  | unsent
  | sent
  | propagated
  | conflicting
  | canceled
  | confirmed
  | all
  deriving DecidableEq, Repr

end Tx

structure Tx where
  /-- Empty until the transaction is fully signed. -/
  hash : Bytes
  unsignedHash : Bytes
  version : UInt32
  txins : List TxIn
  txouts : List TxOut
  locktime : UInt32
  /-- Only used for sorting in the UI. -/
  timestamp : UInt32
  status : Tx.StatusT
  haveFee : Bool
  fee : UInt64
  blockheader : Option Nat
  blockindex : Option UInt32
  deriving DecidableEq, Repr

namespace Tx

/-- `BOOST_CLASS_VERSION(CoinDB::Tx, 1)`. -/
def classVersion : Nat := 1

/-- `Tx(version = 1, locktime = 0, timestamp = 0xffffffff, status = PROPAGATED)`. -/
def new (version locktime timestamp : UInt32) (status : StatusT) : Tx where
  hash := []
  unsignedHash := []
  version := version
  txins := []
  txouts := []
  locktime := locktime
  timestamp := timestamp
  status := status
  haveFee := false
  fee := 0
  blockheader := none
  blockindex := none

/-- The setter `fee(uint64_t)`. -/
def setFee (tx : Tx) (fee : UInt64) : Tx :=
  { tx with haveFee := true, fee }

/-- `block(header, index)`. -/
def block (tx : Tx) (header : Nat) (index : UInt32) : Tx :=
  { tx with blockheader := some header, blockindex := some index }

def serializeSave (tx : Tx) : List Token :=
  [.u32 tx.version] ++
    saveVector (fun txin => saveObject TxIn.classVersion txin.serializeSave) tx.txins ++
    saveVector (fun txout => saveObject TxOut.classVersion txout.serializeSave) tx.txouts ++
    [.u32 tx.locktime, .u32 tx.timestamp]

def serializeLoad (tx : Tx) : Load Tx := do
  let version ← loadU32
  let txins ← loadVector (loadObject TxIn.classVersion fun _ => TxIn.empty.serializeLoad)
  let txouts ← loadVector (loadObject TxOut.classVersion fun _ => TxOut.empty.serializeLoad)
  let locktime ← loadU32
  let timestamp ← loadU32
  pure { tx with version, txins, txouts, locktime, timestamp }

/-- `serialize` reads exactly a transaction's archive: the inputs as they were
and the outputs as fresh unspent objects. -/
theorem serializeLoad_reads (target source : Tx) :
    ReadsExactly target.serializeLoad source.serializeSave
      { target with
        version := source.version, txins := source.txins,
        txouts := source.txouts.map TxOut.imported, locktime := source.locktime,
        timestamp := source.timestamp } := by
  have txins := ReadsExactly.loadVector fun txin (_ : txin ∈ source.txins) =>
    TxIn.loadObject_empty_reads txin
  have txouts := ReadsExactly.loadVector fun txout (_ : txout ∈ source.txouts) =>
    TxOut.loadObject_empty_reads txout
  rw [List.map_id'] at txins
  simp only [serializeSave, List.append_assoc, List.cons_append, List.nil_append]
  exact .cons (.u32 _) <| .bind txins <| .bind txouts <| .cons (.u32 _) <| .cons (.u32 _) <|
    .pure _

theorem serializeLoad_serializeSave (target source : Tx) (rest : List Token) :
    target.serializeLoad (source.serializeSave ++ rest) =
      .ok ({ target with
        version := source.version, txins := source.txins,
        txouts := source.txouts.map TxOut.imported, locktime := source.locktime,
        timestamp := source.timestamp }, rest) :=
  (serializeLoad_reads target source).complete rest

/-- The transaction codec round-trips: reading a transaction's archive
followed by anything consumes exactly it, and gives back the version, lock
time, timestamp and, position by position, the archived members of every
input and output. -/
theorem serialize_round_trip (target source : Tx) (rest : List Token) :
    ∃ loaded, target.serializeLoad (source.serializeSave ++ rest) = .ok (loaded, rest) ∧
      loaded.version = source.version ∧ loaded.locktime = source.locktime ∧
      loaded.timestamp = source.timestamp ∧
      loaded.txins.map TxIn.archived = source.txins.map TxIn.archived ∧
      loaded.txouts.map TxOut.archived = source.txouts.map TxOut.archived :=
  ⟨_, serializeLoad_serializeSave target source rest, rfl, rfl, rfl, rfl, by simp [Function.comp_def]⟩

/-- What a transaction import leaves, whatever stream it accepted: only the
archived members of the target change, and every output is a fresh unspent one. -/
structure ImportInvariant (target loaded : Tx) : Prop where
  frame : { loaded with
    version := target.version, txins := target.txins, txouts := target.txouts,
    locktime := target.locktime, timestamp := target.timestamp } = target
  unspent : ∀ txout ∈ loaded.txouts, txout.status = .unspent

/-- Whatever stream `Tx::serialize` accepts, it changes only the version, inputs,
outputs, lock time and timestamp of the transaction it reads into, and every
output it creates is unspent. -/
theorem serializeLoad_keeps_unarchived (target : Tx) :
    Ensures target.serializeLoad (ImportInvariant target) := by
  unfold serializeLoad
  refine Ensures.bind (Ensures.true _) fun _ _ => ?_
  refine Ensures.bind (Ensures.true _) fun _ _ => ?_
  refine Ensures.bind (Ensures.loadVector (Ensures.loadObject fun _ =>
    TxOut.serializeLoad_empty_ensures)) fun _ unspent => ?_
  iterate 2 refine Ensures.bind (Ensures.true _) fun _ _ => ?_
  exact Ensures.pure ⟨rfl, unspent⟩

theorem serializeLoad_keeps_unarchived_spent :
    let target := { (Tx.new 1 0 0 .confirmed).setFee 5 with
      txouts := [{ TxOut.new 3 [] with status := .spent }] }
    let source := { Tx.new 2 7 9 .propagated with
      txins := [⟨[1], 0, [], 0⟩], txouts := [{ TxOut.new 4 [2] with status := .spent }] }
    ∃ loaded, target.serializeLoad (source.serializeSave ++ []) = .ok (loaded, []) ∧
      ImportInvariant target loaded := by
  intro target source
  have read := serializeLoad_serializeSave target source []
  exact ⟨_, read, serializeLoad_keeps_unarchived _ _ _ _ read⟩

end Tx

end CoinVault.CoinDB
