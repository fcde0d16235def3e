import Mathlib.Data.List.Basic
import Mathlib.Data.List.Forall2

/-!
# Archive streams

The schema classes export themselves through boost serialization: a member
`serialize` (or a `save`/`load` pair) applies `ar & field` to each member in
turn. An output archive is modelled as the list of primitive items written, an
input archive as a state-passing reader over that list. Every object of a
versioned class is preceded by its class version; a reader rejects a version
newer than the one it knows.

Items are typed and whole: a read meets an item of the wrong kind or the end of
the stream only between items, and then fails. Both behaviours belong to this
abstraction, not to boost's text or binary archives, which carry no item kinds
and read a number character by character; the results of the development are
about reads that succeed. That a reader reads exactly what a writer wrote, a
postcondition on every stream a reader accepts, and what an accepted read
consumed are each built from one lemma per combinator.
-/

set_option autoImplicit false

namespace CoinVault

/-- `bytes_t` and `secure_bytes_t`. -/
abbrev Bytes := List UInt8

end CoinVault

namespace CoinVault.Archive

/-- One primitive item of an archive. `count` is the element count boost writes
in front of a `std::vector`. -/
inductive Token where
  | u32 (value : UInt32)
  | u64 (value : UInt64)
  | str (value : String)
  | bytes (value : Bytes)
  | count (value : Nat)
  | classVersion (value : Nat)
  deriving DecidableEq, Repr

/-- The two ways boost's input archive fails on a stream. -/
inductive ArchiveError where
  | inputStreamError
  | unsupportedClassVersion
  deriving DecidableEq, Repr

/-- Reading from an input archive: consumes a prefix of the items, or fails. -/
abbrev Load (α : Type) := StateT (List Token) (Except ArchiveError) α

/-! ## Primitives -/

/-- `ar & x` for a member `x` of a primitive type on an input archive: it reads
one item of the member's kind. Failing on an item of another kind or on the end
of the stream is the typed abstraction's, not boost's. -/
def loadPrimitive {α : Type} (field : Token → Option α) : Load α := fun
  | token :: rest =>
    match field token with
    | some value => .ok (value, rest)
    | none => .error .inputStreamError
  | [] => .error .inputStreamError

def loadU32 : Load UInt32 := loadPrimitive fun
  | .u32 value => some value
  | _ => none

def loadU64 : Load UInt64 := loadPrimitive fun
  | .u64 value => some value
  | _ => none

def loadStr : Load String := loadPrimitive fun
  | .str value => some value
  | _ => none

def loadBytes : Load Bytes := loadPrimitive fun
  | .bytes value => some value
  | _ => none

def loadCount : Load Nat := loadPrimitive fun
  | .count value => some value
  | _ => none

def loadClassVersion : Load Nat := loadPrimitive fun
  | .classVersion value => some value
  | _ => none

/-! ## Objects and collections -/

/-- `ar & object` on an output archive, for a class of the given version. -/
def saveObject (version : Nat) (members : List Token) : List Token :=
  .classVersion version :: members

/-- `ar & object` on an input archive: the members are read with the version
found in the stream, and a version newer than the class's is refused. -/
def loadObject {α : Type} (version : Nat) (members : Nat → Load α) : Load α := do
  let fileVersion ← loadClassVersion
  if version < fileVersion then throw .unsupportedClassVersion
  members fileVersion

/-- A counted loop `for (i = 0; i < n; i++)` that reads one item per round. -/
def loadSeq {α : Type} (item : Load α) : Nat → Load (List α)
  | 0 => pure []
  | n + 1 => do
    let head ← item
    let tail ← loadSeq item n
    pure (head :: tail)

/-- `ar & v` for a `std::vector` on an output archive. -/
def saveVector {α : Type} (item : α → List Token) (values : List α) : List Token :=
  .count values.length :: values.flatMap item

/-- `ar & v` for a `std::vector` on an input archive. -/
def loadVector {α : Type} (item : Load α) : Load (List α) := do
  let count ← loadCount
  loadSeq item count

/-! ## Exact reads -/

variable {α β : Type}

/-- `item` reads exactly `written`, as `value`: it returns `value` and leaves
whatever follows. -/
structure ReadsExactly (item : Load α) (written : List Token) (value : α) : Prop where
  complete : ∀ rest, item (written ++ rest) = .ok (value, rest)

namespace ReadsExactly

theorem loadPrimitive {field : Token → Option α} {token : Token} {value : α}
    (found : field token = some value) : ReadsExactly (Archive.loadPrimitive field) [token] value where
  complete rest := by simp [Archive.loadPrimitive, found]

theorem u32 (value : UInt32) : ReadsExactly loadU32 [.u32 value] value := loadPrimitive rfl

theorem u64 (value : UInt64) : ReadsExactly loadU64 [.u64 value] value := loadPrimitive rfl

theorem str (value : String) : ReadsExactly loadStr [.str value] value := loadPrimitive rfl

theorem bytes (value : Bytes) : ReadsExactly loadBytes [.bytes value] value := loadPrimitive rfl

theorem count (value : Nat) : ReadsExactly loadCount [.count value] value := loadPrimitive rfl

theorem classVersion (value : Nat) : ReadsExactly loadClassVersion [.classVersion value] value :=
  loadPrimitive rfl

theorem pure (value : α) : ReadsExactly (Pure.pure value) [] value where
  complete _ := rfl

/-- Reading two parts in sequence reads exactly their concatenation. -/
theorem bind {first : Load α} {next : α → Load β} {written more : List Token} {value : α}
    {result : β} (firstReads : ReadsExactly first written value)
    (nextReads : ReadsExactly (next value) more result) :
    ReadsExactly (first >>= next) (written ++ more) result where
  complete rest := by
    simp only [Bind.bind, StateT.bind, List.append_assoc, firstReads.complete, Except.bind]
    exact nextReads.complete rest

theorem cons {first : Load α} {next : α → Load β} {token : Token} {more : List Token} {value : α}
    {result : β} (firstReads : ReadsExactly first [token] value)
    (nextReads : ReadsExactly (next value) more result) :
    ReadsExactly (first >>= next) (token :: more) result :=
  firstReads.bind nextReads

theorem map {item : Load α} {written : List Token} {value : α} (convert : α → β)
    (reads : ReadsExactly item written value) :
    ReadsExactly (item >>= fun value => Pure.pure (convert value)) written (convert value) :=
  List.append_nil written ▸ reads.bind (pure _)

/-- An object read at its own class version passes the version check. -/
theorem loadObject {version : Nat} {members : Nat → Load α} {written : List Token} {value : α}
    (membersRead : ReadsExactly (members version) written value) :
    ReadsExactly (Archive.loadObject version members) (saveObject version written) value := by
  refine (classVersion version).cons ?_
  dsimp only
  rw [if_neg (Nat.lt_irrefl version)]
  exact (pure _).bind membersRead

theorem loadSeq {item : Load α} {save : β → List Token} {read : β → α} :
    ∀ {values : List β}, (∀ value ∈ values, ReadsExactly item (save value) (read value)) →
      ∀ {count : Nat}, count = values.length →
        ReadsExactly (Archive.loadSeq item count) (values.flatMap save) (values.map read)
  | [], _, _, rfl => pure []
  | value :: values, reads, _, rfl =>
    (reads value (List.mem_cons_self _ _)).bind <|
      (loadSeq (fun other member => reads other (List.mem_cons_of_mem _ member)) rfl).map _

theorem loadVector {item : Load α} {save : β → List Token} {read : β → α} {values : List β}
    (reads : ∀ value ∈ values, ReadsExactly item (save value) (read value)) :
    ReadsExactly (Archive.loadVector item) (saveVector save values) (values.map read) :=
  (count _).cons (loadSeq reads rfl)

end ReadsExactly

/-! ## Loops cut short -/

/-- A loop of `count` rounds over the images of `values` reads the first
`count` of them and leaves the images of the others unread. -/
theorem loadSeq_flatMap_take (item : Load α) (save : β → List Token) (read : β → α)
    (values : List β)
    (roundTrip : ∀ value ∈ values, ∀ rest, item (save value ++ rest) = .ok (read value, rest))
    (count : Nat) (within : count ≤ values.length) (rest : List Token) :
    loadSeq item count (values.flatMap save ++ rest) =
      .ok ((values.take count).map read, (values.drop count).flatMap save ++ rest) := by
  induction values generalizing count with
  | nil =>
      obtain rfl : count = 0 := Nat.le_zero.mp within
      rfl
  | cons value values ih =>
      cases count with
      | zero => rfl
      | succ count =>
          have head := roundTrip value (List.mem_cons_self _ _)
          have tail := ih (fun other member => roundTrip other (List.mem_cons_of_mem _ member))
            count (Nat.le_of_succ_le_succ within)
          simp only [loadSeq, List.flatMap_cons, List.append_assoc, bind, StateT.bind, head,
            Except.bind, tail]
          rfl

/-- A `uint32_t` count of `UInt32.size` values or more wraps: a loop over it
takes fewer values than there are, and leaves the non-empty images of the others
unread. -/
theorem count_wraps {values : List β} (overflowing : UInt32.size ≤ values.length)
    (save : β → List Token) (nonempty : ∀ value, save value ≠ []) :
    (values.take (values.length % UInt32.size)).length = values.length % UInt32.size ∧
      values.length % UInt32.size < values.length ∧
      (values.drop (values.length % UInt32.size)).flatMap save ≠ [] := by
  have wrapped : values.length % UInt32.size < values.length :=
    lt_of_lt_of_le (Nat.mod_lt _ (by decide)) overflowing
  refine ⟨List.length_take_of_le wrapped.le, wrapped, ?_⟩
  obtain ⟨next, unread, skipped⟩ :=
    List.exists_cons_of_ne_nil (List.drop_eq_nil_iff.not.mpr (Nat.not_le.mpr wrapped))
  rw [skipped, List.flatMap_cons]
  exact fun empty => nonempty next (List.append_eq_nil.mp empty).1

/-! ## What a reader consumed -/

/-- Whenever `item` accepts a stream, it consumed a prefix of it, related by
`property` to the value it returned. -/
def Consumes (item : Load α) (property : α → List Token → Prop) : Prop :=
  ∀ tokens value rest, item tokens = .ok (value, rest) →
    ∃ consumed, tokens = consumed ++ rest ∧ property value consumed

namespace Consumes

theorem mono {item : Load α} {property weaker : α → List Token → Prop}
    (consumes : Consumes item property)
    (implies : ∀ value consumed, property value consumed → weaker value consumed) :
    Consumes item weaker :=
  fun tokens value rest read =>
    let ⟨consumed, split, holds⟩ := consumes tokens value rest read
    ⟨consumed, split, implies value consumed holds⟩

theorem pure {value : α} {property : α → List Token → Prop} (holds : property value []) :
    Consumes (Pure.pure value) property := by
  intro _ _ _ read
  cases read
  exact ⟨[], rfl, holds⟩

theorem bind {first : Load α} {next : α → Load β} {middle : α → List Token → Prop}
    {property : β → List Token → Prop} (firstConsumes : Consumes first middle)
    (nextConsumes : ∀ value consumed, middle value consumed →
      Consumes (next value) fun result more => property result (consumed ++ more)) :
    Consumes (first >>= next) property := by
  intro tokens result rest read
  simp only [Bind.bind, StateT.bind, Except.bind] at read
  split at read
  · cases read
  · rename_i firstResult found
    obtain ⟨consumed, split, holds⟩ := firstConsumes _ _ _ found
    obtain ⟨more, splitMore, holdsMore⟩ := nextConsumes _ _ holds _ _ _ read
    exact ⟨consumed ++ more, by rw [split, splitMore, List.append_assoc], holdsMore⟩

/-- A primitive reader consumes one item, the one its value is written as. -/
theorem loadPrimitive {field : Token → Option α} {wrap : α → Token}
    (inverse : ∀ token value, field token = some value → token = wrap value) :
    Consumes (Archive.loadPrimitive field) fun value consumed => consumed = [wrap value] := by
  intro tokens value rest read
  cases tokens with
  | nil => cases read
  | cons token more =>
    simp only [Archive.loadPrimitive] at read
    split at read
    · rename_i found
      cases read
      exact ⟨[token], rfl, by rw [inverse _ _ found]⟩
    · cases read

theorem u32 : Consumes loadU32 fun value consumed => consumed = [.u32 value] :=
  loadPrimitive fun | .u32 _, _, rfl => rfl

theorem u64 : Consumes loadU64 fun value consumed => consumed = [.u64 value] :=
  loadPrimitive fun | .u64 _, _, rfl => rfl

theorem str : Consumes loadStr fun value consumed => consumed = [.str value] :=
  loadPrimitive fun | .str _, _, rfl => rfl

theorem bytes : Consumes loadBytes fun value consumed => consumed = [.bytes value] :=
  loadPrimitive fun | .bytes _, _, rfl => rfl

theorem count : Consumes loadCount fun value consumed => consumed = [.count value] :=
  loadPrimitive fun | .count _, _, rfl => rfl

theorem classVersion :
    Consumes loadClassVersion fun value consumed => consumed = [.classVersion value] :=
  loadPrimitive fun | .classVersion _, _, rfl => rfl

/-- An accepted object carries a class version no newer than the reader's,
followed by what its members consumed. -/
theorem loadObject {version : Nat} {members : Nat → Load α} {property : α → List Token → Prop}
    (membersConsume : ∀ fileVersion ≤ version, Consumes (members fileVersion) property) :
    Consumes (Archive.loadObject version members) fun value consumed =>
      ∃ fileVersion ≤ version, ∃ more,
        consumed = .classVersion fileVersion :: more ∧ property value more := by
  refine bind classVersion fun fileVersion consumed read => ?_
  subst read
  dsimp only
  split
  · intro _ _ _ read
    cases read
  · rename_i notNewer
    exact (membersConsume fileVersion (Nat.le_of_not_lt notNewer)).mono
      fun value more holds => ⟨fileVersion, Nat.le_of_not_lt notNewer, more, rfl, holds⟩

theorem loadSeq {item : Load α} {property : α → List Token → Prop}
    (itemConsumes : Consumes item property) :
    ∀ count, Consumes (Archive.loadSeq item count) fun values consumed =>
      values.length = count ∧
        ∃ parts, consumed = parts.flatten ∧ List.Forall₂ (fun part value => property value part)
          parts values
  | 0 => pure ⟨rfl, [], rfl, .nil⟩
  | count + 1 => bind itemConsumes fun head headConsumed headHolds =>
      bind (loadSeq itemConsumes count) fun _ _ ⟨counted, parts, flat, holds⟩ =>
        pure ⟨congrArg (· + 1) counted, headConsumed :: parts, by simp [flat],
          .cons headHolds holds⟩

/-! ### Archives matched up to class versions -/

end Consumes

/-! ## Postconditions of readers -/

/-- Every value `item` reads, from any stream on which it succeeds, has the
property. -/
def Ensures (item : Load α) (property : α → Prop) : Prop :=
  ∀ tokens value rest, item tokens = .ok (value, rest) → property value

namespace Ensures

theorem true (item : Load α) : Ensures item fun _ => True :=
  fun _ _ _ _ => trivial

theorem mono {item : Load α} {property weaker : α → Prop} (ensures : Ensures item property)
    (implies : ∀ value, property value → weaker value) : Ensures item weaker :=
  fun tokens value rest read => implies value (ensures tokens value rest read)

theorem pure {value : α} {property : α → Prop} (holds : property value) :
    Ensures (Pure.pure value) property := by
  intro _ _ _ read
  cases read
  exact holds

theorem bind {first : Load α} {next : α → Load β} {middle : α → Prop} {property : β → Prop}
    (firstEnsures : Ensures first middle)
    (nextEnsures : ∀ value, middle value → Ensures (next value) property) :
    Ensures (first >>= next) property := by
  intro tokens value rest read
  simp only [Bind.bind, StateT.bind, Except.bind] at read
  split at read
  · cases read
  · rename_i result found
    exact nextEnsures _ (firstEnsures _ _ _ found) _ _ _ read

theorem loadObject {version : Nat} {members : Nat → Load α} {property : α → Prop}
    (membersEnsure : ∀ fileVersion, Ensures (members fileVersion) property) :
    Ensures (Archive.loadObject version members) property :=
  bind (true _) fun fileVersion _ => by
    dsimp only
    split <;> exact bind (true _) fun _ _ => membersEnsure fileVersion

theorem loadSeq {item : Load α} {property : α → Prop} (itemEnsures : Ensures item property) :
    ∀ count, Ensures (Archive.loadSeq item count) fun values => ∀ value ∈ values, property value
  | 0 => pure fun _ member => nomatch member
  | count + 1 => bind itemEnsures fun head headHolds => bind (loadSeq itemEnsures count)
      fun tail tailHolds => pure fun value member => by
        rcases List.mem_cons.mp member with rfl | later
        exacts [headHolds, tailHolds value later]

theorem loadVector {item : Load α} {property : α → Prop} (itemEnsures : Ensures item property) :
    Ensures (Archive.loadVector item) fun values => ∀ value ∈ values, property value :=
  bind (true _) fun count _ => loadSeq itemEnsures count

end Ensures

end CoinVault.Archive
