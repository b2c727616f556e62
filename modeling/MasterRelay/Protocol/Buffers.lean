import MasterRelay.Lib.Ledger
import MasterRelay.Protocol.Send

/-!
# The buffers packed into

Four functions of the program have an `msgpack_sbuffer` of their own: they initialise it, hand it to
a packing function, and destroy it on some of their exits. A `Logged` result keeps the calls on the
buffer beside the value. The ledger holds the buffers that have been handed to a packing function
and not been destroyed; one that is only initialised has no memory yet.
-/

namespace MasterRelay.Protocol

open MasterRelay.Lib.Ledger

/-- The functions with an `msgpack_sbuffer` of their own. -/
inductive SbufferOwner where
  | handleGameStateUpdatedByMaster
  | handlePlayerRegister
  | handleCmdSlaveTick
  | tryExecuteTick
  deriving DecidableEq, Repr

/-- A call on the buffer of a function: `msgpack_sbuffer_init`, one of the `ifb_try_pack_*`, or
`msgpack_sbuffer_destroy`. -/
inductive SbufferCall where
  | init (b : SbufferOwner)
  | pack (b : SbufferOwner)
  | destroy (b : SbufferOwner)
  deriving DecidableEq, Repr

/-- What a call does to the ledger of the buffers that have been packed into. -/
def sbufferUses : SbufferCall → List (Use SbufferOwner)
  | .init _ => []
  | .pack b => [.acquire b]
  | .destroy b => [.release b]

/-- A result, with the calls on the buffer of the function. -/
structure Logged (α : Type) where
  value : α
  calls : List SbufferCall

variable {α : Type}

/-- The ledger after the calls. -/
def Logged.settle (r : Logged α) (live : Multiset SbufferOwner) :
    Option (Multiset SbufferOwner) :=
  Lib.Ledger.settle live (r.calls.flatMap sbufferUses)

/-- **When the function returns, the ledger is as it was**: each buffer it has packed into has been
destroyed, and none twice. -/
def ReturnsBalanced (r : Logged (Option α)) : Prop :=
  ∀ a, r.value = some a → ∀ live, r.settle live = some live

/-- A buffer that is destroyed after it was packed into. -/
theorem settle_destroyed {r : Logged α} {b : SbufferOwner}
    (h : r.calls = [.init b, .pack b, .destroy b]) (live : Multiset SbufferOwner) :
    r.settle live = some live := by
  rw [Logged.settle, h]
  exact settle_balanced (settle_acquireRelease b) live

/-- A buffer that is not. -/
theorem settle_kept {r : Logged α} {b : SbufferOwner} (h : r.calls = [.init b, .pack b])
    (live : Multiset SbufferOwner) : r.settle live = some (b ::ₘ live) := by
  rw [Logged.settle, h]
  rfl

/-- A function that returns and keeps its buffer is not balanced. -/
theorem not_balanced {r : Logged (Option α)} {b : SbufferOwner}
    (h : r.calls = [.init b, .pack b]) {a : α} (hr : r.value = some a) : ¬ ReturnsBalanced r := by
  intro hbalanced
  have hlive := (settle_kept h 0).symm.trans (hbalanced a hr 0)
  exact absurd (Option.some.inj hlive) (Multiset.cons_ne_zero)

end MasterRelay.Protocol
