import MasterRelay.Lib.MsgPack.Format

/-!
# What an object says, wherever it stands

A string of an unpacked object points into its buffer, so the same value read at another place is
another `Object`. `Object.content` forgets what follows the strings: two buffers carry the same
value when the contents are equal.
-/

namespace MasterRelay.Lib.MsgPack

/-- The slice without what follows it. -/
def Slice.content (s : Slice) : Slice := ⟨s.bytes, []⟩

mutual

/-- The object without what follows its strings. -/
def Object.content : Object → Object
  | .nil => .nil
  | .boolean b => .boolean b
  | .positiveInteger n => .positiveInteger n
  | .negativeInteger i => .negativeInteger i
  | .float32 bits => .float32 bits
  | .float64 bits => .float64 bits
  | .str s => .str s.content
  | .bin s => .bin s.content
  | .ext t s => .ext t s.content
  | .array items => .array (contentItems items)
  | .map entries => .map (contentEntries entries)

def contentItems : List Object → List Object
  | [] => []
  | o :: os => o.content :: contentItems os

def contentEntries : List (Object × Object) → List (Object × Object)
  | [] => []
  | (k, v) :: es => (k.content, v.content) :: contentEntries es

end

/-- An entry without what follows its strings. -/
def entryContent (kv : Object × Object) : Object × Object := (kv.1.content, kv.2.content)

end MasterRelay.Lib.MsgPack
