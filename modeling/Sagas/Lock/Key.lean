import Sagas.Scalar
import Sagas.Sorted

/-!
# Lock keys

A lock key names the value that a message is matched by: a data type, a property and the value's
text. With a number of buckets, keys fold into that many bucket names by a stable hash.
-/

namespace Sagas.Lock

/-- The 64-bit FNV-1a hash. -/
def hash (bytes : List UInt8) : UInt64 :=
  bytes.foldl (fun h b => (h ^^^ b.toUInt64) * 0x100000001b3) 0xcbf29ce484222325

def bucket (buckets : Nat) (key : String) : String :=
  "sagabus-bucket:" ++ toString ((hash key.toUTF8.toList).toNat % buckets)

def key (dataType property : String) (value : Scalar) (buckets : Option Nat) : String :=
  let name := dataType ++ ":" ++ property ++ ":" ++ value.text
  match buckets with
  | some (n + 1) => bucket (n + 1) name
  | _ => name

/-- Every worker takes its keys in increasing order, each once. -/
def normalize (keys : List String) : List String :=
  Sorted.ofList keys

end Sagas.Lock
