import Depot.SipHash
import Depot.Text.Utf8

/-!
Partitions. A bucket spreads its documents over a fixed number of partitions by their ids, and every
partition counts its mutations by itself.
-/

set_option autoImplicit false
set_option relaxedAutoImplicit false

namespace Depot.Partition

def count : Nat := 1024

/-- The byte that ends an id in the hash, which no text holds. -/
def endMark : UInt8 := 0xff

/-- The partition of an id. -/
def ofId (id : String) : UInt16 :=
  .ofNat ((SipHash.hash (Text.encode id ++ [endMark])).toNat % count)

end Depot.Partition
