/-! Octet strings. All relayed data, frames and documents are lists of octets. -/
namespace PackRelay

abbrev Bytes := List UInt8

namespace Bytes

/-- The four octets of a word, most significant first. -/
def ofWord (n : Nat) : Bytes :=
  [UInt8.ofNat (n / 0x1000000), UInt8.ofNat (n / 0x10000), UInt8.ofNat (n / 0x100), UInt8.ofNat n]

def toWord (bs : Bytes) : Nat := bs.foldl (fun n b => n * 256 + b.toNat) 0

@[simp] theorem length_ofWord (n : Nat) : (ofWord n).length = 4 := rfl

theorem toWord_ofWord {n : Nat} (small : n < 0x100000000) : toWord (ofWord n) = n := by
  simp only [toWord, ofWord, List.foldl_cons, List.foldl_nil, UInt8.toNat_ofNat']
  omega

end Bytes
end PackRelay
