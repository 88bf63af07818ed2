/-! The 64-bit FNV-1a hash of a sequence of bytes. -/

namespace Tang.Hash

def offsetBasis : UInt64 := 0xcbf29ce484222325

def prime : UInt64 := 0x100000001b3

def mix (hash : UInt64) (byte : UInt8) : UInt64 :=
  (hash ^^^ byte.toUInt64) * prime

def fnv1a (bytes : ByteArray) : UInt64 :=
  bytes.data.toList.foldl mix offsetBasis

end Tang.Hash
