import Telemetry.Bytes

namespace Telemetry.Gzip

def checksumBits : Nat → UInt32 → UInt32
  | 0, c => c
  | n + 1, c => checksumBits n (if c &&& 1 = 1 then c >>> 1 ^^^ 0xedb88320 else c >>> 1)

def checksum (bytes : Bytes) : UInt32 :=
  ~~~(bytes.foldl (fun c b => checksumBits 8 (c ^^^ b.toUInt32)) 0xffffffff)

end Telemetry.Gzip
