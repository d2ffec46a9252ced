import Reflash.Bytes

/-!
# Reflash.Crc32 — the CRC-32 shown for images and flash dumps

The reflected CRC-32 of ISO-HDLC: polynomial `0xEDB88320`, all ones before and after.
-/

namespace Reflash

def crcBit (crc : UInt32) : UInt32 :=
  if crc &&& 1 = 1 then (crc >>> 1) ^^^ 0xEDB88320 else crc >>> 1

def crcByte (crc : UInt32) (byte : UInt8) : UInt32 :=
  let c := crc ^^^ byte.toUInt32
  crcBit (crcBit (crcBit (crcBit (crcBit (crcBit (crcBit (crcBit c)))))))

def crc32 (bytes : Bytes) : UInt32 := bytes.foldl crcByte 0xFFFFFFFF ^^^ 0xFFFFFFFF

end Reflash
