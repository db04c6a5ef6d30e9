import PointAndClick.Export.HotspotMap
import PointAndClick.Export.Palette

/-!
# Hotspot maps as PNG files

An image with a palette, one byte per pixel, that is not compressed: its data are the stored
blocks of a zlib stream.
-/

set_option autoImplicit false

namespace PointAndClick.Png

/-! ## Numbers -/

/-- The bytes of a word, the highest first. -/
def word (n : UInt32) : List UInt8 :=
  [(n >>> 24).toUInt8, (n >>> 16).toUInt8, (n >>> 8).toUInt8, n.toUInt8]

/-- The bytes of a half word, the lowest first. -/
def half (n : Nat) : List UInt8 :=
  [UInt8.ofNat n, UInt8.ofNat (n / 0x100)]

/-! ## Checksums -/

/-- The remainder after one more bit. -/
def shiftRemainder (c : UInt32) : UInt32 :=
  if c &&& 1 = 1 then (c >>> 1) ^^^ 0xEDB88320 else c >>> 1

/-- The remainder after one more byte. -/
def addByte (c : UInt32) (byte : UInt8) : UInt32 :=
  Nat.repeat shiftRemainder 8 (c ^^^ byte.toUInt32)

/-- The cyclic redundancy check of some bytes. -/
def crc (bytes : List UInt8) : UInt32 :=
  (bytes.foldl addByte 0xFFFFFFFF) ^^^ 0xFFFFFFFF

/-- The Adler checksum of some bytes. -/
def adler (bytes : List UInt8) : UInt32 :=
  let sums := bytes.foldl (fun (sums : Nat × Nat) byte =>
    let low := (sums.1 + byte.toNat) % 65521
    (low, (sums.2 + low) % 65521)) (1, 0)
  UInt32.ofNat (sums.2 * 0x10000 + sums.1)

/-! ## Data -/

/-- The most bytes of a stored block. -/
def blockSize : Nat := 65535

/-- Bytes as stored blocks, at most `fuel` of them. -/
def storedBlocks : Nat → List UInt8 → List UInt8
  | 0, _ => []
  | fuel + 1, bytes =>
      let now := bytes.take blockSize
      let later := bytes.drop blockSize
      let head := half now.length ++ half (blockSize - now.length)
      if later.isEmpty then 1 :: head ++ now
      else 0 :: head ++ now ++ storedBlocks fuel later

/-- A zlib stream of some bytes. -/
def stream (bytes : List UInt8) : List UInt8 :=
  [0x78, 0x01] ++ storedBlocks (bytes.length / blockSize + 1) bytes ++ word (adler bytes)

/-- A chunk of a file. -/
def chunk (kind : String) (body : List UInt8) : List UInt8 :=
  let whole := kind.toList.map (fun c => UInt8.ofNat c.toNat) ++ body
  word (UInt32.ofNat body.length) ++ whole ++ word (crc whole)

/-- The rows of a map, each behind the mark of a row that stands as it is. -/
def rows (m : HotspotMap) : List UInt8 :=
  (List.range m.height).flatMap fun y => 0 :: (m.row y).map UInt8.ofNat

/-- The bytes of a map's file. -/
def ofMap (m : HotspotMap) : List UInt8 :=
  [0x89, 0x50, 0x4E, 0x47, 0x0D, 0x0A, 0x1A, 0x0A] ++
    chunk "IHDR" (word (UInt32.ofNat m.width) ++ word (UInt32.ofNat m.height) ++ [8, 3, 0, 0, 0]) ++
    chunk "PLTE" (Palette.bytes.map UInt8.ofNat) ++
    chunk "IDAT" (stream (rows m)) ++
    chunk "IEND" []

end PointAndClick.Png
