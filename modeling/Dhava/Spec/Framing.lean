import Dhava.Foundations.Bytes

/-! The binary envelope of `utils/serialization.py`. SHA-256 is any function to 32 bytes,
and a frame is magic, version, length, digest and payload, one after the other. -/

namespace Dhava

open Foundations

abbrev Bytes := List UInt8

/-- What `hashlib.sha256(...).digest()` returns. -/
abbrev Digest := { d : Bytes // d.length = 32 }

def frameMagic : Bytes := [0x44, 0x44, 0x49, 0x4C]

def frameVersion : UInt8 := 1

/-- `struct.calcsize("!4sB I 32s")`. -/
def frameHeaderSize : ℕ := 4 + 1 + 4 + 32

/-- The fields of `"!4sB I 32s"`: big-endian, without padding. -/
structure FrameHeader where
  magic : Bytes
  version : UInt8
  length : ℕ
  digest : Bytes
  deriving DecidableEq

namespace FrameHeader

/-- `struct.pack`, for a magic of 4 and a digest of 32 bytes. -/
def pack (h : FrameHeader) : Except String Bytes :=
  if h.length < 2 ^ 32 then .ok (h.magic ++ h.version :: bigEndian 4 h.length ++ h.digest)
  else .error "'I' format requires 0 <= number <= 4294967295"

/-- `struct.unpack`, for `frameHeaderSize` bytes. -/
def unpack (header : Bytes) : FrameHeader where
  magic := header.take 4
  version := (header.drop 4).headD 0
  length := readBigEndian ((header.drop 5).take 4)
  digest := header.drop 9

end FrameHeader

/-! ### The text of a bytes object -/

def hexDigits : List Char := "0123456789abcdef".toList

/-- One byte in `repr`: escaped where it is the quote, a backslash or not printable. -/
def reprByte (quote b : UInt8) : String :=
  let char := Char.ofNat b.toNat
  if b = quote || b = 0x5C then String.ofList [Char.ofNat 0x5C, char]
  else if b = 0x09 then "\\t"
  else if b = 0x0A then "\\n"
  else if b = 0x0D then "\\r"
  else if b < 0x20 || b ≥ 0x7F then
    "\\x" ++ String.ofList [hexDigits.getD (b.toNat / 16) char, hexDigits.getD (b.toNat % 16) char]
  else String.ofList [char]

/-- `repr(bytes)`: in single quotes, or in double ones around single ones only. -/
def reprBytes (bs : Bytes) : String :=
  let quote : UInt8 := if 0x27 ∈ bs ∧ 0x22 ∉ bs then 0x22 else 0x27
  let mark := String.ofList [Char.ofNat quote.toNat]
  "b" ++ mark ++ String.join (bs.map (reprByte quote)) ++ mark

/-! ### The codec -/

variable (sha256 : Bytes → Digest)

def framePayload (payload : Bytes) : Except String Bytes :=
  let length := payload.length
  let digest := (sha256 payload).val
  match FrameHeader.pack { magic := frameMagic, version := frameVersion, length, digest } with
  | .error exc => .error exc
  | .ok header => .ok (header ++ payload)

def unframePayload (data : Bytes) : Except String (Bytes × Bytes) :=
  if data.length < frameHeaderSize then
    .error s!"Incomplete frame header (have {data.length}, need {frameHeaderSize})"
  else
    let header := FrameHeader.unpack (data.take frameHeaderSize)
    if header.magic ≠ frameMagic then .error s!"Invalid frame magic: {reprBytes header.magic}"
    else if header.version ≠ frameVersion then
      .error s!"Unsupported frame version: {header.version}"
    else
      let totalFrameSize := frameHeaderSize + header.length
      if data.length < totalFrameSize then
        .error s!"Incomplete payload (have {data.length - frameHeaderSize}, need {header.length})"
      else
        let payload := (data.take totalFrameSize).drop frameHeaderSize
        if (sha256 payload).val ≠ header.digest then
          .error "Payload SHA-256 digest mismatch (data corrupted or tampered)"
        else .ok (payload, data.drop totalFrameSize)

end Dhava
