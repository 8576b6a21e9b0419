import Dhava.Spec.Framing

/-! The crypto layer (`crypto.py`): compress, then encrypt. AES-GCM, zstandard and gzip are
parameters. The nonce and the time that gzip stamps are arguments. -/

namespace Dhava

inductive CompressionAlgorithm
  | zstd | gzip | none
  deriving DecidableEq, Repr

abbrev Nonce := { n : Bytes // n.length = 12 }

/-- The functions `crypto.py` calls. The inverse ones raise where they have no result. -/
structure CryptoLibraries where
  aesEncrypt : Bytes → Nonce → Bytes → Bytes
  aesDecrypt : Bytes → Bytes → Bytes → Except String Bytes
  zstdCompress : Bytes → Bytes
  zstdDecompress : Bytes → Except String Bytes
  gzipCompress : ℕ → Bytes → Bytes
  gzipDecompress : Bytes → Except String Bytes

structure CryptoLayer where
  encryptionKey : Bytes
  compression : CompressionAlgorithm
  key_length : encryptionKey.length = 32

namespace CryptoLayer

def new (encryptionKey : Bytes) (compression : CompressionAlgorithm := .zstd) :
    Except String CryptoLayer :=
  if h : encryptionKey.length = 32 then .ok ⟨encryptionKey, compression, h⟩
  else .error s!"Encryption key must be exactly 32 bytes (256 bits), got {encryptionKey.length}"

/-- `encryption_key or CryptoLayer.generate_key()`: an empty key counts as none. -/
def keyOr (encryptionKey : Option Bytes) (generated : Bytes) : Bytes :=
  match encryptionKey with
  | some key => if key = [] then generated else key
  | none => generated

/-- The layer `DDILSyncEngine._create_engine` makes. -/
def ofEngine (encryptionKey : Option Bytes) (generated : Bytes)
    (compression : CompressionAlgorithm) : Except String CryptoLayer :=
  new (keyOr encryptionKey generated) compression

/-- The layer `DDILSyncServer.create` makes. Its configuration has no compression. -/
def ofServer (encryptionKey : Option Bytes) (generated : Bytes) : Except String CryptoLayer :=
  new (keyOr encryptionKey generated)

variable (libs : CryptoLibraries) (zstdAvailable : Bool) (c : CryptoLayer)

/-- `_compress`, where `import zstandard` succeeded or did not. -/
def compress (mtime : ℕ) (data : Bytes) : Bytes :=
  match c.compression with
  | .zstd => if zstdAvailable then libs.zstdCompress data else libs.gzipCompress mtime data
  | .gzip => libs.gzipCompress mtime data
  | .none => data

/-- `_decompress`: what zstandard rejects might come from the gzip fallback. -/
def decompress (data : Bytes) : Except String Bytes :=
  match c.compression with
  | .zstd =>
    if zstdAvailable then
      match libs.zstdDecompress data with
      | .ok raw => .ok raw
      | .error _ => libs.gzipDecompress data
    else libs.gzipDecompress data
  | .gzip => libs.gzipDecompress data
  | .none => .ok data

def pack (nonce : Nonce) (mtime : ℕ) (data : Bytes) : Bytes :=
  let compressed := c.compress libs zstdAvailable mtime data
  let ciphertext := libs.aesEncrypt c.encryptionKey nonce compressed
  nonce.val ++ ciphertext

def unpack (packedData : Bytes) : Except String Bytes :=
  if packedData.length < 28 then
    .error s!"Packed payload too short: {packedData.length} bytes"
  else
    let nonce := packedData.take 12
    let ciphertext := packedData.drop 12
    match libs.aesDecrypt c.encryptionKey nonce ciphertext with
    | .error exc => .error exc
    | .ok compressed => c.decompress libs zstdAvailable compressed

end CryptoLayer
end Dhava
