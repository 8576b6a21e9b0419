import Dhava.Spec.Crypto

/-! Which crypto layers read each other. A layer writes one format and reads one or two:
two parties with one key understand each other if each reads what the other writes. -/

namespace Dhava

namespace CryptoLibraries

/-- The magic number of a zstd frame. -/
def ZstdFrame (data : Bytes) : Prop := data.take 4 = [0x28, 0xB5, 0x2F, 0xFD]

/-- The zstd format also has frames that a decoder skips. -/
def SkippableFrame (data : Bytes) : Prop :=
  ∃ b : UInt8, b / 16 = 5 ∧ data.take 4 = [b, 0x2A, 0x4D, 0x18]

/-- The magic number of a gzip member. -/
def GzipMember (data : Bytes) : Prop := data.take 2 = [0x1F, 0x8B]

/-- What the three libraries are documented to do: each inverts its own output, and a
decompressor rejects what is not in its format. gzip reads no bytes as no members. -/
structure Documented (libs : CryptoLibraries) : Prop where
  aes_inverts : ∀ key nonce data, key.length = 32 →
    libs.aesDecrypt key nonce.val (libs.aesEncrypt key nonce data) = .ok data
  aes_length : ∀ key nonce data, key.length = 32 →
    (libs.aesEncrypt key nonce data).length = data.length + 16
  zstd_inverts : ∀ data, libs.zstdDecompress (libs.zstdCompress data) = .ok data
  gzip_inverts : ∀ mtime data, libs.gzipDecompress (libs.gzipCompress mtime data) = .ok data
  zstd_writes : ∀ data, ZstdFrame (libs.zstdCompress data)
  gzip_writes : ∀ mtime data, GzipMember (libs.gzipCompress mtime data)
  zstd_reads : ∀ data raw, libs.zstdDecompress data = .ok raw → ZstdFrame data ∨ SkippableFrame data
  gzip_reads : ∀ data raw, libs.gzipDecompress data = .ok raw → data = [] ∨ GzipMember data

/-- Bytes in one of the formats. -/
def encode (libs : CryptoLibraries) (format : CompressionAlgorithm) (mtime : ℕ) (data : Bytes) :
    Bytes :=
  match format with
  | .zstd => libs.zstdCompress data
  | .gzip => libs.gzipCompress mtime data
  | .none => data

namespace Documented

variable {libs : CryptoLibraries} (h : libs.Documented)
include h

theorem zstd_error {data : Bytes} (hz : ¬ ZstdFrame data) (hs : ¬ SkippableFrame data) :
    ∃ exc, libs.zstdDecompress data = .error exc := by
  cases hd : libs.zstdDecompress data with
  | error exc => exact ⟨exc, rfl⟩
  | ok raw => exact absurd (h.zstd_reads _ _ hd) (not_or.2 ⟨hz, hs⟩)

theorem gzip_error {data : Bytes} (hne : data ≠ []) (hg : ¬ GzipMember data) :
    ∃ exc, libs.gzipDecompress data = .error exc := by
  cases hd : libs.gzipDecompress data with
  | error exc => exact ⟨exc, rfl⟩
  | ok raw => exact absurd (h.gzip_reads _ _ hd) (not_or.2 ⟨hne, hg⟩)

theorem zstdCompress_ne_nil (data : Bytes) : libs.zstdCompress data ≠ [] := by
  intro hnil
  have hframe := h.zstd_writes data
  rw [hnil] at hframe
  cases hframe

theorem gzipCompress_ne_nil (mtime : ℕ) (data : Bytes) : libs.gzipCompress mtime data ≠ [] := by
  intro hnil
  have hmember := h.gzip_writes mtime data
  rw [hnil] at hmember
  cases hmember

/-- gzip rejects what zstd writes: the two magic numbers differ in their first byte. -/
theorem gzip_rejects_zstd (data : Bytes) :
    ∃ exc, libs.gzipDecompress (libs.zstdCompress data) = .error exc := by
  refine h.gzip_error (h.zstdCompress_ne_nil data) fun hg => ?_
  have hframe : (libs.zstdCompress data).take 4 = [0x28, 0xB5, 0x2F, 0xFD] := h.zstd_writes data
  have hmember := congrArg (List.take 2) hframe
  rw [List.take_take] at hmember
  have hcontra := hg.symm.trans hmember
  simp at hcontra

/-- zstd rejects what gzip writes: its frames have another second byte, skipped or not. -/
theorem zstd_rejects_gzip (mtime : ℕ) (data : Bytes) :
    ∃ exc, libs.zstdDecompress (libs.gzipCompress mtime data) = .error exc := by
  have hmember : (libs.gzipCompress mtime data).take 2 = [0x1F, 0x8B] := h.gzip_writes mtime data
  refine h.zstd_error (fun hz => ?_) fun hs => ?_
  · have hframe := congrArg (List.take 2) hz
    rw [List.take_take] at hframe
    have hcontra := hmember.symm.trans hframe
    simp at hcontra
  · obtain ⟨b, -, hskip⟩ := hs
    have hframe := congrArg (List.take 2) hskip
    rw [List.take_take] at hframe
    have hcontra := hmember.symm.trans hframe
    simp at hcontra

/-- One zero byte is in neither format. -/
theorem zstd_rejects_zero : ∃ exc, libs.zstdDecompress [0] = .error exc := by
  refine h.zstd_error (fun hz => ?_) fun hs => ?_
  · cases hz
  · obtain ⟨b, -, hskip⟩ := hs
    cases hskip

theorem gzip_rejects_zero : ∃ exc, libs.gzipDecompress [0] = .error exc :=
  h.gzip_error (List.cons_ne_nil _ _) fun hg => by cases hg

end Documented
end CryptoLibraries

namespace CryptoLayer

variable (libs : CryptoLibraries)

/-- The format a layer writes. -/
def written (c : CryptoLayer) (zstdAvailable : Bool) : CompressionAlgorithm :=
  if c.compression = .zstd ∧ zstdAvailable = false then .gzip else c.compression

/-- The formats a layer reads. -/
def accepted (c : CryptoLayer) (zstdAvailable : Bool) : List CompressionAlgorithm :=
  match c.compression, zstdAvailable with
  | .zstd, true => [.zstd, .gzip]
  | .zstd, false => [.gzip]
  | .gzip, _ => [.gzip]
  | .none, _ => [.none]

theorem compress_eq (c : CryptoLayer) (zstdAvailable : Bool) (mtime : ℕ) (data : Bytes) :
    c.compress libs zstdAvailable mtime data = libs.encode (c.written zstdAvailable) mtime data := by
  unfold compress written
  cases c.compression <;> cases zstdAvailable <;> rfl

variable {libs}

/-- A layer gets every payload back from the formats it reads, and from no other. -/
theorem decompress_encode_iff (h : libs.Documented) (c : CryptoLayer) (zstdAvailable : Bool)
    (format : CompressionAlgorithm) :
    (∀ mtime data, c.decompress libs zstdAvailable (libs.encode format mtime data) = .ok data) ↔
      format ∈ c.accepted zstdAvailable := by
  have hgzip : ∀ f, (∀ mtime data, libs.gzipDecompress (libs.encode f mtime data) = .ok data) ↔
      f = .gzip := by
    intro f
    refine ⟨fun hread => ?_, fun hf => hf ▸ h.gzip_inverts⟩
    cases f with
    | zstd =>
      obtain ⟨exc, hexc⟩ := h.gzip_rejects_zstd []
      cases hexc.symm.trans (hread 0 [])
    | gzip => rfl
    | none =>
      obtain ⟨exc, hexc⟩ := h.gzip_rejects_zero
      cases hexc.symm.trans (hread 0 [0])
  have hraw : ∀ f, (∀ mtime data, Except.ok (ε := String) (libs.encode f mtime data) = .ok data) ↔
      f = .none := by
    intro f
    refine ⟨fun hread => ?_, fun hf => hf ▸ fun _ _ => rfl⟩
    cases f with
    | zstd => exact absurd (Except.ok.inj (hread 0 [])) (h.zstdCompress_ne_nil [])
    | gzip => exact absurd (Except.ok.inj (hread 0 [])) (h.gzipCompress_ne_nil 0 [])
    | none => rfl
  unfold decompress accepted
  cases c.compression with
  | gzip => rw [List.mem_singleton]; exact hgzip format
  | none => rw [List.mem_singleton]; exact hraw format
  | zstd =>
    cases zstdAvailable with
    | false => rw [List.mem_singleton]; exact hgzip format
    | true =>
      -- what zstd rejects goes to gzip, so the formats of both are read
      cases format with
      | zstd => simp [CryptoLibraries.encode, h.zstd_inverts]
      | gzip =>
        refine iff_of_true (fun mtime data => ?_) (by simp)
        obtain ⟨exc, hexc⟩ := h.zstd_rejects_gzip mtime data
        simp [CryptoLibraries.encode, hexc, h.gzip_inverts]
      | none =>
        refine iff_of_false (fun hread => ?_) (by simp)
        obtain ⟨exc, hexc⟩ := h.zstd_rejects_zero
        obtain ⟨exc', hexc'⟩ := h.gzip_rejects_zero
        have hzero := hread 0 [0]
        simp [CryptoLibraries.encode, hexc, hexc'] at hzero

/-- Under one key what is decompressed is what was compressed. -/
theorem unpack_pack (h : libs.Documented) {reader writer : CryptoLayer}
    (hkey : reader.encryptionKey = writer.encryptionKey) (readerZstd writerZstd : Bool)
    (nonce : Nonce) (mtime : ℕ) (data : Bytes) :
    reader.unpack libs readerZstd (writer.pack libs writerZstd nonce mtime data) =
      reader.decompress libs readerZstd (writer.compress libs writerZstd mtime data) := by
  have hlen := h.aes_length writer.encryptionKey nonce (writer.compress libs writerZstd mtime data)
    writer.key_length
  have hlong : ¬ (writer.pack libs writerZstd nonce mtime data).length < 28 := by
    rw [pack, List.length_append, hlen, nonce.2]
    omega
  rw [unpack, if_neg hlong]
  simp only [pack, List.take_left' nonce.2, List.drop_left' nonce.2, hkey,
    h.aes_inverts _ nonce _ writer.key_length]

/-- What the one packs the other unpacks, whatever the nonce and the time. -/
def Reads (libs : CryptoLibraries) (reader : CryptoLayer) (readerZstd : Bool)
    (writer : CryptoLayer) (writerZstd : Bool) : Prop :=
  ∀ nonce mtime data,
    reader.unpack libs readerZstd (writer.pack libs writerZstd nonce mtime data) = .ok data

theorem reads_iff (h : libs.Documented) {reader writer : CryptoLayer}
    (hkey : reader.encryptionKey = writer.encryptionKey) (readerZstd writerZstd : Bool) :
    Reads libs reader readerZstd writer writerZstd ↔
      writer.written writerZstd ∈ reader.accepted readerZstd := by
  rw [← decompress_encode_iff h]
  unfold Reads
  simp only [unpack_pack h hkey, compress_eq]
  exact ⟨fun hread => hread ⟨List.replicate 12 0, rfl⟩, fun hread _ => hread⟩

theorem compression_of_new {key : Bytes} {compression : CompressionAlgorithm} {c : CryptoLayer}
    (hnew : new key compression = .ok c) : c.compression = compression := by
  unfold new at hnew
  split_ifs at hnew with hlen
  cases hnew
  rfl

/-- Both directions between an engine and a server. -/
def Interoperate (libs : CryptoLibraries) (engine : CryptoLayer) (engineZstd : Bool)
    (server : CryptoLayer) (serverZstd : Bool) : Prop :=
  Reads libs server serverZstd engine engineZstd ∧ Reads libs engine engineZstd server serverZstd

/-- An engine and a server with one key understand each other exactly if the engine is set to
zstd and zstandard is installed at both or at neither, or the engine is set to gzip and the
server has to fall back to it. -/
theorem compression_interoperates_iff (h : libs.Documented) {engineKey serverKey : Option Bytes}
    {engineGenerated serverGenerated : Bytes} {compression : CompressionAlgorithm}
    {engine server : CryptoLayer} (hengine : ofEngine engineKey engineGenerated compression = .ok engine)
    (hserver : ofServer serverKey serverGenerated = .ok server)
    (hkey : engine.encryptionKey = server.encryptionKey) (engineZstd serverZstd : Bool) :
    Interoperate libs engine engineZstd server serverZstd ↔
      (compression = .zstd ∧ engineZstd = serverZstd) ∨ (compression = .gzip ∧ serverZstd = false) := by
  unfold Interoperate
  rw [reads_iff h hkey.symm, reads_iff h hkey]
  have hce := compression_of_new hengine
  have hcs := compression_of_new hserver
  unfold written accepted
  rw [hce, hcs]
  cases compression <;> cases engineZstd <;> cases serverZstd <;> decide

/-! ### Stand-ins for the libraries -/

/-- Every format stores the bytes behind its magic number, and the cipher adds a tag only. -/
def sampleLibraries : CryptoLibraries where
  aesEncrypt _ _ data := data ++ List.replicate 16 0
  aesDecrypt _ _ ciphertext :=
    let tag := ciphertext.drop (ciphertext.length - 16)
    if tag = List.replicate 16 0 then .ok (ciphertext.take (ciphertext.length - 16)) else .error ""
  zstdCompress data := [0x28, 0xB5, 0x2F, 0xFD] ++ data
  zstdDecompress data :=
    if data.take 4 = [0x28, 0xB5, 0x2F, 0xFD] then .ok (data.drop 4)
    else .error "error determining content size from frame header"
  gzipCompress _ data := [0x1F, 0x8B] ++ data
  gzipDecompress data :=
    if data = [] then .ok []
    else if data.take 2 = [0x1F, 0x8B] then .ok (data.drop 2)
    else .error s!"Not a gzipped file ({reprBytes (data.take 2)})"

theorem sampleLibraries_documented : sampleLibraries.Documented where
  aes_inverts key nonce data _ := by simp [sampleLibraries]
  aes_length key nonce data _ := by simp [sampleLibraries]
  zstd_inverts data := by simp [sampleLibraries]
  gzip_inverts mtime data := by simp [sampleLibraries]
  zstd_writes data := by simp [sampleLibraries, CryptoLibraries.ZstdFrame]
  gzip_writes mtime data := by simp [sampleLibraries, CryptoLibraries.GzipMember]
  zstd_reads data raw hok := by
    simp only [sampleLibraries] at hok
    split_ifs at hok with hframe
    exact Or.inl hframe
  gzip_reads data raw hok := by
    simp only [sampleLibraries] at hok
    split_ifs at hok with hnil hmember
    · exact Or.inl hnil
    · exact Or.inr hmember

def sampleKey : Bytes := List.replicate 32 7

def sampleLayer (compression : CompressionAlgorithm) : CryptoLayer :=
  ⟨sampleKey, compression, List.length_replicate⟩

def sampleNonce : Nonce := ⟨List.replicate 12 1, rfl⟩

theorem compression_interoperates_iff_example :
    ofEngine (some sampleKey) [] .zstd = .ok (sampleLayer .zstd) ∧
      ofServer (some sampleKey) [] = .ok (sampleLayer .zstd) ∧
      Interoperate sampleLibraries (sampleLayer .zstd) true (sampleLayer .zstd) true := by
  have hengine : ofEngine (some sampleKey) [] .zstd = .ok (sampleLayer .zstd) := rfl
  have hserver : ofServer (some sampleKey) [] = .ok (sampleLayer .zstd) := rfl
  refine ⟨hengine, hserver, ?_⟩
  exact (compression_interoperates_iff sampleLibraries_documented hengine hserver rfl true true).2
    (Or.inl ⟨rfl, rfl⟩)

/-- An engine set to gzip pushes, and cannot read the reply. One set to none is not even read. -/
theorem gzip_engine_cannot_read :
    (sampleLayer .zstd).unpack sampleLibraries true
        ((sampleLayer .gzip).pack sampleLibraries true sampleNonce 0 [1]) = .ok [1] ∧
      (sampleLayer .gzip).unpack sampleLibraries true
        ((sampleLayer .zstd).pack sampleLibraries true sampleNonce 0 [1]) =
          .error "Not a gzipped file (b'(\\xb5')" ∧
      (sampleLayer .zstd).unpack sampleLibraries true
        ((sampleLayer .none).pack sampleLibraries true sampleNonce 0 [1]) =
          .error "Not a gzipped file (b'\\x01')" ∧
      ofEngine (some sampleKey) [] .gzip = .ok (sampleLayer .gzip) ∧
      ofServer (some sampleKey) [] = .ok (sampleLayer .zstd) ∧
      ¬ Interoperate sampleLibraries (sampleLayer .gzip) true (sampleLayer .zstd) true := by
  have hreply : (sampleLayer .gzip).unpack sampleLibraries true
      ((sampleLayer .zstd).pack sampleLibraries true sampleNonce 0 [1]) =
        .error "Not a gzipped file (b'(\\xb5')" := by decide +kernel
  refine ⟨by decide +kernel, hreply, by decide +kernel, rfl, rfl, fun hboth => ?_⟩
  have hread := hboth.2 sampleNonce 0 [1]
  rw [hreply] at hread
  cases hread

end CryptoLayer
end Dhava
