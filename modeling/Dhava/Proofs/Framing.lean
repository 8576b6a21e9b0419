import Dhava.Foundations.Stream
import Dhava.Spec.Framing

/-! The frame codec is exact: what it reads back is what was framed, it reads nothing else,
and so a stream of frames comes apart where the frames meet. -/

namespace Dhava

open Foundations

namespace FrameHeader

theorem pack_eq_ok {h : FrameHeader} {bs : Bytes} :
    h.pack = .ok bs ↔
      h.length < 2 ^ 32 ∧ bs = h.magic ++ h.version :: bigEndian 4 h.length ++ h.digest := by
  unfold pack
  split_ifs with hlen
  · rw [Except.ok.injEq, eq_comm, and_iff_right hlen]
  · exact iff_of_false (fun he => by cases he) fun he => hlen he.1

theorem length_pack {h : FrameHeader} {bs : Bytes} (hm : h.magic.length = 4)
    (hd : h.digest.length = 32) (hp : h.pack = .ok bs) : bs.length = frameHeaderSize := by
  obtain ⟨-, rfl⟩ := pack_eq_ok.1 hp
  simp only [List.length_append, List.length_cons, length_bigEndian, hm, hd]
  rfl

theorem unpack_pack {h : FrameHeader} {bs : Bytes} (hm : h.magic.length = 4)
    (hp : h.pack = .ok bs) : unpack bs = h := by
  obtain ⟨hlen, hbs⟩ := pack_eq_ok.1 hp
  have h4 : bs.drop 4 = h.version :: (bigEndian 4 h.length ++ h.digest) := by
    rw [hbs, List.append_assoc, List.cons_append]
    exact List.drop_left' hm
  have h5 : bs.drop 5 = bigEndian 4 h.length ++ h.digest := by
    rw [← List.drop_drop (i := 1) (j := 4), h4, List.drop_one, List.tail_cons]
  have h9 : bs.drop 9 = h.digest := by
    rw [← List.drop_drop (i := 4) (j := 5), h5]
    exact List.drop_left' (length_bigEndian 4 _)
  have hmagic : bs.take 4 = h.magic := by
    rw [hbs, List.append_assoc]
    exact List.take_left' hm
  unfold unpack
  rw [h4, h5, h9, hmagic, List.take_left' (length_bigEndian 4 _),
    readBigEndian_bigEndian (by simpa using hlen), List.headD_cons]

/-- Every 41 bytes are the form of the fields they are unpacked into. -/
theorem pack_unpack {bs : Bytes} (hlen : bs.length = frameHeaderSize) :
    (unpack bs).pack = .ok bs := by
  have hsize : bs.length = 41 := hlen
  have hfour : ((bs.drop 5).take 4).length = 4 := by
    rw [List.length_take, List.length_drop]
    omega
  obtain ⟨version, rest, h4⟩ : ∃ v l, bs.drop 4 = v :: l := by
    refine List.exists_cons_of_length_pos ?_
    rw [List.length_drop]
    omega
  have h5 : bs.drop 5 = rest := by
    rw [← List.drop_drop (i := 1) (j := 4), h4, List.drop_one, List.tail_cons]
  refine pack_eq_ok.2 ⟨?_, ?_⟩
  · have hlt := readBigEndian_lt ((bs.drop 5).take 4)
    rw [hfour] at hlt
    exact hlt.trans_eq (by norm_num)
  · have hbe := bigEndian_readBigEndian ((bs.drop 5).take 4)
    rw [hfour] at hbe
    unfold unpack
    simp only [hbe]
    rw [h4, List.headD_cons, List.append_assoc, List.cons_append,
      ← List.drop_drop (i := 4) (j := 5), List.take_append_drop, h5, ← h4, List.take_append_drop]

end FrameHeader

variable (sha256 : Bytes → Digest)

/-- The header in front of a payload. -/
def headerOf (payload : Bytes) : FrameHeader where
  magic := frameMagic
  version := frameVersion
  length := payload.length
  digest := (sha256 payload).val

theorem framePayload_eq_ok {payload framed : Bytes} :
    framePayload sha256 payload = .ok framed ↔
      ∃ header, (headerOf sha256 payload).pack = .ok header ∧ framed = header ++ payload := by
  unfold framePayload headerOf
  simp only
  cases FrameHeader.pack { magic := frameMagic, version := frameVersion, length := payload.length
                           digest := (sha256 payload).val } with
  | error exc => simp
  | ok header => simp [eq_comm]

theorem framePayload_isOk {payload : Bytes} :
    (∃ framed, framePayload sha256 payload = .ok framed) ↔ payload.length < 2 ^ 32 := by
  refine ⟨fun h => ?_, fun h => ?_⟩
  · obtain ⟨framed, hf⟩ := h
    obtain ⟨header, hh, -⟩ := (framePayload_eq_ok sha256).1 hf
    exact (FrameHeader.pack_eq_ok.1 hh).1
  · have hh : ∃ header, (headerOf sha256 payload).pack = .ok header :=
      ⟨_, FrameHeader.pack_eq_ok.2 ⟨h, rfl⟩⟩
    obtain ⟨header, hh⟩ := hh
    exact ⟨header ++ payload, (framePayload_eq_ok sha256).2 ⟨header, hh, rfl⟩⟩

/-- The five checks, and what is returned when they pass. -/
theorem unframePayload_eq_ok {data payload rest : Bytes} :
    unframePayload sha256 data = .ok (payload, rest) ↔
      frameHeaderSize ≤ data.length ∧
        FrameHeader.unpack (data.take frameHeaderSize) = headerOf sha256 payload ∧
        data.drop frameHeaderSize = payload ++ rest := by
  unfold unframePayload
  simp only
  set header := FrameHeader.unpack (data.take frameHeaderSize) with hheader
  by_cases hsize : data.length < frameHeaderSize
  · rw [if_pos hsize]
    exact iff_of_false (fun h => by cases h) fun h => absurd h.1 (not_le.2 hsize)
  rw [if_neg hsize, and_iff_right (not_lt.1 hsize), List.drop_take, Nat.add_sub_cancel_left,
    ← List.drop_drop]
  have hbody : data.length = frameHeaderSize + (data.drop frameHeaderSize).length := by
    rw [List.length_drop]
    omega
  rw [hbody]
  generalize data.drop frameHeaderSize = body
  clear_value header
  refine ⟨fun h => ?_, fun h => ?_⟩
  · split_ifs at h with hmagic hversion hlength hdigest
    obtain ⟨rfl, rfl⟩ := Prod.mk.inj (Except.ok.inj h)
    refine ⟨?_, (List.take_append_drop _ _).symm⟩
    have hlen : (body.take header.length).length = header.length := by
      rw [List.length_take]
      omega
    obtain ⟨magic, version, length, digest⟩ := header
    simp only [not_not] at hmagic hversion hdigest
    simp only [headerOf, FrameHeader.mk.injEq]
    exact ⟨hmagic, hversion, hlen.symm, hdigest.symm⟩
  · obtain ⟨rfl, rfl⟩ := h
    have hmagic : ¬ (headerOf sha256 payload).magic ≠ frameMagic := not_not.2 rfl
    have hversion : ¬ (headerOf sha256 payload).version ≠ frameVersion := not_not.2 rfl
    have hlen : (headerOf sha256 payload).length = payload.length := rfl
    have hdigest : ¬ (sha256 payload).val ≠ (headerOf sha256 payload).digest := not_not.2 rfl
    have henough : ¬ frameHeaderSize + (payload ++ rest).length < frameHeaderSize + payload.length := by
      rw [List.length_append]
      omega
    rw [if_neg hmagic, if_neg hversion, hlen, if_neg henough, List.take_left, List.drop_left,
      if_neg hdigest]

/-- The codec accepts the frames of the payloads that have one, and nothing else. -/
theorem selfDelimiting : SelfDelimiting (framePayload sha256) (unframePayload sha256) := by
  have hsize : ∀ {payload : Bytes} {header : Bytes},
      (headerOf sha256 payload).pack = .ok header → header.length = frameHeaderSize :=
    FrameHeader.length_pack rfl (sha256 _).2
  refine ⟨fun data payload rest => ?_, fun payload framed hf => ?_⟩
  · rw [unframePayload_eq_ok]
    refine ⟨fun h => ?_, fun h => ?_⟩
    · obtain ⟨hlen, hunpack, hbody⟩ := h
      have hpack := FrameHeader.pack_unpack (List.length_take_of_le hlen)
      rw [hunpack] at hpack
      refine ⟨_, (framePayload_eq_ok sha256).2 ⟨_, hpack, rfl⟩, ?_⟩
      rw [List.append_assoc, ← hbody, List.take_append_drop]
    · obtain ⟨framed, hf, rfl⟩ := h
      obtain ⟨header, hh, rfl⟩ := (framePayload_eq_ok sha256).1 hf
      rw [List.append_assoc, List.take_left' (hsize hh), List.drop_left' (hsize hh)]
      refine ⟨?_, FrameHeader.unpack_pack rfl hh, rfl⟩
      rw [List.length_append, hsize hh]
      omega
  · obtain ⟨header, hh, rfl⟩ := (framePayload_eq_ok sha256).1 hf
    intro hnil
    have hlen := hsize hh
    rw [(List.append_eq_nil_iff.1 hnil).1] at hlen
    cases hlen

/-- Unframe until it raises: the payloads, and the bytes that are left. -/
def unframeAll (data : Bytes) : List Bytes × Bytes :=
  drain (unframePayload sha256) (fun _ _ _ h => (selfDelimiting sha256).shorter h) data

/-- A byte string unframes exactly as the frame it starts with, raises where it starts with
none, as a frame cut short does, and a stream of frames unframes into its payloads. -/
theorem frame_codec_exact :
    (∀ data payload rest, unframePayload sha256 data = .ok (payload, rest) ↔
        payload.length < 2 ^ 32 ∧
          ∃ framed, framePayload sha256 payload = .ok framed ∧ data = framed ++ rest) ∧
      (∀ data, (∀ payload framed rest, framePayload sha256 payload = .ok framed →
        data ≠ framed ++ rest) → ∃ exc, unframePayload sha256 data = .error exc) ∧
      (∀ payload framed data, framePayload sha256 payload = .ok framed → data <+: framed →
        data ≠ framed → ∃ exc, unframePayload sha256 data = .error exc) ∧
      ∀ payloads frames tail,
        List.Forall₂ (fun payload framed => framePayload sha256 payload = .ok framed) payloads frames →
        (∀ payload framed rest, framePayload sha256 payload = .ok framed → tail ≠ framed ++ rest) →
        unframeAll sha256 (frames.flatten ++ tail) = (payloads, tail) := by
  have hcodec := selfDelimiting sha256
  refine ⟨fun data payload rest => ?_, fun data h => ?_, fun payload framed data hf hd hne => ?_,
    fun payloads frames tail hframes htail => ?_⟩
  · rw [hcodec.exact, ← framePayload_isOk sha256]
    refine ⟨fun h => ⟨?_, h⟩, fun h => h.2⟩
    obtain ⟨framed, hf, -⟩ := h
    exact ⟨framed, hf⟩
  · exact (hcodec.error_iff data).2 fun payload framed rest hf => h payload framed rest hf
  · exact hcodec.rejects_initial hf hd hne
  · exact hcodec.drain_flatten _ htail hframes

/-- A checksum in the place of the digest, for the fixed inputs below. -/
def sampleDigest (data : Bytes) : Digest := ⟨List.replicate 32 (data.headD 0), rfl⟩

theorem frame_codec_exact_example :
    let frame (payload : Bytes) : Bytes :=
      frameMagic ++ frameVersion :: bigEndian 4 payload.length ++ (sampleDigest payload).val ++ payload
    unframeAll sampleDigest ([frame [1, 2], frame []].flatten ++ [0x44]) = ([[1, 2], []], [0x44]) := by
  have hcodec := frame_codec_exact sampleDigest
  refine hcodec.2.2.2 [[1, 2], []] _ [0x44] ?_ fun payload framed rest hf htail => ?_
  · exact .cons (by decide +kernel) (.cons (by decide +kernel) .nil)
  · have hlen := (framePayload_isOk sampleDigest).1 ⟨framed, hf⟩
    have hok := (hcodec.1 [0x44] payload rest).2 ⟨hlen, framed, hf, htail⟩
    cases hok

end Dhava
