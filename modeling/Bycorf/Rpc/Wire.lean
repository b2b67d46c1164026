/-
  The RPC wire format: the fixed 16-byte header and the frames built from it.

  The header is encoded field by field, little-endian (`Store16`/`Store32`/`Store64`), never
  copied as a struct; `encodeHeader`/`decodeHeader` follow those calls at the same offsets.  The
  family of stores and loads is one shift loop (`Bycorf.Lib.storeLE`/`loadLE`) at three widths.
-/
import Bycorf.Lib.LittleEndian

namespace Bycorf.Rpc

open Bycorf.Lib

/-- What is read from and written to a stream. -/
abbrev Bytes := List UInt8

/-- The header of a frame, 16 bytes on the wire. -/
structure WireHeader where
  reqId : UInt64
  len : UInt32
  verb : UInt16
  type : UInt8
  pad : UInt8
deriving DecidableEq, Repr

def kRequest : UInt8 := 0
def kResponse : UInt8 := 1

/-- `sizeof(WireHeader)`. -/
def kHeader : Nat := 16

/-- The longest payload that either side accepts. -/
def kMaxPayloadBytes : Nat := 16 * 1024 * 1024

/-- The fields are little-endian. -/
def store16 (value : UInt16) : Bytes := storeLE 2 value.toNat
def store32 (value : UInt32) : Bytes := storeLE 4 value.toNat
def store64 (value : UInt64) : Bytes := storeLE 8 value.toNat

def load16 (input : Bytes) : UInt16 := UInt16.ofNat (loadLE 2 input)
def load32 (input : Bytes) : UInt32 := UInt32.ofNat (loadLE 4 input)
def load64 (input : Bytes) : UInt64 := UInt64.ofNat (loadLE 8 input)

/-- `EncodeHeader`: the fields in their order. -/
def encodeHeader (header : WireHeader) : Bytes :=
  store64 header.reqId ++ store32 header.len ++ store16 header.verb ++ [header.type, header.pad]

/-- `DecodeHeader(in)`: `input` is what the pointer `in` points at. -/
def decodeHeader (input : Bytes) : WireHeader where
  reqId := load64 input
  len := load32 (input.drop 8)
  verb := load16 (input.drop 12)
  type := input.getD 14 0
  pad := input.getD 15 0

/-- `AppendFrame`: header and payload behind what is to be written. -/
def appendFrame (out : Bytes) (header : WireHeader) (payload : Bytes) : Bytes :=
  out ++ encodeHeader header ++ payload

/-! ## Round trips -/

theorem load16_store16 (value : UInt16) (rest : Bytes) :
    load16 (store16 value ++ rest) = value := by
  rw [load16, store16, loadLE_storeLE value.toNat_lt]
  exact UInt16.ofNat_toNat

theorem load32_store32 (value : UInt32) (rest : Bytes) :
    load32 (store32 value ++ rest) = value := by
  rw [load32, store32, loadLE_storeLE value.toNat_lt]
  exact UInt32.ofNat_toNat

theorem load64_store64 (value : UInt64) (rest : Bytes) :
    load64 (store64 value ++ rest) = value := by
  rw [load64, store64, loadLE_storeLE value.toNat_lt]
  exact UInt64.ofNat_toNat

@[simp] theorem length_encodeHeader (header : WireHeader) :
    (encodeHeader header).length = kHeader := by
  simp [encodeHeader, store16, store32, store64, kHeader]

/-- Decoding reads back the encoded header, whatever follows it in the buffer. -/
theorem decodeHeader_encodeHeader (header : WireHeader) (rest : Bytes) :
    decodeHeader (encodeHeader header ++ rest) = header := by
  have h8 : (store64 header.reqId).length = 8 := by simp [store64]
  have h4 : (store32 header.len).length = 4 := by simp [store32]
  have h2 : (store16 header.verb).length = 2 := by simp [store16]
  have hsplit : encodeHeader header ++ rest =
      store64 header.reqId ++ (store32 header.len ++ (store16 header.verb ++
        (header.type :: header.pad :: rest))) := by
    simp [encodeHeader]
  have hdrop8 : (encodeHeader header ++ rest).drop 8 =
      store32 header.len ++ (store16 header.verb ++ (header.type :: header.pad :: rest)) := by
    rw [hsplit, List.drop_left' h8]
  have hdrop12 : (encodeHeader header ++ rest).drop 12 =
      store16 header.verb ++ (header.type :: header.pad :: rest) := by
    have h := congrArg (List.drop 4) hdrop8
    rw [List.drop_drop, List.drop_left' h4] at h
    exact h
  have hdrop14 : (encodeHeader header ++ rest).drop 14 = header.type :: header.pad :: rest := by
    have h := congrArg (List.drop 2) hdrop12
    rw [List.drop_drop, List.drop_left' h2] at h
    exact h
  have htype : (encodeHeader header ++ rest).getD 14 0 = header.type := by
    have h := congrArg (fun l => l.getD 0 0) hdrop14
    simpa [List.getD_eq_getElem?_getD, List.getElem?_drop] using h
  have hpad : (encodeHeader header ++ rest).getD 15 0 = header.pad := by
    have h := congrArg (fun l => l.getD 1 0) hdrop14
    simpa [List.getD_eq_getElem?_getD, List.getElem?_drop] using h
  rw [decodeHeader, hdrop8, hdrop12, htype, hpad, load32_store32, load16_store16, hsplit,
    load64_store64]

variable {input : Bytes}

theorem store16_load16 (h : 2 ≤ input.length) : store16 (load16 input) = input.take 2 := by
  rw [store16, load16, UInt16.toNat_ofNat_of_lt' (loadLE_lt 2 input), storeLE_loadLE h]

theorem store32_load32 (h : 4 ≤ input.length) : store32 (load32 input) = input.take 4 := by
  rw [store32, load32, UInt32.toNat_ofNat_of_lt' (loadLE_lt 4 input), storeLE_loadLE h]

theorem store64_load64 (h : 8 ≤ input.length) : store64 (load64 input) = input.take 8 := by
  rw [store64, load64, UInt64.toNat_ofNat_of_lt' (loadLE_lt 8 input), storeLE_loadLE h]

/-- Encoding writes back the header that was decoded: no two byte strings decode alike. -/
theorem encodeHeader_decodeHeader (h : kHeader ≤ input.length) :
    encodeHeader (decodeHeader input) = input.take kHeader := by
  have hlen : 16 ≤ input.length := h
  have h8 : store64 (load64 input) = input.take 8 := store64_load64 (by omega)
  have h4 : store32 (load32 (input.drop 8)) = (input.drop 8).take 4 :=
    store32_load32 (by rw [List.length_drop]; omega)
  have h2 : store16 (load16 (input.drop 12)) = (input.drop 12).take 2 :=
    store16_load16 (by rw [List.length_drop]; omega)
  have hbytes : [input.getD 14 0, input.getD 15 0] = (input.drop 14).take 2 := by
    rw [List.drop_eq_getElem_cons (by omega), List.take_succ_cons,
      List.drop_eq_getElem_cons (by omega), List.take_succ_cons, List.take_zero]
    simp [List.getD_eq_getElem?_getD, show 14 < input.length by omega,
      show 15 < input.length by omega]
  -- the four pieces are consecutive
  have hjoin : ∀ a b : Nat, input.take a ++ (input.drop a).take b = input.take (a + b) :=
    fun a b => List.take_add.symm
  show store64 (load64 input) ++ store32 (load32 (input.drop 8)) ++
    store16 (load16 (input.drop 12)) ++ [input.getD 14 0, input.getD 15 0] = input.take 16
  rw [h8, h4, h2, hbytes, hjoin 8 4, hjoin 12 2, hjoin 14 2]

/-- Decoding looks at the first `kHeader` bytes only. -/
theorem decodeHeader_take (input : Bytes) :
    decodeHeader (input.take kHeader) = decodeHeader input := by
  have hload : ∀ n k, n + k ≤ kHeader → ∀ l : Bytes,
      loadLE n ((l.take kHeader).drop k) = loadLE n (l.drop k) := by
    intro n k hnk l
    apply Nat.eq_of_testBit_eq
    intro j
    rw [testBit_loadLE, testBit_loadLE]
    rcases Nat.lt_or_ge j (8 * n) with hj | hj
    · have hk : k + j / 8 < kHeader := by omega
      simp [List.getD_eq_getElem?_getD, List.getElem?_drop, hk]
    · rw [decide_eq_false (by omega), Bool.false_and, Bool.false_and]
  have h8 := hload 8 0 (by decide) input
  have h4 := hload 4 8 (by decide) input
  have h2 := hload 2 12 (by decide) input
  rw [List.drop_zero, List.drop_zero] at h8
  simp only [decodeHeader, load64, load32, load16, h8, h4, h2]
  simp [List.getD_eq_getElem?_getD, kHeader]

/-! ## Concatenated frames -/

theorem decodeHeader_header (header : WireHeader) :
    decodeHeader (encodeHeader header) = header := by
  simpa using decodeHeader_encodeHeader header []

/-- The first frame of a concatenation can be read off: its header says how long it is. -/
theorem appendFrame_inj {f g : WireHeader × Bytes} {rest rest' : Bytes}
    (hf : f.1.len.toNat = f.2.length) (hg : g.1.len.toNat = g.2.length)
    (h : appendFrame [] f.1 f.2 ++ rest = appendFrame [] g.1 g.2 ++ rest') :
    f = g ∧ rest = rest' := by
  simp only [appendFrame, List.nil_append, List.append_assoc] at h
  obtain ⟨hcode, hpayload⟩ := List.append_inj h (by simp)
  have hheader : f.1 = g.1 := by
    rw [← decodeHeader_header f.1, hcode, decodeHeader_header]
  obtain ⟨hbytes, hrest⟩ := List.append_inj hpayload (by rw [← hf, ← hg, hheader])
  exact ⟨Prod.ext hheader hbytes, hrest⟩

/-- **The codec is a bijection**, and frames whose length fields are right can be told apart in a
    stream. -/
theorem header_codec_bijective : (∀ header, decodeHeader (encodeHeader header) = header) ∧
    (∀ bytes : Bytes, bytes.length = kHeader → encodeHeader (decodeHeader bytes) = bytes) ∧
    ∀ fs gs : List (WireHeader × Bytes), (∀ f ∈ fs, f.1.len.toNat = f.2.length) →
      (∀ g ∈ gs, g.1.len.toNat = g.2.length) →
      fs.flatMap (fun f => appendFrame [] f.1 f.2) = gs.flatMap (fun g => appendFrame [] g.1 g.2) →
      fs = gs := by
  refine ⟨decodeHeader_header, fun bytes hlen => ?_, fun fs => ?_⟩
  · rw [encodeHeader_decodeHeader hlen.ge, ← hlen, List.take_length]
  · -- a frame is never empty, so both lists end together
    have hpos : ∀ (f : WireHeader × Bytes) (rest : Bytes), [] ≠ appendFrame [] f.1 f.2 ++ rest := by
      intro f rest hnil
      have := congrArg List.length hnil
      simp [appendFrame, kHeader] at this
      omega
    induction fs with
    | nil =>
      intro gs _ _ h
      cases gs with
      | nil => rfl
      | cons g gs => exact absurd h (hpos g _)
    | cons f fs ih =>
      intro gs hfs hgs h
      rcases gs with _ | ⟨g, gs⟩
      · exact absurd h.symm (hpos f _)
      rw [List.forall_mem_cons] at hfs hgs
      obtain ⟨rfl, hrest⟩ := appendFrame_inj hfs.1 hgs.1 h
      rw [ih gs hfs.2 hgs.2 hrest]

end Bycorf.Rpc
