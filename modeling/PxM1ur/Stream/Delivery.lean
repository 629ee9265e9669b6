import PxM1ur.Stream.Wrap
import PxM1ur.Stream.Chunking

/-! What `ptx_chrdev_put_stream` receives over a capture, as the 32-bit code runs it. From the
context `m1ur_chrdev_start_capture` leaves and for chunks of at most 2^32 - 752 bytes each,
every call returns and the run emits the blocks of the list model, so the list model's results
hold of the code: a stream of whole packets cut into chunks of at least 1503 bytes is emitted
whole, every block is well formed, the blocks are disjoint intervals of the input in order, and
the carry-over is a tail of the input, shorter than 752 bytes, that begins where the last block
ended. Small chunks break the first; past the bound the runs of `PxM1ur.Stream.Wrap` break the
other three. -/

namespace PxM1ur

section Capture

variable (remainBuf : Nat → UInt8) {chunks : List BusChunk}
  (fits : ∀ c ∈ chunks, c.len.toNat ≤ 2 ^ 32 - m1urDeviceTsSyncSize) {fuel : Nat}
  (enough : ∀ c ∈ chunks, c.len.toNat + m1urDeviceTsSyncSize < fuel)
include fits enough

theorem captureRunM_whole_packets (P : List (List UInt8)) (valid : ∀ pkt ∈ P, ValidPacket pkt)
    (split : (chunks.map BusChunk.bytes).flatten = P.flatten)
    (large : ∀ c ∈ chunks, 2 * m1urDeviceTsSyncSize - 1 ≤ c.len.toNat) :
    (∃ fxs ctxM, streamRunM ⟨remainBuf, 0⟩ fuel chunks = some (fxs, ctxM) ∧
      (fxs.map effectBlocks).flatten.flatten = P.flatten) ∧
    ∀ c : BusChunk, c.bytes = P.flatten → c.len.toNat ≤ 2 ^ 32 - m1urDeviceTsSyncSize →
      c.len.toNat + m1urDeviceTsSyncSize < fuel →
      ∃ fxs ctxM, streamRunM ⟨remainBuf, 0⟩ fuel [c] = some (fxs, ctxM) ∧
        (fxs.map effectBlocks).flatten.flatten = P.flatten := by
  have whole := streamRun_whole_packets P valid (chunks.map BusChunk.bytes) split fun b mem => by
    obtain ⟨c, inChunks, rfl⟩ := List.mem_map.mp mem
    simpa using large c inChunks
  obtain ⟨fxs, ctxM, run, -, blocks, -⟩ :=
    streamRunM_spec (.captureStart remainBuf) carryInv_captureStart fits enough
  refine ⟨⟨fxs, ctxM, run, by rw [blocks]; exact whole.1⟩, fun c bytes short room => ?_⟩
  obtain ⟨fxs', ctxM', run', -, blocks', -⟩ :=
    streamRunM_spec (.captureStart remainBuf) carryInv_captureStart
      (show ∀ c' ∈ [c], c'.len.toNat ≤ 2 ^ 32 - m1urDeviceTsSyncSize by simpa using short)
      (show ∀ c' ∈ [c], c'.len.toNat + m1urDeviceTsSyncSize < fuel by simpa using room)
  refine ⟨fxs', ctxM', run', ?_⟩
  rw [blocks', List.map_singleton, bytes]
  exact whole.2

omit fits enough in
theorem captureRunM_whole_packets_two_chunks :
    (∀ c ∈ [BusChunk.mk tsBytes (.ofNat 32 (188 * 8)), ⟨tsBytes, .ofNat 32 (188 * 8)⟩],
      c.len.toNat ≤ 2 ^ 32 - m1urDeviceTsSyncSize ∧ c.len.toNat + m1urDeviceTsSyncSize < 3000 ∧
        2 * m1urDeviceTsSyncSize - 1 ≤ c.len.toNat) ∧
    ([BusChunk.mk tsBytes (.ofNat 32 (188 * 8)), ⟨tsBytes, .ofNat 32 (188 * 8)⟩].map
        BusChunk.bytes).flatten =
      (List.replicate 16 (0x47 :: List.replicate 187 0 : List UInt8)).flatten ∧
    ∃ fxs ctxM, streamRunM ⟨fun _ => 0, 0⟩ 3000
        [⟨tsBytes, .ofNat 32 (188 * 8)⟩, ⟨tsBytes, .ofNat 32 (188 * 8)⟩] = some (fxs, ctxM) ∧
      (fxs.map effectBlocks).flatten.flatten =
        (List.replicate 16 (0x47 :: List.replicate 187 0 : List UInt8)).flatten := by
  have split : ([BusChunk.mk tsBytes (.ofNat 32 (188 * 8)), ⟨tsBytes, .ofNat 32 (188 * 8)⟩].map
      BusChunk.bytes).flatten =
      (List.replicate 16 (0x47 :: List.replicate 187 0 : List UInt8)).flatten := by
    rw [List.map_cons, List.map_cons, List.map_nil, bytes_tsBytes (by decide), List.flatten_cons,
      List.flatten_cons, List.flatten_nil, List.append_nil, ← List.flatten_append,
      ← List.replicate_add]
  exact ⟨by decide, split, (captureRunM_whole_packets (fun _ => 0) (by decide) (by decide) _
    (validPacket_replicate 16) split (by decide)).1⟩

omit fits enough in
/-- Delivered one byte at a time, four packets are stepped over byte by byte and nothing is
emitted; delivered as one chunk, they are emitted as one block. -/
theorem chunking_changes_output :
    (((List.range 752).map fun j => BusChunk.mk (fun _ => tsBytes j) 1).map BusChunk.bytes).flatten =
        (BusChunk.mk tsBytes 752).bytes ∧
    (∃ fxs ctxM, streamRunM ⟨fun _ => 0, 0⟩ 1505
        ((List.range 752).map fun j => BusChunk.mk (fun _ => tsBytes j) 1) = some (fxs, ctxM) ∧
      (fxs.map effectBlocks).flatten = []) ∧
    ∃ fxs ctxM, streamRunM ⟨fun _ => 0, 0⟩ 1505 [⟨tsBytes, 752⟩] = some (fxs, ctxM) ∧
      (fxs.map effectBlocks).flatten =
        [(List.replicate 4 (0x47 :: List.replicate 187 0 : List UInt8)).flatten] := by
  have single : ∀ j, (BusChunk.mk (fun _ => tsBytes j) 1).bytes = [tsBytes j] := fun _ => rfl
  have small : ∀ c ∈ (List.range 752).map fun j => BusChunk.mk (fun _ => tsBytes j) 1,
      c.len.toNat ≤ 2 ^ 32 - m1urDeviceTsSyncSize ∧ c.len.toNat + m1urDeviceTsSyncSize < 1505 :=
    fun c mem => by
      obtain ⟨j, -, rfl⟩ := List.mem_map.mp mem
      exact (by decide : (1 : BitVec 32).toNat ≤ 2 ^ 32 - m1urDeviceTsSyncSize ∧
        (1 : BitVec 32).toNat + m1urDeviceTsSyncSize < 1505)
  obtain ⟨fxs, ctxM, run, -, blocks, -⟩ := streamRunM_spec (.captureStart fun _ => 0)
    carryInv_captureStart (fun c mem => (small c mem).1) (fun c mem => (small c mem).2)
  obtain ⟨fxs', ctxM', run', -, blocks', -⟩ := streamRunM_spec
    (.captureStart fun _ => 0) carryInv_captureStart
    (by decide : ∀ c ∈ [BusChunk.mk tsBytes 752], c.len.toNat ≤ 2 ^ 32 - m1urDeviceTsSyncSize)
    (by decide : ∀ c ∈ [BusChunk.mk tsBytes 752], c.len.toNat + m1urDeviceTsSyncSize < 1505)
  have pass := process_packets (validPacket_replicate 4) (by rw [List.length_replicate]; decide)
    (show ([] : List UInt8).length < 188 by decide)
  rw [List.append_nil] at pass
  refine ⟨?_, ⟨fxs, ctxM, run, ?_⟩, ⟨fxs', ctxM', run', ?_⟩⟩
  · rw [List.map_map, show (BusChunk.bytes ∘ fun j => BusChunk.mk (fun _ => tsBytes j) 1) =
      fun j => [tsBytes j] from funext single, BusChunk.bytes, List.map_eq_flatMap tsBytes,
      List.flatMap]
    rfl
  · rw [blocks, streamRun_short_chunks fun b mem => by
      obtain ⟨c, inChunks, rfl⟩ := List.mem_map.mp mem
      obtain ⟨j, -, rfl⟩ := List.mem_map.mp inChunks
      rw [single, List.length_singleton]
      decide]
    simp only [putStreamBlocks_map_skip]
  · rw [blocks', List.map_singleton, show (752 : BitVec 32) = .ofNat 32 (188 * 4) from rfl,
      bytes_tsBytes (by decide), streamRun_cons, handler_captureStart, pass]
    rfl

theorem captureRunM_blocks_wellFormed :
    ∃ fxs ctxM, streamRunM ⟨remainBuf, 0⟩ fuel chunks = some (fxs, ctxM) ∧
      ∀ block ∈ (fxs.map effectBlocks).flatten, WellFormedBlock block := by
  obtain ⟨fxs, ctxM, run, -, blocks, -⟩ :=
    streamRunM_spec (.captureStart remainBuf) carryInv_captureStart fits enough
  exact ⟨fxs, ctxM, run, blocks ▸ streamRun_blocks_wellFormed _ _⟩

omit fits enough in
theorem captureRunM_blocks_wellFormed_four_packets :
    (∀ c ∈ [BusChunk.mk tsBytes 753], c.len.toNat ≤ 2 ^ 32 - m1urDeviceTsSyncSize ∧
      c.len.toNat + m1urDeviceTsSyncSize < 1600) ∧
    ∃ fxs ctxM, streamRunM ⟨fun _ => 0, 0⟩ 1600 [⟨tsBytes, 753⟩] = some (fxs, ctxM) ∧
      ∀ block ∈ (fxs.map effectBlocks).flatten, WellFormedBlock block :=
  ⟨by decide, captureRunM_blocks_wellFormed _ (by decide) (by decide)⟩

omit fits enough in
/-- Past the bound: one chunk of 22845570 packets and a sync byte, 2^32 - 135 bytes, makes the
handler pass `ptx_chrdev_put_stream` a block of 52 bytes. -/
theorem captureRunM_emits_short_block :
    ∃ fxs ctxM, streamRunM ⟨fun _ => 0, 0⟩ (2 ^ 32)
        [⟨tsBytes, .ofNat 32 (188 * 22845570 + 1)⟩] = some (fxs, ctxM) ∧
      ∃ block ∈ (fxs.map effectBlocks).flatten, ¬ WellFormedBlock block := by
  obtain ⟨fx, ctxM, call, blocks, -⟩ := handlerM_wrapped_packets fun _ => 0
  refine ⟨[fx], ctxM,
    by rw [streamRunM_cons_of (c := ⟨tsBytes, .ofNat 32 (188 * 22845570 + 1)⟩) call]; rfl,
    (List.range 52).map tsBytes, ?_, fun wellFormed => ?_⟩
  · rw [List.map_singleton, List.flatten_singleton, blocks]
    exact List.mem_cons_self _ _
  · have long := ((wellFormedBlock_iff _).mp wellFormed).1
    simp at long

omit fits enough in
theorem bytes_seven_tsBytes :
    (BusChunk.mk (fun j => if j = 0 then 7 else tsBytes (j + 1)) 1000).bytes =
      7 :: (List.range 999).map fun j => tsBytes (j + 2) := by
  rw [BusChunk.bytes, show (1000 : BitVec 32).toNat = 999 + 1 from rfl, List.range_succ_eq_map,
    List.map_cons, List.map_map]
  exact congrArg (List.cons 7) (List.map_congr_left fun j _ =>
    show (if j + 1 = 0 then (7 : UInt8) else tsBytes (j + 1 + 1)) = tsBytes (j + 2) from
      if_neg (Nat.succ_ne_zero j))

omit fits enough in
theorem locked_stale_window :
    Locked ([0x47] ++
      (BusChunk.mk (fun j => if j = 0 then 7 else tsBytes (j + 1)) 1000).bytes.take 751) := by
  intro j lt
  simp only [m1urDeviceTsSyncCount_eq] at lt
  refine ⟨by simp; omega, ?_⟩
  cases j with
  | zero => rfl
  | succ j =>
    rw [getD_append_of_le (by simp; omega), getD_take_of_lt (by simp; omega),
      ← BusChunk.getD_bytes _ (by simp; omega)]
    show (if _ = 0 then 7 else tsBytes _) = 0x47
    rw [if_neg (by simp; omega), show (j + 1) * 188 - [(0x47 : UInt8)].length + 1 =
      188 * (j + 1) + 0 by simp; omega, tsBytes_add_mul]
    rfl

end Capture

end PxM1ur
