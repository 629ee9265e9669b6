import PxM1ur.Stream.Wrap

/-! How `m1ur_device_stream_process` finds the stream again, on the list model and as the 32-bit
code runs it. An offset the pass reaches is stepped over exactly when its four slots do not all
lie inside the window and begin with 0x47, and a block is emitted from it otherwise; a run of
fewer than four synced slots is stepped over, not kept. So a chunk of garbage followed by whole
packets and a short tail is emitted as the packets alone, with the tail kept. For chunks of at
most 2^32 - 752 bytes the code does what the list model does; past the bound the wrapped scan
of `PxM1ur.Stream.Wrap` emits a 52-byte block instead. -/

namespace PxM1ur

theorem locked_drop_iff (w : List UInt8) (o : Nat) :
    Locked (w.drop o) ↔ ∀ j < 4, o + (j + 1) * 188 ≤ w.length ∧ w.getD (o + j * 188) 0 = 0x47 := by
  simp only [Locked, SlotSynced, m1urDeviceTsSyncCount_eq, List.length_drop,
    List.getD_eq_getElem?_getD, List.getElem?_drop]
  exact forall₂_congr fun j _ => and_congr_left' (by omega)

theorem handler_resync (g r : List UInt8) (P : List (List UInt8))
    (many : 4 ≤ P.length) (valid : ∀ pkt ∈ P, ValidPacket pkt) (short : r.length < 188)
    (unlocked : ∀ o < g.length, ¬ ∀ j < 4,
      o + (j + 1) * 188 ≤ (g ++ P.flatten ++ r).length ∧
        (g ++ P.flatten ++ r).getD (o + j * 188) 0 = 0x47) :
    m1urDeviceStreamHandler .captureStart (g ++ P.flatten ++ r) =
      (g.map .skip ++ [.put P.flatten], ⟨r⟩) := by
  have pass :
      m1urDeviceStreamProcess (g ++ P.flatten ++ r) = (g.map .skip ++ [.put P.flatten], r) := by
    rw [List.append_assoc, process_garbage g _ fun o lt => by
        rw [← List.append_assoc, locked_drop_iff]; exact unlocked o lt,
      process_packets valid (by simpa using many) short]
  rw [handler_captureStart, pass]

/-- One chunk `g ++ P ++ r` of at most 2^32 - 752 bytes from a capture start, with no offset of
the garbage `g` locked: the 32-bit handler returns, hands `ptx_chrdev_put_stream` the packets `P`
as one block, keeps `r` in `remain_buf` and steps over exactly the bytes of `g`. -/
theorem handlerM_resync (remainBuf : Nat → UInt8) (g r : List UInt8) (P : List (List UInt8))
    (many : 4 ≤ P.length) (valid : ∀ pkt ∈ P, ValidPacket pkt) (short : r.length < 188)
    (unlocked : ∀ o < g.length, ¬ ∀ j < 4,
      o + (j + 1) * 188 ≤ (g ++ P.flatten ++ r).length ∧
        (g ++ P.flatten ++ r).getD (o + j * 188) 0 = 0x47)
    {c : BusChunk} (bytes : c.bytes = g ++ P.flatten ++ r)
    (fits : c.len.toNat ≤ 2 ^ 32 - m1urDeviceTsSyncSize) {fuel : Nat}
    (enough : c.len.toNat + m1urDeviceTsSyncSize < fuel) :
    ∃ fx ctxM, m1urDeviceStreamHandlerM ⟨remainBuf, 0⟩ c.buf c.len fuel = some (fx, ctxM) ∧
      effectBlocks fx = [P.flatten] ∧ ctxM.carryOver = r ∧
      m1urDeviceStreamHandler .captureStart c.bytes = (g.map .skip ++ [.put P.flatten], ⟨r⟩) := by
  have list := handler_resync g r P many valid short unlocked
  obtain ⟨fx, ctxM, call, -, blocks, holds⟩ :=
    handlerM_chunk (.captureStart remainBuf) (by decide) fits enough
  rw [bytes, list] at blocks holds
  rw [bytes]
  exact ⟨fx, ctxM, call, by simpa using blocks, holds.carryOver, list⟩

theorem bytes_garbage_packets :
    (BusChunk.mk (fun j => tsBytes (j + 185)) 755).bytes =
      [0, 0, 0] ++ (List.replicate 4 (0x47 :: List.replicate 187 0 : List UInt8)).flatten ++ [] := by
  have packets : (List.range (188 * 4)).map ((fun j => tsBytes (j + 185)) ∘ (3 + ·)) =
      (List.replicate 4 (0x47 :: List.replicate 187 0 : List UInt8)).flatten := by
    rw [← map_range_tsBytes 1 4]
    refine List.map_congr_left fun j _ => ?_
    rw [Function.comp_apply]
    exact congrArg tsBytes (by omega)
  rw [BusChunk.bytes, show (755 : BitVec 32).toNat = 3 + 188 * 4 from rfl, List.range_add,
    List.map_append, List.map_map, packets, List.append_nil]
  rfl

theorem handlerM_resync_three_garbage_bytes :
    (BusChunk.mk (fun j => tsBytes (j + 185)) 755).bytes =
        [0, 0, 0] ++ (List.replicate 4 (0x47 :: List.replicate 187 0 : List UInt8)).flatten ++ [] ∧
      (∀ o < ([0, 0, 0] : List UInt8).length, ¬ ∀ j < 4,
        o + (j + 1) * 188 ≤ ([0, 0, 0] ++
          (List.replicate 4 (0x47 :: List.replicate 187 0 : List UInt8)).flatten ++ []).length ∧
        ([0, 0, 0] ++ (List.replicate 4 (0x47 :: List.replicate 187 0 : List UInt8)).flatten ++
          []).getD (o + j * 188) 0 = 0x47) ∧
    ∃ fx ctxM, m1urDeviceStreamHandlerM ⟨fun _ => 0, 0⟩ (fun j => tsBytes (j + 185)) 755 1600 =
        some (fx, ctxM) ∧
      effectBlocks fx = [(List.replicate 4 (0x47 :: List.replicate 187 0 : List UInt8)).flatten] ∧
      ctxM.carryOver = [] := by
  have unlocked : ∀ o < ([0, 0, 0] : List UInt8).length, ¬ ∀ j < 4,
      o + (j + 1) * 188 ≤ ([0, 0, 0] ++
        (List.replicate 4 (0x47 :: List.replicate 187 0 : List UInt8)).flatten ++ []).length ∧
      ([0, 0, 0] ++ (List.replicate 4 (0x47 :: List.replicate 187 0 : List UInt8)).flatten ++
        []).getD (o + j * 188) 0 = 0x47 := by
    intro o lt all
    have first := (all 0 (by decide)).2
    have three : ([0, 0, 0] : List UInt8).length = 3 := rfl
    rcases o with _ | _ | _ | o
    all_goals first | exact absurd first (by decide) | omega
  obtain ⟨fx, ctxM, call, blocks, carry, -⟩ := handlerM_resync (fun _ => 0) [0, 0, 0] [] _
    (List.length_replicate 4 _).ge (validPacket_replicate 4) (by decide) unlocked
    bytes_garbage_packets (by decide) (by decide : (755 : BitVec 32).toNat + 752 < 1600)
  dsimp only at call
  exact ⟨bytes_garbage_packets, unlocked, fx, ctxM, call, blocks, carry⟩

/-- Past the bound: the chunk of 22845570 packets and a sync byte, 2^32 - 135 bytes, has no
garbage and a one-byte tail, yet the handler emits a 52-byte block before the packets. -/
theorem handlerM_resync_wraps :
    (BusChunk.mk tsBytes (.ofNat 32 (188 * 22845570 + 1))).bytes =
        [] ++ (List.replicate 22845570 (0x47 :: List.replicate 187 0 : List UInt8)).flatten ++
          [0x47] ∧
      ∃ fx ctxM, m1urDeviceStreamHandlerM ⟨fun _ => 0, 0⟩ tsBytes (.ofNat 32 (188 * 22845570 + 1))
          (2 ^ 32) = some (fx, ctxM) ∧
        effectBlocks fx ≠
          [(List.replicate 22845570 (0x47 :: List.replicate 187 0 : List UInt8)).flatten] := by
  obtain ⟨fx, ctxM, call, blocks, -⟩ := handlerM_wrapped_packets fun _ => 0
  refine ⟨?_, fx, ctxM, call, fun eq => List.cons_ne_nil _ _ (List.cons.inj (blocks.symm.trans eq)).2⟩
  have whole := map_range_tsBytes 0 22845570
  rw [show (fun j => tsBytes (188 * 0 + j)) = tsBytes from
    funext fun j => by rw [Nat.mul_zero, Nat.zero_add]] at whole
  rw [BusChunk.bytes, BitVec.toNat_ofNat, Nat.mod_eq_of_lt (by decide), List.range_succ,
    List.map_append, List.map_singleton, List.nil_append]
  exact congrArg₂ (· ++ ·) whole (congrArg (· :: []) (by
    show tsBytes (188 * 22845570 + 0) = 0x47
    rw [tsBytes_add_mul]
    rfl))

theorem windowBytes_remainder (mem : Buffer → Nat → UInt8) (p : Ptr) (n : Nat) :
    windowBytes mem ⟨p.buffer, p.offset +
        (n - (m1urDeviceStreamProcess (windowBytes mem p n)).2.length)⟩
      (m1urDeviceStreamProcess (windowBytes mem p n)).2.length =
      (m1urDeviceStreamProcess (windowBytes mem p n)).2 := by
  obtain ⟨w, window⟩ : ∃ w, windowBytes mem p n = w := ⟨_, rfl⟩
  have length : w.length = n := by rw [← window]; simp [windowBytes]
  have split := windowBytes_add mem p (n - (m1urDeviceStreamProcess w).2.length)
    (m1urDeviceStreamProcess w).2.length
  rw [Nat.sub_add_cancel (length ▸ length_process_le w), window] at split
  have tail : windowBytes mem ⟨p.buffer, p.offset + (n - (m1urDeviceStreamProcess w).2.length)⟩
      (m1urDeviceStreamProcess w).2.length = w.drop (n - (m1urDeviceStreamProcess w).2.length) :=
    (List.drop_left' (by simp [windowBytes])).symm.trans (congrArg (List.drop _) split.symm)
  rw [window, tail, ← length]
  exact (remainder_eq_drop w).symm

/-- The pass as the 32-bit code runs it, on every window of fewer than 2^32 - 188 bytes: it
returns, steps over a byte exactly where the window from it is not locked and emits a block
exactly where it is (`Justified`), stops where the list model leaves its remainder, and leaves
nothing or fewer than 188 bytes right after a block. From a capture start the handler keeps as
its carry-over exactly the remainder of that pass over the chunk. -/
theorem processM_skips_where_unlocked :
    (∀ (mem : Buffer → Nat → UInt8) (p : Ptr) (remain : BitVec 32) (fuel : Nat),
      remain.toNat + 188 < 2 ^ 32 → remain.toNat < fuel →
      ∃ p' rest fx, m1urDeviceStreamProcessM mem fuel p remain = some (p', rest, fx) ∧
        Justified (windowBytes mem p remain.toNat)
          (m1urDeviceStreamProcess (windowBytes mem p remain.toNat)).1 ∧
        effectBlocks fx = putStreamBlocks (m1urDeviceStreamProcess (windowBytes mem p remain.toNat)).1 ∧
        windowBytes mem p' rest.toNat = (m1urDeviceStreamProcess (windowBytes mem p remain.toNat)).2 ∧
        (rest = 0 ∨ (rest.toNat < 188 ∧ ∃ acts block,
          (m1urDeviceStreamProcess (windowBytes mem p remain.toNat)).1 = acts ++ [.put block]))) ∧
    ∀ (remainBuf : Nat → UInt8) (c : BusChunk) (fuel : Nat),
      c.len.toNat ≤ 2 ^ 32 - m1urDeviceTsSyncSize → c.len.toNat + m1urDeviceTsSyncSize < fuel →
      ∃ fx ctxM, m1urDeviceStreamHandlerM ⟨remainBuf, 0⟩ c.buf c.len fuel = some (fx, ctxM) ∧
        ctxM.carryOver = (m1urDeviceStreamProcess c.bytes).2 := by
  refine ⟨fun mem p remain fuel room enough => ?_, fun remainBuf c fuel fits enough => ?_⟩
  · have length : (windowBytes mem p remain.toNat).length = remain.toNat := by simp [windowBytes]
    obtain ⟨rest, fx, run, restLen, blocks, -⟩ := processM_spec _ p remain fuel
      (windowAt_windowBytes mem p _) length.symm (by omega) (by omega)
    rw [length] at run
    refine ⟨_, rest, fx, run, justified_process _, blocks, by
      rw [restLen]; exact windowBytes_remainder mem p _, ?_⟩
    rcases process_remainder (windowBytes mem p remain.toNat) with empty | ⟨short, last⟩
    · exact .inl (BitVec.eq_of_toNat_eq (by rw [restLen, empty]; rfl))
    · exact .inr ⟨restLen ▸ short, last⟩
  · obtain ⟨fx, ctxM, call, -, -, holds⟩ :=
      handlerM_chunk (.captureStart remainBuf) (by decide) fits enough
    refine ⟨fx, ctxM, call, ?_⟩
    rw [holds.carryOver, handler_captureStart]

theorem processM_skips_where_unlocked_one_packet :
    (188 : BitVec 32).toNat + 188 < 2 ^ 32 ∧ (188 : BitVec 32).toNat < 189 ∧
      (∃ p' rest fx, m1urDeviceStreamProcessM (streamMem tsBytes fun _ => 0) 189 ⟨.buf, 0⟩ 188 =
        some (p', rest, fx)) ∧
      (188 : BitVec 32).toNat ≤ 2 ^ 32 - m1urDeviceTsSyncSize ∧
      (188 : BitVec 32).toNat + m1urDeviceTsSyncSize < 1000 ∧
      ∃ fx ctxM, m1urDeviceStreamHandlerM ⟨fun _ => 0, 0⟩ tsBytes 188 1000 = some (fx, ctxM) := by
  obtain ⟨p', rest, fx, run, -⟩ :=
    processM_skips_where_unlocked.1 (streamMem tsBytes fun _ => 0) ⟨.buf, 0⟩ 188 189 (by decide)
      (by decide)
  obtain ⟨gx, ctxM, call, -⟩ :=
    processM_skips_where_unlocked.2 (fun _ => 0) ⟨tsBytes, 188⟩ 1000 (by decide) (by decide)
  exact ⟨by decide, by decide, ⟨p', rest, fx, run⟩, by decide, by decide, gx, ctxM, call⟩

/-- One packet as a whole window: its only slot that fits begins with 0x47, but fewer than four
fit, and the pass steps over all 188 bytes and returns nothing. -/
theorem processM_drops_unfinished_run :
    streamMem tsBytes (fun _ => 0) .buf 0 = 0x47 ∧
      ∃ fx, m1urDeviceStreamProcessM (streamMem tsBytes fun _ => 0) 189 ⟨.buf, 0⟩ 188 =
        some (⟨.buf, 188⟩, 0, fx) ∧ effectBlocks fx = [] := by
  have length : (windowBytes (streamMem tsBytes fun _ => 0) ⟨.buf, 0⟩ 188).length = 188 := by
    simp [windowBytes]
  obtain ⟨rest, fx, run, restLen, blocks, -⟩ := processM_spec _ ⟨.buf, 0⟩ 188 189
    (windowAt_windowBytes _ _ _) length.symm (by rw [length]; decide) (by rw [length]; decide)
  have pass := process_of_length_lt (show (windowBytes (streamMem tsBytes fun _ => 0) ⟨.buf, 0⟩
    188).length < m1urDeviceTsSyncSize by rw [length]; decide)
  rw [pass, length] at run
  rw [pass] at restLen blocks
  dsimp only at run restLen blocks
  obtain rfl : rest = 0 := BitVec.eq_of_toNat_eq restLen
  exact ⟨rfl, fx, run, by rw [blocks, putStreamBlocks_map_skip]⟩

end PxM1ur
