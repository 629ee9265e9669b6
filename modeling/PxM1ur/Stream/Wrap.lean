import PxM1ur.Stream.Run

/-! The synchroniser past the chunk bound, as the 32-bit code runs it. The scan of
`m1ur_device_stream_process` goes on while the slots it reads begin with 0x47 and their bounds
`(i + 1) * 188 mod 2^32` fit, so on a chunk of 2^32 - 135 bytes of whole packets and a sync
byte the bound of slot 22845570 wraps to 52 and the pass hands `ptx_chrdev_put_stream` the first
52 bytes of packet 0. In the handler, after a two-byte carry-over a chunk of 2^32 - 1 bytes wraps
`ctx_remain_len + len` to 1: the accumulate path sets `remain_len` to 2^32 + 1, which the next call
reads back as 1 and refills the sync window from the stale first byte. -/

namespace PxM1ur

section Rounds

variable {mem : Buffer → Nat → UInt8} {p : Ptr} {remain : BitVec 32}

theorem ofNat_add_one32 (i : Nat) : BitVec.ofNat 32 i + 1 = BitVec.ofNat 32 (i + 1) := by
  bv_omega

theorem toNat_ofNat_mul188 (i : Nat) : (BitVec.ofNat 32 i * 188).toNat = i * 188 % 2 ^ 32 := by
  rw [BitVec.toNat_mul, BitVec.toNat_ofNat, toNat_188, Nat.mod_mul_mod]

theorem syncScanM_synced_run (fuel i n : Nat)
    (synced : ∀ k < n, (i + k + 1) * 188 % 2 ^ 32 ≤ remain.toNat ∧
      mem p.buffer (p.offset + (i + k) * 188 % 2 ^ 32) = 0x47)
    (fits : (i + n + 1) * 188 % 2 ^ 32 ≤ remain.toNat)
    (bad : mem p.buffer (p.offset + (i + n) * 188 % 2 ^ 32) ≠ 0x47) :
    ∃ fx, syncScanM mem p remain (fuel + n + 1) (.ofNat 32 i) =
      some (.ofNat 32 (i + n), false, fx) := by
  induction n generalizing i with
  | zero =>
    rw [Nat.add_zero] at fits bad ⊢
    simp only [syncScanM, add32, mul32, ofNat_add_one32, BitVec.le_def, toNat_ofNat_mul188]
    rw [if_pos fits, if_pos bad]
    exact ⟨_, rfl⟩
  | succ n ih =>
    obtain ⟨first, sync⟩ := synced 0 (Nat.zero_lt_succ n)
    rw [Nat.add_zero] at first sync
    obtain ⟨fx, run⟩ := ih (i + 1) (fun k lt => by
        simpa only [Nat.add_assoc, Nat.add_comm 1 k] using synced (k + 1) (by omega))
      (by simpa only [Nat.add_assoc, Nat.add_comm 1 n] using fits)
      (by simpa only [Nat.add_assoc, Nat.add_comm 1 n] using bad)
    rw [show fuel + (n + 1) + 1 = fuel + n + 1 + 1 by omega, syncScanM]
    simp only [add32, mul32, ofNat_add_one32, BitVec.le_def, toNat_ofNat_mul188]
    rw [if_pos first, if_neg (not_not.mpr sync), run, Nat.add_right_comm i 1 n]
    exact ⟨_, rfl⟩

theorem processM_skip_round {fuel : Nat} (nonzero : remain ≠ 0)
    (bad : mem p.buffer p.offset ≠ 0x47) :
    ∃ fx, effectBlocks fx = [] ∧ m1urDeviceStreamProcessM mem (fuel + 2) p remain =
      (m1urDeviceStreamProcessM mem (fuel + 1) ⟨p.buffer, p.offset + 1⟩ (remain - 1)).map
        fun r => (r.1, r.2.1, fx ++ r.2.2) := by
  have scan : ∃ s fx, syncScanM mem p remain (fuel + 1) 0 = some (0, s, fx) := by
    simp only [syncScanM, add32, mul32]
    split
    · rw [if_pos (by simpa using bad)]
      exact ⟨_, _, rfl⟩
    · exact ⟨_, _, rfl⟩
  obtain ⟨s, fx, scan⟩ := scan
  have noBlocks := (syncScanM_bound scan (by simp)).2.2
  refine ⟨fx ++ [(sub32 remain 1).2], by simp [noBlocks, sub32, Effect.putBlock?], ?_⟩
  rw [m1urDeviceStreamProcessM, if_neg nonzero, scan]
  simp only [if_pos (show (0 : BitVec 32) < .ofNat 32 m1urDeviceTsSyncCount by decide),
    List.append_assoc, List.singleton_append]
  rfl

theorem processM_skip_run (fuel n : Nat) (p : Ptr) (remain : BitVec 32)
    (room : n ≤ remain.toNat) (bad : ∀ k < n, mem p.buffer (p.offset + k) ≠ 0x47) :
    ∃ fx, effectBlocks fx = [] ∧ m1urDeviceStreamProcessM mem (fuel + n + 1) p remain =
      (m1urDeviceStreamProcessM mem (fuel + 1) ⟨p.buffer, p.offset + n⟩
        (remain - .ofNat 32 n)).map fun r => (r.1, r.2.1, fx ++ r.2.2) := by
  induction n generalizing p remain with
  | zero =>
    refine ⟨[], rfl, ?_⟩
    rw [Nat.add_zero, Nat.add_zero, show remain - BitVec.ofNat 32 0 = remain by bv_omega]
    simp
  | succ n ih =>
    have nonzero : remain ≠ 0 := fun zero => by simp [zero] at room
    obtain ⟨fx, noBlocks, round⟩ := @processM_skip_round mem p remain (fuel + n) nonzero
      (by simpa using bad 0 (Nat.zero_lt_succ n))
    obtain ⟨gx, noBlocks', run⟩ := ih ⟨p.buffer, p.offset + 1⟩ (remain - 1)
      (by rw [BitVec.toNat_sub_of_le (by rw [BitVec.le_def]; simp; omega)]; simp; omega)
      (fun k lt => by simpa [Nat.add_assoc, Nat.add_comm 1 k] using bad (k + 1) (by omega))
    refine ⟨fx ++ gx, by simp [noBlocks, noBlocks'], ?_⟩
    rw [show fuel + (n + 1) + 1 = fuel + n + 2 by omega, round, run, Option.map_map,
      show remain - 1 - BitVec.ofNat 32 n = remain - BitVec.ofNat 32 (n + 1) by bv_omega,
      Nat.add_assoc p.offset 1 n, Nat.add_comm 1 n]
    congr 1
    funext r
    simp

theorem processM_emit_round {fuel : Nat} {i : BitVec 32} {fx : List Effect}
    (nonzero : remain ≠ 0) (scan : syncScanM mem p remain fuel 0 = some (i, false, fx))
    (emit : ¬ i < .ofNat 32 m1urDeviceTsSyncCount) :
    ∃ gx, effectBlocks gx = [windowBytes mem p (188 * i).toNat] ∧
      m1urDeviceStreamProcessM mem (fuel + 1) p remain =
        (m1urDeviceStreamProcessM mem fuel ⟨p.buffer, p.offset + (188 * i).toNat⟩
          (remain - 188 * i)).map fun r => (r.1, r.2.1, gx ++ r.2.2) := by
  have noBlocks := (syncScanM_bound scan (by simp)).2.2
  rw [m1urDeviceStreamProcessM, if_neg nonzero, scan]
  simp only [if_neg emit, Bool.false_eq_true, if_false]
  exact ⟨_, by simp [noBlocks, mul32, sub32, putStreamM, windowBytes, Effect.putBlock?], rfl⟩

end Rounds

/-- A stream of packets of a sync byte and 187 zero bytes, read byte by byte. -/
def tsBytes (j : Nat) : UInt8 := if j % 188 = 0 then 0x47 else 0

theorem tsBytes_add_mul (m j : Nat) : tsBytes (188 * m + j) = tsBytes j := by
  rw [tsBytes, tsBytes, Nat.mul_add_mod]

theorem tsBytes_ne_seven (j : Nat) : tsBytes j ≠ 7 := by
  unfold tsBytes
  split <;> decide

theorem map_range_tsBytes_packet :
    (List.range 188).map tsBytes = (0x47 :: List.replicate 187 0 : List UInt8) := by
  rw [List.range_succ_eq_map, List.map_cons, List.map_map]
  refine congrArg _ (List.eq_replicate_iff.mpr ⟨by simp, fun b mem => ?_⟩)
  obtain ⟨j, lt, rfl⟩ := List.mem_map.mp mem
  rw [List.mem_range] at lt
  simp only [Function.comp, tsBytes, Nat.succ_eq_add_one]
  rw [if_neg (by omega)]

theorem map_range_tsBytes (a n : Nat) :
    (List.range (188 * n)).map (fun j => tsBytes (188 * a + j)) =
      (List.replicate n (0x47 :: List.replicate 187 0 : List UInt8)).flatten := by
  induction n with
  | zero => rfl
  | succ n ih =>
    rw [Nat.mul_succ, List.range_add, List.map_append, ih, List.map_map,
      List.replicate_succ' n, List.flatten_append, List.flatten_singleton, ← map_range_tsBytes_packet]
    refine congrArg _ (List.map_congr_left fun j _ => ?_)
    rw [Function.comp, ← Nat.add_assoc, ← Nat.mul_add, tsBytes_add_mul]

theorem bytes_tsBytes {n : Nat} (fits : 188 * n < 2 ^ 32) :
    (BusChunk.mk tsBytes (.ofNat 32 (188 * n))).bytes =
      (List.replicate n (0x47 :: List.replicate 187 0 : List UInt8)).flatten := by
  rw [BusChunk.bytes, BitVec.toNat_ofNat, Nat.mod_eq_of_lt fits, ← map_range_tsBytes 0 n]
  simp only [Nat.mul_zero, Nat.zero_add]

section Packets

variable (remainBuf : Nat → UInt8)

theorem processM_wrapped_head :
    ∃ fx, effectBlocks fx = [(List.range 52).map tsBytes] ∧
      m1urDeviceStreamProcessM (streamMem tsBytes remainBuf) (2 ^ 32) ⟨.buf, 0⟩
          (.ofNat 32 (188 * 22845570 + 1)) =
        (m1urDeviceStreamProcessM (streamMem tsBytes remainBuf) (2 ^ 32 - 137) ⟨.buf, 188⟩
          (.ofNat 32 (188 * 22845569 + 1))).map fun r => (r.1, r.2.1, fx ++ r.2.2) := by
  have bound : ∀ k < 22845571, (0 + k + 1) * 188 % 2 ^ 32 ≤
      (BitVec.ofNat 32 (188 * 22845570 + 1)).toNat := fun k lt => by
    rw [BitVec.toNat_ofNat]
    rcases Nat.lt_or_ge k 22845570 with below | top
    · rw [Nat.mod_eq_of_lt (by omega)]
      omega
    · obtain rfl : k = 22845570 := by omega
      decide
  obtain ⟨scanFx, scan⟩ := @syncScanM_synced_run (streamMem tsBytes remainBuf) ⟨.buf, 0⟩
    (.ofNat 32 (188 * 22845570 + 1)) (2 ^ 32 - 22845573) 0 22845571
    (fun k lt => ⟨bound k lt, by
      show tsBytes (0 + (0 + k) * 188 % 2 ^ 32) = 0x47
      rw [show 0 + (0 + k) * 188 % 2 ^ 32 = 188 * k + 0 by omega, tsBytes_add_mul]
      rfl⟩)
    (by decide) (show tsBytes (0 + (0 + 22845571) * 188 % 2 ^ 32) ≠ 0x47 by decide)
  obtain ⟨gx, gBlocks, round⟩ := processM_emit_round (by decide) scan (by decide)
  obtain ⟨hx, hBlocks, skips⟩ := @processM_skip_run (streamMem tsBytes remainBuf)
    (2 ^ 32 - 138) 136 ⟨.buf, 52⟩ (.ofNat 32 (188 * 22845570 + 1) - 188 * .ofNat 32 (0 + 22845571))
    (by decide) (fun k lt => by
      show tsBytes (52 + k) ≠ 0x47
      rw [tsBytes, if_neg (by omega)]
      decide)
  have size : (188 * BitVec.ofNat 32 (0 + 22845571)).toNat = 52 := by decide
  have left : BitVec.ofNat 32 (188 * 22845570 + 1) - 188 * BitVec.ofNat 32 (0 + 22845571) -
      BitVec.ofNat 32 136 = .ofNat 32 (188 * 22845569 + 1) := by decide
  rw [left] at skips
  refine ⟨gx ++ hx, by rw [effectBlocks_append, gBlocks, hBlocks, List.append_nil]; rfl,
    round.trans ?_⟩
  rw [size]
  refine (congrArg (Option.map _) skips).trans ?_
  rw [Option.map_map]
  simp only [Nat.reducePow, Nat.reduceSub, Nat.reduceAdd, Nat.reduceMul]
  have effects : ((fun r : Ptr × BitVec 32 × List Effect => (r.1, r.2.1, gx ++ r.2.2)) ∘
      fun r : Ptr × BitVec 32 × List Effect => (r.1, r.2.1, hx ++ r.2.2)) =
      fun r => (r.1, r.2.1, gx ++ hx ++ r.2.2) :=
    funext fun r => by simp
  rw [effects]

theorem processM_wrapped_packets :
    ∃ rest fx, m1urDeviceStreamProcessM (streamMem tsBytes remainBuf) (2 ^ 32) ⟨.buf, 0⟩
        (.ofNat 32 (188 * 22845570 + 1)) = some (⟨.buf, 188 * 22845570⟩, rest, fx) ∧
      rest.toNat = 1 ∧
      effectBlocks fx = [(List.range 52).map tsBytes,
        (List.replicate 22845569 (0x47 :: List.replicate 187 0 : List UInt8)).flatten] := by
  obtain ⟨fx, headBlocks, head⟩ := processM_wrapped_head remainBuf
  have packets : windowBytes (streamMem tsBytes remainBuf) ⟨.buf, 188⟩ (188 * 22845569 + 1) =
      (List.replicate 22845569 (0x47 :: List.replicate 187 0 : List UInt8)).flatten ++ [0x47] := by
    have whole := map_range_tsBytes 1 22845569
    rw [Nat.mul_one] at whole
    rw [windowBytes, List.range_succ, List.map_append, List.map_singleton]
    exact congrArg₂ (· ++ ·) whole (congrArg (· :: []) (by
      show tsBytes (188 + 188 * 22845569) = 0x47
      rw [show 188 + 188 * 22845569 = 188 * 22845570 + 0 from rfl, tsBytes_add_mul]
      rfl))
  have pass := process_packets (validPacket_replicate 22845569)
    (by rw [List.length_replicate]; decide) (show ([0x47] : List UInt8).length < 188 by decide)
  have length : (windowBytes (streamMem tsBytes remainBuf) ⟨.buf, 188⟩
      (188 * 22845569 + 1)).length = 188 * 22845569 + 1 := by simp [windowBytes]
  obtain ⟨rest, gx, tail, restLen, tailBlocks, -⟩ := processM_spec _ ⟨.buf, 188⟩
    (.ofNat 32 (188 * 22845569 + 1)) (2 ^ 32 - 137) (windowAt_windowBytes _ _ _)
    (by rw [length]; rfl) (by rw [length]; decide) (by rw [length]; decide)
  rw [length, packets, pass] at tail
  rw [packets, pass] at restLen tailBlocks
  refine ⟨rest, fx ++ gx, by rw [head, tail]; rfl, restLen, ?_⟩
  rw [effectBlocks_append, headBlocks, tailBlocks]
  rfl

theorem handlerM_wrapped_packets :
    ∃ fx ctxM, m1urDeviceStreamHandlerM ⟨remainBuf, 0⟩ tsBytes (.ofNat 32 (188 * 22845570 + 1))
        (2 ^ 32) = some (fx, ctxM) ∧
      effectBlocks fx = [(List.range 52).map tsBytes,
        (List.replicate 22845569 (0x47 :: List.replicate 187 0 : List UInt8)).flatten] ∧
      ctxM.carryOver = [0x47] := by
  obtain ⟨rest, fx, pass, one, blocks⟩ := processM_wrapped_packets remainBuf
  have kept : rest ≠ 0 := fun zero => by simp [zero] at one
  have empty : (M1urStreamContextM.mk remainBuf 0).remainLen.setWidth 32 = 0 := rfl
  rw [m1urDeviceStreamHandlerM, if_neg (not_not.mpr empty), handlerTailM, pass, Option.map_some',
    if_pos kept]
  refine ⟨_, _, rfl, by rw [effectBlocks_append, blocks]; rfl, ?_⟩
  have len : (rest.setWidth 64).toNat = 1 := by rw [BitVec.toNat_setWidth, one]
  show (List.range (rest.setWidth 64).toNat).map
    (copyBytes remainBuf 0 tsBytes (188 * 22845570) rest.toNat) = [0x47]
  rw [len, one]
  show [tsBytes (188 * 22845570 + 0)] = [0x47]
  rw [tsBytes_add_mul]
  rfl

end Packets

theorem handlerM_accumulate_wraps {ctxM : M1urStreamContextM} {buf : Nat → UInt8}
    {len : BitVec 32} (fuel : Nat) (carry : ctxM.remainLen.setWidth 32 ≠ 0)
    (short : ctxM.remainLen.setWidth 32 + len < .ofNat 32 m1urDeviceTsSyncSize) :
    ∃ fx, effectBlocks fx = [] ∧ m1urDeviceStreamHandlerM ctxM buf len fuel =
      some (fx, ⟨copyBytes ctxM.remainBuf (ctxM.remainLen.setWidth 32).toNat buf 0 len.toNat,
        ctxM.remainLen + len.setWidth 64⟩) := by
  rw [m1urDeviceStreamHandlerM, if_pos carry]
  simp only [add32, if_neg (BitVec.not_le.mpr short)]
  exact ⟨_, by simp [Effect.putBlock?], rfl⟩

theorem handlerM_remainLen_congr {remainBuf : Nat → UInt8} {remainLen remainLen' : BitVec 64}
    {buf : Nat → UInt8} {len : BitVec 32} {fuel : Nat}
    (same : remainLen.setWidth 32 = remainLen'.setWidth 32) (carry : remainLen.setWidth 32 ≠ 0)
    (fill : .ofNat 32 m1urDeviceTsSyncSize ≤ remainLen.setWidth 32 + len) :
    m1urDeviceStreamHandlerM ⟨remainBuf, remainLen⟩ buf len fuel =
      m1urDeviceStreamHandlerM ⟨remainBuf, remainLen'⟩ buf len fuel := by
  simp only [m1urDeviceStreamHandlerM, add32, ← same, if_pos carry, if_pos fill]

theorem streamRunM_cons_of {ctxM ctxM' : M1urStreamContextM} {fuel : Nat} {c : BusChunk}
    {fx : List Effect} (call : m1urDeviceStreamHandlerM ctxM c.buf c.len fuel = some (fx, ctxM'))
    (chunks : List BusChunk) :
    streamRunM ctxM fuel (c :: chunks) =
      (streamRunM ctxM' fuel chunks).map fun rest => (fx :: rest.1, rest.2) := by
  rw [streamRunM, call, Option.some_bind]

theorem CtxHolds.captureStart (remainBuf : Nat → UInt8) :
    CtxHolds ⟨remainBuf, 0⟩ .captureStart :=
  ⟨rfl, nofun⟩

theorem handlerM_two_byte_carry (remainBuf : Nat → UInt8) :
    ∃ fx ctxM, m1urDeviceStreamHandlerM ⟨remainBuf, 0⟩ tsBytes 754 2000 = some (fx, ctxM) ∧
      effectBlocks fx = [(List.replicate 4 (0x47 :: List.replicate 187 0 : List UInt8)).flatten] ∧
      CtxHolds ctxM ⟨[0x47, 0]⟩ := by
  have bytes : (BusChunk.mk tsBytes 754).bytes =
      (List.replicate 4 (0x47 :: List.replicate 187 0 : List UInt8)).flatten ++ [0x47, 0] := by
    rw [BusChunk.bytes, show (754 : BitVec 32).toNat = 188 * 4 + 2 from rfl, List.range_add,
      List.map_append, ← bytes_tsBytes (by decide : 188 * 4 < 2 ^ 32)]
    rfl
  have pass := process_packets (validPacket_replicate 4) (by rw [List.length_replicate]; decide)
    (show ([0x47, 0] : List UInt8).length < 188 by decide)
  obtain ⟨fx, ctxM, call, -, blocks, holds⟩ :=
    handlerM_chunk (c := ⟨tsBytes, 754⟩) (.captureStart remainBuf) (by decide) (by decide)
      (by decide : (754 : BitVec 32).toNat + m1urDeviceTsSyncSize < 2000)
  rw [bytes, handler_captureStart, pass] at holds blocks
  exact ⟨fx, ctxM, call, blocks, holds⟩

theorem handlerM_carry_wraps (remainBuf : Nat → UInt8) :
    ∃ fx₁ fx₂ ctxM, m1urDeviceStreamHandlerM ⟨remainBuf, 0⟩ tsBytes 754 2000 = some (fx₁, ctxM) ∧
      m1urDeviceStreamHandlerM ctxM (fun _ => 0) (-1) 2000 =
        some (fx₂, ⟨copyBytes ctxM.remainBuf 2 (fun _ => 0) 0 (2 ^ 32 - 1), .ofNat 64 (2 ^ 32 + 1)⟩) ∧
      effectBlocks fx₁ = [(List.replicate 4 (0x47 :: List.replicate 187 0 : List UInt8)).flatten] ∧
      effectBlocks fx₂ = [] ∧ ctxM.remainBuf 0 = 0x47 := by
  obtain ⟨fx₁, ctxM, call₁, blocks₁, holds⟩ := handlerM_two_byte_carry remainBuf
  have len : ctxM.remainLen = 2 := BitVec.eq_of_toNat_eq holds.1
  obtain ⟨fx₂, blocks₂, call₂⟩ := @handlerM_accumulate_wraps ctxM (fun _ => 0) (-1) 2000
    (by rw [len]; decide) (by rw [len]; decide)
  exact ⟨fx₁, fx₂, ctxM, call₁, call₂.trans (by rw [len]; rfl), blocks₁, blocks₂,
    (holds.2 0 (by decide)).trans rfl⟩

theorem not_isInfix_of_unique {x y : UInt8} {A B rest : List UInt8} (notA : y ∉ A) (notB : y ∉ B)
    (last : A.getLast? ≠ some x) : ¬ (x :: y :: rest) <:+: (A ++ y :: B) := by
  rintro ⟨s, t, eq⟩
  have split : A ++ y :: B = (s ++ [x]) ++ y :: (rest ++ t) := by rw [← eq]; simp
  obtain ⟨rfl, -, -⟩ := (List.append_cons_inj_of_not_mem notA notB).mp split
  exact last (List.getLast?_concat s)

end PxM1ur
