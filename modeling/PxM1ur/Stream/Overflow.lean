import PxM1ur.Stream.Machine

/-! The handler in 32-bit arithmetic against the list model. For every carry-over the list
model can hold (fewer than 752 bytes) and every chunk of at most 2^32 - 752 bytes, the machine
handler terminates, wraps no u32 operation, reads only `buf[0..len)` and `remain_buf[0..752)`,
writes only `remain_buf[0..752)`, emits the blocks of the list model and keeps its carry-over.
Above that bound `ctx_remain_len + len` can wrap. -/

namespace PxM1ur

/-- An effect of a call on a chunk of `len` bytes is safe: a u32 operation does not wrap, an
access to `buf` stays in `buf[0..len)` and one to `remain_buf` in `remain_buf[0..752)`. -/
def Effect.Safe (len : Nat) : Effect → Prop
  | .arith exact => NoWrap exact
  | .touch .buf start count _ => start + count ≤ len
  | .touch .remainBuf start count _ => start + count ≤ m1urDeviceTsSyncSize
  | .put _ => True

/-- The machine context holds the list one: `remain_len` is its length and `remain_buf` begins
with its bytes. -/
def CtxHolds (ctxM : M1urStreamContextM) (ctx : M1urStreamContext) : Prop :=
  ctxM.remainLen.toNat = ctx.remainBuf.length ∧
    ∀ j < ctx.remainBuf.length, ctxM.remainBuf j = ctx.remainBuf.getD j 0

/-- `remain_buf[0..remain_len)`, the bytes the context carries over to the next chunk. -/
def M1urStreamContextM.carryOver (ctx : M1urStreamContextM) : List UInt8 :=
  (List.range ctx.remainLen.toNat).map ctx.remainBuf

theorem CtxHolds.carryOver {ctxM : M1urStreamContextM} {ctx : M1urStreamContext}
    (holds : CtxHolds ctxM ctx) : ctxM.carryOver = ctx.remainBuf := by
  apply List.ext_getElem (by simp [M1urStreamContextM.carryOver, holds.1])
  intro j lt _
  simp only [M1urStreamContextM.carryOver, List.length_map, List.length_range, holds.1] at lt
  simp only [M1urStreamContextM.carryOver, List.getElem_map, List.getElem_range, holds.2 j lt,
    List.getD_eq_getElem?_getD, List.getElem?_eq_getElem lt, Option.getD_some]

theorem Effect.InWindow.safe_buf {e : Effect} {offset n len : Nat}
    (within : e.InWindow ⟨.buf, offset⟩ n) (le : offset + n ≤ len) : e.Safe len := by
  cases e with
  | arith => exact within
  | touch buffer start count _ =>
    obtain ⟨rfl, -, hi⟩ := within
    simp only [Effect.Safe] at hi ⊢
    omega
  | put => trivial

theorem Effect.InWindow.safe_remainBuf {e : Effect} {offset n len : Nat}
    (within : e.InWindow ⟨.remainBuf, offset⟩ n) (le : offset + n ≤ m1urDeviceTsSyncSize) :
    e.Safe len := by
  cases e with
  | arith => exact within
  | touch buffer start count _ =>
    obtain ⟨rfl, -, hi⟩ := within
    simp only [Effect.Safe] at hi ⊢
    omega
  | put => trivial

theorem remainder_eq_drop (w : List UInt8) :
    (m1urDeviceStreamProcess w).2 = w.drop (w.length - (m1urDeviceStreamProcess w).2.length) := by
  have length := congrArg List.length (consumed_process w)
  rw [List.length_append] at length
  nth_rewrite 1 [← List.drop_left (consumed (m1urDeviceStreamProcess w).1)
    (m1urDeviceStreamProcess w).2]
  rw [consumed_process]
  congr 1
  omega

theorem getD_append_of_lt {r b : List UInt8} {j : Nat} (lt : j < r.length) :
    (r ++ b).getD j 0 = r.getD j 0 := by
  simp [List.getD_eq_getElem?_getD, List.getElem?_append_left lt]

theorem getD_append_of_le {r b : List UInt8} {j : Nat} (le : r.length ≤ j) :
    (r ++ b).getD j 0 = b.getD (j - r.length) 0 := by
  simp [List.getD_eq_getElem?_getD, List.getElem?_append_right le]

section Chunk

variable {buf : Nat → UInt8} {b : List UInt8}

theorem handlerTailM_spec {ctxM : M1urStreamContextM} {ctx : M1urStreamContext}
    (holds : CtxHolds ctxM ctx) (chunk : ∀ j < b.length, buf j = b.getD j 0)
    (room : b.length + 188 < 2 ^ 32) {p : Nat} (le : p ≤ b.length) {remain : BitVec 32}
    (length : remain.toNat = b.length - p) {fuel : Nat} (enough : b.length < fuel) :
    ∃ fx ctxM', handlerTailM ctxM buf p remain fuel = some (fx, ctxM') ∧
      (∀ e ∈ fx, e.Safe b.length) ∧
      effectBlocks fx = putStreamBlocks (m1urDeviceStreamProcess (b.drop p)).1 ∧
      CtxHolds ctxM' (processAndKeep ctx (b.drop p)).2 := by
  have window : WindowAt (streamMem buf ctxM.remainBuf) ⟨.buf, p⟩ (b.drop p) := by
    intro j lt
    simp only [List.length_drop] at lt
    show buf (p + j) = _
    rw [chunk (p + j) (by omega)]
    simp [List.getD_eq_getElem?_getD, List.getElem?_drop]
  obtain ⟨rest, fx, run, value, blocks, within⟩ :=
    processM_spec (b.drop p) ⟨.buf, p⟩ remain fuel window (by simpa using length)
      (by simp; omega) (by simp; omega)
  have safe : ∀ e ∈ fx, e.Safe b.length :=
    fun e mem => (within e mem).safe_buf (by simp only [List.length_drop]; omega)
  have shorter := length_process_le (b.drop p)
  rw [handlerTailM, run, Option.map_some']
  by_cases kept : rest ≠ 0
  · have nonempty : (m1urDeviceStreamProcess (b.drop p)).2.length ≠ 0 := by
      rw [← value]
      exact fun zero => kept (BitVec.eq_of_toNat_eq zero)
    have short : (m1urDeviceStreamProcess (b.drop p)).2.length < 188 := by
      rcases process_remainder (b.drop p) with empty | ⟨lt, -⟩
      · exact absurd (by rw [empty]; rfl) nonempty
      · exact lt
    rw [if_pos kept]
    refine ⟨_, _, rfl, fun e mem => ?_, by simp [blocks, Effect.putBlock?], ?_⟩
    · simp only [List.mem_append, List.mem_cons, List.mem_singleton, List.not_mem_nil,
        or_false] at mem
      rcases mem with mem | rfl | rfl
      · exact safe e mem
      · simp only [Effect.Safe, m1urDeviceTsSyncSize_eq, value]
        omega
      · simp only [Effect.Safe, value, List.length_drop] at shorter ⊢
        omega
    · rw [processAndKeep_of_ne nonempty]
      refine ⟨by dsimp only; rw [BitVec.toNat_setWidth, value]; omega, fun j lt => ?_⟩
      dsimp only at lt ⊢
      simp only [copyBytes, Nat.zero_le, true_and, Nat.zero_add, Nat.sub_zero, value, lt,
        if_true]
      simp only [List.length_drop] at shorter ⊢
      rw [chunk _ (by omega)]
      conv_rhs => rw [remainder_eq_drop]
      simp only [List.getD_eq_getElem?_getD, List.getElem?_drop, List.length_drop]
      congr 2
      omega
  · rw [if_neg kept]
    have empty : (m1urDeviceStreamProcess (b.drop p)).2.length = 0 := by
      rw [← value, not_not.mp kept]
      rfl
    exact ⟨_, _, rfl, safe, blocks, by rwa [processAndKeep_of_eq empty]⟩

variable {ctxM : M1urStreamContextM} {ctx : M1urStreamContext}

theorem toNat_ofNat_length (fits : b.length ≤ 2 ^ 32 - 752) :
    (BitVec.ofNat 32 b.length).toNat = b.length := by
  rw [BitVec.toNat_ofNat]
  omega

theorem ctxRemainLen_toNat (holds : CtxHolds ctxM ctx) (carry : ctx.remainBuf.length < 752) :
    (ctxM.remainLen.setWidth 32).toNat = ctx.remainBuf.length := by
  rw [BitVec.toNat_setWidth, holds.1]
  omega

theorem ctxRemainLen_ne_zero (holds : CtxHolds ctxM ctx) (carry : ctx.remainBuf.length < 752)
    (nonempty : ctx.remainBuf ≠ []) : ctxM.remainLen.setWidth 32 ≠ 0 := fun zero =>
  nonempty (List.length_eq_zero.mp (by rw [← ctxRemainLen_toNat holds carry, zero]; rfl))

theorem ctxRemainLen_add_toNat (holds : CtxHolds ctxM ctx) (carry : ctx.remainBuf.length < 752)
    (fits : b.length ≤ 2 ^ 32 - 752) :
    (ctxM.remainLen.setWidth 32 + .ofNat 32 b.length).toNat = ctx.remainBuf.length + b.length := by
  rw [BitVec.toNat_add_of_lt] <;> rw [ctxRemainLen_toNat holds carry, toNat_ofNat_length fits]
  omega

theorem handlerM_refill (holds : CtxHolds ctxM ctx) (carry : ctx.remainBuf.length < 752)
    (nonempty : ctx.remainBuf ≠ []) (chunk : ∀ j < b.length, buf j = b.getD j 0)
    (fits : b.length ≤ 2 ^ 32 - 752) (fill : 752 ≤ ctx.remainBuf.length + b.length)
    {fuel : Nat} (enough : b.length + 752 < fuel) :
    ∃ fx ctxM', m1urDeviceStreamHandlerM ctxM buf (.ofNat 32 b.length) fuel = some (fx, ctxM') ∧
      (∀ e ∈ fx, e.Safe b.length) ∧
      effectBlocks fx = putStreamBlocks (m1urDeviceStreamHandler ctx b).1 ∧
      CtxHolds ctxM' (m1urDeviceStreamHandler ctx b).2 := by
  have lenNat := toNat_ofNat_length fits
  have ctxLen := ctxRemainLen_toNat holds carry
  have t : (BitVec.ofNat 32 m1urDeviceTsSyncSize - ctxM.remainLen.setWidth 32).toNat =
      752 - ctx.remainBuf.length := by
    rw [BitVec.toNat_sub_of_le (by rw [BitVec.le_def, ctxLen]; simp; omega), ctxLen]
    rfl
  have window : WindowAt (streamMem buf (copyBytes ctxM.remainBuf ctx.remainBuf.length buf 0
      (752 - ctx.remainBuf.length))) ⟨.remainBuf, 0⟩
      (ctx.remainBuf ++ b.take (m1urDeviceTsSyncSize - ctx.remainBuf.length)) := by
    intro j lt
    simp only [List.length_append, List.length_take, m1urDeviceTsSyncSize_eq] at lt
    simp only [streamMem, copyBytes, Nat.zero_add]
    by_cases old : j < ctx.remainBuf.length
    · rw [if_neg (by omega), holds.2 j old, getD_append_of_lt old]
    · rw [if_pos (by omega), chunk _ (by omega), getD_append_of_le (by omega)]
      simp only [List.getD_eq_getElem?_getD, List.getElem?_take, m1urDeviceTsSyncSize_eq]
      rw [if_pos (by omega)]
  obtain ⟨left, refillFx, run, value, blocks, within⟩ :=
    processM_spec _ ⟨.remainBuf, 0⟩ (.ofNat 32 m1urDeviceTsSyncSize) fuel window
      (by simp; omega) (by simp; omega) (by simp; omega)
  rw [refill_remainder carry.le fill] at value
  have leftZero : left = 0 := BitVec.eq_of_toNat_eq value
  have rest : (BitVec.ofNat 32 b.length -
      (BitVec.ofNat 32 m1urDeviceTsSyncSize - ctxM.remainLen.setWidth 32)).toNat =
      b.length - (752 - ctx.remainBuf.length) := by
    rw [BitVec.toNat_sub_of_le (by rw [BitVec.le_def, t, lenNat]; omega), t, lenNat]
  obtain ⟨tailFx, c, tailRun, tailSafe, tailBlocks, tailHolds⟩ :=
    handlerTailM_spec (show CtxHolds ⟨copyBytes ctxM.remainBuf ctx.remainBuf.length buf 0
      (752 - ctx.remainBuf.length), 0⟩ ⟨[]⟩ from
        ⟨rfl, fun j lt => absurd lt (Nat.not_lt_zero j)⟩)
      chunk (by omega) (show 752 - ctx.remainBuf.length ≤ b.length by omega) rest
      (show b.length < fuel by omega)
  rw [m1urDeviceStreamHandlerM]
  simp only [add32, sub32, ne_eq, ctxRemainLen_ne_zero holds carry nonempty, not_false_eq_true,
    if_true, BitVec.le_def, ctxRemainLen_add_toNat holds carry fits, t, ctxLen,
    show (BitVec.ofNat 32 m1urDeviceTsSyncSize).toNat = 752 from rfl, if_pos fill, run, leftZero,
    tailRun, Option.map_some', lenNat]
  rw [handler_refill nonempty carry.le fill]
  simp only [m1urDeviceTsSyncSize_eq] at blocks within ⊢
  refine ⟨_, _, rfl, fun e mem => ?_, ?_, tailHolds⟩
  · simp only [List.mem_append, List.mem_cons, List.mem_singleton, List.not_mem_nil,
      or_false] at mem
    rcases mem with ((rfl | rfl | rfl | rfl) | mem) | rfl | mem
    any_goals simp only [Effect.Safe, NoWrap, m1urDeviceTsSyncSize_eq]; omega
    · exact (within e mem).safe_remainBuf (by simp; omega)
    · exact tailSafe e mem
  · simp [blocks, tailBlocks, processAndKeep, Effect.putBlock?]

theorem handlerM_accumulate (holds : CtxHolds ctxM ctx) (carry : ctx.remainBuf.length < 752)
    (nonempty : ctx.remainBuf ≠ []) (chunk : ∀ j < b.length, buf j = b.getD j 0)
    (fits : b.length ≤ 2 ^ 32 - 752) (short : ctx.remainBuf.length + b.length < 752)
    (fuel : Nat) :
    ∃ fx ctxM', m1urDeviceStreamHandlerM ctxM buf (.ofNat 32 b.length) fuel = some (fx, ctxM') ∧
      (∀ e ∈ fx, e.Safe b.length) ∧
      effectBlocks fx = putStreamBlocks (m1urDeviceStreamHandler ctx b).1 ∧
      CtxHolds ctxM' (m1urDeviceStreamHandler ctx b).2 := by
  have lenNat := toNat_ofNat_length fits
  rw [m1urDeviceStreamHandlerM]
  simp only [add32, ne_eq, ctxRemainLen_ne_zero holds carry nonempty, not_false_eq_true,
    if_true, BitVec.le_def, ctxRemainLen_add_toNat holds carry fits,
    ctxRemainLen_toNat holds carry,
    show (BitVec.ofNat 32 m1urDeviceTsSyncSize).toNat = 752 from rfl, if_neg (Nat.not_le.mpr short),
    lenNat]
  rw [handler_accumulate nonempty (by simpa using short)]
  refine ⟨_, _, rfl, fun e mem => ?_, by simp [Effect.putBlock?], ?_, fun j lt => ?_⟩
  · simp only [List.mem_cons, List.mem_singleton, List.not_mem_nil, or_false] at mem
    rcases mem with rfl | rfl | rfl <;> simp only [Effect.Safe, NoWrap, m1urDeviceTsSyncSize_eq]
      <;> omega
  · have widened : ((BitVec.ofNat 32 b.length).setWidth 64).toNat = b.length := by
      rw [BitVec.toNat_setWidth, lenNat]
      omega
    dsimp only
    rw [BitVec.toNat_add_of_lt (by rw [holds.1, widened]; omega), holds.1, widened,
      List.length_append]
  · dsimp only at lt ⊢
    simp only [List.length_append] at lt
    simp only [copyBytes, Nat.zero_add, ctxRemainLen_toNat holds carry]
    by_cases old : j < ctx.remainBuf.length
    · rw [if_neg (by omega), holds.2 j old, getD_append_of_lt old]
    · rw [if_pos (by omega), chunk _ (by omega), getD_append_of_le (by omega)]

theorem handlerM_direct (holds : CtxHolds ctxM ctx) (empty : ctx.remainBuf = [])
    (chunk : ∀ j < b.length, buf j = b.getD j 0) (fits : b.length ≤ 2 ^ 32 - 752) {fuel : Nat}
    (enough : b.length < fuel) :
    ∃ fx ctxM', m1urDeviceStreamHandlerM ctxM buf (.ofNat 32 b.length) fuel = some (fx, ctxM') ∧
      (∀ e ∈ fx, e.Safe b.length) ∧
      effectBlocks fx = putStreamBlocks (m1urDeviceStreamHandler ctx b).1 ∧
      CtxHolds ctxM' (m1urDeviceStreamHandler ctx b).2 := by
  have zero : ctxM.remainLen.setWidth 32 = 0 := BitVec.eq_of_toNat_eq
    (by rw [ctxRemainLen_toNat holds (by simp [empty]), empty]; rfl)
  obtain ⟨fx, c, run, safe, blocks, kept⟩ := handlerTailM_spec holds chunk (by omega)
    (Nat.zero_le _) (by rw [toNat_ofNat_length fits]; rfl) enough
  rw [m1urDeviceStreamHandlerM]
  simp only [zero, ne_eq, not_true_eq_false, if_false, run]
  rw [handler_direct empty]
  exact ⟨fx, c, rfl, safe, by simpa [processAndKeep] using blocks, by simpa using kept⟩

end Chunk

/-- A chunk as the bus hands it to the handler: `buf` and `u32 len`. -/
structure BusChunk where
  buf : Nat → UInt8
  len : BitVec 32

def BusChunk.bytes (c : BusChunk) : List UInt8 := (List.range c.len.toNat).map c.buf

@[simp] theorem BusChunk.length_bytes (c : BusChunk) : c.bytes.length = c.len.toNat := by
  simp [BusChunk.bytes]

theorem BusChunk.getD_bytes (c : BusChunk) {j : Nat} (lt : j < c.bytes.length) :
    c.buf j = c.bytes.getD j 0 := by
  rw [BusChunk.length_bytes] at lt
  simp [BusChunk.bytes, List.getD_eq_getElem?_getD, List.getElem?_range lt]

theorem BusChunk.ofNat_length_bytes (c : BusChunk) : BitVec.ofNat 32 c.bytes.length = c.len :=
  BitVec.eq_of_toNat_eq (by simp)

theorem BusChunk.bytes_mk {buf : Nat → UInt8} {b : List UInt8}
    (chunk : ∀ j < b.length, buf j = b.getD j 0) (short : b.length < 2 ^ 32) :
    (BusChunk.mk buf (.ofNat 32 b.length)).bytes = b := by
  have len : (BitVec.ofNat 32 b.length).toNat = b.length := by
    rw [BitVec.toNat_ofNat]
    omega
  apply List.ext_getElem (by simp [BusChunk.bytes, len])
  intro j lt _
  simp only [BusChunk.bytes, List.length_map, List.length_range, len] at lt
  simp only [BusChunk.bytes, List.getElem_map, List.getElem_range, chunk j lt,
    List.getD_eq_getElem?_getD, List.getElem?_eq_getElem lt, Option.getD_some]

theorem handlerM_chunk {ctxM : M1urStreamContextM} {ctx : M1urStreamContext}
    (holds : CtxHolds ctxM ctx) (carry : ctx.remainBuf.length < m1urDeviceTsSyncSize)
    {c : BusChunk} (fits : c.len.toNat ≤ 2 ^ 32 - m1urDeviceTsSyncSize) {fuel : Nat}
    (enough : c.len.toNat + m1urDeviceTsSyncSize < fuel) :
    ∃ fx ctxM', m1urDeviceStreamHandlerM ctxM c.buf c.len fuel = some (fx, ctxM') ∧
      (∀ e ∈ fx, e.Safe c.len.toNat) ∧
      effectBlocks fx = putStreamBlocks (m1urDeviceStreamHandler ctx c.bytes).1 ∧
      CtxHolds ctxM' (m1urDeviceStreamHandler ctx c.bytes).2 := by
  simp only [m1urDeviceTsSyncSize_eq] at carry fits enough
  rw [← c.length_bytes] at fits enough ⊢
  rw [← c.ofNat_length_bytes]
  have chunk : ∀ j < c.bytes.length, c.buf j = c.bytes.getD j 0 := fun _ => c.getD_bytes
  by_cases empty : ctx.remainBuf = []
  · exact handlerM_direct holds empty chunk fits (by omega)
  by_cases fill : 752 ≤ ctx.remainBuf.length + c.bytes.length
  · exact handlerM_refill holds carry empty chunk fits fill enough
  · exact handlerM_accumulate holds carry empty chunk fits (by omega) fuel

end PxM1ur
