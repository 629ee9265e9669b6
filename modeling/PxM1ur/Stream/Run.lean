import PxM1ur.Stream.Overflow
import PxM1ur.Stream.Partition

/-! A capture in 32-bit arithmetic, over the whole run: the bus calls
`m1ur_device_stream_handler` on each chunk it receives, from the context
`m1ur_chrdev_start_capture` leaves (`remain_len = 0`, `remain_buf` as it was). For every sequence
of chunks of at most 2^32 - 752 bytes the run terminates, each call stays inside its own chunk
and `remain_buf`, and the blocks emitted over the run are those of the list model. With an empty
carry-over and a chunk of at least 2^32 - 3 bytes that all read 0x47 the handler never
returns. -/

namespace PxM1ur

/-- The handler in 32-bit arithmetic on each chunk in turn, the effects of each call apart. -/
def streamRunM (ctx : M1urStreamContextM) (fuel : Nat) :
    List BusChunk → Option (List (List Effect) × M1urStreamContextM)
  | [] => some ([], ctx)
  | c :: chunks =>
    (m1urDeviceStreamHandlerM ctx c.buf c.len fuel).bind fun first =>
      (streamRunM first.2 fuel chunks).map fun rest => (first.1 :: rest.1, rest.2)

theorem streamRunM_spec {input : List UInt8} {acts : List Action} {ctxM : M1urStreamContextM}
    {ctx : M1urStreamContext} (holds : CtxHolds ctxM ctx) (inv : CarryInv input acts ctx)
    {chunks : List BusChunk}
    (fits : ∀ c ∈ chunks, c.len.toNat ≤ 2 ^ 32 - m1urDeviceTsSyncSize)
    {fuel : Nat} (enough : ∀ c ∈ chunks, c.len.toNat + m1urDeviceTsSyncSize < fuel) :
    ∃ fxs ctxM', streamRunM ctxM fuel chunks = some (fxs, ctxM') ∧
      List.Forall₂ (fun fx c => ∀ e ∈ fx, e.Safe c.len.toNat) fxs chunks ∧
      (fxs.map effectBlocks).flatten =
        putStreamBlocks (streamRun ctx (chunks.map BusChunk.bytes)).1 ∧
      CtxHolds ctxM' (streamRun ctx (chunks.map BusChunk.bytes)).2 := by
  induction chunks generalizing input acts ctxM ctx with
  | nil => exact ⟨[], ctxM, rfl, .nil, rfl, holds⟩
  | cons c chunks ih =>
    obtain ⟨fx, next, call, safe, blocks, nextHolds⟩ :=
      handlerM_chunk holds inv.short (fits c (.head _)) (enough c (.head _))
    obtain ⟨fxs, ctxM', run, safes, runBlocks, runHolds⟩ :=
      ih nextHolds (carryInv_handler inv c.bytes) (fun c' mem => fits c' (.tail _ mem))
        (fun c' mem => enough c' (.tail _ mem))
    refine ⟨fx :: fxs, ctxM', by simp [streamRunM, call, run], .cons safe safes, ?_, runHolds⟩
    simp [streamRun_cons, putStreamBlocks_append, blocks, runBlocks]

/-- With an empty carry-over the whole chunk goes to one pass; on a chunk of at least
2^32 - 3 bytes that all read 0x47 every slot bound of its scan fits after wrapping, every slot
it reads lies inside the chunk, and the handler never returns. -/
theorem handlerM_never_returns {ctxM : M1urStreamContextM}
    (empty : ctxM.remainLen.setWidth 32 = 0) {c : BusChunk} (huge : 2 ^ 32 - 3 ≤ c.len.toNat)
    (sync : ∀ j < c.len.toNat, c.buf j = 0x47) (fuel : Nat) :
    m1urDeviceStreamHandlerM ctxM c.buf c.len fuel = none := by
  have window : ∀ n < c.len.toNat, streamMem c.buf ctxM.remainBuf .buf (0 + n) = 0x47 :=
    fun n lt => (congrArg c.buf (Nat.zero_add n)).trans (sync n lt)
  rw [m1urDeviceStreamHandlerM, if_neg (not_not.mpr empty), handlerTailM,
    processM_of_top huge window, Option.map_none']

theorem handlerM_never_returns_at_capture_start :
    (0 : BitVec 64).setWidth 32 = 0 ∧
      2 ^ 32 - 3 ≤ (BusChunk.mk (fun _ => 0x47) (-1)).len.toNat ∧
      (∀ j < (BusChunk.mk (fun _ => 0x47) (-1)).len.toNat,
        (BusChunk.mk (fun _ => 0x47) (-1)).buf j = 0x47) ∧
      m1urDeviceStreamHandlerM ⟨fun _ => 0, 0⟩ (fun _ => 0x47) (-1) 5000 = none :=
  ⟨rfl, by decide, fun _ _ => rfl,
    @handlerM_never_returns ⟨fun _ => 0, 0⟩ rfl ⟨fun _ => 0x47, -1⟩ (by decide)
      (fun _ _ => rfl) 5000⟩

end PxM1ur
