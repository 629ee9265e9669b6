import PxM1ur.Stream.Process

/-! `m1ur_device_stream_handler` of m1ur_device.c and runs of it over the chunks the bus
delivers after `m1ur_chrdev_start_capture` has emptied the carry-over. The context keeps
`remain_buf[0..remain_len)` as a list; its `chrdev` back-reference only names the sink. -/

namespace PxM1ur

/-- `struct m1ur_stream_context`: the carry-over `remain_buf[0..remain_len)`. -/
structure M1urStreamContext where
  remainBuf : List UInt8
  deriving DecidableEq, Repr

/-- The context as `m1ur_chrdev_start_capture` leaves it: `remain_len = 0`. -/
def M1urStreamContext.captureStart : M1urStreamContext := ⟨[]⟩

@[simp] theorem M1urStreamContext.captureStart_remainBuf :
    M1urStreamContext.captureStart.remainBuf = [] := rfl

/-- The direct pass at the end of the handler: process what is left of the chunk and keep a
non-empty remainder as the carry-over. -/
def processAndKeep (ctx : M1urStreamContext) (p : List UInt8) : List Action × M1urStreamContext :=
  let pass := m1urDeviceStreamProcess p
  (pass.1, if pass.2.length ≠ 0 then ⟨pass.2⟩ else ctx)

def m1urDeviceStreamHandler (ctx : M1urStreamContext) (buf : List UInt8) :
    List Action × M1urStreamContext :=
  if ctx.remainBuf.length ≠ 0 then
    if m1urDeviceTsSyncSize ≤ ctx.remainBuf.length + buf.length then
      let t := m1urDeviceTsSyncSize - ctx.remainBuf.length
      let refill := m1urDeviceStreamProcess (ctx.remainBuf ++ buf.take t)
      let direct := processAndKeep ⟨[]⟩ (if refill.2.length = 0 then buf.drop t else buf)
      (refill.1 ++ direct.1, direct.2)
    else ([], ⟨ctx.remainBuf ++ buf⟩)
  else processAndKeep ctx buf

def streamRun (ctx : M1urStreamContext) : List (List UInt8) → List Action × M1urStreamContext
  | [] => ([], ctx)
  | buf :: bufs =>
    let first := m1urDeviceStreamHandler ctx buf
    let rest := streamRun first.2 bufs
    (first.1 ++ rest.1, rest.2)

@[simp] theorem streamRun_nil (ctx : M1urStreamContext) : streamRun ctx [] = ([], ctx) := rfl

theorem streamRun_cons (ctx : M1urStreamContext) (buf : List UInt8) (bufs : List (List UInt8)) :
    streamRun ctx (buf :: bufs) =
      ((m1urDeviceStreamHandler ctx buf).1 ++
          (streamRun (m1urDeviceStreamHandler ctx buf).2 bufs).1,
        (streamRun (m1urDeviceStreamHandler ctx buf).2 bufs).2) := rfl

@[simp] theorem processAndKeep_fst (ctx : M1urStreamContext) (p : List UInt8) :
    (processAndKeep ctx p).1 = (m1urDeviceStreamProcess p).1 := rfl

theorem processAndKeep_remainBuf {ctx : M1urStreamContext} (empty : ctx.remainBuf = [])
    (p : List UInt8) : (processAndKeep ctx p).2.remainBuf = (m1urDeviceStreamProcess p).2 := by
  simp only [processAndKeep]
  split
  · rfl
  · simp_all

theorem processAndKeep_of_ne {ctx : M1urStreamContext} {p : List UInt8}
    (kept : (m1urDeviceStreamProcess p).2.length ≠ 0) :
    (processAndKeep ctx p).2 = ⟨(m1urDeviceStreamProcess p).2⟩ := by
  simp only [processAndKeep, if_pos kept]

theorem processAndKeep_of_eq {ctx : M1urStreamContext} {p : List UInt8}
    (empty : (m1urDeviceStreamProcess p).2.length = 0) : (processAndKeep ctx p).2 = ctx := by
  simp only [processAndKeep, if_neg (not_not.mpr empty)]

theorem handler_direct {ctx : M1urStreamContext} (empty : ctx.remainBuf = []) (buf : List UInt8) :
    m1urDeviceStreamHandler ctx buf = processAndKeep ctx buf := by
  simp [m1urDeviceStreamHandler, empty]

theorem handler_captureStart (buf : List UInt8) :
    m1urDeviceStreamHandler .captureStart buf =
      ((m1urDeviceStreamProcess buf).1, ⟨(m1urDeviceStreamProcess buf).2⟩) := by
  rw [handler_direct M1urStreamContext.captureStart_remainBuf]
  exact Prod.ext rfl (congrArg M1urStreamContext.mk
    (processAndKeep_remainBuf M1urStreamContext.captureStart_remainBuf buf))

theorem handler_accumulate {ctx : M1urStreamContext} {buf : List UInt8}
    (carry : ctx.remainBuf ≠ [])
    (short : ctx.remainBuf.length + buf.length < m1urDeviceTsSyncSize) :
    m1urDeviceStreamHandler ctx buf = ([], ⟨ctx.remainBuf ++ buf⟩) := by
  rw [m1urDeviceStreamHandler, if_pos (List.length_pos.mpr carry).ne',
    if_neg (Nat.not_le.mpr short)]

theorem refill_remainder {c buf : List UInt8} (short : c.length ≤ m1urDeviceTsSyncSize)
    (fits : m1urDeviceTsSyncSize ≤ c.length + buf.length) :
    (m1urDeviceStreamProcess (c ++ buf.take (m1urDeviceTsSyncSize - c.length))).2 = [] := by
  rw [process_sync_size (by simp only [List.length_append, List.length_take]; omega)]
  split <;> rfl

theorem handler_refill {ctx : M1urStreamContext} {buf : List UInt8} (carry : ctx.remainBuf ≠ [])
    (short : ctx.remainBuf.length ≤ m1urDeviceTsSyncSize)
    (fits : m1urDeviceTsSyncSize ≤ ctx.remainBuf.length + buf.length) :
    m1urDeviceStreamHandler ctx buf =
      ((m1urDeviceStreamProcess (ctx.remainBuf ++
          buf.take (m1urDeviceTsSyncSize - ctx.remainBuf.length))).1 ++
        (processAndKeep ⟨[]⟩ (buf.drop (m1urDeviceTsSyncSize - ctx.remainBuf.length))).1,
        (processAndKeep ⟨[]⟩ (buf.drop (m1urDeviceTsSyncSize - ctx.remainBuf.length))).2) := by
  rw [m1urDeviceStreamHandler, if_pos (List.length_pos.mpr carry).ne', if_pos fits]
  simp only [refill_remainder short fits, List.length_nil, if_true]

theorem handler_refill_locked {ctx : M1urStreamContext} {buf : List UInt8}
    (carry : ctx.remainBuf ≠ []) (short : ctx.remainBuf.length ≤ m1urDeviceTsSyncSize)
    (fits : m1urDeviceTsSyncSize ≤ ctx.remainBuf.length + buf.length)
    (locked : Locked (ctx.remainBuf ++ buf.take (m1urDeviceTsSyncSize - ctx.remainBuf.length)))
    (few : buf.length < 2 * m1urDeviceTsSyncSize - ctx.remainBuf.length) :
    putStreamBlocks (m1urDeviceStreamHandler ctx buf).1 =
      [ctx.remainBuf ++ buf.take (m1urDeviceTsSyncSize - ctx.remainBuf.length)] := by
  simp only [m1urDeviceTsSyncSize_eq] at short fits few
  rw [handler_refill carry short fits, putStreamBlocks_append,
    process_sync_size (by simp only [List.length_append, List.length_take, m1urDeviceTsSyncSize_eq]; omega),
    if_pos locked, processAndKeep_fst,
    process_of_length_lt (by simp only [List.length_drop, m1urDeviceTsSyncSize_eq]; omega)]
  simp only [putStreamBlocks_put, putStreamBlocks_nil, putStreamBlocks_map_skip, List.append_nil]

theorem handler_blocks (ctx : M1urStreamContext) (buf : List UInt8) :
    ∃ p q, putStreamBlocks (m1urDeviceStreamHandler ctx buf).1 =
      putStreamBlocks (m1urDeviceStreamProcess p).1 ++
        putStreamBlocks (m1urDeviceStreamProcess q).1 := by
  unfold m1urDeviceStreamHandler
  split
  · split
    · exact ⟨_, _, putStreamBlocks_append _ _⟩
    · exact ⟨[], [], by simp⟩
  · exact ⟨[], buf, by simp [processAndKeep]⟩

theorem streamRun_blocks_wellFormed (ctx : M1urStreamContext) (bufs : List (List UInt8)) :
    ∀ block ∈ putStreamBlocks (streamRun ctx bufs).1, WellFormedBlock block := by
  induction bufs generalizing ctx with
  | nil => simp
  | cons buf bufs ih =>
    obtain ⟨p, q, blocks⟩ := handler_blocks ctx buf
    simp only [streamRun_cons, putStreamBlocks_append, blocks, List.mem_append]
    rintro block ((mem | mem) | mem)
    · exact wellFormed_process p block mem
    · exact wellFormed_process q block mem
    · exact ih _ block mem

/-- What every state reachable from a capture start keeps: the bytes received since the start
are those the log accounts for followed by the carry-over, which is shorter than one sync
window and, when not empty, begins where the last `put` ended. -/
structure CarryInv (input : List UInt8) (acts : List Action) (ctx : M1urStreamContext) : Prop where
  covers : consumed acts ++ ctx.remainBuf = input
  short : ctx.remainBuf.length < m1urDeviceTsSyncSize
  afterPut : ctx.remainBuf ≠ [] → ∃ pre block, acts = pre ++ [.put block]

theorem carryInv_captureStart : CarryInv [] [] M1urStreamContext.captureStart :=
  ⟨rfl, by decide, fun empty => absurd rfl empty⟩

theorem carryInv_processAndKeep {ctx : M1urStreamContext} (empty : ctx.remainBuf = [])
    (acts : List Action) (p : List UInt8) :
    CarryInv (consumed acts ++ p) (acts ++ (processAndKeep ctx p).1) (processAndKeep ctx p).2 := by
  have keep := processAndKeep_remainBuf empty p
  have pass : (processAndKeep ctx p).1 = (m1urDeviceStreamProcess p).1 := rfl
  refine ⟨?_, ?_, fun nonempty => ?_⟩
  · rw [keep, pass, consumed_append, List.append_assoc, consumed_process]
  · rcases process_remainder p with none | ⟨short, -⟩
    · simp [keep, none]
    · rw [keep, m1urDeviceTsSyncSize_eq]; omega
  · rcases process_remainder p with none | ⟨-, pre, block, last⟩
    · exact absurd (keep.trans none) nonempty
    · exact ⟨acts ++ pre, block, by rw [pass, last, List.append_assoc]⟩

theorem carryInv_handler {input : List UInt8} {acts : List Action} {ctx : M1urStreamContext}
    (inv : CarryInv input acts ctx) (buf : List UInt8) :
    CarryInv (input ++ buf) (acts ++ (m1urDeviceStreamHandler ctx buf).1)
      (m1urDeviceStreamHandler ctx buf).2 := by
  by_cases empty : ctx.remainBuf = []
  · rw [handler_direct empty]
    have step := carryInv_processAndKeep empty acts buf
    rwa [← inv.covers, empty, List.append_nil]
  by_cases fits : m1urDeviceTsSyncSize ≤ ctx.remainBuf.length + buf.length
  · rw [handler_refill empty inv.short.le fits]
    have window := consumed_process
      (ctx.remainBuf ++ buf.take (m1urDeviceTsSyncSize - ctx.remainBuf.length))
    rw [refill_remainder inv.short.le fits, List.append_nil] at window
    have step := carryInv_processAndKeep
      (show (⟨[]⟩ : M1urStreamContext).remainBuf = [] from rfl)
      (acts ++ (m1urDeviceStreamProcess
        (ctx.remainBuf ++ buf.take (m1urDeviceTsSyncSize - ctx.remainBuf.length))).1)
      (buf.drop (m1urDeviceTsSyncSize - ctx.remainBuf.length))
    have received : consumed acts ++ (ctx.remainBuf ++
        buf.take (m1urDeviceTsSyncSize - ctx.remainBuf.length)) ++
        buf.drop (m1urDeviceTsSyncSize - ctx.remainBuf.length) = input ++ buf := by
      rw [← inv.covers, List.append_assoc, List.append_assoc, List.append_assoc,
        List.take_append_drop]
    rwa [consumed_append, window, received, List.append_assoc] at step
  · rw [handler_accumulate empty (by omega)]
    refine ⟨by rw [← inv.covers]; simp, by simp only [List.length_append]; omega, fun _ => ?_⟩
    simpa using inv.afterPut empty

theorem carryInv_streamRun {input : List UInt8} {acts : List Action} {ctx : M1urStreamContext}
    (inv : CarryInv input acts ctx) (bufs : List (List UInt8)) :
    CarryInv (input ++ bufs.flatten) (acts ++ (streamRun ctx bufs).1) (streamRun ctx bufs).2 := by
  induction bufs generalizing input acts ctx with
  | nil => simpa using inv
  | cons buf bufs ih =>
    simpa only [streamRun_cons, List.flatten_cons, List.append_assoc] using
      ih (carryInv_handler inv buf)

theorem streamRun_carryInv (bufs : List (List UInt8)) :
    CarryInv bufs.flatten (streamRun .captureStart bufs).1 (streamRun .captureStart bufs).2 := by
  simpa using carryInv_streamRun carryInv_captureStart bufs

theorem streamRun_carry_over (bufs : List (List UInt8)) :
    (streamRun .captureStart bufs).2.remainBuf.length < m1urDeviceTsSyncSize ∧
      ((streamRun .captureStart bufs).2.remainBuf ≠ [] →
        ∃ pre block, (streamRun .captureStart bufs).1 = pre ++ [.put block] ∧
          consumed pre ++ block ++ (streamRun .captureStart bufs).2.remainBuf = bufs.flatten) := by
  have inv := streamRun_carryInv bufs
  refine ⟨inv.short, fun nonempty => ?_⟩
  obtain ⟨pre, block, last⟩ := inv.afterPut nonempty
  refine ⟨pre, block, last, ?_⟩
  simpa [last, Action.bytes] using inv.covers

theorem consumed_decomposition (acts : List Action) :
    ∃ gaps tail, gaps.length = (putStreamBlocks acts).length ∧
      consumed acts = (List.zipWith (· ++ ·) gaps (putStreamBlocks acts)).flatten ++ tail := by
  induction acts with
  | nil => exact ⟨[], [], rfl, rfl⟩
  | cons a acts ih =>
    obtain ⟨gaps, tail, len, eq⟩ := ih
    cases a with
    | put block => exact ⟨[] :: gaps, tail, by simp [len], by simp [eq, Action.bytes]⟩
    | skip byte =>
      cases gaps with
      | nil =>
        have none : putStreamBlocks acts = [] := List.eq_nil_of_length_eq_zero len.symm
        exact ⟨[], byte :: tail, by simp [none], by simp [eq, none, Action.bytes]⟩
      | cons gap gaps =>
        obtain ⟨block, blocks, split⟩ := List.exists_cons_of_length_eq_add_one len.symm
        exact ⟨(byte :: gap) :: gaps, tail, by simpa [split] using len,
          by simp [eq, split, Action.bytes]⟩

theorem flatten_sublist_zipWith {gaps blocks : List (List UInt8)}
    (len : gaps.length = blocks.length) :
    List.Sublist blocks.flatten (List.zipWith (· ++ ·) gaps blocks).flatten := by
  induction blocks generalizing gaps with
  | nil => simp
  | cons block blocks ih =>
    obtain ⟨gap, gaps, rfl⟩ := List.exists_cons_of_length_eq_add_one len
    simp only [List.zipWith_cons_cons, List.flatten_cons, List.append_assoc]
    exact ((List.Sublist.refl block).append (ih (by simpa using len))).trans
      (List.sublist_append_right gap _)

theorem streamRun_blocks_disjoint (bufs : List (List UInt8)) :
    (∃ gaps tail, gaps.length = (putStreamBlocks (streamRun .captureStart bufs).1).length ∧
      bufs.flatten =
        (List.zipWith (· ++ ·) gaps (putStreamBlocks (streamRun .captureStart bufs).1)).flatten ++ tail) ∧
    List.Sublist (putStreamBlocks (streamRun .captureStart bufs).1).flatten bufs.flatten := by
  obtain ⟨gaps, tail, len, eq⟩ := consumed_decomposition (streamRun .captureStart bufs).1
  have input : bufs.flatten = (List.zipWith (· ++ ·) gaps
      (putStreamBlocks (streamRun .captureStart bufs).1)).flatten ++
        (tail ++ (streamRun .captureStart bufs).2.remainBuf) := by
    rw [← (streamRun_carryInv bufs).covers, eq, List.append_assoc]
  exact ⟨⟨gaps, _, len, input⟩,
    input ▸ (flatten_sublist_zipWith len).trans (List.sublist_append_left _ _)⟩

end PxM1ur
