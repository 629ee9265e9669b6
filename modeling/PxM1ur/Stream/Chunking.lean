import PxM1ur.Stream.Handler

/-! How the chunking of the input decides what `m1ur_device_stream_handler` emits. The carry-over
only ever holds the tail after an emission, so a chunk shorter than one sync window that
arrives with an empty carry-over is stepped over whole, and delivering a stream in small
chunks can emit nothing. A stream of whole packets cut into chunks of at least
`2 * 752 - 1` bytes is emitted whole: each chunk then holds the refill window and a further
complete sync window. -/

namespace PxM1ur

theorem handler_captureStart_short {buf : List UInt8} (short : buf.length < m1urDeviceTsSyncSize) :
    m1urDeviceStreamHandler .captureStart buf = (buf.map .skip, .captureStart) := by
  simp [m1urDeviceStreamHandler, M1urStreamContext.captureStart, processAndKeep,
    process_of_length_lt short]

theorem streamRun_short_chunks {bufs : List (List UInt8)}
    (short : ∀ buf ∈ bufs, buf.length < m1urDeviceTsSyncSize) :
    streamRun .captureStart bufs = (bufs.flatten.map .skip, .captureStart) := by
  induction bufs with
  | nil => rfl
  | cons buf bufs ih =>
    rw [streamRun_cons, handler_captureStart_short (short buf (List.mem_cons_self _ _)),
      ih fun b mem => short b (List.mem_cons_of_mem _ mem)]
    simp

section Aligned

variable {Q : List (List UInt8)} (valid : ∀ pkt ∈ Q, ValidPacket pkt)
include valid

theorem valid_take (n : Nat) : ∀ pkt ∈ Q.take n, ValidPacket pkt :=
  fun pkt mem => valid pkt (List.mem_of_mem_take mem)

theorem valid_drop (n : Nat) : ∀ pkt ∈ Q.drop n, ValidPacket pkt :=
  fun pkt mem => valid pkt (List.mem_of_mem_drop mem)

theorem packets_prefix {x y : List UInt8} (split : x ++ y = Q.flatten) :
    ∃ r, x = (Q.take (x.length / 188)).flatten ++ r ∧ r.length < 188 ∧
      r ++ y = (Q.drop (x.length / 188)).flatten := by
  induction Q generalizing x with
  | nil =>
    obtain ⟨rfl, rfl⟩ := List.append_eq_nil.mp split
    exact ⟨[], rfl, by decide, rfl⟩
  | cons pkt Q ih =>
    have head := (valid pkt (List.mem_cons_self _ _)).1
    by_cases short : x.length < 188
    · rw [Nat.div_eq_of_lt short]
      exact ⟨x, rfl, short, split⟩
    · have first := congrArg (List.take 188) split
      rw [List.take_append_of_le_length (by omega), List.flatten_cons, List.take_left' head]
        at first
      have rest := congrArg (List.drop 188) split
      rw [List.drop_append_of_le_length (by omega), List.flatten_cons, List.drop_left' head] at rest
      obtain ⟨r, eq, len, tail⟩ := ih (fun q mem => valid q (List.mem_cons_of_mem _ mem)) rest
      have count : x.length / 188 = (x.drop 188).length / 188 + 1 := by
        rw [List.length_drop]; omega
      refine ⟨r, ?_, len, by rw [count, List.drop_succ_cons]; exact tail⟩
      rw [count, List.take_succ_cons, List.flatten_cons, List.append_assoc, ← eq, ← first,
        List.take_append_drop]

theorem process_aligned {x y : List UInt8} (split : x ++ y = Q.flatten)
    (long : m1urDeviceTsSyncSize ≤ x.length) :
    ∃ r, m1urDeviceStreamProcess x = ([.put (Q.take (x.length / 188)).flatten], r) ∧
      r.length < 188 ∧ r ++ y = (Q.drop (x.length / 188)).flatten := by
  obtain ⟨r, eq, short, tail⟩ := packets_prefix valid split
  have total := congrArg List.length split
  rw [List.length_append, length_flatten_packets valid] at total
  simp only [m1urDeviceTsSyncSize_eq] at long
  have pass := process_packets (valid_take valid (x.length / 188))
    (by simp only [List.length_take, m1urDeviceTsSyncCount_eq]; omega) short
  rw [← eq] at pass
  exact ⟨r, pass, short, tail⟩

theorem handler_aligned {ctx : M1urStreamContext} {buf rest : List UInt8}
    (short : ctx.remainBuf.length < 188) (stream : ctx.remainBuf ++ buf ++ rest = Q.flatten)
    (large : 2 * m1urDeviceTsSyncSize - 1 ≤ buf.length) :
    ∃ n, (putStreamBlocks (m1urDeviceStreamHandler ctx buf).1).flatten = (Q.take n).flatten ∧
      (m1urDeviceStreamHandler ctx buf).2.remainBuf.length < 188 ∧
      (m1urDeviceStreamHandler ctx buf).2.remainBuf ++ rest = (Q.drop n).flatten := by
  simp only [m1urDeviceTsSyncSize_eq] at large
  by_cases empty : ctx.remainBuf = []
  · rw [empty, List.nil_append] at stream
    obtain ⟨r, pass, len, tail⟩ :=
      process_aligned valid stream (by simp only [m1urDeviceTsSyncSize_eq]; omega)
    rw [handler_direct empty, processAndKeep_remainBuf empty, pass]
    exact ⟨buf.length / 188, by simp [processAndKeep, pass], len, tail⟩
  · have fits : m1urDeviceTsSyncSize ≤ ctx.remainBuf.length + buf.length := by
      simp only [m1urDeviceTsSyncSize_eq]; omega
    rw [handler_refill empty (by simp only [m1urDeviceTsSyncSize_eq]; omega) fits]
    have window : (ctx.remainBuf ++ buf.take (m1urDeviceTsSyncSize - ctx.remainBuf.length)) ++
        (buf.drop (m1urDeviceTsSyncSize - ctx.remainBuf.length) ++ rest) = Q.flatten := by
      rw [← stream, List.append_assoc, List.append_assoc, ← List.append_assoc (List.take _ _),
        List.take_append_drop]
    have size : (ctx.remainBuf ++ buf.take (m1urDeviceTsSyncSize - ctx.remainBuf.length)).length =
        m1urDeviceTsSyncSize := by
      simp only [List.length_append, List.length_take, m1urDeviceTsSyncSize_eq]; omega
    obtain ⟨r₀, pass₀, -, tail₀⟩ := process_aligned valid window size.ge
    have none : r₀ = [] := by
      have refill := refill_remainder (by simp only [m1urDeviceTsSyncSize_eq]; omega) fits
      rwa [pass₀] at refill
    have four : m1urDeviceTsSyncSize / 188 = 4 := rfl
    rw [size, four] at pass₀ tail₀
    rw [none, List.nil_append] at tail₀
    have pos := List.length_pos.mpr empty
    obtain ⟨r₁, pass₁, len₁, tail₁⟩ := process_aligned (valid_drop valid 4) tail₀
      (by simp only [List.length_drop, m1urDeviceTsSyncSize_eq]; omega)
    have direct : processAndKeep ⟨[]⟩ (buf.drop (m1urDeviceTsSyncSize - ctx.remainBuf.length)) =
        ([.put ((Q.drop 4).take
          ((buf.drop (m1urDeviceTsSyncSize - ctx.remainBuf.length)).length / 188)).flatten],
          ⟨r₁⟩) := by
      simp only [processAndKeep, pass₁]
      by_cases nil : r₁ = [] <;> simp [nil]
    rw [direct, pass₀, List.drop_drop] at *
    refine ⟨4 + (buf.drop (m1urDeviceTsSyncSize - ctx.remainBuf.length)).length / 188, ?_, len₁,
      tail₁⟩
    simp [List.take_add]

theorem streamRun_aligned {ctx : M1urStreamContext} {bufs : List (List UInt8)}
    (short : ctx.remainBuf.length < 188) (stream : ctx.remainBuf ++ bufs.flatten = Q.flatten)
    (large : ∀ buf ∈ bufs, 2 * m1urDeviceTsSyncSize - 1 ≤ buf.length) :
    ∃ n, (putStreamBlocks (streamRun ctx bufs).1).flatten = (Q.take n).flatten ∧
      (streamRun ctx bufs).2.remainBuf = (Q.drop n).flatten ∧
      (streamRun ctx bufs).2.remainBuf.length < 188 := by
  induction bufs generalizing ctx Q with
  | nil => exact ⟨0, rfl, by simpa using stream, short⟩
  | cons buf bufs ih =>
    rw [List.flatten_cons, ← List.append_assoc] at stream
    obtain ⟨n, out, len, tail⟩ :=
      handler_aligned valid short stream (large buf (List.mem_cons_self _ _))
    obtain ⟨m, out', carry, len'⟩ := ih (valid_drop valid n) len tail
      fun b mem => large b (List.mem_cons_of_mem _ mem)
    refine ⟨n + m, ?_, by rw [streamRun_cons, carry, List.drop_drop],
      by rw [streamRun_cons]; exact len'⟩
    rw [streamRun_cons, putStreamBlocks_append, List.flatten_append, out, out', List.take_add,
      List.flatten_append]

end Aligned

theorem streamRun_whole_packets (P : List (List UInt8)) (valid : ∀ pkt ∈ P, ValidPacket pkt)
    (bufs : List (List UInt8)) (split : bufs.flatten = P.flatten)
    (large : ∀ buf ∈ bufs, 2 * m1urDeviceTsSyncSize - 1 ≤ buf.length) :
    (putStreamBlocks (streamRun .captureStart bufs).1).flatten = P.flatten ∧
      (putStreamBlocks (streamRun .captureStart [P.flatten]).1).flatten = P.flatten := by
  have whole : ∀ chunks : List (List UInt8), chunks.flatten = P.flatten →
      (∀ buf ∈ chunks, 2 * m1urDeviceTsSyncSize - 1 ≤ buf.length) →
      (putStreamBlocks (streamRun .captureStart chunks).1).flatten = P.flatten := by
    intro chunks eq big
    obtain ⟨n, out, carry, short⟩ := streamRun_aligned valid
      (show M1urStreamContext.captureStart.remainBuf.length < 188 by decide)
      (show M1urStreamContext.captureStart.remainBuf ++ chunks.flatten = P.flatten from eq) big
    have rest : (P.drop n).flatten.length = 188 * (P.drop n).length :=
      length_flatten_packets (valid_drop valid n)
    have none : P.drop n = [] := List.eq_nil_of_length_eq_zero (by rw [carry] at short; omega)
    rw [out, ← List.append_nil (P.take n), ← none, List.take_append_drop]
  refine ⟨whole bufs split large, ?_⟩
  cases bufs with
  | nil =>
    rw [← split]
    simp [streamRun_cons, handler_direct M1urStreamContext.captureStart_remainBuf, processAndKeep]
  | cons buf bufs =>
    refine whole [P.flatten] (by simp) fun b mem => ?_
    rw [List.mem_singleton.mp mem, ← split, List.flatten_cons, List.length_append]
    exact (large buf (List.mem_cons_self _ _)).trans (Nat.le_add_right _ _)

end PxM1ur
