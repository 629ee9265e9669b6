import Mathlib.Algebra.Group.Nat.Basic
import Mathlib.Algebra.Group.Int
import PxM1ur.Stream.Handler

/-! The synchroniser as the C code computes it: the u32 locals as `BitVec 32`, `size_t
remain_len` as `BitVec 64`, a pointer as a buffer and a byte offset, and each loop on fuel. A
run returns its effects in order: every u32 addition, subtraction and multiplication with its
exact value, so that a wrap shows; every range of memory read or written; and every block
passed to `ptx_chrdev_put_stream`. Below 2^32 - 188 bytes a window is scanned and passed as the
list model does it (`processM_spec`). -/

namespace PxM1ur

inductive Buffer where
  | buf
  | remainBuf
  deriving DecidableEq, Repr

structure Ptr where
  buffer : Buffer
  offset : Nat
  deriving DecidableEq, Repr

inductive Effect where
  | arith (exact : Int)
  | touch (buffer : Buffer) (start count : Nat) (write : Bool)
  | put (block : List UInt8)
  deriving DecidableEq, Repr

def add32 (a b : BitVec 32) : BitVec 32 × Effect := (a + b, .arith (a.toNat + b.toNat))
def sub32 (a b : BitVec 32) : BitVec 32 × Effect := (a - b, .arith ((a.toNat : Int) - b.toNat))
def mul32 (a b : BitVec 32) : BitVec 32 × Effect := (a * b, .arith (a.toNat * b.toNat))

/-- The inner `while (true)` of `m1ur_device_stream_process` from slot `i`: the slot it stopped
at, `sync_remain`, and its effects. -/
def syncScanM (mem : Buffer → Nat → UInt8) (p : Ptr) (remain : BitVec 32) :
    Nat → BitVec 32 → Option (BitVec 32 × Bool × List Effect)
  | 0, _ => none
  | fuel + 1, i =>
    let next := add32 i 1
    let bound := mul32 next.1 188
    if bound.1 ≤ remain then
      let slot := mul32 i 188
      let fx := [next.2, bound.2, slot.2, .touch p.buffer (p.offset + slot.1.toNat) 1 false]
      if mem p.buffer (p.offset + slot.1.toNat) ≠ 0x47 then some (i, false, fx)
      else
        let inc := add32 i 1
        (syncScanM mem p remain fuel inc.1).map fun r => (r.1, r.2.1, fx ++ inc.2 :: r.2.2)
    else some (i, true, [next.2, bound.2])

/-- `ptx_chrdev_put_stream(chrdev, p, n)`: the `n` bytes at `p` are read and handed on. -/
def putStreamM (mem : Buffer → Nat → UInt8) (p : Ptr) (n : Nat) : List Effect :=
  [.touch p.buffer p.offset n false, .put ((List.range n).map fun j => mem p.buffer (p.offset + j))]

def m1urDeviceStreamProcessM (mem : Buffer → Nat → UInt8) :
    Nat → Ptr → BitVec 32 → Option (Ptr × BitVec 32 × List Effect)
  | 0, _, _ => none
  | fuel + 1, p, remain =>
    if remain = 0 then some (p, remain, [])
    else
      match syncScanM mem p remain fuel 0 with
      | none => none
      | some (i, syncRemain, scanFx) =>
        if i < .ofNat 32 m1urDeviceTsSyncCount then
          let dec := sub32 remain 1
          (m1urDeviceStreamProcessM mem fuel ⟨p.buffer, p.offset + 1⟩ dec.1).map fun r =>
            (r.1, r.2.1, scanFx ++ dec.2 :: r.2.2)
        else
          let size := mul32 188 i
          let rest := sub32 remain size.1
          let fx := scanFx ++ size.2 :: putStreamM mem p size.1.toNat ++ [size.2, size.2, rest.2]
          let after : Ptr := ⟨p.buffer, p.offset + size.1.toNat⟩
          if syncRemain then some (after, rest.1, fx)
          else (m1urDeviceStreamProcessM mem fuel after rest.1).map fun r =>
            (r.1, r.2.1, fx ++ r.2.2)

/-- `struct m1ur_stream_context`: the bytes of `remain_buf` and `size_t remain_len`. -/
structure M1urStreamContextM where
  remainBuf : Nat → UInt8
  remainLen : BitVec 64

/-- `memcpy(dst + dstStart, src + srcStart, count)`, on the bytes of `dst`. -/
def copyBytes (dst : Nat → UInt8) (dstStart : Nat) (src : Nat → UInt8) (srcStart count : Nat) :
    Nat → UInt8 :=
  fun j => if dstStart ≤ j ∧ j < dstStart + count then src (srcStart + (j - dstStart)) else dst j

def streamMem (buf remainBuf : Nat → UInt8) : Buffer → Nat → UInt8
  | .buf => buf
  | .remainBuf => remainBuf

/-- The end of the handler: the pass over the chunk from offset `p`, then
`if (remain) { memcpy(stream_ctx->remain_buf, p, remain); stream_ctx->remain_len = remain; }`. -/
def handlerTailM (ctx : M1urStreamContextM) (buf : Nat → UInt8) (p : Nat) (remain : BitVec 32)
    (fuel : Nat) : Option (List Effect × M1urStreamContextM) :=
  (m1urDeviceStreamProcessM (streamMem buf ctx.remainBuf) fuel ⟨.buf, p⟩ remain).map fun r =>
    if r.2.1 ≠ 0 then
      (r.2.2 ++ [.touch .remainBuf 0 r.2.1.toNat true, .touch .buf r.1.offset r.2.1.toNat false],
        ⟨copyBytes ctx.remainBuf 0 buf r.1.offset r.2.1.toNat, r.2.1.setWidth 64⟩)
    else (r.2.2, ctx)

def m1urDeviceStreamHandlerM (ctx : M1urStreamContextM) (buf : Nat → UInt8) (len : BitVec 32)
    (fuel : Nat) : Option (List Effect × M1urStreamContextM) :=
  let ctxRemainLen : BitVec 32 := ctx.remainLen.setWidth 32
  if ctxRemainLen ≠ 0 then
    let total := add32 ctxRemainLen len
    if .ofNat 32 m1urDeviceTsSyncSize ≤ total.1 then
      let t := sub32 (.ofNat 32 m1urDeviceTsSyncSize) ctxRemainLen
      let filled := copyBytes ctx.remainBuf ctxRemainLen.toNat buf 0 t.1.toNat
      let copyFx := [total.2, t.2, .touch .remainBuf ctxRemainLen.toNat t.1.toNat true,
        .touch .buf 0 t.1.toNat false]
      match m1urDeviceStreamProcessM (streamMem buf filled) fuel ⟨.remainBuf, 0⟩
          (.ofNat 32 m1urDeviceTsSyncSize) with
      | none => none
      | some (_, left, refillFx) =>
        if left = 0 then
          let rest := sub32 len t.1
          (handlerTailM ⟨filled, 0⟩ buf t.1.toNat rest.1 fuel).map fun r =>
            (copyFx ++ refillFx ++ rest.2 :: r.1, r.2)
        else (handlerTailM ⟨filled, 0⟩ buf 0 len fuel).map fun r => (copyFx ++ refillFx ++ r.1, r.2)
    else
      some ([total.2, .touch .remainBuf ctxRemainLen.toNat len.toNat true,
          .touch .buf 0 len.toNat false],
        ⟨copyBytes ctx.remainBuf ctxRemainLen.toNat buf 0 len.toNat,
          ctx.remainLen + len.setWidth 64⟩)
  else handlerTailM ctx buf 0 len fuel

def WindowAt (mem : Buffer → Nat → UInt8) (p : Ptr) (w : List UInt8) : Prop :=
  ∀ j < w.length, mem p.buffer (p.offset + j) = w.getD j 0

def NoWrap (exact : Int) : Prop := 0 ≤ exact ∧ exact < 2 ^ 32

/-- No u32 operation wraps, and every access lies in the `n` bytes at `p`. -/
def Effect.InWindow (p : Ptr) (n : Nat) : Effect → Prop
  | .arith exact => NoWrap exact
  | .touch buffer start count _ =>
    buffer = p.buffer ∧ p.offset ≤ start ∧ start + count ≤ p.offset + n
  | .put _ => True

def Effect.putBlock? : Effect → Option (List UInt8)
  | .put block => some block
  | _ => none

def effectBlocks (fx : List Effect) : List (List UInt8) := fx.filterMap Effect.putBlock?

@[simp] theorem effectBlocks_nil : effectBlocks [] = [] := rfl
@[simp] theorem effectBlocks_cons (e : Effect) (fx : List Effect) :
    effectBlocks (e :: fx) = e.putBlock?.toList ++ effectBlocks fx := by
  cases e <;> rfl
@[simp] theorem effectBlocks_append (fx gx : List Effect) :
    effectBlocks (fx ++ gx) = effectBlocks fx ++ effectBlocks gx := List.filterMap_append ..

theorem noWrap_of_lt {n : Nat} (lt : n < 2 ^ 32) : NoWrap n := ⟨by omega, by omega⟩

@[simp] theorem toNat_one32 : (1 : BitVec 32).toNat = 1 := rfl
@[simp] theorem toNat_188 : (188 : BitVec 32).toNat = 188 := rfl
@[simp] theorem toNat_zero32 : (0 : BitVec 32).toNat = 0 := rfl

theorem length_process_le (w : List UInt8) :
    (m1urDeviceStreamProcess w).2.length ≤ w.length := by
  have := congrArg List.length (consumed_process w)
  simp only [List.length_append] at this
  omega

theorem Effect.InWindow.shift {e : Effect} {p : Ptr} {k n m : Nat}
    (within : e.InWindow ⟨p.buffer, p.offset + k⟩ n) (le : k + n ≤ m) : e.InWindow p m := by
  cases e with
  | touch =>
    obtain ⟨buffer, lo, hi⟩ := within
    exact ⟨buffer, by simp only at lo; omega, by simp only at hi; omega⟩
  | _ => exact within

section Window

variable {mem : Buffer → Nat → UInt8} {p : Ptr} {w : List UInt8}

theorem syncScanM_spec (window : WindowAt mem p w) {remain : BitVec 32}
    (length : remain.toNat = w.length) (room : w.length + 188 < 2 ^ 32) (fuel : Nat)
    (i : BitVec 32) (start : i.toNat * 188 ≤ w.length)
    (enough : w.length < (i.toNat + fuel) * 188) :
    ∃ stop fx, syncScanM mem p remain fuel i = some (stop, (syncScan w i.toNat).2, fx) ∧
      stop.toNat = (syncScan w i.toNat).1 ∧ effectBlocks fx = [] ∧
      ∀ e ∈ fx, e.InWindow p w.length := by
  induction fuel generalizing i with
  | zero => omega
  | succ fuel ih =>
    have next : (i + 1).toNat = i.toNat + 1 := BitVec.toNat_add_of_lt (by simp; omega)
    have bound : ((i + 1) * 188).toNat = (i.toNat + 1) * 188 := by
      rw [BitVec.toNat_mul_of_lt] <;> rw [next, toNat_188]
      omega
    rw [syncScanM, syncScan]
    simp only [add32, mul32, BitVec.le_def, bound, length, next, toNat_one32, toNat_188]
    by_cases fits : (i.toNat + 1) * 188 ≤ w.length
    · have slot : (i * 188).toNat = i.toNat * 188 :=
        (BitVec.toNat_mul_of_lt (by simp; omega)).trans (by simp)
      rw [if_pos fits, if_pos fits, slot, window _ (by omega)]
      have safe : ∀ e ∈ [Effect.arith (i.toNat + 1 : Nat), .arith ((i.toNat + 1) * 188 : Nat),
          .arith (i.toNat * 188 : Nat), .touch p.buffer (p.offset + i.toNat * 188) 1 false],
          e.InWindow p w.length := by
        simp only [List.mem_cons, List.mem_singleton, List.not_mem_nil, or_false]
        rintro e (rfl | rfl | rfl | rfl) <;>
          first | exact noWrap_of_lt (by omega) | exact ⟨rfl, by omega, by omega⟩
      by_cases marker : w.getD (i.toNat * 188) 0 ≠ 0x47
      · rw [if_pos marker, if_pos marker]
        exact ⟨i, _, rfl, rfl, by simp [Effect.putBlock?], by simpa using safe⟩
      · rw [if_neg marker, if_neg marker]
        obtain ⟨stop, fx, run, value, blocks, within⟩ :=
          ih (i + 1) (by rw [next]; omega) (by rw [next]; omega)
        rw [next] at run value
        refine ⟨stop, _, by rw [run]; rfl, value, by simp [Effect.putBlock?, blocks], ?_⟩
        intro e mem
        simp only [List.mem_append, List.mem_cons] at mem
        rcases mem with mem | rfl | mem
        · exact safe e (by simpa using mem)
        · exact noWrap_of_lt (by omega)
        · exact within e mem
    · rw [if_neg fits, if_neg fits]
      refine ⟨i, _, rfl, rfl, by simp [Effect.putBlock?], ?_⟩
      simp only [List.mem_cons, List.mem_singleton, List.not_mem_nil, or_false]
      rintro e (rfl | rfl) <;> exact noWrap_of_lt (by omega)

theorem windowAt_drop (window : WindowAt mem p w) (k : Nat) :
    WindowAt mem ⟨p.buffer, p.offset + k⟩ (w.drop k) := by
  intro j lt
  simp only [List.length_drop] at lt
  rw [Nat.add_assoc, window _ (by omega)]
  simp [List.getD_eq_getElem?_getD, List.getElem?_drop]

theorem range_map_window (window : WindowAt mem p w) {n : Nat} (le : n ≤ w.length) :
    (List.range n).map (fun j => mem p.buffer (p.offset + j)) = w.take n := by
  apply List.ext_getElem (by simp; omega)
  intro j lt _
  simp only [List.length_map, List.length_range] at lt
  rw [List.getElem_map, List.getElem_range, window _ (by omega), List.getElem_take,
    List.getD_eq_getElem?_getD, List.getElem?_eq_getElem (by omega), Option.getD_some]

theorem putStreamM_spec (window : WindowAt mem p w) {n : Nat} (le : n ≤ w.length) :
    effectBlocks (putStreamM mem p n) = [w.take n] ∧
      ∀ e ∈ putStreamM mem p n, e.InWindow p w.length := by
  refine ⟨by simp [putStreamM, Effect.putBlock?, range_map_window window le], ?_⟩
  simp only [putStreamM, List.mem_cons, List.mem_singleton, List.not_mem_nil, or_false]
  rintro e (rfl | rfl)
  exacts [⟨rfl, le_rfl, by omega⟩, trivial]

theorem processM_emit {b : UInt8} {rest : List UInt8} {remain : BitVec 32} {fuel : Nat}
    (window : WindowAt mem p (b :: rest)) (length : remain.toNat = (b :: rest).length)
    (room : (b :: rest).length + 188 < 2 ^ 32) (enough : (b :: rest).length < fuel + 1)
    {i : Nat} {s : Bool} (scan : syncScan (b :: rest) 0 = (i, s))
    (ge : ¬ i < m1urDeviceTsSyncCount) :
    ∃ fx left, effectBlocks fx = [(b :: rest).take (188 * i)] ∧
      (∀ e ∈ fx, e.InWindow p (b :: rest).length) ∧
      left.toNat = (b :: rest).length - 188 * i ∧
      m1urDeviceStreamProcessM mem (fuel + 1) p remain =
        if s then some (⟨p.buffer, p.offset + 188 * i⟩, left, fx)
        else (m1urDeviceStreamProcessM mem fuel ⟨p.buffer, p.offset + 188 * i⟩ left).map
          fun r => (r.1, r.2.1, fx ++ r.2.2) := by
  have nonzero : remain ≠ 0 := fun zero => by simp [zero] at length
  obtain ⟨stop, scanFx, run, value, noBlocks, scanSafe⟩ :=
    syncScanM_spec window length room fuel 0 (by simp) (by simp at enough ⊢; omega)
  rw [toNat_zero32, scan] at run value
  dsimp only at run value
  have fits : 188 * i ≤ (b :: rest).length := by simpa [scan] using syncScan_mul_le (b :: rest)
  have size : (188 * stop).toNat = 188 * i := by
    rw [BitVec.toNat_mul_of_lt (by simp only [toNat_188, value]; omega), toNat_188, value]
  have left : (remain - 188 * stop).toNat = (b :: rest).length - 188 * i := by
    rw [BitVec.toNat_sub_of_le (by rw [BitVec.le_def, size, length]; exact fits), size, length]
  have emit : ¬ stop < .ofNat 32 m1urDeviceTsSyncCount := by
    rw [BitVec.lt_def, value]
    simpa using ge
  rw [m1urDeviceStreamProcessM, if_neg nonzero, run]
  simp only [if_neg emit, mul32, sub32, size]
  refine ⟨_, _, ?_, ?_, left, rfl⟩
  · simp only [effectBlocks_append, noBlocks, effectBlocks_cons, (putStreamM_spec window fits).1]
    simp [Effect.putBlock?]
  · intro e mem
    simp only [List.mem_append, List.mem_cons, List.mem_singleton, List.not_mem_nil,
      or_false] at mem
    rcases mem with (mem | rfl | mem) | rfl | rfl | rfl
    · exact scanSafe e mem
    rotate_left
    · exact (putStreamM_spec window fits).2 e mem
    all_goals simp only [Effect.InWindow, NoWrap, toNat_188, value, left, size]; omega

/-- Refinement of the pass: with enough fuel, on a window of fewer than 2^32 - 188 bytes the
32-bit pass stops where the list model leaves its remainder, emits the same blocks, wraps no
u32 operation and touches only the window. -/
theorem processM_spec (w : List UInt8) (p : Ptr) (remain : BitVec 32) (fuel : Nat)
    (window : WindowAt mem p w) (length : remain.toNat = w.length)
    (room : w.length + 188 < 2 ^ 32) (enough : w.length < fuel) :
    ∃ rest fx, m1urDeviceStreamProcessM mem fuel p remain =
        some (⟨p.buffer, p.offset + (w.length - (m1urDeviceStreamProcess w).2.length)⟩, rest, fx) ∧
      rest.toNat = (m1urDeviceStreamProcess w).2.length ∧
      effectBlocks fx = putStreamBlocks (m1urDeviceStreamProcess w).1 ∧
      ∀ e ∈ fx, e.InWindow p w.length := by
  obtain ⟨fuel, rfl⟩ : ∃ f, fuel = f + 1 := ⟨fuel - 1, by omega⟩
  induction w using m1urDeviceStreamProcess.induct generalizing p remain fuel with
  | case1 =>
    obtain rfl : remain = 0 := BitVec.eq_of_toNat_eq (by simpa using length)
    exact ⟨0, [], by simp [m1urDeviceStreamProcessM], by simp, by simp, by simp⟩
  | case2 b rest i s scan lt ih =>
    have nonzero : remain ≠ 0 := fun zero => by simp [zero] at length
    obtain ⟨stop, scanFx, run, value, noBlocks, scanSafe⟩ :=
      syncScanM_spec window length room fuel 0 (by simp) (by simp at enough ⊢; omega)
    rw [toNat_zero32, scan] at run value
    obtain ⟨f, rfl⟩ : ∃ f, fuel = f + 1 := ⟨fuel - 1, by simp at enough; omega⟩
    have dec : (remain - 1).toNat = rest.length := by
      rw [BitVec.toNat_sub_of_le (by rw [BitVec.le_def]; simp [length]), length]
      simp
    obtain ⟨rest', fx, run', value', blocks, within⟩ :=
      ih ⟨p.buffer, p.offset + 1⟩ (remain - 1) (by simpa using windowAt_drop window 1) dec
        (by simp at room; omega) f (by simp at enough; omega)
    have skip : stop < .ofNat 32 m1urDeviceTsSyncCount := by
      rw [BitVec.lt_def, value]
      simpa using lt
    rw [m1urDeviceStreamProcessM, if_neg nonzero, run]
    simp only [if_pos skip, sub32, run', Option.map_some']
    rw [process_cons, scan, if_pos lt]
    have shorter := length_process_le rest
    refine ⟨rest', scanFx ++ (sub32 remain 1).2 :: fx, ?_, value',
      by simp [noBlocks, blocks, sub32, Effect.putBlock?], ?_⟩
    · simp only [sub32, List.length_cons, Option.some.injEq, Prod.mk.injEq, Ptr.mk.injEq,
        and_true, true_and]
      omega
    intro e mem
    simp only [List.mem_append, List.mem_cons] at mem
    rcases mem with mem | rfl | mem
    · exact scanSafe e mem
    · simp only [List.length_cons] at length room
      exact ⟨by simp; omega, by simp; omega⟩
    · exact (within e mem).shift (by simp; omega)
  | case3 b rest i ge scan =>
    obtain ⟨fx, rest', blocks, safe, left, round⟩ :=
      processM_emit window length room enough scan ge
    rw [round, if_pos rfl, process_cons, scan, if_neg ge, if_pos rfl]
    have fits := syncScan_mul_le (b :: rest)
    rw [scan] at fits
    refine ⟨rest', fx, ?_, by rw [left, List.length_drop], by simpa using blocks, safe⟩
    simp only [List.length_drop, Option.some.injEq, Prod.mk.injEq, Ptr.mk.injEq, and_true,
      true_and]
    omega
  | case4 b rest i s scan ge stop ih =>
    obtain ⟨fx, left, blocks, safe, leftEq, round⟩ :=
      processM_emit window length room enough scan ge
    have fits := syncScan_mul_le (b :: rest)
    rw [scan] at fits
    simp only [m1urDeviceTsSyncCount_eq, not_lt] at ge
    obtain ⟨f, rfl⟩ : ∃ f, fuel = f + 1 := ⟨fuel - 1, by omega⟩
    obtain ⟨rest', gx, run, value, blocks', within⟩ :=
      ih ⟨p.buffer, p.offset + 188 * i⟩ left (windowAt_drop window _)
        (by rw [leftEq, List.length_drop]) (by simp at room ⊢; omega) f
        (by simp at enough ⊢; omega)
    rw [round, if_neg stop, run, process_cons, scan, if_neg (by simpa using ge), if_neg stop]
    have shorter := length_process_le ((b :: rest).drop (188 * i))
    refine ⟨rest', fx ++ gx, ?_, value, by simp [blocks, blocks'], fun e mem => ?_⟩
    · simp only [List.length_drop, Option.map_some', Option.some.injEq, Prod.mk.injEq,
        Ptr.mk.injEq, and_true, true_and] at shorter ⊢
      omega
    · rcases List.mem_append.mp mem with mem | mem
      exacts [safe e mem, (within e mem).shift (by simp only [List.length_drop]; omega)]

end Window

end PxM1ur
