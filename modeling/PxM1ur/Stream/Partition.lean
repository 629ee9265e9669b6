import PxM1ur.Stream.Machine

/-! What `m1ur_device_stream_process` guarantees on return, for every window the 32-bit code can
be handed, `remain` up to 2^32 - 1 included: the pass has gone over a prefix of the window, split
in order into the blocks it handed to `ptx_chrdev_put_stream` and the bytes it stepped over one at
a time, and it leaves nothing, or fewer than 188 bytes right after a block. Near 2^32 the slot
bound `(i + 1) * 188` of the scan wraps; the bound `i * 188 ≤ remain` that the scan keeps is what
still holds there, and it is only a statement about returns: with `remain` at least 2^32 - 3
every bound holds, and on a window whose bytes all read 0x47 the pass never returns. A 752-byte window, the
refilled carry-over, is always passed to its end. -/

namespace PxM1ur

def windowBytes (mem : Buffer → Nat → UInt8) (p : Ptr) (n : Nat) : List UInt8 :=
  (List.range n).map fun j => mem p.buffer (p.offset + j)

theorem windowBytes_add (mem : Buffer → Nat → UInt8) (p : Ptr) (m n : Nat) :
    windowBytes mem p (m + n) =
      windowBytes mem p m ++ windowBytes mem ⟨p.buffer, p.offset + m⟩ n := by
  simp [windowBytes, List.range_add, Nat.add_assoc]

theorem windowAt_windowBytes (mem : Buffer → Nat → UInt8) (p : Ptr) (n : Nat) :
    WindowAt mem p (windowBytes mem p n) := fun j lt => by
  simp only [windowBytes, List.length_map, List.length_range] at lt
  simp [windowBytes, List.getD_eq_getElem?_getD, List.getElem?_range lt]

theorem putStreamBlocks_cons (a : Action) (acts : List Action) :
    putStreamBlocks (a :: acts) = a.putBlock?.toList ++ putStreamBlocks acts := by
  cases a <;> rfl

/-- What a pass over the `remain` bytes at `p` promises when it returns `p'`, `remain'` and the
effects `fx`: it stopped inside the window, with `remain'` bytes left; the bytes it passed over
are, in order, the blocks it emitted and single bytes it skipped; and either nothing is left or
fewer than 188 bytes are, after a block that ends at `p'`. -/
structure PassPost (mem : Buffer → Nat → UInt8) (p : Ptr) (remain : Nat) (p' : Ptr)
    (remain' : Nat) (fx : List Effect) : Prop where
  suffix : remain' ≤ remain ∧ p' = ⟨p.buffer, p.offset + (remain - remain')⟩
  partition : ∃ acts, consumed acts = windowBytes mem p (remain - remain') ∧
    putStreamBlocks acts = effectBlocks fx ∧
    (remain' = 0 ∨ remain' < 188 ∧ ∃ pre block, acts = pre ++ [.put block])

section Pass

variable {mem : Buffer → Nat → UInt8} {p p' : Ptr} {remain remain' : Nat} {fx : List Effect}

theorem PassPost.nil : PassPost mem p 0 p 0 [] :=
  ⟨⟨le_rfl, rfl⟩, [], by simp [windowBytes], rfl, .inl rfl⟩

theorem PassPost.cons {n : Nat} {a : Action} {gx : List Effect}
    (post : PassPost mem ⟨p.buffer, p.offset + n⟩ (remain - n) p' remain' fx)
    (le : n ≤ remain)
    (bytes : a.bytes = windowBytes mem p n) (blocks : a.putBlock?.toList = effectBlocks gx) :
    PassPost mem p remain p' remain' (gx ++ fx) := by
  obtain ⟨⟨short, rfl⟩, acts, consumedActs, blocksActs, tail⟩ := post
  refine ⟨⟨by omega, by simp only [Ptr.mk.injEq, true_and]; omega⟩, a :: acts, ?_, ?_, ?_⟩
  · rw [consumed_cons, consumedActs, bytes, ← windowBytes_add]
    congr 1
    omega
  · rw [putStreamBlocks_cons, blocks, blocksActs, effectBlocks_append]
  · rcases tail with done | ⟨few, pre, block, rfl⟩
    · exact .inl done
    · exact .inr ⟨few, a :: pre, block, rfl⟩

theorem PassPost.last {n : Nat} {gx : List Effect} (le : n ≤ remain) (few : remain - n < 188)
    (blocks : [windowBytes mem p n] = effectBlocks gx) :
    PassPost mem p remain ⟨p.buffer, p.offset + n⟩ (remain - n) gx :=
  ⟨⟨by omega, by simp only [Ptr.mk.injEq, true_and]; omega⟩, [.put (windowBytes mem p n)],
    by simp only [consumed_cons, consumed_nil, Action.bytes, List.append_nil]; congr 1; omega,
    by simpa using blocks, .inr ⟨few, [], _, rfl⟩⟩

theorem syncScanM_bound {remain : BitVec 32} {fuel : Nat} {i stop : BitVec 32} {s : Bool}
    {fx : List Effect} (scan : syncScanM mem p remain fuel i = some (stop, s, fx))
    (start : (i * 188).toNat ≤ remain.toNat) :
    (stop * 188).toNat ≤ remain.toNat ∧
      (s = true → remain.toNat < (stop * 188).toNat + 188) ∧ effectBlocks fx = [] := by
  induction fuel generalizing i fx with
  | zero => simp [syncScanM] at scan
  | succ fuel ih =>
    simp only [syncScanM, add32, mul32] at scan
    split at scan
    · next fits =>
      split at scan
      · obtain ⟨rfl, rfl, rfl⟩ : i = stop ∧ false = s ∧ _ = fx := by simpa using scan
        exact ⟨start, nofun, by simp [Effect.putBlock?]⟩
      · obtain ⟨⟨stop', s', fx'⟩, rest, eq⟩ := Option.map_eq_some'.mp scan
        obtain ⟨rfl, rfl, rfl⟩ : stop' = stop ∧ s' = s ∧ _ = fx := by simpa using eq
        obtain ⟨bound, flag, blocks⟩ := ih rest (BitVec.le_def.mp fits)
        exact ⟨bound, flag, by simp [blocks, Effect.putBlock?]⟩
    · next short =>
      obtain ⟨rfl, rfl, rfl⟩ : i = stop ∧ true = s ∧ _ = fx := by simpa using scan
      refine ⟨start, fun _ => ?_, by simp [Effect.putBlock?]⟩
      rw [BitVec.le_def, Nat.not_le] at short
      simp only [BitVec.toNat_mul, BitVec.toNat_add, toNat_188, toNat_one32] at short start ⊢
      have := i.isLt
      omega

theorem processM_post {fuel : Nat} {p : Ptr} {remain remain' : BitVec 32}
    (run : m1urDeviceStreamProcessM mem fuel p remain = some (p', remain', fx)) :
    PassPost mem p remain.toNat p' remain'.toNat fx := by
  induction fuel generalizing p remain fx with
  | zero => simp [m1urDeviceStreamProcessM] at run
  | succ fuel ih =>
    rw [m1urDeviceStreamProcessM] at run
    split at run
    · next zero =>
      obtain ⟨rfl, rfl, rfl⟩ : p = p' ∧ remain = remain' ∧ [] = fx := by simpa using run
      rw [zero]
      exact PassPost.nil
    · next nonzero =>
      have pos : 0 < remain.toNat := by
        rw [Nat.pos_iff_ne_zero]
        exact fun h => nonzero (BitVec.eq_of_toNat_eq h)
      split at run
      · simp at run
      · next i s scanFx scan =>
        obtain ⟨bound, flag, noBlocks⟩ := syncScanM_bound scan (by simp)
        split at run
        · -- fewer than four synced slots: step over one byte
          obtain ⟨⟨q, r, gx⟩, rest, eq⟩ := Option.map_eq_some'.mp run
          obtain ⟨rfl, rfl, rfl⟩ : q = p' ∧ r = remain' ∧ _ = fx := by simpa using eq
          have dec : (remain - 1).toNat = remain.toNat - 1 :=
            BitVec.toNat_sub_of_le (by rw [BitVec.le_def]; simpa using pos)
          have post := ih rest
          simp only [sub32] at post
          rw [dec] at post
          rw [List.append_cons]
          exact post.cons pos (a := .skip (mem p.buffer p.offset))
            rfl
            (by simp [noBlocks, sub32, Effect.putBlock?, Action.putBlock?])
        · -- four or more: emit them as one block
          have size : (mul32 188 i).1.toNat = (i * 188).toNat := by
            rw [mul32, BitVec.mul_comm]
          have rest :
              (sub32 remain (mul32 188 i).1).1.toNat = remain.toNat - (mul32 188 i).1.toNat :=
            BitVec.toNat_sub_of_le (by rw [BitVec.le_def, size]; exact bound)
          have blocks : [windowBytes mem p (mul32 188 i).1.toNat] = effectBlocks
              (scanFx ++ (mul32 188 i).2 :: putStreamM mem p (mul32 188 i).1.toNat ++
                [(mul32 188 i).2, (mul32 188 i).2, (sub32 remain (mul32 188 i).1).2]) := by
            simp [noBlocks, mul32, sub32, putStreamM, windowBytes, Effect.putBlock?]
          split at run
          · next stops =>
            simp only [Option.some.injEq, Prod.mk.injEq] at run
            obtain ⟨rfl, rfl, rfl⟩ := run
            rw [rest]
            exact PassPost.last (size ▸ bound) (by have := flag stops; omega) blocks
          · obtain ⟨⟨q, r, gx⟩, more, eq⟩ := Option.map_eq_some'.mp run
            simp only [Prod.mk.injEq] at eq
            obtain ⟨rfl, rfl, rfl⟩ := eq
            have post := ih more
            rw [rest] at post
            exact post.cons (size ▸ bound)
              (a := .put (windowBytes mem p (mul32 188 i).1.toNat)) rfl blocks

end Pass

theorem syncScanM_of_top {mem : Buffer → Nat → UInt8} {p : Ptr} {remain : BitVec 32}
    (top : 2 ^ 32 - 3 ≤ remain.toNat)
    (sync : ∀ n < remain.toNat, mem p.buffer (p.offset + n) = 0x47) (fuel : Nat)
    (i : BitVec 32) : syncScanM mem p remain fuel i = none := by
  induction fuel generalizing i with
  | zero => rfl
  | succ fuel ih =>
    have fits : (add32 i 1).1 * 188 ≤ remain := by
      rw [BitVec.le_def, BitVec.toNat_mul, toNat_188]
      omega
    have inside : (i * 188).toNat < remain.toNat := by
      rw [BitVec.toNat_mul, toNat_188]
      omega
    simp only [syncScanM, mul32, if_pos fits, sync _ inside, ne_eq, not_true_eq_false, if_false,
      ih, Option.map_none']

theorem processM_of_top {mem : Buffer → Nat → UInt8} {p : Ptr} {remain : BitVec 32}
    (top : 2 ^ 32 - 3 ≤ remain.toNat)
    (sync : ∀ n < remain.toNat, mem p.buffer (p.offset + n) = 0x47) (fuel : Nat) :
    m1urDeviceStreamProcessM mem fuel p remain = none := by
  have nonzero : remain ≠ 0 := fun zero => by simp [zero] at top
  cases fuel with
  | zero => rfl
  | succ fuel => rw [m1urDeviceStreamProcessM, if_neg nonzero, syncScanM_of_top top sync]

theorem processM_sync_size (mem : Buffer → Nat → UInt8) (p : Ptr) {fuel : Nat}
    (enough : m1urDeviceTsSyncSize < fuel) :
    ∃ fx, m1urDeviceStreamProcessM mem fuel p (.ofNat 32 m1urDeviceTsSyncSize) =
        some (⟨p.buffer, p.offset + m1urDeviceTsSyncSize⟩, 0, fx) ∧
      effectBlocks fx = if ∀ j < m1urDeviceTsSyncCount, mem p.buffer (p.offset + 188 * j) = 0x47
        then [windowBytes mem p m1urDeviceTsSyncSize] else [] := by
  set w := windowBytes mem p m1urDeviceTsSyncSize
  have length : w.length = m1urDeviceTsSyncSize := by simp [w, windowBytes]
  have window : WindowAt mem p w := windowAt_windowBytes mem p _
  have locked :
      Locked w ↔ ∀ j < m1urDeviceTsSyncCount, mem p.buffer (p.offset + 188 * j) = 0x47 := by
    refine forall_congr' fun j => forall_congr' fun lt => ?_
    simp only [m1urDeviceTsSyncCount_eq] at lt
    rw [SlotSynced, length, ← window (j * 188) (by simp only [length]; simp; omega),
      Nat.mul_comm j]
    exact and_iff_right (by simp; omega)
  obtain ⟨rest, fx, run, restLen, blocks, -⟩ :=
    processM_spec w p (.ofNat 32 m1urDeviceTsSyncSize) fuel window
    (by simp [length]) (by simp [length]) (by rwa [length])
  rw [process_sync_size length] at run restLen blocks
  have done : (if Locked w then ([Action.put w], ([] : List UInt8))
      else (w.map .skip, [])).2 = [] := by split <;> rfl
  rw [done, List.length_nil, length, Nat.sub_zero] at run
  obtain rfl : rest = 0 := BitVec.eq_of_toNat_eq (by rw [restLen, done]; rfl)
  refine ⟨fx, run, ?_⟩
  rw [blocks, ← if_congr locked rfl rfl]
  split <;> simp [putStreamBlocks, Action.putBlock?]

/-- Every return of a pass has `PassPost`, on any window of the 32-bit code; a 752-byte window
is always passed to its end, and emitted whole exactly when its four slots begin with 0x47. -/
theorem pass_postcondition :
    (∀ (mem : Buffer → Nat → UInt8) fuel p remain p' remain' fx,
      m1urDeviceStreamProcessM mem fuel p remain = some (p', remain', fx) →
        PassPost mem p remain.toNat p' remain'.toNat fx) ∧
    ∀ (mem : Buffer → Nat → UInt8) p fuel, m1urDeviceTsSyncSize < fuel →
      ∃ fx, m1urDeviceStreamProcessM mem fuel p (.ofNat 32 m1urDeviceTsSyncSize) =
          some (⟨p.buffer, p.offset + m1urDeviceTsSyncSize⟩, 0, fx) ∧
        effectBlocks fx =
          if ∀ j < m1urDeviceTsSyncCount, mem p.buffer (p.offset + 188 * j) = 0x47
          then [windowBytes mem p m1urDeviceTsSyncSize] else [] :=
  ⟨fun _ _ _ _ _ _ _ run => processM_post run,
    fun mem p _ enough => processM_sync_size mem p enough⟩

end PxM1ur
