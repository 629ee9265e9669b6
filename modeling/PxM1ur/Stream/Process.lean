import Mathlib.Data.List.Basic

/-! The synchronisation pass `m1ur_device_stream_process` of m1ur_device.c over one window.
A window is a list of bytes whose length is the code's `remain`; lengths are natural numbers
here, and `PxM1ur.Stream.Machine` shows where the code's 32-bit arithmetic computes the same.
A pass is logged as actions: each `ptx_chrdev_put_stream` call is a `put`, each byte stepped
over by the one-byte resynchronisation path a `skip`. `Locked` is the condition the code
tests before it emits: the four 188-byte slots from the current offset all fit and begin
with 0x47. -/

namespace PxM1ur

def m1urDeviceTsSyncCount : Nat := 4
def m1urDeviceTsSyncSize : Nat := 188 * m1urDeviceTsSyncCount

@[simp] theorem m1urDeviceTsSyncCount_eq : m1urDeviceTsSyncCount = 4 := rfl
@[simp] theorem m1urDeviceTsSyncSize_eq : m1urDeviceTsSyncSize = 752 := rfl

/-- The inner `while (true)` loop from slot `i`: the slot count it stops at and `sync_remain`. -/
def syncScan (p : List UInt8) (i : Nat) : Nat × Bool :=
  if (i + 1) * 188 ≤ p.length then
    if p.getD (i * 188) 0 ≠ 0x47 then (i, false) else syncScan p (i + 1)
  else (i, true)
termination_by p.length + 188 - i * 188

def SlotSynced (p : List UInt8) (j : Nat) : Prop :=
  (j + 1) * 188 ≤ p.length ∧ p.getD (j * 188) 0 = 0x47

instance (p : List UInt8) (j : Nat) : Decidable (SlotSynced p j) :=
  inferInstanceAs (Decidable (_ ∧ _))

def Locked (p : List UInt8) : Prop := ∀ j < m1urDeviceTsSyncCount, SlotSynced p j

instance (p : List UInt8) : Decidable (Locked p) :=
  Nat.decidableBallLT _ _

theorem syncScan_spec (p : List UInt8) (i : Nat) :
    i ≤ (syncScan p i).1 ∧ (∀ j, i ≤ j → j < (syncScan p i).1 → SlotSynced p j) ∧
      ¬ SlotSynced p (syncScan p i).1 ∧
      ((syncScan p i).2 = true ↔ p.length < ((syncScan p i).1 + 1) * 188) := by
  induction i using syncScan.induct p with
  | case1 i fits bad =>
    rw [syncScan, if_pos fits, if_pos bad]
    refine ⟨le_rfl, fun j lo hi => absurd hi (by omega), fun h => bad h.2, ?_⟩
    simp only [Bool.false_eq_true, false_iff]
    omega
  | case2 i fits good ih =>
    rw [syncScan, if_pos fits, if_neg good]
    obtain ⟨lo, synced, stop, flag⟩ := ih
    refine ⟨by omega, fun j lo' hi => ?_, stop, flag⟩
    rcases Nat.eq_or_lt_of_le lo' with rfl | lt
    · exact ⟨fits, not_not.mp good⟩
    · exact synced j lt hi
  | case3 i short =>
    rw [syncScan, if_neg short]
    refine ⟨le_rfl, fun j lo hi => absurd hi (by omega), fun h => short h.1, ?_⟩
    simp only [true_iff]
    omega

theorem syncScan_synced {p : List UInt8} {j : Nat} (lt : j < (syncScan p 0).1) :
    SlotSynced p j :=
  (syncScan_spec p 0).2.1 j (Nat.zero_le j) lt

theorem syncScan_not_synced (p : List UInt8) : ¬ SlotSynced p (syncScan p 0).1 :=
  (syncScan_spec p 0).2.2.1

theorem syncScan_mul_le (p : List UInt8) : 188 * (syncScan p 0).1 ≤ p.length := by
  rcases Nat.eq_zero_or_pos (syncScan p 0).1 with zero | pos
  · omega
  · have last := (syncScan_synced (p := p) (j := (syncScan p 0).1 - 1) (by omega)).1
    rw [Nat.sub_add_cancel pos] at last
    omega

theorem syncScan_lt_iff (p : List UInt8) :
    (syncScan p 0).1 < m1urDeviceTsSyncCount ↔ ¬ Locked p := by
  constructor
  · intro lt locked
    exact syncScan_not_synced p (locked _ lt)
  · intro unlocked
    by_contra ge
    exact unlocked fun j lt => syncScan_synced (by omega)


/-- What one pass does at one offset: hand a block to the packet sink, or step over a byte. -/
inductive Action where
  | put (block : List UInt8)
  | skip (byte : UInt8)
  deriving DecidableEq, Repr

def Action.bytes : Action → List UInt8
  | .put block => block
  | .skip byte => [byte]

def consumed (acts : List Action) : List UInt8 := acts.flatMap Action.bytes

def Action.putBlock? : Action → Option (List UInt8)
  | .put block => some block
  | .skip _ => none

def putStreamBlocks (acts : List Action) : List (List UInt8) := acts.filterMap Action.putBlock?

@[simp] theorem consumed_nil : consumed [] = [] := rfl
@[simp] theorem consumed_cons (a : Action) (acts : List Action) :
    consumed (a :: acts) = a.bytes ++ consumed acts := rfl
@[simp] theorem consumed_append (xs ys : List Action) :
    consumed (xs ++ ys) = consumed xs ++ consumed ys := List.flatMap_append ..
@[simp] theorem putStreamBlocks_nil : putStreamBlocks [] = [] := rfl
@[simp] theorem putStreamBlocks_put (block : List UInt8) (acts : List Action) :
    putStreamBlocks (.put block :: acts) = block :: putStreamBlocks acts := rfl
@[simp] theorem putStreamBlocks_skip (byte : UInt8) (acts : List Action) :
    putStreamBlocks (.skip byte :: acts) = putStreamBlocks acts := rfl
@[simp] theorem putStreamBlocks_append (xs ys : List Action) :
    putStreamBlocks (xs ++ ys) = putStreamBlocks xs ++ putStreamBlocks ys :=
  List.filterMap_append ..

@[simp] theorem putStreamBlocks_map_skip (bytes : List UInt8) :
    putStreamBlocks (bytes.map .skip) = [] := by
  induction bytes with
  | nil => rfl
  | cons b bytes ih => simpa using ih

def m1urDeviceStreamProcess : List UInt8 → List Action × List UInt8
  | [] => ([], [])
  | b :: rest =>
    match syncScan (b :: rest) 0 with
    | (i, syncRemain) =>
      if i < m1urDeviceTsSyncCount then
        let next := m1urDeviceStreamProcess rest
        (.skip b :: next.1, next.2)
      else if syncRemain then
        ([.put ((b :: rest).take (188 * i))], (b :: rest).drop (188 * i))
      else
        let next := m1urDeviceStreamProcess ((b :: rest).drop (188 * i))
        (.put ((b :: rest).take (188 * i)) :: next.1, next.2)
termination_by p => p.length
decreasing_by
  all_goals simp_wf
  all_goals simp only [m1urDeviceTsSyncCount_eq] at *; omega

@[simp] theorem process_nil : m1urDeviceStreamProcess [] = ([], []) := by
  rw [m1urDeviceStreamProcess]

theorem process_cons (b : UInt8) (rest : List UInt8) :
    m1urDeviceStreamProcess (b :: rest) =
      if (syncScan (b :: rest) 0).1 < m1urDeviceTsSyncCount then
        (.skip b :: (m1urDeviceStreamProcess rest).1, (m1urDeviceStreamProcess rest).2)
      else if (syncScan (b :: rest) 0).2 then
        ([.put ((b :: rest).take (188 * (syncScan (b :: rest) 0).1))],
          (b :: rest).drop (188 * (syncScan (b :: rest) 0).1))
      else
        (.put ((b :: rest).take (188 * (syncScan (b :: rest) 0).1)) ::
          (m1urDeviceStreamProcess ((b :: rest).drop (188 * (syncScan (b :: rest) 0).1))).1,
          (m1urDeviceStreamProcess ((b :: rest).drop (188 * (syncScan (b :: rest) 0).1))).2) := by
  rw [m1urDeviceStreamProcess]

theorem consumed_process (w : List UInt8) :
    consumed (m1urDeviceStreamProcess w).1 ++ (m1urDeviceStreamProcess w).2 = w := by
  induction w using m1urDeviceStreamProcess.induct with
  | case1 => simp
  | case2 b rest i s scan lt ih =>
    rw [process_cons, scan, if_pos lt]
    simpa [Action.bytes] using ih
  | case3 b rest i ge scan =>
    rw [process_cons, scan, if_neg ge, if_pos rfl]
    simp [Action.bytes]
  | case4 b rest i s scan ge stop ih =>
    rw [process_cons, scan, if_neg ge, if_neg stop]
    simp only [consumed_cons, Action.bytes, List.append_assoc, ih, List.take_append_drop]

theorem process_of_length_lt {w : List UInt8} (short : w.length < m1urDeviceTsSyncSize) :
    m1urDeviceStreamProcess w = (w.map .skip, []) := by
  induction w with
  | nil => simp
  | cons b rest ih =>
    have count : (syncScan (b :: rest) 0).1 < m1urDeviceTsSyncCount := by
      have := syncScan_mul_le (b :: rest)
      simp only [m1urDeviceTsSyncSize_eq, m1urDeviceTsSyncCount_eq] at *
      omega
    rw [process_cons, if_pos count, ih (by simp at short ⊢; omega)]
    rfl


/-- What the packet sink is promised: at least four whole slots, each opening with 0x47. -/
def WellFormedBlock (block : List UInt8) : Prop :=
  ∃ k, m1urDeviceTsSyncCount ≤ k ∧ block.length = 188 * k ∧ ∀ j < k, block.getD (188 * j) 0 = 0x47

theorem wellFormedBlock_iff (block : List UInt8) : WellFormedBlock block ↔
    m1urDeviceTsSyncSize ≤ block.length ∧ block.length % 188 = 0 ∧
      ∀ j < block.length / 188, block.getD (188 * j) 0 = 0x47 := by
  simp only [WellFormedBlock, m1urDeviceTsSyncCount_eq, m1urDeviceTsSyncSize_eq]
  constructor
  · rintro ⟨k, many, len, synced⟩
    refine ⟨by omega, by omega, fun j lt => synced j ?_⟩
    rw [len, Nat.mul_div_cancel_left _ (by decide)] at lt
    exact lt
  · rintro ⟨many, whole, synced⟩
    exact ⟨block.length / 188, by omega, by omega, synced⟩

instance (block : List UInt8) : Decidable (WellFormedBlock block) :=
  decidable_of_iff _ (wellFormedBlock_iff block).symm

theorem getD_take_of_lt {p : List UInt8} {n m : Nat} (lt : m < n) :
    (p.take n).getD m 0 = p.getD m 0 := by
  simp only [List.getD_eq_getElem?_getD, List.getElem?_take, if_pos lt]

theorem wellFormed_take_scan {p : List UInt8} {i : Nat} {s : Bool} (scan : syncScan p 0 = (i, s))
    (ge : ¬ i < m1urDeviceTsSyncCount) : WellFormedBlock (p.take (188 * i)) := by
  have count : (syncScan p 0).1 = i := by rw [scan]
  have fits := syncScan_mul_le p
  refine ⟨i, not_lt.mp ge, by simp only [List.length_take]; omega, fun j lt => ?_⟩
  rw [getD_take_of_lt (by omega), Nat.mul_comm]
  exact (syncScan_synced (by omega)).2

theorem wellFormed_process (w : List UInt8) :
    ∀ block ∈ putStreamBlocks (m1urDeviceStreamProcess w).1, WellFormedBlock block := by
  induction w using m1urDeviceStreamProcess.induct with
  | case1 => simp
  | case2 b rest i s scan lt ih =>
    rw [process_cons, scan, if_pos lt]
    exact ih
  | case3 b rest i ge scan =>
    rw [process_cons, scan, if_neg ge, if_pos rfl]
    simpa using wellFormed_take_scan scan ge
  | case4 b rest i s scan ge stop ih =>
    rw [process_cons, scan, if_neg ge, if_neg stop]
    simp only [putStreamBlocks_put, List.mem_cons, forall_eq_or_imp]
    exact ⟨wellFormed_take_scan scan ge, ih⟩


theorem length_take_scan {p : List UInt8} {i : Nat} {s : Bool} (scan : syncScan p 0 = (i, s)) :
    (p.take (188 * i)).length = 188 * i := by
  have count : (syncScan p 0).1 = i := by rw [scan]
  have fits := syncScan_mul_le p
  simp only [List.length_take]; omega

theorem process_remainder (w : List UInt8) :
    (m1urDeviceStreamProcess w).2 = [] ∨
      ((m1urDeviceStreamProcess w).2.length < 188 ∧
        ∃ acts block, (m1urDeviceStreamProcess w).1 = acts ++ [.put block]) := by
  induction w using m1urDeviceStreamProcess.induct with
  | case1 => simp
  | case2 b rest i s scan lt ih =>
    rw [process_cons, scan, if_pos lt]
    rcases ih with empty | ⟨short, acts, block, eq⟩
    · exact .inl empty
    · exact .inr ⟨short, .skip b :: acts, block, by simp [eq]⟩
  | case3 b rest i ge scan =>
    rw [process_cons, scan, if_neg ge, if_pos rfl]
    have flag := (syncScan_spec (b :: rest) 0).2.2.2
    simp only [scan, true_iff] at flag
    exact .inr ⟨by simp only [List.length_drop]; omega, [], _, rfl⟩
  | case4 b rest i s scan ge stop ih =>
    rw [process_cons, scan, if_neg ge, if_neg stop]
    rcases ih with empty | ⟨short, acts, block, eq⟩
    · exact .inl empty
    · exact .inr ⟨short, .put ((b :: rest).take (188 * i)) :: acts, block, by simp [eq]⟩

/-- The log of a pass read against the window: a byte is skipped only where the window is
not locked, a block is put only where it is. -/
def Justified : List UInt8 → List Action → Prop
  | _, [] => True
  | w, .skip _ :: acts => ¬ Locked w ∧ Justified w.tail acts
  | w, .put block :: acts => Locked w ∧ Justified (w.drop block.length) acts

theorem locked_of_scan {p : List UInt8} {i : Nat} {s : Bool} (scan : syncScan p 0 = (i, s)) :
    Locked p ↔ ¬ i < m1urDeviceTsSyncCount := by
  rw [← not_iff_not, not_not, ← syncScan_lt_iff, scan]

theorem justified_process (w : List UInt8) : Justified w (m1urDeviceStreamProcess w).1 := by
  induction w using m1urDeviceStreamProcess.induct with
  | case1 => simp [Justified]
  | case2 b rest i s scan lt ih =>
    rw [process_cons, scan, if_pos lt]
    exact ⟨fun locked => (locked_of_scan scan).mp locked lt, ih⟩
  | case3 b rest i ge scan =>
    rw [process_cons, scan, if_neg ge, if_pos rfl]
    exact ⟨(locked_of_scan scan).mpr ge, trivial⟩
  | case4 b rest i s scan ge stop ih =>
    rw [process_cons, scan, if_neg ge, if_neg stop]
    exact ⟨(locked_of_scan scan).mpr ge, by rw [length_take_scan scan]; exact ih⟩

def ValidPacket (pkt : List UInt8) : Prop := pkt.length = 188 ∧ pkt.head? = some 0x47

instance (pkt : List UInt8) : Decidable (ValidPacket pkt) := inferInstanceAs (Decidable (_ ∧ _))

theorem validPacket_replicate (n : Nat) :
    ∀ pkt ∈ List.replicate n (0x47 :: List.replicate 187 0 : List UInt8), ValidPacket pkt :=
  fun _ mem => List.eq_of_mem_replicate mem ▸
    ⟨by rw [List.length_cons, List.length_replicate], rfl⟩

theorem syncScan_fst_eq {p : List UInt8} {k : Nat} (synced : ∀ j < k, SlotSynced p j)
    (stop : ¬ SlotSynced p k) : (syncScan p 0).1 = k := by
  rcases Nat.lt_trichotomy (syncScan p 0).1 k with lt | eq | gt
  · exact absurd (synced _ lt) (syncScan_not_synced p)
  · exact eq
  · exact absurd (syncScan_synced gt) stop

section Packets

variable {P : List (List UInt8)} (valid : ∀ pkt ∈ P, ValidPacket pkt)
include valid

theorem length_flatten_packets : P.flatten.length = 188 * P.length := by
  induction P with
  | nil => rfl
  | cons pkt P ih =>
    simp only [List.flatten_cons, List.length_append, List.length_cons,
      (valid pkt (List.mem_cons_self _ _)).1, ih fun q mem => valid q (List.mem_cons_of_mem _ mem)]
    omega

theorem getD_packets (r : List UInt8) {j : Nat} (lt : j < P.length) :
    (P.flatten ++ r).getD (j * 188) 0 = 0x47 := by
  induction P generalizing j with
  | nil => simp at lt
  | cons pkt P ih =>
    have head := valid pkt (List.mem_cons_self _ _)
    have tail : ∀ q ∈ P, ValidPacket q := fun q mem => valid q (List.mem_cons_of_mem _ mem)
    rw [List.flatten_cons, List.append_assoc]
    cases j with
    | zero =>
      cases pkt with
      | nil => simp [ValidPacket] at head
      | cons b pkt => simpa [ValidPacket] using head.2
    | succ j =>
      rw [List.getD_eq_getElem?_getD, List.getElem?_append_right (by rw [head.1]; omega),
        head.1, show (j + 1) * 188 - 188 = j * 188 by omega, ← List.getD_eq_getElem?_getD]
      exact ih tail (by simpa using lt)

theorem syncScan_packets {r : List UInt8} (short : r.length < 188) :
    syncScan (P.flatten ++ r) 0 = (P.length, true) := by
  have len : (P.flatten ++ r).length = 188 * P.length + r.length := by
    rw [List.length_append, length_flatten_packets valid]
  have count : (syncScan (P.flatten ++ r) 0).1 = P.length :=
    syncScan_fst_eq (fun j lt => ⟨by rw [len]; omega, getD_packets valid r lt⟩)
      (fun synced => by have := synced.1; omega)
  have flag := (syncScan_spec (P.flatten ++ r) 0).2.2.2
  rw [count, len] at flag
  exact Prod.ext count (flag.mpr (by omega))

theorem process_packets {r : List UInt8} (many : m1urDeviceTsSyncCount ≤ P.length)
    (short : r.length < 188) :
    m1urDeviceStreamProcess (P.flatten ++ r) = ([.put P.flatten], r) := by
  have len := length_flatten_packets valid
  simp only [m1urDeviceTsSyncCount_eq] at many
  obtain ⟨b, rest, eq⟩ : ∃ b rest, P.flatten ++ r = b :: rest :=
    List.exists_cons_of_ne_nil fun nil => by
      have := congrArg List.length nil
      simp only [List.length_append, len, List.length_nil] at this
      omega
  rw [eq, process_cons, ← eq, syncScan_packets valid short, if_neg (by simp; omega), if_pos rfl,
    ← len, List.take_left' rfl, List.drop_left' rfl]

end Packets

theorem process_garbage (g rest : List UInt8)
    (unlocked : ∀ o < g.length, ¬ Locked ((g ++ rest).drop o)) :
    m1urDeviceStreamProcess (g ++ rest) =
      (g.map .skip ++ (m1urDeviceStreamProcess rest).1, (m1urDeviceStreamProcess rest).2) := by
  induction g with
  | nil => rfl
  | cons b g ih =>
    have count := (syncScan_lt_iff _).mpr (unlocked 0 (by simp))
    rw [List.drop_zero, List.cons_append] at count
    rw [List.cons_append, process_cons, if_pos count, ih fun o lt => by
      simpa using unlocked (o + 1) (by simp; omega)]
    rfl

theorem process_sync_size {w : List UInt8} (len : w.length = m1urDeviceTsSyncSize) :
    m1urDeviceStreamProcess w = if Locked w then ([.put w], []) else (w.map .skip, []) := by
  simp only [m1urDeviceTsSyncSize_eq] at len
  obtain ⟨b, rest, rfl⟩ := List.exists_cons_of_ne_nil (show w ≠ [] by rintro rfl; simp at len)
  rw [process_cons]
  by_cases locked : Locked (b :: rest)
  · have count : (syncScan (b :: rest) 0).1 = 4 :=
      syncScan_fst_eq (fun j lt => locked j lt) (fun synced => by have := synced.1; omega)
    have flag := (syncScan_spec (b :: rest) 0).2.2.2
    rw [count, len] at flag
    rw [if_neg (by simp [count]), if_pos (flag.mpr (by decide)), if_pos locked, count,
      List.take_of_length_le (by omega), List.drop_of_length_le (by omega)]
  · rw [if_pos ((syncScan_lt_iff _).mpr locked), if_neg locked,
      process_of_length_lt (by simp at len ⊢; omega)]
    rfl

end PxM1ur
