import Mathlib.Data.List.Basic

/-! The hardware the chrdev operations of m1ur_device.c drive, seen from the driver. Every access
to the bridge, the two demodulators and the two tuners is one `Call`, answered by the
environment `Hw.replies` from the position of the call in the run and the call itself, so a
statement over every `Hw` holds for every pattern of success and failure. The accesses made so
far are kept in `Hw.log`, most recent first, with the replies they got. A callee with an output
writes it exactly when it returns 0; `written` is that rule. -/

namespace PxM1ur

def einval : Int := 22
def eagain : Int := 11
def enomem : Int := 12

/-- `enum ptx_system_type`, as the chrdev layer hands it over. -/
inductive PtxSystem where
  | unspecified
  | isdbT
  | isdbS
  | other (code : Nat)
  deriving DecidableEq, Repr

/-- The chips of `struct m1ur_chrdev`. -/
inductive Chip where
  | tc90522T
  | tc90522S
  | r850
  | rt710
  deriving DecidableEq, Repr

inductive R850System where
  | isdbT
  deriving DecidableEq, Repr

inductive R850Bandwidth where
  | bw6M
  deriving DecidableEq, Repr

inductive Call where
  | writeGpio (line : Nat) (high : Bool)
  | init (chip : Chip)
  | term (chip : Chip)
  | writeReg (chip : Chip) (reg value : UInt8)
  | writeMultipleRegs (chip : Chip) (regs : List (UInt8 × UInt8))
  | enableTsPins (chip : Chip) (enable : Bool)
  | sleep (chip : Chip) (sleep : Bool)
  | setAgc (chip : Chip) (enable : Bool)
  | r850SetSystem (system : R850System) (bandwidth : R850Bandwidth) (ifFreq : Nat)
  | r850Wakeup
  | r850SetFrequency (freq : Nat)
  | rt710SetParams (freq symbolRate rolloff : Nat)
  | isPllLocked (chip : Chip)
  | rt710GetRfSignalStrength
  | isSignalLocked (chip : Chip)
  | getCndatT
  | getCnS
  | tmccGetTsidS (slot : UInt16)
  | setTsidS (tsid : UInt16)
  | getTsidS
  | purgePsb (timeout : Nat)
  | startStreaming
  | stopStreaming
  | msleep (ms : Nat)
  | allocStreamCtx
  | busInit
  | busTerm
  | bridgeInit
  | bridgeTerm
  | bridgeRaise
  | readReg (reg : UInt16)
  | loadFirmware
  | initWarm
  | setGpioMode (line : Nat)
  | setPidFilter
  | addGroup
  deriving DecidableEq, Repr

/-- What a callee returns, with the output it writes when it returns 0. -/
structure Reply where
  ret : Int
  locked : Bool
  tsid : UInt16
  deriving DecidableEq, Repr

structure Access where
  call : Call
  reply : Reply
  deriving DecidableEq, Repr

def failingOn (failing : Call) (e : Int) : Nat → Call → Reply :=
  fun _ call => if call = failing then ⟨e, false, 0⟩ else ⟨0, false, 0⟩

structure Hw where
  replies : Nat → Call → Reply
  log : List Access

def Hw.issue (hw : Hw) (call : Call) : Reply × Hw :=
  (hw.replies hw.log.length call,
    { hw with log := ⟨call, hw.replies hw.log.length call⟩ :: hw.log })

@[simp] theorem Hw.issue_log (hw : Hw) (call : Call) :
    (hw.issue call).2.log = ⟨call, (hw.issue call).1⟩ :: hw.log := rfl

@[simp] theorem Hw.issue_replies (hw : Hw) (call : Call) :
    (hw.issue call).2.replies = hw.replies := rfl

def Hw.msleep (hw : Hw) (ms : Nat) : Hw := (hw.issue (.msleep ms)).2

@[simp] theorem Hw.msleep_log (hw : Hw) (ms : Nat) :
    (hw.msleep ms).log = ⟨.msleep ms, hw.replies hw.log.length (.msleep ms)⟩ :: hw.log := rfl

@[simp] theorem Hw.msleep_replies (hw : Hw) (ms : Nat) : (hw.msleep ms).replies = hw.replies := rfl

def written {α : Type} (reply : Reply) (field : Reply → α) (old : α) : α :=
  if reply.ret = 0 then field reply else old

def Hw.issueAll (hw : Hw) (calls : List Call) : Hw :=
  calls.foldl (fun hw call => (hw.issue call).2) hw

/-- `ret = f(...); if (ret) break;` over a straight run of accesses: the first non-zero code,
or 0 when every access succeeded. -/
def runChecked : List Call → Hw → Int × Hw
  | [], hw => (0, hw)
  | call :: calls, hw =>
    if (hw.issue call).1.ret ≠ 0 then ((hw.issue call).1.ret, (hw.issue call).2)
    else runChecked calls (hw.issue call).2

/-- `i = n; while (i--) { ret = call(&out); if (stop) break; msleep(10); }`: the last code and
the output variable after the loop. -/
def poll {α : Type} (call : Call) (field : Reply → α) (stop : Int → α → Bool) :
    Nat → Int → α → Hw → Int × α × Hw
  | 0, ret, out, hw => (ret, out, hw)
  | n + 1, _, out, hw =>
    let reply := (hw.issue call).1
    if stop reply.ret (written reply field out) then
      (reply.ret, written reply field out, (hw.issue call).2)
    else poll call field stop n reply.ret (written reply field out) ((hw.issue call).2.msleep 10)

@[simp] theorem written_of_ret_eq_zero {α : Type} {reply : Reply} (zero : reply.ret = 0)
    (field : Reply → α) (old : α) : written reply field old = field reply := if_pos zero

@[simp] theorem written_of_ret_ne_zero {α : Type} {reply : Reply} (fail : reply.ret ≠ 0)
    (field : Reply → α) (old : α) : written reply field old = old := if_neg fail

theorem runChecked_spec (calls : List Call) (hw : Hw) :
    ∃ new, (runChecked calls hw).2.log = new ++ hw.log ∧
      (runChecked calls hw).2.replies = hw.replies ∧
      (new.map Access.call).reverse = calls.take new.length ∧
      (calls ≠ [] → new ≠ []) ∧
      ((runChecked calls hw).1 = 0 →
        new.length = calls.length ∧ ∀ a ∈ new, a.reply.ret = 0) := by
  induction calls generalizing hw with
  | nil => exact ⟨[], rfl, rfl, rfl, fun nil => absurd rfl nil, fun _ => ⟨rfl, by simp⟩⟩
  | cons call calls ih =>
    rw [runChecked]
    split
    · next fail =>
      exact ⟨[⟨call, (hw.issue call).1⟩], rfl, rfl, rfl, by simp, fun ok => absurd ok fail⟩
    · next ok =>
      obtain ⟨new, log, replies, issued, -, done⟩ := ih (hw.issue call).2
      refine ⟨new ++ [⟨call, (hw.issue call).1⟩], by simpa using log, replies,
        by simp [issued], by simp, fun zero => ?_⟩
      obtain ⟨length, codes⟩ := done zero
      refine ⟨by simp [length], fun a mem => ?_⟩
      rcases List.mem_append.mp mem with mem | mem
      · exact codes a mem
      · rw [List.mem_singleton.mp mem]
        exact not_not.mp ok

theorem call_mem_of_issued {calls : List Call} {new : List Access} {k : Nat}
    (issued : (new.map Access.call).reverse = calls.take k) : ∀ a ∈ new, a.call ∈ calls := by
  intro a mem
  have listed : a.call ∈ (new.map Access.call).reverse := by simpa using List.mem_map_of_mem _ mem
  rw [issued] at listed
  exact List.mem_of_mem_take listed

theorem map_call_of_issued {calls : List Call} {new : List Access}
    (issued : (new.map Access.call).reverse = calls.take new.length)
    (all : new.length = calls.length) : new.map Access.call = calls.reverse := by
  rw [← List.reverse_reverse (new.map _), issued, all, List.take_length]

section Poll

variable {α : Type} (call : Call) (field : Reply → α) (stop : Int → α → Bool)

theorem poll_spec (delay : call ≠ .msleep 10) (n : Nat) (ret : Int) (out : α) (hw : Hw) :
    ∃ new, (poll call field stop n ret out hw).2.2.log = new ++ hw.log ∧
      (poll call field stop n ret out hw).2.2.replies = hw.replies ∧
      (∀ a ∈ new, a.call = call ∨ a.call = .msleep 10) ∧
      (new.filter fun a => a.call = call).length ≤ n ∧
      (0 < n → ∃ reply old, new.find? (fun a => a.call = call) = some ⟨call, reply⟩ ∧
        (poll call field stop n ret out hw).1 = reply.ret ∧
        (poll call field stop n ret out hw).2.1 = written reply field old) := by
  induction n generalizing ret out hw with
  | zero => exact ⟨[], rfl, rfl, by simp, by simp, by simp⟩
  | succ n ih =>
    simp only [poll]
    split
    · exact ⟨[⟨call, (hw.issue call).1⟩], rfl, rfl, by simp, by simp,
        fun _ => ⟨_, out, by simp, rfl, rfl⟩⟩
    · obtain ⟨new, log, replies, calls, count, last⟩ :=
        ih (hw.issue call).1.ret (written (hw.issue call).1 field out) ((hw.issue call).2.msleep 10)
      refine ⟨new ++ [⟨.msleep 10, hw.replies (hw.log.length + 1) (.msleep 10)⟩,
        ⟨call, (hw.issue call).1⟩], by simp [log], replies, ?_, ?_, fun _ => ?_⟩
      · intro a mem
        rcases List.mem_append.mp mem with mem | mem
        · exact calls a mem
        · simp only [List.mem_cons, List.mem_singleton, List.not_mem_nil, or_false] at mem
          rcases mem with rfl | rfl
          exacts [.inr rfl, .inl rfl]
      · simp [List.filter_append, Ne.symm delay]
        omega
      · rcases Nat.eq_zero_or_pos n with rfl | pos
        · obtain rfl : new = [] := by simpa [poll] using log
          exact ⟨_, out, by simp [Ne.symm delay], rfl, rfl⟩
        · obtain ⟨reply, old, found, code, value⟩ := last pos
          exact ⟨reply, old, by rw [List.find?_append, found]; rfl, code, value⟩

theorem poll_of_stop (n : Nat) (ret : Int) (out : α) (hw : Hw)
    (stopped : stop (poll call field stop (n + 1) ret out hw).1
      (poll call field stop (n + 1) ret out hw).2.1 = true) :
    ∃ reply before old, (poll call field stop (n + 1) ret out hw).2.2.log =
        ⟨call, reply⟩ :: (before ++ hw.log) ∧
      (poll call field stop (n + 1) ret out hw).1 = reply.ret ∧
      (poll call field stop (n + 1) ret out hw).2.1 = written reply field old := by
  induction n generalizing ret out hw with
  | zero =>
    simp only [poll] at stopped ⊢
    split at stopped
    · next stops => rw [if_pos stops]; exact ⟨_, [], out, rfl, rfl, rfl⟩
    · next goesOn => exact absurd stopped goesOn
  | succ n ih =>
    rw [poll] at stopped ⊢
    split
    · exact ⟨_, [], out, rfl, rfl, rfl⟩
    · next goesOn =>
      rw [if_neg goesOn] at stopped
      obtain ⟨reply, before, old, log, code, value⟩ := ih _ _ _ stopped
      exact ⟨reply, before ++ [⟨.msleep 10, hw.replies (hw.log.length + 1) (.msleep 10)⟩,
        ⟨call, (hw.issue call).1⟩], old, by simp [log], code, value⟩

theorem poll_count_of_no_stop (delay : call ≠ .msleep 10) (n : Nat) (ret : Int) (out : α)
    (hw : Hw) {new : List Access}
    (log : (poll call field stop n ret out hw).2.2.log = new ++ hw.log)
    (never : ∀ a ∈ new, a.call = call →
      ∀ o, stop a.reply.ret (written a.reply field o) = false) :
    (new.filter fun a => a.call = call).length = n := by
  induction n generalizing ret out hw new with
  | zero => simp [poll, List.append_left_eq_self.mp log.symm]
  | succ n ih =>
    simp only [poll] at log
    split at log
    · next stops =>
      obtain rfl : new = [⟨call, (hw.issue call).1⟩] :=
        List.append_cancel_right (log.symm : new ++ hw.log = [_] ++ hw.log)
      exact absurd (never _ (List.mem_singleton_self _) rfl out) (by simpa using stops)
    · obtain ⟨rest, restLog, -⟩ := poll_spec call field stop delay n (hw.issue call).1.ret
        (written (hw.issue call).1 field out) ((hw.issue call).2.msleep 10)
      obtain rfl : new = rest ++ [⟨.msleep 10, hw.replies (hw.log.length + 1) (.msleep 10)⟩,
          ⟨call, (hw.issue call).1⟩] :=
        List.append_cancel_right (by rw [← log, restLog]; simp)
      have count := ih _ _ _ restLog fun a mem => never a (List.mem_append_left _ mem)
      simp [List.filter_append, count, Ne.symm delay]

theorem poll_of_fail {e : Int} (fail : e ≠ 0) (quiet : ∀ x, stop e x = false) (n : Nat)
    (ret : Int) (out : α) (hw : Hw) (replies : ∀ k, (hw.replies k call).ret = e) :
    (poll call field stop (n + 1) ret out hw).1 = e ∧
      (poll call field stop (n + 1) ret out hw).2.1 = out := by
  induction n generalizing ret hw with
  | zero => simp [poll, Hw.issue, replies, quiet, fail]
  | succ n ih =>
    rw [poll, Hw.issue, if_neg (by simp [replies, quiet, fail])]
    simpa [replies, fail] using ih e ((hw.issue call).2.msleep 10) (by simpa using replies)

end Poll

end PxM1ur
