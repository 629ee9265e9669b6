import PxM1ur.Chrdev.Access

/-! `m1ur_chrdev_tune`, `m1ur_chrdev_check_lock` and `m1ur_chrdev_read_cnr_raw`. Tuning is a
checked run of register writes and chip calls, a poll of the tuner's PLL lock flag (50 reads,
10 ms apart), and a second checked run; the uninitialised local `tuner_locked` is an argument. -/

namespace PxM1ur

/-- The fields of `struct ptx_tune_params` that tune reads. -/
structure PtxTuneParams where
  system : PtxSystem
  freq : Nat
  deriving DecidableEq, Repr

def tuneSetupT (freq : Nat) : List Call :=
  [.writeReg .tc90522T 0x47 0x30, .setAgc .tc90522T false, .sleep .tc90522S true,
    .writeReg .tc90522T 0x0e 0x77, .writeReg .tc90522T 0x0f 0x10, .writeReg .tc90522T 0x71 0x20,
    .sleep .tc90522T false, .writeReg .tc90522T 0x76 0x0c, .writeReg .tc90522T 0x1f 0x30,
    .r850Wakeup, .r850SetFrequency freq]

def tuneFinishT : List Call :=
  [.setAgc .tc90522T true, .writeReg .tc90522T 0x71 0x01, .writeReg .tc90522T 0x72 0x25,
    .writeReg .tc90522T 0x75 0x00]

def tuneSetupS (freq : Nat) : List Call :=
  [.setAgc .tc90522S false, .writeReg .tc90522T 0x0e 0x11, .writeReg .tc90522T 0x0f 0x70,
    .sleep .tc90522T true, .writeReg .tc90522S 0x07 0x77, .writeReg .tc90522S 0x08 0x10,
    .sleep .tc90522S false, .writeReg .tc90522S 0x04 0x02, .writeReg .tc90522S 0x8e 0x02,
    .writeReg .tc90522T 0x1f 0x20, .rt710SetParams freq 28860 4]

/-- The lock poll and its verdict: the last code if it is an error, -EAGAIN if the flag was
never seen set, 0 otherwise. -/
def pllLock (tuner : Chip) (ret : Int) (tunerLocked : Bool) (hw : Hw) : Int × Hw :=
  let lock := poll (.isPllLocked tuner) Reply.locked (fun ret locked => ret = 0 && locked) 50
    ret tunerLocked hw
  if lock.1 ≠ 0 then (lock.1, lock.2.2)
  else if !lock.2.1 then (-eagain, lock.2.2)
  else (0, lock.2.2)

def m1urChrdevTune (params : PtxTuneParams) (tunerLocked : Bool) (hw : Hw) : Int × Hw :=
  match params.system with
  | .isdbT =>
    let setup := runChecked (tuneSetupT params.freq) hw
    if setup.1 ≠ 0 then setup
    else
      let lock := pllLock .r850 setup.1 tunerLocked setup.2
      if lock.1 ≠ 0 then lock
      else
        let finish := runChecked tuneFinishT lock.2
        if finish.1 ≠ 0 then finish else (0, finish.2.msleep 100)
  | .isdbS =>
    let setup := runChecked (tuneSetupS params.freq) hw
    if setup.1 ≠ 0 then setup
    else
      let lock := pllLock .rt710 setup.1 tunerLocked setup.2
      if lock.1 ≠ 0 then lock
      else runChecked [.setAgc .tc90522S true] (lock.2.issue .rt710GetRfSignalStrength).2
  | _ => (-einval, hw)

def m1urChrdevCheckLock (currentSystem : PtxSystem) (locked : Bool) (hw : Hw) :
    Int × Bool × Hw :=
  match currentSystem with
  | .isdbT =>
    let r := hw.issue (.isSignalLocked .tc90522T)
    (r.1.ret, written r.1 Reply.locked locked, r.2)
  | .isdbS =>
    let r := hw.issue (.isSignalLocked .tc90522S)
    (r.1.ret, written r.1 Reply.locked locked, r.2)
  | _ => (-einval, locked, hw)

/-- The raw CN value read by the demodulator of the current system; the value itself is left
out, only the code and the access are kept. -/
def m1urChrdevReadCnrRaw (currentSystem : PtxSystem) (hw : Hw) : Int × Hw :=
  match currentSystem with
  | .isdbT => ((hw.issue .getCndatT).1.ret, (hw.issue .getCndatT).2)
  | .isdbS => ((hw.issue .getCnS).1.ret, (hw.issue .getCnS).2)
  | _ => (-einval, hw)

section Lock

variable (tuner : Chip) (ret : Int) (tunerLocked : Bool) (hw : Hw)

theorem pllLock_snd : (pllLock tuner ret tunerLocked hw).2 =
    (poll (.isPllLocked tuner) Reply.locked (fun ret locked => ret = 0 && locked) 50 ret
      tunerLocked hw).2.2 := by
  simp only [pllLock]
  split_ifs <;> rfl

theorem pllLock_spec : ∃ new, (pllLock tuner ret tunerLocked hw).2.log = new ++ hw.log ∧
    (∀ a ∈ new, a.call = .isPllLocked tuner ∨ a.call = .msleep 10) ∧
    (new.filter fun a => a.call = .isPllLocked tuner).length ≤ 50 := by
  obtain ⟨new, log, -, calls, count, -⟩ := poll_spec (.isPllLocked tuner) Reply.locked
    (fun ret locked => ret = 0 && locked) (by simp) 50 ret tunerLocked hw
  exact ⟨new, by rw [pllLock_snd, log], calls, count⟩

theorem pllLock_ok (ok : (pllLock tuner ret tunerLocked hw).1 = 0) :
    ∃ reply before, (pllLock tuner ret tunerLocked hw).2.log =
      ⟨.isPllLocked tuner, reply⟩ :: (before ++ hw.log) ∧
      reply.ret = 0 ∧ reply.locked = true := by
  have verdict : (poll (.isPllLocked tuner) Reply.locked (fun ret locked => ret = 0 && locked) 50
      ret tunerLocked hw).1 = 0 ∧ (poll (.isPllLocked tuner) Reply.locked
      (fun ret locked => ret = 0 && locked) 50 ret tunerLocked hw).2.1 = true := by
    simp only [pllLock] at ok
    split_ifs at ok with code flag
    · exact absurd ok code
    · simp [eagain] at ok
    · exact ⟨not_not.mp code, by simpa using flag⟩
  obtain ⟨reply, before, old, log, code, value⟩ :=
    poll_of_stop (.isPllLocked tuner) Reply.locked (fun ret locked => ret = 0 && locked) 49 ret
      tunerLocked hw (by simp [verdict.1, verdict.2])
  have zero : reply.ret = 0 := code ▸ verdict.1
  rw [written_of_ret_eq_zero zero] at value
  exact ⟨reply, before, by rw [pllLock_snd, log], zero, value ▸ verdict.2⟩

theorem pllLock_of_unlocked {new : List Access}
    (log : (pllLock tuner ret tunerLocked hw).2.log = new ++ hw.log)
    (unlocked : ∀ a ∈ new, a.call = .isPllLocked tuner →
      a.reply.ret = 0 ∧ a.reply.locked = false) :
    (pllLock tuner ret tunerLocked hw).1 = -eagain ∧
      (new.filter fun a => a.call = .isPllLocked tuner).length = 50 := by
  rw [pllLock_snd] at log
  obtain ⟨new', log', -, -, -, last⟩ := poll_spec (.isPllLocked tuner) Reply.locked
    (fun ret locked => ret = 0 && locked) (by simp) 50 ret tunerLocked hw
  obtain rfl : new' = new := List.append_cancel_right (log'.symm.trans log)
  obtain ⟨reply, old, found, code, value⟩ := last (by decide)
  obtain ⟨zero, clear⟩ : reply.ret = 0 ∧ reply.locked = false :=
    unlocked _ (List.mem_of_find?_eq_some found) rfl
  refine ⟨?_, poll_count_of_no_stop _ _ _ (by simp) 50 ret tunerLocked hw log
    fun a mem poll o => ?_⟩
  · simp [pllLock, code, value, zero, clear]
  · obtain ⟨zero, clear⟩ := unlocked a mem poll
    simp [zero, clear]

end Lock

/-- What a tune on one system promises, read off the accesses it added (`new`, most recent
first) and its code `ret`: `tuner` is the tuner whose PLL lock is polled, `sleeper` the sleep of
the other system's demodulator, `after` the accesses that follow a lock and `checked` those of
them whose codes count. -/
structure TuneOutcome (tuner : Chip) (sleeper : Call) (after checked : List Call)
    (new : List Access) (ret : Int) : Prop where
  pollsBounded : (new.filter fun a => a.call = .isPllLocked tuner).length ≤ 50
  sleeperOk : ret = 0 → ∃ a ∈ new, a.call = sleeper ∧ a.reply.ret = 0
  lockedOk : ret = 0 → ∃ later reply earlier,
    new = later ++ ⟨.isPllLocked tuner, reply⟩ :: earlier ∧ reply.ret = 0 ∧
      reply.locked = true ∧ later.map Access.call = after.reverse ∧
      ∀ a ∈ later, a.call ∈ checked → a.reply.ret = 0
  unlocked :
    (∀ a ∈ new, a.call = .isPllLocked tuner → a.reply.ret = 0 ∧ a.reply.locked = false) →
    (∃ a ∈ new, a.call = .isPllLocked tuner) →
    ret = -eagain ∧ (new.filter fun a => a.call = .isPllLocked tuner).length = 50

/-- The shape the two tuning branches share: a checked run of setup accesses, the lock poll of
`tuner`, then what follows a lock. -/
def tuneSteps (setup : List Call) (tuner : Chip) (afterLock : Hw → Int × Hw)
    (tunerLocked : Bool) (hw : Hw) : Int × Hw :=
  let s := runChecked setup hw
  if s.1 ≠ 0 then s
  else
    let lock := pllLock tuner s.1 tunerLocked s.2
    if lock.1 ≠ 0 then lock else afterLock lock.2

def afterLockT (hw : Hw) : Int × Hw :=
  let finish := runChecked tuneFinishT hw
  if finish.1 ≠ 0 then finish else (0, finish.2.msleep 100)

def afterLockS (hw : Hw) : Int × Hw :=
  runChecked [.setAgc .tc90522S true] (hw.issue .rt710GetRfSignalStrength).2

theorem tune_isdbT_eq (freq : Nat) (tunerLocked : Bool) (hw : Hw) :
    m1urChrdevTune ⟨.isdbT, freq⟩ tunerLocked hw =
      tuneSteps (tuneSetupT freq) .r850 afterLockT tunerLocked hw := rfl

theorem tune_isdbS_eq (freq : Nat) (tunerLocked : Bool) (hw : Hw) :
    m1urChrdevTune ⟨.isdbS, freq⟩ tunerLocked hw =
      tuneSteps (tuneSetupS freq) .rt710 afterLockS tunerLocked hw := rfl

theorem tuneSteps_outcome {setup after checked : List Call} {tuner : Chip} {sleeper : Call}
    {afterLock : Hw → Int × Hw} (sleeps : sleeper ∈ setup)
    (noPoll : ∀ c ∈ setup ++ after, c ≠ .isPllLocked tuner)
    (afterSpec : ∀ hw, ∃ new, (afterLock hw).2.log = new ++ hw.log ∧
      (∀ a ∈ new, a.call ∈ after) ∧
      ((afterLock hw).1 = 0 → new.map Access.call = after.reverse ∧
        ∀ a ∈ new, a.call ∈ checked → a.reply.ret = 0))
    (tunerLocked : Bool) (hw : Hw) :
    ∃ new, (tuneSteps setup tuner afterLock tunerLocked hw).2.log = new ++ hw.log ∧
      TuneOutcome tuner sleeper after checked new
        (tuneSteps setup tuner afterLock tunerLocked hw).1 := by
  obtain ⟨newS, logS, -, issuedS, -, doneS⟩ := runChecked_spec setup hw
  have quietS : ∀ a ∈ newS, a.call ≠ .isPllLocked tuner := fun a mem =>
    noPoll _ (List.mem_append_left _ (call_mem_of_issued issuedS a mem))
  have countS : (newS.filter fun a => a.call = .isPllLocked tuner) = [] :=
    List.filter_eq_nil_iff.mpr fun a mem => by simpa using quietS a mem
  simp only [tuneSteps]
  by_cases setupOk : (runChecked setup hw).1 = 0
  swap
  · rw [if_pos setupOk]
    exact ⟨newS, logS, by simp [countS], fun ok => absurd ok setupOk,
      fun ok => absurd ok setupOk, fun _ ⟨a, mem, poll⟩ => absurd poll (quietS a mem)⟩
  rw [if_neg (not_not.mpr setupOk)]
  obtain ⟨newL, logL, -, countL⟩ :=
    pllLock_spec tuner (runChecked setup hw).1 tunerLocked (runChecked setup hw).2
  by_cases lockOk :
    (pllLock tuner (runChecked setup hw).1 tunerLocked (runChecked setup hw).2).1 = 0
  swap
  · rw [if_pos lockOk]
    refine ⟨newL ++ newS, by rw [logL, logS, List.append_assoc], by simpa [countS] using countL,
      fun ok => absurd ok lockOk, fun ok => absurd ok lockOk, fun unlocked _ => ?_⟩
    obtain ⟨eagain, fifty⟩ := pllLock_of_unlocked _ _ _ _ logL
      fun a mem => unlocked a (List.mem_append_left _ mem)
    exact ⟨eagain, by simp [countS, fifty]⟩
  rw [if_neg (not_not.mpr lockOk)]
  obtain ⟨reply, before, lockLog, zero, locked⟩ := pllLock_ok _ _ _ _ lockOk
  obtain rfl : newL = ⟨.isPllLocked tuner, reply⟩ :: before :=
    List.append_cancel_right (logL.symm.trans lockLog)
  obtain ⟨newA, logA, callsA, doneA⟩ := afterSpec (pllLock tuner (runChecked setup hw).1
    tunerLocked (runChecked setup hw).2).2
  have countA : (newA.filter fun a => a.call = .isPllLocked tuner) = [] :=
    List.filter_eq_nil_iff.mpr fun a mem => by
      simpa using noPoll _ (List.mem_append_right _ (callsA a mem))
  refine ⟨newA ++ ⟨.isPllLocked tuner, reply⟩ :: before ++ newS,
    by rw [logA, lockLog, logS]; simp, by simpa [countA, countS] using countL, fun _ => ?_,
    fun ok => ⟨newA, reply, before ++ newS, by simp, zero, locked, doneA ok⟩,
    fun unlocked _ => ?_⟩
  · have listed : sleeper ∈ (newS.map Access.call).reverse := by
      rw [issuedS, (doneS setupOk).1, List.take_length]
      exact sleeps
    obtain ⟨a, mem, call⟩ := List.mem_map.mp (List.mem_reverse.mp listed)
    exact ⟨a, by simp [mem], call, (doneS setupOk).2 a mem⟩
  · have clear := (unlocked ⟨.isPllLocked tuner, reply⟩ (by simp) rfl).2
    simp [locked] at clear

theorem afterLockT_spec (hw : Hw) : ∃ new, (afterLockT hw).2.log = new ++ hw.log ∧
    (∀ a ∈ new, a.call ∈ tuneFinishT ++ [.msleep 100]) ∧
    ((afterLockT hw).1 = 0 → new.map Access.call = (tuneFinishT ++ [Call.msleep 100]).reverse ∧
      ∀ a ∈ new, a.call ∈ tuneFinishT → a.reply.ret = 0) := by
  obtain ⟨new, log, -, issued, -, done⟩ := runChecked_spec tuneFinishT hw
  have calls := call_mem_of_issued issued
  simp only [afterLockT]
  by_cases ok : (runChecked tuneFinishT hw).1 = 0
  · rw [if_neg (not_not.mpr ok)]
    obtain ⟨all, codes⟩ := done ok
    refine ⟨⟨.msleep 100, (runChecked tuneFinishT hw).2.replies
      (runChecked tuneFinishT hw).2.log.length (.msleep 100)⟩ :: new, by simp [log], ?_,
      fun _ => ⟨by simp [map_call_of_issued issued all], ?_⟩⟩
    all_goals intro a mem
    all_goals rcases List.mem_cons.mp mem with rfl | mem
    · simp
    · exact List.mem_append_left _ (calls a mem)
    · simp [tuneFinishT]
    · exact fun _ => codes a mem
  · rw [if_pos ok]
    exact ⟨new, log, fun a mem => List.mem_append_left _ (calls a mem),
      fun zero => absurd zero ok⟩

theorem afterLockS_spec (hw : Hw) : ∃ new, (afterLockS hw).2.log = new ++ hw.log ∧
    (∀ a ∈ new, a.call ∈ [.rt710GetRfSignalStrength, .setAgc .tc90522S true]) ∧
    ((afterLockS hw).1 = 0 →
      new.map Access.call = [.rt710GetRfSignalStrength, .setAgc .tc90522S true].reverse ∧
      ∀ a ∈ new, a.call ∈ [.setAgc .tc90522S true] → a.reply.ret = 0) := by
  obtain ⟨new, log, -, issued, -, done⟩ :=
    runChecked_spec [.setAgc .tc90522S true] (hw.issue .rt710GetRfSignalStrength).2
  have calls := call_mem_of_issued issued
  refine ⟨new ++ [⟨.rt710GetRfSignalStrength, (hw.issue .rt710GetRfSignalStrength).1⟩],
    by simp [afterLockS, log], ?_, fun ok => ?_⟩
  · intro a mem
    rcases List.mem_append.mp mem with mem | mem
    · exact List.mem_cons_of_mem _ (calls a mem)
    · simp_all
  · obtain ⟨all, codes⟩ := done ok
    refine ⟨by simp [map_call_of_issued issued all], fun a mem _ => ?_⟩
    rcases List.mem_append.mp mem with mem | mem
    · exact codes a mem
    · simp_all

/-- Tuning is sound and its lock poll bounded, for every frequency, every value of the
uninitialised `tuner_locked` and every pattern of replies: on ISDB-T and on ISDB-S a tune has the
outcome of its system, and on any other system it returns `-EINVAL` and touches nothing. -/
theorem tune_sound (freq : Nat) (tunerLocked : Bool) (hw : Hw) :
    (∃ new, (m1urChrdevTune ⟨.isdbT, freq⟩ tunerLocked hw).2.log = new ++ hw.log ∧
      TuneOutcome .r850 (.sleep .tc90522S true) (tuneFinishT ++ [.msleep 100]) tuneFinishT new
        (m1urChrdevTune ⟨.isdbT, freq⟩ tunerLocked hw).1) ∧
    (∃ new, (m1urChrdevTune ⟨.isdbS, freq⟩ tunerLocked hw).2.log = new ++ hw.log ∧
      TuneOutcome .rt710 (.sleep .tc90522T true)
        [.rt710GetRfSignalStrength, .setAgc .tc90522S true] [.setAgc .tc90522S true] new
        (m1urChrdevTune ⟨.isdbS, freq⟩ tunerLocked hw).1) ∧
    ∀ system, system ≠ .isdbT → system ≠ .isdbS →
      m1urChrdevTune ⟨system, freq⟩ tunerLocked hw = (-einval, hw) := by
  rw [tune_isdbT_eq, tune_isdbS_eq]
  refine ⟨tuneSteps_outcome (by simp [tuneSetupT]) ?_ afterLockT_spec tunerLocked hw,
    tuneSteps_outcome (by simp [tuneSetupS]) ?_ afterLockS_spec tunerLocked hw,
    fun system notT notS => by cases system <;> simp_all [m1urChrdevTune]⟩
  -- no access before or after the poll reads the lock flag
  all_goals simp only [tuneSetupT, tuneSetupS, tuneFinishT, List.cons_append, List.nil_append,
    List.mem_cons, List.mem_singleton, List.not_mem_nil, or_false, forall_eq_or_imp, forall_eq,
    ne_eq, reduceCtorEq, not_false_eq_true, and_self]

end PxM1ur
