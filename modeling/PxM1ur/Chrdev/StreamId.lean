import PxM1ur.Chrdev.Access

/-! `m1ur_chrdev_set_stream_id`: a stream id below 12 is a slot of the ISDB-S multiplex, resolved
to a transport stream id by polling `tc90522_tmcc_get_tsid_s`; the id is then programmed with
`tc90522_set_tsid_s` and checked by polling `tc90522_get_tsid_s`. The uninitialised locals
`tsid` and `tsid2` are arguments: their values on entry are whatever the stack held. -/

namespace PxM1ur

/-- The slot poll: stop on a non-zero id or on -EINVAL. -/
def tmccPoll (slot : UInt16) : Nat → Int → UInt16 → Hw → Int × UInt16 × Hw :=
  poll (.tmccGetTsidS slot) Reply.tsid fun ret tsid => (ret = 0 && tsid != 0) || ret == -einval

/-- The check poll: stop once the demodulator reports `tsid`. -/
def getTsidPoll (tsid : UInt16) : Nat → Int → UInt16 → Hw → Int × UInt16 × Hw :=
  poll .getTsidS Reply.tsid fun ret tsid2 => ret = 0 && tsid2 == tsid

/-- The `if (stream_id < 12) ... else tsid = stream_id;` block: the code it returns with (0 to
go on) and the id to program. -/
def resolveTsid (streamId tsid : UInt16) (hw : Hw) : Int × UInt16 × Hw :=
  if streamId < 12 then
    let slot := tmccPoll streamId 100 0 tsid hw
    if slot.1 ≠ 0 then slot
    else if slot.2.1 = 0 then (-eagain, slot.2.1, slot.2.2)
    else slot
  else (0, streamId, hw)

/-- From `tc90522_set_tsid_s` to the end. -/
def setAndCheckTsid (tsid tsid2 : UInt16) (hw : Hw) : Int × Hw :=
  if (hw.issue (.setTsidS tsid)).1.ret ≠ 0 then
    ((hw.issue (.setTsidS tsid)).1.ret, (hw.issue (.setTsidS tsid)).2)
  else
    let check :=
      getTsidPoll tsid 100 (hw.issue (.setTsidS tsid)).1.ret tsid2 (hw.issue (.setTsidS tsid)).2
    (if check.2.1 ≠ tsid then -eagain else check.1, check.2.2)

def m1urChrdevSetStreamId (currentSystem : PtxSystem) (streamId tsid tsid2 : UInt16) (hw : Hw) :
    Int × Hw :=
  if currentSystem ≠ .isdbS then (-einval, hw)
  else
    let resolved := resolveTsid streamId tsid hw
    if resolved.1 ≠ 0 then (resolved.1, resolved.2.2)
    else setAndCheckTsid resolved.2.1 tsid2 resolved.2.2

theorem resolveTsid_spec (streamId tsid : UInt16) (hw : Hw) :
    ∃ new, (resolveTsid streamId tsid hw).2.2.log = new ++ hw.log ∧
      (resolveTsid streamId tsid hw).2.2.replies = hw.replies ∧
      (∀ a ∈ new, a.call = .tmccGetTsidS streamId ∨ a.call = .msleep 10) ∧
      (new.filter fun a => a.call = .tmccGetTsidS streamId).length ≤ 100 ∧
      (12 ≤ streamId → new = []) ∧
      ((resolveTsid streamId tsid hw).1 = 0 →
        (resolveTsid streamId tsid hw).2.1 ≠ 0 ∧
        (12 ≤ streamId → (resolveTsid streamId tsid hw).2.1 = streamId) ∧
        (streamId < 12 → ∃ reply,
          new.find? (fun a => a.call = .tmccGetTsidS streamId) =
            some ⟨.tmccGetTsidS streamId, reply⟩ ∧
            reply.ret = 0 ∧ reply.tsid = (resolveTsid streamId tsid hw).2.1)) := by
  by_cases slot : streamId < 12
  · have poll_eq : tmccPoll streamId 100 0 tsid hw = poll (.tmccGetTsidS streamId) Reply.tsid
        (fun ret tsid => (ret = 0 && tsid != 0) || ret == -einval) 100 0 tsid hw := rfl
    obtain ⟨new, log, replies, calls, count, last⟩ :=
      poll_spec (.tmccGetTsidS streamId) Reply.tsid
        (fun ret tsid => (ret = 0 && tsid != 0) || ret == -einval) (by simp) 100 0 tsid hw
    obtain ⟨reply, old, found, code, value⟩ := last (by decide)
    rw [← poll_eq] at log replies code value
    have unfold : resolveTsid streamId tsid hw =
        if (tmccPoll streamId 100 0 tsid hw).1 ≠ 0 then tmccPoll streamId 100 0 tsid hw
        else if (tmccPoll streamId 100 0 tsid hw).2.1 = 0 then
          (-eagain, (tmccPoll streamId 100 0 tsid hw).2.1, (tmccPoll streamId 100 0 tsid hw).2.2)
        else tmccPoll streamId 100 0 tsid hw := by
      rw [resolveTsid, if_pos slot]
    have same : (resolveTsid streamId tsid hw).2.2 = (tmccPoll streamId 100 0 tsid hw).2.2 := by
      rw [unfold]; split_ifs <;> rfl
    refine ⟨new, same ▸ log, same ▸ replies, calls, count,
      fun large => absurd slot (UInt16.not_lt.mpr large), fun ok => ?_⟩
    have zero : (tmccPoll streamId 100 0 tsid hw).1 = 0 := by
      by_contra ne
      rw [unfold, if_pos ne] at ok
      exact ne ok
    have nonzero : (tmccPoll streamId 100 0 tsid hw).2.1 ≠ 0 := by
      intro eq
      rw [unfold, if_neg (not_not.mpr zero), if_pos eq] at ok
      simp [eagain] at ok
    have result : (resolveTsid streamId tsid hw).2.1 = (tmccPoll streamId 100 0 tsid hw).2.1 := by
      rw [unfold, if_neg (not_not.mpr zero), if_neg nonzero]
    rw [result]
    refine ⟨nonzero, fun large => absurd slot (UInt16.not_lt.mpr large),
      fun _ => ⟨reply, found, ?_, ?_⟩⟩
    · rw [← code, zero]
    · rw [value, written_of_ret_eq_zero (code ▸ zero)]
  · rw [resolveTsid, if_neg slot]
    exact ⟨[], rfl, rfl, by simp, by simp, fun _ => rfl, fun _ =>
      ⟨fun zero => slot (by rw [show streamId = 0 from zero]; decide), fun _ => rfl,
        fun lt => absurd lt slot⟩⟩

theorem setAndCheckTsid_spec (tsid tsid2 : UInt16) (hw : Hw) :
    ∃ new reply, (setAndCheckTsid tsid tsid2 hw).2.log = new ++ ⟨.setTsidS tsid, reply⟩ :: hw.log ∧
      (∀ a ∈ new, a.call = .getTsidS ∨ a.call = .msleep 10) ∧
      (new.filter fun a => a.call = .getTsidS).length ≤ 100 ∧
      ((setAndCheckTsid tsid tsid2 hw).1 = 0 → reply.ret = 0 ∧ ∃ check,
        new.find? (fun a => a.call = .getTsidS) = some ⟨.getTsidS, check⟩ ∧
          check.ret = 0 ∧ check.tsid = tsid) := by
  by_cases set : (hw.issue (.setTsidS tsid)).1.ret ≠ 0
  · rw [setAndCheckTsid, if_pos set]
    exact ⟨[], _, rfl, by simp, by simp, fun ok => absurd ok set⟩
  · rw [setAndCheckTsid, if_neg set]
    have poll_eq : ∀ ret hw', getTsidPoll tsid 100 ret tsid2 hw' =
        poll .getTsidS Reply.tsid (fun ret tsid2 => ret = 0 && tsid2 == tsid) 100 ret tsid2 hw' :=
      fun _ _ => rfl
    obtain ⟨new, log, -, calls, count, last⟩ :=
      poll_spec .getTsidS Reply.tsid (fun ret tsid2 => ret = 0 && tsid2 == tsid) (by simp) 100
        (hw.issue (.setTsidS tsid)).1.ret tsid2 (hw.issue (.setTsidS tsid)).2
    obtain ⟨check, old, found, code, value⟩ := last (by decide)
    rw [← poll_eq] at log code value
    refine ⟨new, _, log, calls, count, fun ok => ⟨not_not.mp set, check, found, ?_⟩⟩
    by_cases same : (getTsidPoll tsid 100 (hw.issue (.setTsidS tsid)).1.ret tsid2
      (hw.issue (.setTsidS tsid)).2).2.1 = tsid
    · simp only [same, ne_eq, not_true_eq_false, if_false] at ok
      have zero : check.ret = 0 := code ▸ ok
      rw [written_of_ret_eq_zero zero, same] at value
      exact ⟨zero, value.symm⟩
    · simp [same, eagain] at ok

/-- What `m1ur_chrdev_set_stream_id` does to the hardware: nothing outside ISDB-S; otherwise
the slot poll (only for a slot number, at most 100 reads), then, unless it gave up, one
`tc90522_set_tsid_s` of a non-zero id that the last slot read reported, and at most 100
check reads; it returns 0 only if the set succeeded and the last check read returned the id. -/
theorem setStreamId_sound (currentSystem : PtxSystem) (streamId tsid tsid2 : UInt16) (hw : Hw) :
    (currentSystem ≠ .isdbS →
      m1urChrdevSetStreamId currentSystem streamId tsid tsid2 hw = (-einval, hw)) ∧
    (currentSystem = .isdbS → ∃ slots,
      (∀ a ∈ slots, a.call = .tmccGetTsidS streamId ∨ a.call = .msleep 10) ∧
      (slots.filter fun a => a.call = .tmccGetTsidS streamId).length ≤ 100 ∧
      (12 ≤ streamId → slots = []) ∧
      ((m1urChrdevSetStreamId currentSystem streamId tsid tsid2 hw).2.log = slots ++ hw.log ∧
          (m1urChrdevSetStreamId currentSystem streamId tsid tsid2 hw).1 ≠ 0 ∨
        ∃ t set checks,
          (m1urChrdevSetStreamId currentSystem streamId tsid tsid2 hw).2.log =
            checks ++ ⟨.setTsidS t, set⟩ :: (slots ++ hw.log) ∧
          t ≠ 0 ∧ (12 ≤ streamId → t = streamId) ∧
          (streamId < 12 → ∃ slot,
            slots.find? (fun a => a.call = .tmccGetTsidS streamId) =
              some ⟨.tmccGetTsidS streamId, slot⟩ ∧ slot.ret = 0 ∧ slot.tsid = t) ∧
          (∀ a ∈ checks, a.call = .getTsidS ∨ a.call = .msleep 10) ∧
          (checks.filter fun a => a.call = .getTsidS).length ≤ 100 ∧
          ((m1urChrdevSetStreamId currentSystem streamId tsid tsid2 hw).1 = 0 → set.ret = 0 ∧
            ∃ check, checks.find? (fun a => a.call = .getTsidS) = some ⟨.getTsidS, check⟩ ∧
              check.ret = 0 ∧ check.tsid = t))) := by
  refine ⟨fun other => by rw [m1urChrdevSetStreamId, if_pos other], fun sys => ?_⟩
  obtain ⟨slots, log, -, calls, count, none, ok⟩ := resolveTsid_spec streamId tsid hw
  refine ⟨slots, calls, count, none, ?_⟩
  by_cases gaveUp : (resolveTsid streamId tsid hw).1 ≠ 0
  · rw [m1urChrdevSetStreamId, if_neg (not_not.mpr sys), if_pos gaveUp]
    exact .inl ⟨log, gaveUp⟩
  · rw [m1urChrdevSetStreamId, if_neg (not_not.mpr sys), if_neg gaveUp]
    obtain ⟨nonzero, large, small⟩ := ok (not_not.mp gaveUp)
    obtain ⟨checks, set, log', checkCalls, checkCount, checkOk⟩ :=
      setAndCheckTsid_spec (resolveTsid streamId tsid hw).2.1 tsid2
        (resolveTsid streamId tsid hw).2.2
    exact .inr ⟨_, set, checks, by rw [log', log], nonzero, large, small, checkCalls, checkCount,
      checkOk⟩

def checksFailHw (e : Int) : Hw := ⟨failingOn .getTsidS e, []⟩

theorem setStreamId_of_checks_fail {e : Int} (fail : e ≠ 0) {streamId : UInt16}
    (large : 12 ≤ streamId) (tsid tsid2 : UInt16) {hw : Hw}
    (set : ∀ k, (hw.replies k (.setTsidS streamId)).ret = 0)
    (checks : ∀ k, (hw.replies k .getTsidS).ret = e) :
    (m1urChrdevSetStreamId .isdbS streamId tsid tsid2 hw).1 =
      if tsid2 = streamId then e else -eagain := by
  have resolved : resolveTsid streamId tsid hw = (0, streamId, hw) := by
    rw [resolveTsid, if_neg (UInt16.not_lt.mpr large)]
  obtain ⟨code, out⟩ := poll_of_fail .getTsidS Reply.tsid
    (fun ret tsid2 => ret = 0 && tsid2 == streamId) fail (fun _ => by simp [fail]) 99
    (hw.issue (.setTsidS streamId)).1.ret tsid2 (hw.issue (.setTsidS streamId)).2 checks
  have setOk : (hw.issue (.setTsidS streamId)).1.ret = 0 := set _
  rw [m1urChrdevSetStreamId, if_neg (not_not.mpr rfl), resolved, if_neg (not_not.mpr rfl),
    setAndCheckTsid, if_neg (not_not.mpr setOk)]
  change (if (getTsidPoll streamId 100 _ tsid2 _).2.1 ≠ streamId then -eagain
    else (getTsidPoll streamId 100 _ tsid2 _).1) = _
  rw [getTsidPoll, out, code]
  by_cases same : tsid2 = streamId <;> simp [same]

theorem setStreamId_reads_uninitialised_tsid2 :
    (m1urChrdevSetStreamId .isdbS 12 0 12 (checksFailHw (-5))).1 = -5 ∧
      (m1urChrdevSetStreamId .isdbS 12 0 0 (checksFailHw (-5))).1 = -eagain := by
  have set : ∀ k, ((checksFailHw (-5)).replies k (.setTsidS 12)).ret = 0 := fun _ => rfl
  have checks : ∀ k, ((checksFailHw (-5)).replies k .getTsidS).ret = -5 := fun _ => rfl
  rw [setStreamId_of_checks_fail (by decide) (by decide) 0 12 set checks,
    setStreamId_of_checks_fail (by decide) (by decide) 0 0 set checks]
  decide

end PxM1ur
