import PxM1ur.Chrdev.Backend

/-! `m1ur_chrdev_start_capture`, `m1ur_chrdev_stop_capture` and `m1ur_chrdev_set_capture`. Start
resets the carry-over of the stream synchroniser (`remain_len = 0`) before the bus starts
streaming, which is the capture start the stream theorems begin from. -/

namespace PxM1ur

/-- The `switch (chrdev->current_system)` over the TS pins, shared by start, its unwinding and
stop: the demodulator of the current system, none for any other system. -/
def tsPinsCall (currentSystem : PtxSystem) (enable : Bool) : Option Call :=
  match currentSystem with
  | .isdbT => some (.enableTsPins .tc90522T enable)
  | .isdbS => some (.enableTsPins .tc90522S enable)
  | _ => none

def tsPinsOff (currentSystem : PtxSystem) (hw : Hw) : Hw :=
  match tsPinsCall currentSystem false with
  | some call => (hw.issue call).2
  | none => hw

def m1urChrdevStartCapture (currentSystem : PtxSystem) (psbPurgeTimeout : Nat)
    (dev : M1urDevice) : Int × M1urDevice :=
  let purge := dev.hw.issue (.purgePsb psbPurgeTimeout)
  if purge.1.ret ≠ 0 then (purge.1.ret, { dev with hw := purge.2 })
  else
    let pins : Int × Hw := match tsPinsCall currentSystem true with
      | some call => ((purge.2.issue call).1.ret, (purge.2.issue call).2)
      | none => (0, purge.2)
    if pins.1 ≠ 0 then (pins.1, { dev with hw := tsPinsOff currentSystem pins.2 })
    else
      let start := pins.2.issue .startStreaming
      if start.1.ret ≠ 0 then
        (start.1.ret,
          { dev with hw := tsPinsOff currentSystem start.2, streamCtx := .captureStart })
      else (0, { dev with hw := start.2, streamCtx := .captureStart })

def m1urChrdevStopCapture (currentSystem : PtxSystem) (dev : M1urDevice) : Int × M1urDevice :=
  let stop := (dev.hw.issue .stopStreaming).2
  if !dev.available then (0, { dev with hw := stop })
  else (0, { dev with hw := tsPinsOff currentSystem stop })

def m1urChrdevSetCapture (currentSystem : PtxSystem) (psbPurgeTimeout : Nat) (status : Bool)
    (dev : M1urDevice) : Int × M1urDevice :=
  if status then m1urChrdevStartCapture currentSystem psbPurgeTimeout dev
  else m1urChrdevStopCapture currentSystem dev

@[simp] theorem setCapture_kref (currentSystem : PtxSystem) (psbPurgeTimeout : Nat)
    (status : Bool) (dev : M1urDevice) :
    (m1urChrdevSetCapture currentSystem psbPurgeTimeout status dev).2.kref = dev.kref ∧
      (m1urChrdevSetCapture currentSystem psbPurgeTimeout status dev).2.available =
        dev.available := by
  simp only [m1urChrdevSetCapture, m1urChrdevStartCapture, m1urChrdevStopCapture]
  split_ifs <;> exact ⟨rfl, rfl⟩

end PxM1ur
