import PxM1ur.Chrdev.Capture
import PxM1ur.Chrdev.Tune
import PxM1ur.Chrdev.StreamId

/-! Sessions over the life of an attached device: any interleaving of `open`, the operations the
chrdev layer runs inside a session, and `release` of a successful open, under every pattern of
hardware replies. `Reach` counts the open sessions and records how the last open or release
ended; between sessions that record decides what the code has undone. -/

namespace PxM1ur

/-- How the last open or release of a run ended. -/
inductive Setup where
  | attached
  | opened
  | released
  | openFailed (stage : OpenStage)
  deriving DecidableEq, Repr

/-- The operations of `m1ur_chrdev_ops` that run inside a session. -/
inductive SessionOp where
  | tune (params : PtxTuneParams) (tunerLocked : Bool)
  | checkLock (currentSystem : PtxSystem) (locked : Bool)
  | setStreamId (currentSystem : PtxSystem) (streamId tsid tsid2 : UInt16)
  | setCapture (currentSystem : PtxSystem) (psbPurgeTimeout : Nat) (status : Bool)
  | readCnrRaw (currentSystem : PtxSystem)
  deriving DecidableEq, Repr

def sessionStep (dev : M1urDevice) : SessionOp → Int × M1urDevice
  | .tune params tunerLocked =>
    let r := m1urChrdevTune params tunerLocked dev.hw
    (r.1, { dev with hw := r.2 })
  | .checkLock currentSystem locked =>
    let r := m1urChrdevCheckLock currentSystem locked dev.hw
    (r.1, { dev with hw := r.2.2 })
  | .setStreamId currentSystem streamId tsid tsid2 =>
    let r := m1urChrdevSetStreamId currentSystem streamId tsid tsid2 dev.hw
    (r.1, { dev with hw := r.2 })
  | .setCapture currentSystem psbPurgeTimeout status =>
    m1urChrdevSetCapture currentSystem psbPurgeTimeout status dev
  | .readCnrRaw currentSystem =>
    let r := m1urChrdevReadCnrRaw currentSystem dev.hw
    (r.1, { dev with hw := r.2 })

/-- The states reachable from attach with `kref0` references: `sessions` successful opens are
not yet released, and `last` is how the last open or release ended. -/
inductive Reach (kref0 : Nat) : Nat → Setup → M1urDevice → Prop where
  | attached {dev : M1urDevice} : dev.available = true → dev.kref = kref0 → Quiet dev.hw.log →
      Reach kref0 0 .attached dev
  | openOk {sessions last dev} : Reach kref0 sessions last dev → (m1urChrdevOpen dev).1 = 0 →
      Reach kref0 (sessions + 1) .opened (m1urChrdevOpen dev).2
  | openFail {sessions last dev} : Reach kref0 sessions last dev → (m1urChrdevOpen dev).1 ≠ 0 →
      Reach kref0 sessions (.openFailed (openStage dev)) (m1urChrdevOpen dev).2
  | step {sessions last dev} (op : SessionOp) : Reach kref0 (sessions + 1) last dev →
      Reach kref0 (sessions + 1) last (sessionStep dev op).2
  | release {sessions last dev} : Reach kref0 (sessions + 1) last dev →
      Reach kref0 sessions .released (m1urChrdevRelease dev).2

theorem sessionStep_kref (dev : M1urDevice) (op : SessionOp) :
    (sessionStep dev op).2.kref = dev.kref ∧
      (sessionStep dev op).2.available = dev.available := by
  cases op with
  | setCapture => exact setCapture_kref ..
  | _ => exact ⟨rfl, rfl⟩

theorem reach_kref {kref0 sessions : Nat} {last : Setup} {dev : M1urDevice}
    (reach : Reach kref0 sessions last dev) :
    dev.kref = kref0 + sessions ∧ dev.available = true := by
  induction reach with
  | attached available kref _ => exact ⟨kref, available⟩
  | openOk _ ok ih =>
    rw [open_kref, if_pos ok, open_available, ih.1]
    exact ⟨rfl, ih.2⟩
  | openFail _ fail ih => rwa [open_kref, if_neg fail, open_available]
  | step op _ ih => rwa [(sessionStep_kref _ op).1, (sessionStep_kref _ op).2]
  | release _ ih =>
    rw [release_kref, release_available, ih.1]
    exact ⟨rfl, ih.2⟩

theorem reach_of_deviceInit {discardNullPackets : Bool} {hw : Hw}
    (ok : (m1urDeviceInit discardNullPackets hw).1 = 0)
    (fresh : ∀ chip, chipLive hw.log chip = false) :
    Reach 1 0 .attached (m1urDeviceInit discardNullPackets hw).2 :=
  have ⟨rail, chips, kref, available⟩ := deviceInit_attached ok
  .attached available kref ⟨rail, fun chip => (chips chip).trans (fresh chip)⟩

theorem reach_between_sessions {kref0 : Nat} {last : Setup} {dev : M1urDevice}
    (reach : Reach kref0 0 last dev) :
    dev.kref = kref0 ∧
      (last = .attached ∨ last = .released ∨ last = .openFailed .tcInitT → Quiet dev.hw.log) ∧
      (last = .openFailed .backendInit →
        RailOff dev.hw.log ∧ chipLive dev.hw.log .tc90522T = true) ∧
      (last = .openFailed .backendPower → lastGpio dev.hw.log 3 = some false) := by
  refine ⟨(reach_kref reach).1, ?_⟩
  cases reach with
  | attached _ _ quiet => exact ⟨fun _ => quiet, nofun, nofun⟩
  | openFail prior _ =>
    have available := (reach_kref prior).2
    refine ⟨fun stage => ?_, fun stage => ?_, fun stage => ?_⟩
    · simp only [reduceCtorEq, Setup.openFailed.injEq, false_or] at stage
      exact (open_of_tcInitT available stage).2
    · exact (open_of_backendInit available (Setup.openFailed.inj stage)).2
    · exact (open_of_backendPower (Setup.openFailed.inj stage)).2.1
  | release prior => exact ⟨fun _ => release_quiet (reach_kref prior).2, nofun, nofun⟩

theorem reach_between_sessions_after_release :
    (m1urChrdevRelease (m1urChrdevOpen
        (m1urDeviceInit false ⟨fun _ _ => ⟨0, false, 0⟩, []⟩).2).2).2.kref = 1 ∧
      Quiet (m1urChrdevRelease (m1urChrdevOpen
        (m1urDeviceInit false ⟨fun _ _ => ⟨0, false, 0⟩, []⟩).2).2).2.hw.log :=
  have run := reach_between_sessions
    (.release (.openOk (reach_of_deviceInit
      (show (m1urDeviceInit false ⟨fun _ _ => ⟨0, false, 0⟩, []⟩).1 = 0 by decide)
      fun _ => rfl)
      (by decide)))
  ⟨run.1, run.2.1 (.inr (.inl rfl))⟩

/-- An open whose `tc90522_init` on tc90522_s fails returns the error with tc90522_t still
initialised: `fail_backend_init` powers the rail off but issues no term. -/
theorem open_failure_leaves_tc90522T_initialised :
    (m1urChrdevOpen (m1urDeviceInit false ⟨failingOn (.init .tc90522S) (-5), []⟩).2).1 = -5 ∧
      chipLive (m1urChrdevOpen
        (m1urDeviceInit false ⟨failingOn (.init .tc90522S) (-5), []⟩).2).2.hw.log .tc90522T = true := by
  decide

end PxM1ur
