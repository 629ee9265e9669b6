import PxM1ur.Chrdev.Lifecycle

/-! The transport-stream output over the life of the device. The TS pins of a demodulator are read
off the log like the GPIO lines, and the bus streams after a start that returned 0 until a stop.
`m1ur_chrdev_start_capture` enables the pins of the demodulator of `current_system` and starts the
streaming, and on each failure after the enable switches the pins off again;
`m1ur_chrdev_stop_capture` stops the streaming and, while the device is available, switches them
off. Open, release and the other session operations enable no pins and neither start nor stop
the streaming. Over every life in which the chrdev layer keeps one `current_system` for its
captures, the pins of a demodulator are on only if it is that system's, and only while the bus
streams or once the device is gone. -/

namespace PxM1ur

def tsChip : PtxSystem → Option Chip
  | .isdbT => some .tc90522T
  | .isdbS => some .tc90522S
  | _ => none

theorem tsPinsCall_eq (currentSystem : PtxSystem) (enable : Bool) :
    tsPinsCall currentSystem enable = (tsChip currentSystem).map (.enableTsPins · enable) := by
  cases currentSystem <;> rfl

def tsPinsCommand (chip : Chip) : Call → Option Bool
  | .enableTsPins c enable => if c = chip then some enable else none
  | _ => none

def tsPinsOn (log : List Access) (chip : Chip) : Bool :=
  (log.findSome? fun a => tsPinsCommand chip a.call).getD false

def streamCommand (a : Access) : Option Bool :=
  match a.call with
  | .startStreaming => some (a.reply.ret == 0)
  | .stopStreaming => some false
  | _ => none

/-- The last start of the streaming returned 0 and no stop came after it. -/
def streaming (log : List Access) : Bool := (log.findSome? streamCommand).getD false

section Readers

@[simp] theorem tsPinsOn_cons (a : Access) (log : List Access) (chip : Chip) :
    tsPinsOn (a :: log) chip = (tsPinsCommand chip a.call).getD (tsPinsOn log chip) := by
  simp only [tsPinsOn, List.findSome?_cons]
  cases tsPinsCommand chip a.call <;> rfl

@[simp] theorem streaming_cons (a : Access) (log : List Access) :
    streaming (a :: log) = (streamCommand a).getD (streaming log) := by
  simp only [streaming, List.findSome?_cons]
  cases streamCommand a <;> rfl

@[simp] theorem tsPinsOn_tsPinsOff (currentSystem : PtxSystem) (hw : Hw) (chip : Chip) :
    tsPinsOn (tsPinsOff currentSystem hw).log chip =
      (tsPinsOn hw.log chip && tsChip currentSystem != some chip) := by
  cases currentSystem <;> cases chip <;> simp [tsPinsOff, tsPinsCall, tsChip, tsPinsCommand]

@[simp] theorem streaming_tsPinsOff (currentSystem : PtxSystem) (hw : Hw) :
    streaming (tsPinsOff currentSystem hw).log = streaming hw.log := by
  cases currentSystem <;> rfl

theorem tsPinsCommand_of_capture {chip : Chip} {c : Call} (quiet : c.capture = false) {b : Bool}
    (cmd : tsPinsCommand chip c = some b) : b = false := by
  cases c <;> try cases cmd
  case enableTsPins c enable =>
    cases enable
    · by_cases same : c = chip <;> simp_all [tsPinsCommand]
    · cases quiet

theorem streamCommand_eq_none {a : Access} (quiet : a.call.capture = false) :
    streamCommand a = none := by
  obtain ⟨c, r⟩ := a
  cases c <;> first | rfl | cases quiet

theorem tsPinsOn_of_extends {hw hw' : Hw} (ext : hw.Extends (fun c => c.capture = false) hw')
    {chip : Chip} (enabled : tsPinsOn hw'.log chip = true) : tsPinsOn hw.log chip = true := by
  obtain ⟨new, log, ok⟩ := ext
  rw [tsPinsOn, log, List.findSome?_append] at enabled
  cases first : new.findSome? fun a => tsPinsCommand chip a.call with
  | none => simpa [first] using enabled
  | some b =>
    obtain ⟨a, mem, cmd⟩ := List.exists_of_findSome?_eq_some first
    simp [first, tsPinsCommand_of_capture (ok a mem) cmd] at enabled

theorem streaming_of_extends {hw hw' : Hw} (ext : hw.Extends (fun c => c.capture = false) hw') :
    streaming hw'.log = streaming hw.log := by
  rw [streaming, streaming, ext.findSome?_log fun _ quiet => streamCommand_eq_none quiet]

theorem captureFree_of_all {calls : List Call} (all : calls.all (fun c => !c.capture) = true) :
    ∀ c ∈ calls, c.capture = false :=
  fun c mem => by simpa using List.all_eq_true.mp all c mem

end Readers

/-- What `set_capture` keeps of the TS output under `current_system`: the pins of a demodulator
are on only if it is the demodulator of that system, and only while the bus streams or once the
device is gone. -/
def OutputSafe (currentSystem : PtxSystem) (detached : Bool) (log : List Access) : Prop :=
  ∀ chip, tsPinsOn log chip = true →
    tsChip currentSystem = some chip ∧ (streaming log = true ∨ detached = true)

section Capture

variable {currentSystem : PtxSystem} {detached : Bool}

theorem OutputSafe.of_extends {hw hw' : Hw} (safe : OutputSafe currentSystem detached hw.log)
    (ext : hw.Extends (fun c => c.capture = false) hw') {detached' : Bool}
    (later : detached = true → detached' = true) :
    OutputSafe currentSystem detached' hw'.log := fun chip enabled =>
  have ⟨sys, live⟩ := safe chip (tsPinsOn_of_extends ext enabled)
  ⟨sys, by rw [streaming_of_extends ext]; exact live.imp_right later⟩

theorem outputSafe_startCapture {dev : M1urDevice}
    (safe : OutputSafe currentSystem detached dev.hw.log) (psbPurgeTimeout : Nat) :
    OutputSafe currentSystem detached
      (m1urChrdevStartCapture currentSystem psbPurgeTimeout dev).2.hw.log := by
  intro c
  have before := safe c
  clear safe
  simp only [m1urChrdevStartCapture, tsPinsCall_eq]
  cases sys : tsChip currentSystem with
  | none =>
    simp only [sys, Option.map_none', ne_eq, not_true_eq_false, if_false] at before ⊢
    repeat' split
    all_goals simp_all [tsPinsCommand, streamCommand]
  | some chip =>
    simp only [sys, Option.map_some'] at before ⊢
    repeat' split
    all_goals by_cases same : chip = c <;> simp_all [tsPinsCommand, streamCommand]

theorem outputSafe_stopCapture {dev : M1urDevice}
    (safe : OutputSafe currentSystem detached dev.hw.log)
    (gone : dev.available = false → detached = true) :
    OutputSafe currentSystem detached (m1urChrdevStopCapture currentSystem dev).2.hw.log := by
  intro c enabled
  have before := safe c
  simp only [m1urChrdevStopCapture] at enabled ⊢
  split_ifs at enabled ⊢ with unavailable
  · simp only [Hw.issue_log, tsPinsOn_cons, streaming_cons] at enabled ⊢
    simp_all [tsPinsCommand, streamCommand]
  · simp only [tsPinsOn_tsPinsOff, Hw.issue_log, tsPinsOn_cons, Bool.and_eq_true,
      bne_iff_ne] at enabled
    simp_all [tsPinsCommand]

end Capture

/-- The in-session operations of a chrdev layer that keeps `current_system` for its captures. -/
def SessionOp.capturesOn (currentSystem : PtxSystem) : SessionOp → Prop
  | .setCapture system _ _ => system = currentSystem
  | _ => True

theorem extends_deviceInit_of_ok {discardNullPackets : Bool} {hw : Hw}
    (ok : (m1urDeviceInit discardNullPackets hw).1 = 0) :
    hw.Extends (fun c => c.capture = false) (m1urDeviceInit discardNullPackets hw).2.hw := by
  have run : ∀ calls : List Call, calls.all (fun c => !c.capture) = true → ∀ hw' : Hw,
      hw'.Extends (fun c => c.capture = false) (runChecked calls hw').2 :=
    fun _ all => extends_runChecked (captureFree_of_all all)
  have alloc := @Hw.extends_issue (fun c => c.capture = false) .allocStreamCtx rfl hw
  rw [(deviceInit_of_ok ok).2]
  exact ((alloc.trans (run [.busInit] rfl _)).trans (run [.bridgeInit] rfl _)).trans
    (run (deviceInitCalls discardNullPackets) (by cases discardNullPackets <;> rfl) _)

theorem outputSafe_attach {currentSystem : PtxSystem} {discardNullPackets : Bool} {hw : Hw}
    (ok : (m1urDeviceInit discardNullPackets hw).1 = 0)
    (off : ∀ chip, tsPinsOn hw.log chip = false) :
    OutputSafe currentSystem false (attach discardNullPackets hw).owner.dev.hw.log :=
  fun chip enabled => by
    have before := tsPinsOn_of_extends (extends_deviceInit_of_ok ok) enabled
    simp [off] at before

section Runs

variable {currentSystem : PtxSystem} {opens : Nat → Prop}

theorem outputSafe_of_step {s s' : LifeState} (inv : LifeInv s)
    (safe : OutputSafe currentSystem s.detached s.owner.dev.hw.log)
    (step : LifeStep (SessionOp.capturesOn currentSystem) opens s s') :
    OutputSafe currentSystem s'.detached s'.owner.dev.hw.log := by
  cases step with
  | openOk _ _ | openFail _ _ => exact safe.of_extends ((extends_open _).mono fun _ c => c.2) id
  | release =>
    exact safe.of_extends
      (((extends_release _).mono fun _ c => c.2).trans
        (@extends_releaseIfLast (fun c => c.capture = false) rfl rfl _)) id
  | @term n o =>
    exact safe.of_extends (@extends_releaseIfLast (fun c => c.capture = false) rfl rfl
      ⟨{ o.dev with available := false, kref := o.dev.kref - 1 }, .groupDestroy :: o.kernel⟩)
      fun _ => rfl
  | step op onSystem =>
    cases op with
    | setCapture system psbPurgeTimeout status =>
      obtain rfl : system = currentSystem := onSystem
      cases status
      · exact outputSafe_stopCapture safe fun gone => by simpa [gone] using inv.available
      · exact outputSafe_startCapture safe psbPurgeTimeout
    | tune params tunerLocked => exact safe.of_extends ((extends_tune ..).mono fun _ c => c.2) id
    | checkLock _ _ => exact safe.of_extends ((extends_checkLock ..).mono fun _ c => c.2) id
    | setStreamId _ _ _ _ =>
      exact safe.of_extends ((extends_setStreamId ..).mono fun _ c => c.2) id
    | readCnrRaw _ => exact safe.of_extends ((extends_readCnrRaw ..).mono fun _ c => c.2) id

theorem outputSafe_of_reach {discardNullPackets : Bool} {hw : Hw}
    (ok : (m1urDeviceInit discardNullPackets hw).1 = 0)
    (off : ∀ chip, tsPinsOn hw.log chip = false) {s : LifeState}
    (run : Relation.ReflTransGen (LifeStep (SessionOp.capturesOn currentSystem) opens)
      (attach discardNullPackets hw) s) :
    OutputSafe currentSystem s.detached s.owner.dev.hw.log := by
  induction run with
  | refl => exact outputSafe_attach ok off
  | tail earlier step ih =>
    exact outputSafe_of_step (lifeInv_of_run (lifeInv_attach ok) earlier) ih step

/-- Over every life of the device from a successful `m1ur_device_init` with no TS pins on, in
which the chrdev layer runs its captures under one `current_system`, through any order of opens,
session operations, releases and the term, under every pattern of hardware replies: the TS pins
of a demodulator are commanded on only if it is the demodulator of that system, and only while
the bus streams or once the device is gone. -/
theorem life_output_safe {discardNullPackets : Bool} {hw : Hw}
    (ok : (m1urDeviceInit discardNullPackets hw).1 = 0)
    (off : ∀ chip, tsPinsOn hw.log chip = false) {s : LifeState}
    (run : Relation.ReflTransGen (LifeStep (SessionOp.capturesOn currentSystem) opens)
      (attach discardNullPackets hw) s)
    (chip : Chip) (enabled : tsPinsOn s.owner.dev.hw.log chip = true) :
    tsChip currentSystem = some chip ∧
      (streaming s.owner.dev.hw.log = true ∨ s.detached = true) :=
  outputSafe_of_reach ok off run chip enabled

end Runs

theorem life_output_safe_isdbT_capture :
    (m1urDeviceInit false ⟨fun _ _ => ⟨0, false, 0⟩, []⟩).1 = 0 ∧
      (∀ chip, tsPinsOn (⟨fun _ _ => ⟨0, false, 0⟩, []⟩ : Hw).log chip = false) ∧
      ∃ s, Relation.ReflTransGen (LifeStep (SessionOp.capturesOn .isdbT) (fun _ => True))
          (attach false ⟨fun _ _ => ⟨0, false, 0⟩, []⟩) s ∧
        tsPinsOn s.owner.dev.hw.log .tc90522T = true ∧
        tsChip .isdbT = some .tc90522T ∧
        (streaming s.owner.dev.hw.log = true ∨ s.detached = true) := by
  have ok : (m1urDeviceInit false ⟨fun _ _ => ⟨0, false, 0⟩, []⟩).1 = 0 := by decide
  have opened :
      (m1urChrdevOpen (attach false ⟨fun _ _ => ⟨0, false, 0⟩, []⟩).owner.dev).1 = 0 := by
    decide
  have run : Relation.ReflTransGen (LifeStep (SessionOp.capturesOn .isdbT) (fun _ => True)) _ _ :=
    (Relation.ReflTransGen.single (LifeStep.openOk (n := 0) trivial opened)).tail
      (LifeStep.step (.setCapture .isdbT 0 true) rfl)
  exact ⟨ok, fun _ => rfl, _, run, by decide,
    life_output_safe ok (fun _ => rfl) run .tc90522T (by decide)⟩

example : ∃ s, Relation.ReflTransGen (LifeStep (fun _ => True) (fun _ => True))
      (attach false ⟨fun _ _ => ⟨0, false, 0⟩, []⟩) s ∧
    tsPinsOn s.owner.dev.hw.log .tc90522T = true ∧ streaming s.owner.dev.hw.log = false ∧
    s.detached = false := by
  have opened :
      (m1urChrdevOpen (attach false ⟨fun _ _ => ⟨0, false, 0⟩, []⟩).owner.dev).1 = 0 := by
    decide
  have run : Relation.ReflTransGen (LifeStep (fun _ => True) (fun _ => True)) _ _ :=
    ((Relation.ReflTransGen.single (LifeStep.openOk (n := 0) trivial opened)).tail
      (LifeStep.step (.setCapture .isdbT 0 true) trivial)).tail
      (LifeStep.step (.setCapture .isdbS 0 false) trivial)
  exact ⟨_, run, by decide, by decide, rfl⟩

end PxM1ur
