import PxM1ur.Chrdev.Session

/-! What each chrdev operation can add to the access log. `hw.Extends allowed hw'` says that
`hw'` is `hw` with accesses added, all to calls `allowed` permits; a value read off the log from
the most recent access of a kind `allowed` excludes is then unchanged. Open and release reach the
GPIO lines through `m1ur_backend_set_power` but never the bridge or the bus, and enable no TS
pins; the operations run inside a session reach neither, and only `set_capture` enables TS pins
or starts or stops the streaming. -/

namespace PxM1ur

def Call.bridgeOrBus : Call → Bool
  | .busInit | .busTerm | .bridgeInit | .bridgeTerm => true
  | _ => false

def Call.gpio : Call → Bool
  | .writeGpio .. | .setGpioMode _ => true
  | _ => false

def Call.chipPower : Call → Bool
  | .init _ | .term _ => true
  | _ => false

def Call.capture : Call → Bool
  | .enableTsPins _ true | .startStreaming | .stopStreaming => true
  | _ => false

/-- A call of the kind the operations inside a session make: no GPIO line, no bridge or bus, no
chip init or term. -/
def SessionCall (c : Call) : Prop :=
  c.bridgeOrBus = false ∧ c.gpio = false ∧ c.chipPower = false

/-- A call of the kind tune, check_lock, set_stream_id and read_cnr_raw make: besides, no TS pins
enabled and no streaming started or stopped. -/
def TuningCall (c : Call) : Prop := SessionCall c ∧ c.capture = false

def NoBridgeOrBus (c : Call) : Prop := c.bridgeOrBus = false

/-- A call of the kind open and release make: no bridge or bus, no TS pins enabled, no streaming
started or stopped. -/
def SetupCall (c : Call) : Prop := NoBridgeOrBus c ∧ c.capture = false

def Hw.Extends (allowed : Call → Prop) (hw hw' : Hw) : Prop :=
  ∃ new, hw'.log = new ++ hw.log ∧ ∀ a ∈ new, allowed a.call

section Extends

variable {allowed : Call → Prop}

theorem Hw.Extends.refl (hw : Hw) : hw.Extends allowed hw := ⟨[], rfl, fun _ mem => nomatch mem⟩

theorem Hw.Extends.trans {hw hw' hw'' : Hw} (first : hw.Extends allowed hw')
    (second : hw'.Extends allowed hw'') : hw.Extends allowed hw'' := by
  obtain ⟨new, log, ok⟩ := first
  obtain ⟨new', log', ok'⟩ := second
  refine ⟨new' ++ new, by rw [log', log, List.append_assoc], fun a mem => ?_⟩
  rcases List.mem_append.mp mem with mem | mem
  exacts [ok' a mem, ok a mem]

theorem Hw.Extends.mono {other : Call → Prop} (sub : ∀ c, allowed c → other c) {hw hw' : Hw}
    (ext : hw.Extends allowed hw') : hw.Extends other hw' :=
  have ⟨new, log, ok⟩ := ext
  ⟨new, log, fun a mem => sub _ (ok a mem)⟩

theorem Hw.extends_issue {call : Call} (ok : allowed call) (hw : Hw) :
    hw.Extends allowed (hw.issue call).2 :=
  ⟨[_], rfl, fun _ mem => List.mem_singleton.mp mem ▸ ok⟩

theorem Hw.Extends.issue {hw hw' : Hw} (ext : hw.Extends allowed hw') {call : Call}
    (ok : allowed call) : hw.Extends allowed (hw'.issue call).2 :=
  ext.trans (Hw.extends_issue ok hw')

theorem Hw.extends_issueAll {calls : List Call} (ok : ∀ c ∈ calls, allowed c) (hw : Hw) :
    hw.Extends allowed (hw.issueAll calls) := by
  induction calls generalizing hw with
  | nil => exact .refl hw
  | cons call calls ih =>
    exact (Hw.extends_issue (ok call (.head _)) hw).trans (ih (fun c mem => ok c (.tail _ mem)) _)

theorem extends_runChecked {calls : List Call} (ok : ∀ c ∈ calls, allowed c) (hw : Hw) :
    hw.Extends allowed (runChecked calls hw).2 := by
  obtain ⟨new, log, -, issued, -⟩ := runChecked_spec calls hw
  exact ⟨new, log, fun a mem => ok _ (call_mem_of_issued issued a mem)⟩

theorem Hw.Extends.ite {p : Prop} [Decidable p] {α : Type} {hw : Hw} (out : α → Hw) {x y : α}
    (hx : hw.Extends allowed (out x)) (hy : hw.Extends allowed (out y)) :
    hw.Extends allowed (out (if p then x else y)) := by
  split
  exacts [hx, hy]

theorem Hw.Extends.msleep {hw hw' : Hw} (ext : hw.Extends allowed hw') {ms : Nat}
    (ok : allowed (.msleep ms)) : hw.Extends allowed (hw'.msleep ms) :=
  ext.issue ok

theorem extends_poll {α : Type} {call : Call} {field : Reply → α} {stop : Int → α → Bool}
    (ok : allowed call) (delay : allowed (.msleep 10)) (n : Nat) (ret : Int) (out : α)
    (hw : Hw) : hw.Extends allowed (poll call field stop n ret out hw).2.2 := by
  induction n generalizing ret out hw with
  | zero => exact .refl hw
  | succ n ih =>
    simp only [poll]
    split
    · exact Hw.extends_issue ok hw
    · exact ((Hw.extends_issue ok hw).msleep delay).trans (ih ..)

theorem Hw.Extends.findSome?_log {β : Type} {f : Access → Option β}
    (quiet : ∀ a : Access, allowed a.call → f a = none) {hw hw' : Hw}
    (ext : hw.Extends allowed hw') : hw'.log.findSome? f = hw.log.findSome? f := by
  obtain ⟨new, log, ok⟩ := ext
  rw [log, List.findSome?_append,
    List.findSome?_eq_none_iff.mpr fun a mem => quiet a (ok a mem), Option.none_or]

end Extends

section Operations

theorem tuningCall_of_all {calls : List Call}
    (all : calls.all (fun c => !c.bridgeOrBus && !c.gpio && !c.chipPower && !c.capture) = true) :
    ∀ c ∈ calls, TuningCall c :=
  fun c mem => by simpa [TuningCall, SessionCall, and_assoc] using List.all_eq_true.mp all c mem

theorem noBridgeOrBus_of_all {calls : List Call}
    (all : calls.all (fun c => !c.bridgeOrBus) = true) : ∀ c ∈ calls, NoBridgeOrBus c :=
  fun c mem => by simpa [NoBridgeOrBus] using List.all_eq_true.mp all c mem

theorem setupCall_of_all {calls : List Call}
    (all : calls.all (fun c => !c.bridgeOrBus && !c.capture) = true) :
    ∀ c ∈ calls, SetupCall c :=
  fun c mem => by simpa [SetupCall, NoBridgeOrBus] using List.all_eq_true.mp all c mem

theorem tuningCall_isPllLocked (tuner : Chip) : TuningCall (.isPllLocked tuner) :=
  ⟨⟨rfl, rfl, rfl⟩, rfl⟩

theorem tuningCall_msleep (ms : Nat) : TuningCall (.msleep ms) := ⟨⟨rfl, rfl, rfl⟩, rfl⟩

theorem extends_tuneSteps {allowed : Call → Prop} {setup : List Call} {tuner : Chip}
    {afterLock : Hw → Int × Hw} (setupOk : ∀ c ∈ setup, allowed c)
    (pollOk : allowed (.isPllLocked tuner)) (delay : allowed (.msleep 10))
    (afterOk : ∀ hw : Hw, hw.Extends allowed (afterLock hw).2) (tunerLocked : Bool) (hw : Hw) :
    hw.Extends allowed (tuneSteps setup tuner afterLock tunerLocked hw).2 := by
  have setupExt := extends_runChecked setupOk hw
  have lockExt := setupExt.trans (pllLock_snd tuner (runChecked setup hw).1 tunerLocked
    (runChecked setup hw).2 ▸ extends_poll pollOk delay 50 _ _ _)
  unfold tuneSteps
  exact .ite Prod.snd setupExt (.ite Prod.snd lockExt (lockExt.trans (afterOk _)))

theorem extends_tune (params : PtxTuneParams) (tunerLocked : Bool) (hw : Hw) :
    hw.Extends TuningCall (m1urChrdevTune params tunerLocked hw).2 := by
  obtain ⟨system, freq⟩ := params
  cases system with
  | isdbT =>
    have finish : ∀ hw : Hw, hw.Extends TuningCall (runChecked tuneFinishT hw).2 :=
      extends_runChecked (tuningCall_of_all (by rfl))
    rw [tune_isdbT_eq]
    exact extends_tuneSteps (tuningCall_of_all (by rfl)) (tuningCall_isPllLocked _)
      (tuningCall_msleep _)
      (fun hw => .ite Prod.snd (finish hw) ((finish hw).msleep (tuningCall_msleep _)))
      tunerLocked hw
  | isdbS =>
    rw [tune_isdbS_eq]
    exact extends_tuneSteps (tuningCall_of_all (by rfl))
      (tuningCall_isPllLocked _) (tuningCall_msleep _)
      (fun hw => (Hw.extends_issue ⟨⟨rfl, rfl, rfl⟩, rfl⟩ hw).trans
        (extends_runChecked (tuningCall_of_all (by rfl)) _))
      tunerLocked hw
  | unspecified | other => exact .refl hw

theorem extends_setStreamId (currentSystem : PtxSystem) (streamId tsid tsid2 : UInt16) (hw : Hw) :
    hw.Extends TuningCall (m1urChrdevSetStreamId currentSystem streamId tsid tsid2 hw).2 := by
  have polled : ∀ (call : Call) (a : Access), a.call = call ∨ a.call = .msleep 10 →
      TuningCall call → TuningCall a.call := fun _ _ eq ok => by
    rcases eq with eq | eq <;> rw [eq]
    exacts [ok, tuningCall_msleep _]
  have resolved : hw.Extends TuningCall (resolveTsid streamId tsid hw).2.2 := by
    obtain ⟨slots, log, -, calls, -⟩ := resolveTsid_spec streamId tsid hw
    exact ⟨slots, log, fun a mem => polled _ a (calls a mem) ⟨⟨rfl, rfl, rfl⟩, rfl⟩⟩
  have checked : ∀ (t : UInt16) (hw' : Hw),
      hw'.Extends TuningCall (setAndCheckTsid t tsid2 hw').2 := by
    intro t hw'
    obtain ⟨checks, set, log, calls, -⟩ := setAndCheckTsid_spec t tsid2 hw'
    refine ⟨checks ++ [⟨.setTsidS t, set⟩], by simpa using log, fun a mem => ?_⟩
    rcases List.mem_append.mp mem with mem | mem
    · exact polled _ a (calls a mem) ⟨⟨rfl, rfl, rfl⟩, rfl⟩
    · rw [List.mem_singleton.mp mem]
      exact ⟨⟨rfl, rfl, rfl⟩, rfl⟩
  unfold m1urChrdevSetStreamId
  exact .ite Prod.snd (.refl hw) (.ite Prod.snd resolved (resolved.trans (checked _ _)))

theorem extends_checkLock (currentSystem : PtxSystem) (locked : Bool) (hw : Hw) :
    hw.Extends TuningCall (m1urChrdevCheckLock currentSystem locked hw).2.2 := by
  cases currentSystem
  case isdbT | isdbS => exact Hw.extends_issue ⟨⟨rfl, rfl, rfl⟩, rfl⟩ hw
  all_goals exact .refl hw

theorem extends_readCnrRaw (currentSystem : PtxSystem) (hw : Hw) :
    hw.Extends TuningCall (m1urChrdevReadCnrRaw currentSystem hw).2 := by
  cases currentSystem
  case isdbT | isdbS => exact Hw.extends_issue ⟨⟨rfl, rfl, rfl⟩, rfl⟩ hw
  all_goals exact .refl hw

theorem extends_tsPinsOff (currentSystem : PtxSystem) (hw : Hw) :
    hw.Extends SessionCall (tsPinsOff currentSystem hw) := by
  cases currentSystem
  case isdbT | isdbS => exact Hw.extends_issue ⟨rfl, rfl, rfl⟩ hw
  all_goals exact .refl hw

theorem extends_tsPinsEnable (currentSystem : PtxSystem) (hw : Hw) :
    hw.Extends SessionCall (match tsPinsCall currentSystem true with
      | some call => ((hw.issue call).1.ret, (hw.issue call).2)
      | none => ((0 : Int), hw)).2 := by
  cases currentSystem
  case isdbT | isdbS => exact Hw.extends_issue ⟨rfl, rfl, rfl⟩ hw
  all_goals exact .refl hw

theorem extends_startCapture (currentSystem : PtxSystem) (psbPurgeTimeout : Nat)
    (dev : M1urDevice) :
    dev.hw.Extends SessionCall (m1urChrdevStartCapture currentSystem psbPurgeTimeout dev).2.hw := by
  have purge : dev.hw.Extends SessionCall (dev.hw.issue (.purgePsb psbPurgeTimeout)).2 :=
    Hw.extends_issue ⟨rfl, rfl, rfl⟩ _
  have pins := purge.trans (extends_tsPinsEnable currentSystem _)
  have start := pins.issue (show SessionCall .startStreaming from ⟨rfl, rfl, rfl⟩)
  exact .ite (M1urDevice.hw ∘ Prod.snd) purge
    (.ite (M1urDevice.hw ∘ Prod.snd) (pins.trans (extends_tsPinsOff _ _))
      (.ite (M1urDevice.hw ∘ Prod.snd) (start.trans (extends_tsPinsOff _ _)) start))

theorem extends_stopCapture (currentSystem : PtxSystem) (dev : M1urDevice) :
    dev.hw.Extends SessionCall (m1urChrdevStopCapture currentSystem dev).2.hw := by
  have stop := Hw.extends_issue (show SessionCall .stopStreaming from ⟨rfl, rfl, rfl⟩) dev.hw
  unfold m1urChrdevStopCapture
  exact .ite (M1urDevice.hw ∘ Prod.snd) stop (stop.trans (extends_tsPinsOff _ _))

theorem extends_setCapture (currentSystem : PtxSystem) (psbPurgeTimeout : Nat) (status : Bool)
    (dev : M1urDevice) :
    dev.hw.Extends SessionCall
      (m1urChrdevSetCapture currentSystem psbPurgeTimeout status dev).2.hw := by
  cases status
  · exact extends_stopCapture currentSystem dev
  · exact extends_startCapture currentSystem psbPurgeTimeout dev

theorem extends_sessionStep (dev : M1urDevice) (op : SessionOp) :
    dev.hw.Extends SessionCall (sessionStep dev op).2.hw := by
  cases op with
  | setCapture currentSystem psbPurgeTimeout status =>
    exact extends_setCapture currentSystem psbPurgeTimeout status dev
  | tune params tunerLocked => exact (extends_tune params tunerLocked dev.hw).mono fun _ c => c.1
  | checkLock currentSystem locked =>
    exact (extends_checkLock currentSystem locked dev.hw).mono fun _ c => c.1
  | setStreamId currentSystem streamId tsid tsid2 =>
    exact (extends_setStreamId currentSystem streamId tsid tsid2 dev.hw).mono fun _ c => c.1
  | readCnrRaw currentSystem => exact (extends_readCnrRaw currentSystem dev.hw).mono fun _ c => c.1

theorem extends_setPower {allowed : Call → Prop}
    (gpio : ∀ line high, allowed (.writeGpio line high)) (delay : ∀ ms, allowed (.msleep ms))
    (available state : Bool) (hw : Hw) :
    hw.Extends allowed (m1urBackendSetPower available state hw).2 := by
  have low := Hw.extends_issue (gpio 3 false) hw
  have rail := (low.msleep (delay 100)).issue (gpio 2 true)
  unfold m1urBackendSetPower
  exact .ite Prod.snd (.refl hw) (.ite Prod.snd
    (.ite Prod.snd low (.ite Prod.snd rail (rail.msleep (delay 20))))
    (Hw.extends_issueAll (by simp [gpio]) hw))

theorem extends_backendTerm {allowed : Call → Prop} (ok : ∀ chip, allowed (.term chip))
    (hw : Hw) : hw.Extends allowed (m1urBackendTerm hw) :=
  Hw.extends_issueAll (by simp [ok]) hw

theorem extends_open (dev : M1urDevice) :
    dev.hw.Extends SetupCall (m1urChrdevOpen dev).2.hw := by
  have setPower : ∀ (available state : Bool) (hw : Hw),
      hw.Extends SetupCall (m1urBackendSetPower available state hw).2 :=
    extends_setPower (fun _ _ => ⟨rfl, rfl⟩) (fun _ => ⟨rfl, rfl⟩)
  have power := setPower dev.available true dev.hw
  have init : dev.hw.Extends SetupCall
      (m1urBackendInit (m1urBackendSetPower dev.available true dev.hw).2).2 :=
    power.trans (extends_runChecked (setupCall_of_all (by rfl)) _)
  have regs := Hw.Extends.issue init
    (show SetupCall (.writeMultipleRegs .tc90522T tcInitT) from ⟨rfl, rfl⟩)
  have term : ∀ hw : Hw, hw.Extends SetupCall (m1urBackendTerm hw) :=
    extends_backendTerm fun _ => ⟨rfl, rfl⟩
  have later : ∀ hw : Hw, hw.Extends SetupCall (runChecked openLater hw).2 :=
    extends_runChecked (setupCall_of_all (by rfl))
  unfold m1urChrdevOpen
  exact .ite (M1urDevice.hw ∘ Prod.snd) power
    (.ite (M1urDevice.hw ∘ Prod.snd) (init.trans (setPower _ _ _))
      (.ite (M1urDevice.hw ∘ Prod.snd) ((regs.trans (term _)).trans (setPower _ _ _))
        (.ite (M1urDevice.hw ∘ Prod.snd) (regs.trans (later _)) (regs.trans (later _)))))

theorem extends_release (dev : M1urDevice) :
    dev.hw.Extends SetupCall (m1urChrdevRelease dev).2.hw :=
  have term : ∀ hw : Hw, hw.Extends SetupCall (m1urBackendTerm hw) :=
    extends_backendTerm fun _ => ⟨rfl, rfl⟩
  have setPower : ∀ (available state : Bool) (hw : Hw),
      hw.Extends SetupCall (m1urBackendSetPower available state hw).2 :=
    extends_setPower (fun _ _ => ⟨rfl, rfl⟩) (fun _ => ⟨rfl, rfl⟩)
  (term dev.hw).trans (setPower _ _ _)

theorem extends_release_of_unavailable {dev : M1urDevice} (gone : dev.available = false) :
    dev.hw.Extends (fun c => c.gpio = false) (m1urChrdevRelease dev).2.hw := by
  simpa [m1urChrdevRelease, m1urBackendSetPower, gone] using
    @extends_backendTerm (fun c => c.gpio = false) (fun _ => rfl) dev.hw

end Operations

end PxM1ur
